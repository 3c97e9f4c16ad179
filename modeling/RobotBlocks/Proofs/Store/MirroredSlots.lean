import RobotBlocks.Proofs.Store.NewDirectories
import RobotBlocks.Proofs.Store.SlotFiles

/-!
# Mirrored slots

The files below the directory of a store mirror the slots of a memory: the same keys with the same
bytes, and no other files in the directories of namespaces.  They still do when directories are made
for a namespace, and when a file is put or erased where its slot is inserted or erased.
-/

namespace RobotBlocks.Store

/-- A key of a slot whose path and names are short enough for files. -/
def IsUsable (root : String) (key : SlotKey) : Prop :=
  ∃ slot : Slot, slot.key = key ∧ slot.IsShort root

/-- A path that goes on from the directory of a store is followed from where that is. -/
theorem reaches_root {root : String} {top : Place} {tree : FileTree} :
    tree.Reaches (Path.ofText root).unclosed top ↔ LeadsTo root top tree := by
  have proper := (isFileName_encodeName "").isProper
  have origin : tree.origin (Path.ofText root).unclosed = tree.start (Path.ofText root) := by
    rw [← FileTree.start_append tree _ proper [], FileTree.start,
      Path.isRooted_unclosed_append _ proper, FileTree.start]
  rw [leadsTo_iff, FileTree.Reaches, origin]

/-! ## Slots that are there and slots that are not -/

namespace Slot

variable {slot : Slot} {root : String} {top : Place} {tree : FileTree}

theorem slotPath_concat (slot : Slot) (root : String) :
    slotPath root slot.key =
      ((Path.ofText root).unclosed ++ [nameOf slot.key.space]) ++ [nameOf slot.key.name] := by
  rw [slotPath_key, List.append_assoc, List.singleton_append]

/--
The path of a slot with short names is refused only if the path of the directory of the store is
too long itself, or has a character that no path has.
-/
theorem refusal?_slotPath (slot : Slot) (clean : ∀ name ∈ (Path.ofText root).unclosed, 0 ∉ name)
    (room : (Path.ofText root).unclosed.size + 2 * (Name.longest + 1) ≤ Path.longest)
    (space : (nameOf slot.key.space).length ≤ Name.longest)
    (name : (nameOf slot.key.name).length ≤ Name.longest) :
    FileTree.refusal? (slotPath root slot.key) = none := by
  have named : slotPath root slot.key ≠ Path.empty :=
    slot.slotPath_concat root ▸ Path.concat_ne_empty _ slot.isFileName_name.isProper
  unfold FileTree.refusal?
  rw [if_neg, if_neg named, if_neg]
  · rw [slotPath_key, Path.size_eq]
    rw [Path.size_eq] at room
    simp only [List.length_append, List.length_cons, List.length_nil, List.map_append,
      List.map_cons, List.map_nil, List.sum_append, List.sum_cons, List.sum_nil]
    omega
  · rw [slotPath_key, List.any_eq_true]
    rintro ⟨part, mem, zero⟩
    have inside : 0 ∈ part := List.contains_iff_mem.mp zero
    rcases List.mem_append.mp mem with above | last
    · exact clean part above inside
    · rcases List.mem_pair.mp last with rfl | rfl
      · exact slot.isFileName_space.isProper.noZero inside
      · exact slot.isFileName_name.isProper.noZero inside

theorem IsShort.allowed_parent (short : slot.IsShort root) :
    FileTree.refusal? ((Path.ofText root).unclosed ++ [nameOf slot.key.space]) = none := by
  apply FileTree.allowed_of_append slot.isFileName_space.isProper
  exact slotPath_key slot root ▸ short.allowed

theorem IsShort.reaches_parent (short : slot.IsShort root) (leads : LeadsTo root top tree)
    (parent : slot.HasParent top tree) :
    tree.Reaches ((Path.ofText root).unclosed ++ [nameOf slot.key.space]) (slot.parent top) :=
  (reaches_root.mpr leads).concat slot.isFileName_space.isProper short.space parent

/-- Some name on the path of a slot is not there. -/
def IsLost (slot : Slot) (root : String) (tree : FileTree) : Prop :=
  ∃ base place name rest, slotPath root slot.key = base ++ name :: rest ∧
    tree.Lacks base place name

theorem IsLost.read (lost : slot.IsLost root tree) (short : slot.IsShort root) :
    readSlot root slot.key tree = .ok none := by
  obtain ⟨base, place, name, rest, path, lacks⟩ := lost
  have missing := lacks.locate (path ▸ short.allowed)
  simp only [readSlot, FileTree.bytesAt]
  rw [path, missing]

theorem IsLost.delete (lost : slot.IsLost root tree) (short : slot.IsShort root) :
    deleteSlot root slot.key tree = (.ok false, tree) := by
  obtain ⟨base, place, name, rest, path, lacks⟩ := lost
  have allowed := short.allowed
  have kept : tree.dropFile (slotPath root slot.key) = (.error .notFound, tree) := by
    rw [path] at allowed ⊢
    unfold FileTree.dropFile
    rcases List.eq_nil_or_concat' rest with rfl | ⟨between, last, rfl⟩
    · rw [lacks.reaches.aim lacks.proper allowed]
      simp only
      rw [if_neg (Nat.not_lt.mpr lacks.short), lacks.nothing]
    · have same : last = nameOf slot.key.name := by
        rw [slotPath_concat, ← List.cons_append, ← List.append_assoc] at path
        exact (List.cons.inj (List.append_inj_right' path rfl)).1.symm
      rw [lacks.aim (same ▸ slot.isFileName_name.isProper) allowed]
  simp only [deleteSlot]
  rw [kept]

/-- A slot that is there is deleted by removing its file. -/
theorem IsShort.delete_file (short : slot.IsShort root) (leads : LeadsTo root top tree)
    (parent : slot.HasParent top tree) {bytes : List UInt8}
    (there : tree.nodes[slot.place top]? = some (.file bytes)) :
    deleteSlot root slot.key tree =
      (.ok true, { tree with nodes := tree.nodes.erase (slot.place top) }) := by
  have proper := slot.isFileName_name.isProper
  have whole := slot.slotPath_concat root
  have aimed := (short.reaches_parent leads parent).aim proper (whole ▸ short.allowed)
  have dropped : tree.dropFile (slotPath root slot.key) =
      (.ok (), { tree with nodes := tree.nodes.erase (slot.place top) }) := by
    unfold FileTree.dropFile
    rw [whole, aimed]
    simp only
    rw [if_neg (Nat.not_lt.mpr short.name), ← place, there, Path.isClosed_concat _ proper]
    rfl
  simp only [deleteSlot]
  rw [dropped]

end Slot

/-! ## Directories that mirror a memory -/

/-- Where the file for a key is, if the directory of the store is at a place. -/
def SlotKey.place (key : SlotKey) (top : Place) : Place :=
  top ++ [nameOf key.space] ++ [nameOf key.name]

theorem SlotKey.place_eq_iff (key other : SlotKey) (top : Place) :
    key.place top = other.place top ↔ SlotKey.order other key = .eq := by
  rw [Std.LawfulEqCmp.compare_eq_iff_eq]
  constructor
  · intro same
    obtain ⟨directories, names⟩ := List.append_inj' same rfl
    have spaces := nameOf_injective (List.cons.inj (List.append_cancel_left directories)).1
    have files := nameOf_injective (List.cons.inj names).1
    exact SlotKey.mk.injEq .. ▸ ⟨spaces.symm, files.symm⟩
  · rintro rfl
    rfl

/-- The files below a place are the slots of a memory, each in the directory of its namespace. -/
structure Mirrors (root : String) (top : Place) (tree : FileTree) (slots : Slots) : Prop where
  usable : ∀ {key bytes}, slots[key]? = some bytes → IsUsable root key
  spaces : ∀ space : String, tree.nodes[top ++ [nameOf (encodeName space)]]? = some .directory ∨
    tree.nodes[top ++ [nameOf (encodeName space)]]? = none ∧
      ∀ name, slots[SlotKey.mk (encodeName space) name]? = none
  files : ∀ space name : String,
    tree.nodes[SlotKey.place ⟨encodeName space, name⟩ top]? =
      slots[SlotKey.mk (encodeName space) name]?.map Node.file

namespace Mirrors

variable {root : String} {top place : Place} {names : Path} {tree next : FileTree} {slots : Slots}
  {slot : Slot}

/-- New directories on the way to a namespace leave the files as they are. -/
theorem grow (mirrors : Mirrors root (place ++ names) tree slots)
    (grows : tree.Grows place (names ++ [nameOf slot.key.space]) next) :
    Mirrors root (place ++ names) next slots := by
  have inside (space : String) (name : Name) :
      next.nodes[place ++ names ++ [nameOf (encodeName space)] ++ [name]]? =
        tree.nodes[place ++ names ++ [nameOf (encodeName space)] ++ [name]]? := by
    have outside : ¬FileTree.Along place (names ++ [nameOf slot.key.space])
        (place ++ (names ++ [nameOf (encodeName space)] ++ [name])) := by
      intro along
      have shorter := (FileTree.along_append.mp along).2.length_le
      simp only [List.length_append, List.length_singleton] at shorter
      omega
    have same := grows.elsewhere outside
    simp only [← List.append_assoc] at same
    exact same
  refine ⟨mirrors.usable, fun space => ?_, fun space name => ?_⟩
  · rw [List.append_assoc]
    by_cases same : nameOf (encodeName space) = nameOf slot.key.space
    · refine .inl (grows.along (FileTree.along_append.mpr ⟨List.concat_ne_nil _ _, ?_⟩))
      rw [same]
    · have outside : ¬FileTree.Along place (names ++ [nameOf slot.key.space])
          (place ++ (names ++ [nameOf (encodeName space)])) := by
        intro along
        have inside := (List.prefix_append_right_inj names).mp (FileTree.along_append.mp along).2
        exact same (List.cons_prefix_cons.mp inside).1
      rw [grows.elsewhere outside, ← List.append_assoc]
      exact mirrors.spaces space
  · exact (inside space _).trans (mirrors.files space name)

/-- The file of a slot is put into the directory of its namespace. -/
theorem put (mirrors : Mirrors root top tree slots) (short : slot.IsShort root)
    (parent : slot.HasParent top tree) (bytes : List UInt8) :
    Mirrors root top (tree.put (slot.key.place top) (.file bytes))
      (slots.insert slot.key bytes) where
  usable {key content} found := by
    rw [Std.TreeMap.getElem?_insert] at found
    by_cases same : SlotKey.order slot.key key = .eq
    · exact ⟨slot, Std.LawfulEqCmp.compare_eq_iff_eq.mp same, short⟩
    · rw [if_neg same] at found
      exact mirrors.usable found
  spaces space := by
    have elsewhere : top ++ [nameOf (encodeName space)] ≠ slot.key.place top := by
      intro same
      exact absurd (congrArg List.length same) (by simp [SlotKey.place])
    rw [FileTree.getElem?_put, if_neg elsewhere]
    rcases mirrors.spaces space with made | ⟨nothing, others⟩
    · exact .inl made
    refine .inr ⟨nothing, fun name => ?_⟩
    rw [Std.TreeMap.getElem?_insert, if_neg]
    · exact others name
    · intro same
      have spaces := congrArg SlotKey.space (Std.LawfulEqCmp.compare_eq_iff_eq.mp same)
      rw [Slot.HasParent, Slot.parent, spaces, nothing] at parent
      cases parent
  files space name := by
    rw [FileTree.getElem?_put, Std.TreeMap.getElem?_insert]
    by_cases same : SlotKey.order slot.key ⟨encodeName space, name⟩ = .eq
    · rw [if_pos ((SlotKey.place_eq_iff _ _ top).mpr same), if_pos same, Option.map_some]
    · rw [if_neg (mt (SlotKey.place_eq_iff _ _ top).mp same), if_neg same]
      exact mirrors.files space name

/-- The file of a slot is removed. -/
theorem erase (mirrors : Mirrors root top tree slots) (slot : Slot) :
    Mirrors root top { tree with nodes := tree.nodes.erase (slot.key.place top) }
      (slots.erase slot.key) where
  usable {key bytes} found := by
    rw [Std.TreeMap.getElem?_erase] at found
    split at found
    · exact nomatch found
    · exact mirrors.usable found
  spaces space := by
    have elsewhere : ¬compare (slot.key.place top) (top ++ [nameOf (encodeName space)]) = .eq := by
      intro same
      exact absurd (congrArg List.length (Std.LawfulEqCmp.compare_eq_iff_eq.mp same))
        (by simp [SlotKey.place])
    simp only
    rw [Std.TreeMap.getElem?_erase, if_neg elsewhere]
    refine (mirrors.spaces space).imp_right fun ⟨nothing, others⟩ => ⟨nothing, fun name => ?_⟩
    rw [Std.TreeMap.getElem?_erase, others name, ite_self]
  files space name := by
    simp only
    rw [Std.TreeMap.getElem?_erase, Std.TreeMap.getElem?_erase]
    by_cases same : SlotKey.order slot.key ⟨encodeName space, name⟩ = .eq
    · have places := (SlotKey.place_eq_iff _ _ top).mpr same
      rw [if_pos (Std.LawfulEqCmp.compare_eq_iff_eq.mpr places.symm), if_pos same, Option.map_none]
    · have places := mt (SlotKey.place_eq_iff _ _ top).mp same
      rw [if_neg fun equal => places (Std.LawfulEqCmp.compare_eq_iff_eq.mp equal).symm, if_neg same]
      exact mirrors.files space name

theorem congr {others : Slots} (mirrors : Mirrors root top tree slots)
    (same : ∀ key : SlotKey, others[key]? = slots[key]?) : Mirrors root top tree others where
  usable {key bytes} found := mirrors.usable ((same key).symm.trans found)
  spaces space := by
    simp only [same]
    exact mirrors.spaces space
  files space name := by
    rw [same]
    exact mirrors.files space name

end Mirrors

/-! ## Directories that start empty -/

/--
The directory of a store is nowhere yet: the last names of its path are to be made below a place,
and nothing is where they are going to be.  If there are no such names, the directory is there and
has nothing in it.
-/
structure IsFree (root : String) (base names : Path) (place : Place) (tree : FileTree) : Prop where
  path : (Path.ofText root).unclosed = base ++ names
  reaches : tree.Reaches base place
  fits : ∀ name ∈ names, name.IsProper ∧ name.length ≤ Name.longest
  nothing : ∀ {below}, below ≠ [] → names.take 1 <+: below → tree.nodes[place ++ below]? = none

/-- The directory of a store is empty, or it is not there and can be made. -/
def StartsEmpty (root : String) (tree : FileTree) : Prop :=
  ∃ base names place, IsFree root base names place tree

/-- A directory with nothing in it is one that the slots of a store can go to. -/
theorem startsEmpty_of_leadsTo {root : String} {top : Place} {tree : FileTree}
    (leads : LeadsTo root top tree)
    (nothing : ∀ {below : Place}, below ≠ [] → tree.nodes[top ++ below]? = none) :
    StartsEmpty root tree :=
  ⟨(Path.ofText root).unclosed, [], top, (List.append_nil _).symm, reaches_root.mpr leads, nofun,
    fun filled _ => nothing filled⟩

namespace IsFree

variable {root : String} {base names : Path} {place : Place} {tree : FileTree} {slots : Slots}
  {slot : Slot}

theorem nothing_below (free : IsFree root base names place tree) {below : Place}
    (filled : below ≠ []) : tree.nodes[place ++ (names ++ below)]? = none := by
  apply free.nothing (List.append_ne_nil_of_right_ne_nil names filled)
  exact (List.take_prefix 1 names).trans (List.prefix_append names below)

/-- A directory with nothing in it mirrors an empty memory. -/
theorem mirrors (free : IsFree root base names place tree)
    (empty : ∀ key : SlotKey, slots[key]? = none) : Mirrors root (place ++ names) tree slots where
  usable {key bytes} found := nomatch (empty key).symm.trans found
  spaces space := by
    rw [List.append_assoc]
    exact .inr ⟨free.nothing_below (List.cons_ne_nil _ _), fun name => empty _⟩
  files space name := by
    unfold SlotKey.place
    rw [empty, List.append_assoc, List.append_assoc]
    exact free.nothing_below (List.cons_ne_nil _ _)

theorem vacant (free : IsFree root base names place tree) (short : slot.IsShort root) :
    tree.Vacant place (names ++ [nameOf slot.key.space]) where
  fits name mem := by
    rcases List.mem_append.mp mem with earlier | last
    · exact free.fits name earlier
    · obtain rfl := List.mem_singleton.mp last
      exact ⟨slot.isFileName_space.isProper, short.space⟩
  nothing := by
    rintro _ ⟨front, filled, inside, rfl⟩
    apply free.nothing filled
    cases front with
    | nil => exact absurd rfl filled
    | cons first more =>
        cases names with
        | nil => exact List.nil_prefix
        | cons name rest =>
            obtain ⟨rfl, _⟩ := List.cons_prefix_cons.mp inside
            exact List.cons_prefix_cons.mpr ⟨rfl, List.nil_prefix⟩

theorem lost (free : IsFree root base names place tree) (short : slot.IsShort root) :
    slot.IsLost root tree := by
  have vacant := free.vacant short
  obtain ⟨first, rest, split⟩ :=
    List.exists_cons_of_ne_nil (List.concat_ne_nil (nameOf slot.key.space) names)
  rw [split] at vacant
  refine ⟨base, place, first, rest ++ [nameOf slot.key.name], ?_, vacant.lacks free.reaches⟩
  rw [slot.slotPath_concat, free.path, List.append_assoc base, split, List.append_assoc,
    List.cons_append]

end IsFree

end RobotBlocks.Store
