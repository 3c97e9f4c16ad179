import RobotBlocks.Proofs.Store.SlotPlaces

/-!
# Slots are files

What the directory backend reads, writes or deletes for a slot is the file at the place of the slot.
A write may also make directories, but no other file changes.
-/

namespace RobotBlocks.Store

namespace Slot

/-- The path of a slot and the names in it are short enough for files. -/
structure IsShort (slot : Slot) (root : String) : Prop where
  allowed : FileTree.refusal? (slotPath root slot.key) = none
  space : (nameOf slot.key.space).length ≤ Name.longest
  name : (nameOf slot.key.name).length ≤ Name.longest

/-- There is a directory for the namespace of a slot. -/
def HasParent (slot : Slot) (top : Place) (tree : FileTree) : Prop :=
  tree.nodes[slot.parent top]? = some .directory

variable {slot : Slot} {root : String} {tree next : FileTree}

theorem start_slotPath (slot : Slot) (root : String) (tree : FileTree) :
    tree.start (slotPath root slot.key) = tree.start (Path.ofText root) := by
  unfold FileTree.start
  rw [slotPath_key, Path.isRooted_unclosed_append _ slot.isFileName_space.isProper]

/-- What the path of a slot leads to is at the place of the slot. -/
theorem locate_eq_ok {place : Place} {node : Node} :
    tree.locate (slotPath root slot.key) = .ok (place, node) ↔
      slot.IsShort root ∧ ∃ top, LeadsTo root top tree ∧ slot.HasParent top tree ∧
        place = slot.place top ∧ tree.nodes[slot.place top]? = some node := by
  have space := slot.isFileName_space.isProper
  have name := slot.isFileName_name.isProper
  have more : [nameOf slot.key.name] ≠ [] := List.cons_ne_nil _ _
  have both : [nameOf slot.key.space, nameOf slot.key.name] ≠ [] := List.cons_ne_nil _ _
  unfold FileTree.locate
  rw [slot.start_slotPath]
  constructor
  · intro found
    cases allowed : FileTree.refusal? (slotPath root slot.key) with
    | some problem =>
        rw [allowed] at found
        exact nomatch found
    | none =>
        rw [allowed, slotPath_key] at found
        obtain ⟨top, leads, inside⟩ := walk_below both found
        obtain ⟨shortSpace, parent, inside⟩ := (FileTree.walk_proper_eq_ok space more).mp inside
        obtain ⟨shortName, here, there⟩ := (FileTree.walk_last_eq_ok name).mp inside
        exact ⟨⟨allowed, shortSpace, shortName⟩, top, leads, parent, here, there⟩
  · rintro ⟨short, top, leads, parent, here, there⟩
    rw [short.allowed, slotPath_key]
    refine (leads.walk both).trans ?_
    exact (FileTree.walk_proper_eq_ok space more).mpr
      ⟨short.space, parent, (FileTree.walk_last_eq_ok name).mpr ⟨short.name, here, there⟩⟩

/-- A slot is read from the file at its place. -/
theorem readSlot_eq_some {bytes : List UInt8} :
    readSlot root slot.key tree = .ok (some bytes) ↔
      slot.IsShort root ∧ ∃ top, LeadsTo root top tree ∧ slot.HasParent top tree ∧
        tree.fileAt (slot.place top) = some bytes := by
  have located : readSlot root slot.key tree = .ok (some bytes) ↔
      ∃ place, tree.locate (slotPath root slot.key) = .ok (place, .file bytes) := by
    simp only [readSlot, FileTree.bytesAt]
    rcases tree.locate (slotPath root slot.key) with problem | ⟨place, node⟩
    · cases problem <;> simp
    · cases node <;> simp
  rw [located]
  simp only [locate_eq_ok, FileTree.fileAt_eq_some]
  constructor
  · rintro ⟨_, short, top, leads, parent, _, there⟩
    exact ⟨short, top, leads, parent, there⟩
  · rintro ⟨short, top, leads, parent, there⟩
    exact ⟨_, short, top, leads, parent, rfl, there⟩

theorem refusal?_ne_notFound (slot : Slot) (root : String) :
    FileTree.refusal? (slotPath root slot.key) ≠ some .notFound := by
  have named : slotPath root slot.key ≠ Path.empty := by
    rw [slotPath_key]
    intro same
    have lengths := congrArg List.length same
    rw [List.length_append] at lengths
    exact absurd lengths (by simp [Path.empty])
  unfold FileTree.refusal?
  rw [if_neg named]
  split
  · decide
  split
  · decide
  · decide

/-- A slot that is not there has no file at its place. -/
theorem fileAt_of_readSlot_eq_none (absent : readSlot root slot.key tree = .ok none)
    {top : Place} (leads : LeadsTo root top tree) (parent : slot.HasParent top tree) :
    tree.fileAt (slot.place top) = none := by
  have missing : tree.locate (slotPath root slot.key) = .error .notFound := by
    revert absent
    simp only [readSlot, FileTree.bytesAt]
    rcases tree.locate (slotPath root slot.key) with problem | ⟨place, node⟩
    · cases problem <;> simp
    · cases node <;> simp
  unfold FileTree.locate at missing
  rw [slot.start_slotPath] at missing
  cases allowed : FileTree.refusal? (slotPath root slot.key) with
  | some problem =>
      rw [allowed] at missing
      exact absurd (allowed.trans (congrArg some (Except.error.inj missing)))
        (slot.refusal?_ne_notFound root)
  | none =>
      rw [allowed, slotPath_key] at missing
      have inside := (leads.walk (List.cons_ne_nil _ _)).symm.trans missing
      rw [Option.eq_none_iff_forall_ne_some]
      intro bytes there
      rw [FileTree.fileAt_eq_some, place] at there
      rw [HasParent] at parent
      rw [FileTree.walk_proper tree slot.isFileName_space.isProper, ← Slot.parent,
        parent] at inside
      split at inside
      · exact nomatch inside
      simp only at inside
      rw [FileTree.walk_proper tree slot.isFileName_name.isProper, there] at inside
      split at inside
      · exact nomatch inside
      · exact nomatch inside

/-- Changes are made at the place of a slot. -/
theorem aim_eq_ok {aimed : Place × Option Name}
    (found : tree.aim (slotPath root slot.key) = .ok aimed) :
    FileTree.refusal? (slotPath root slot.key) = none ∧
      (nameOf slot.key.space).length ≤ Name.longest ∧
      ∃ top, LeadsTo root top tree ∧ slot.HasParent top tree ∧
        aimed = (slot.parent top, some (nameOf slot.key.name)) := by
  have split : slotPath root slot.key =
      ((Path.ofText root).unclosed ++ [nameOf slot.key.space]) ++ [nameOf slot.key.name] := by
    rw [slotPath_key, List.append_assoc]
    rfl
  have start := slot.start_slotPath root tree
  rw [split] at start
  rw [split, FileTree.aim_concat _ _ slot.isFileName_name.isProper, start] at found
  rw [split]
  cases allowed : FileTree.refusal? (((Path.ofText root).unclosed ++ [nameOf slot.key.space]) ++
      [nameOf slot.key.name]) with
  | some problem =>
      rw [allowed] at found
      exact nomatch found
  | none =>
      rw [allowed, List.append_assoc] at found
      obtain ⟨reached, walked, rfl⟩ := map_eq_ok.mp found
      obtain ⟨top, leads, inside⟩ := walk_below (by simp) walked
      obtain ⟨short, parent, inside⟩ :=
        (FileTree.walk_proper_eq_ok slot.isFileName_space.isProper (by decide)).mp inside
      obtain rfl := Except.ok.inj inside
      exact ⟨rfl, short, top, leads, parent, rfl⟩

/-- A file that is written for a slot is the one at its place. -/
theorem putFile_eq_ok {bytes : List UInt8}
    (written : tree.putFile (slotPath root slot.key) bytes = (.ok (), next)) :
    slot.IsShort root ∧ ∃ top, LeadsTo root top tree ∧ slot.HasParent top tree ∧
      tree.nodes[slot.place top]? ≠ some .directory ∧
      next = tree.put (slot.place top) (.file bytes) := by
  rcases tree.putFile_cases (slotPath root slot.key) bytes with
    ⟨problem, refused⟩ | ⟨_, _, aimed, short, other, put⟩
  · rw [refused] at written
    exact nomatch written
  obtain ⟨allowed, shortSpace, top, leads, parent, aim⟩ := aim_eq_ok aimed
  obtain ⟨rfl, named⟩ := Prod.mk.inj aim
  obtain rfl := Option.some.inj named
  exact ⟨⟨allowed, shortSpace, short⟩, top, leads, parent, other,
    (Prod.mk.inj (written.symm.trans put)).2⟩

/-- A write makes directories, and then the file at the place of the slot. -/
theorem writeSlot_eq_ok {bytes : List UInt8}
    (written : writeSlot root slot.key bytes tree = (.ok (), next)) :
    slot.IsShort root ∧ ∃ ready top, tree.Extends ready ∧ LeadsTo root top ready ∧
      slot.HasParent top ready ∧ ready.nodes[slot.place top]? ≠ some .directory ∧
      next = ready.put (slot.place top) (.file bytes) := by
  obtain ⟨ready, made, ⟨failure, refused⟩ | ⟨last, put, saved⟩⟩ :=
    tree.save_cases (slotPath root slot.key) bytes
  · exact nomatch written.symm.trans refused
  · obtain rfl := (Prod.mk.inj (written.symm.trans saved)).2
    obtain ⟨short, top, inside⟩ := putFile_eq_ok put
    exact ⟨short, ready, top, made, inside⟩

/-- A write that fails leaves nothing behind but directories. -/
theorem writeSlot_eq_error {bytes : List UInt8} {failure : Failure}
    (refused : writeSlot root slot.key bytes tree = (.error failure, next)) :
    tree.Extends next := by
  obtain ⟨ready, made, ⟨_, failed⟩ | ⟨last, _, saved⟩⟩ :=
    tree.save_cases (slotPath root slot.key) bytes
  · exact (Prod.mk.inj (refused.symm.trans failed)).2 ▸ made
  · exact nomatch refused.symm.trans saved

/-- A deletion removes the file at the place of the slot, or nothing changes. -/
theorem deleteSlot_cases (slot : Slot) (root : String) (tree : FileTree) :
    (∃ answer, answer ≠ .ok true ∧ deleteSlot root slot.key tree = (answer, tree)) ∨
      ∃ top, LeadsTo root top tree ∧ deleteSlot root slot.key tree =
        (.ok true, { tree with nodes := tree.nodes.erase (slot.place top) }) := by
  simp only [deleteSlot]
  rcases tree.dropFile_cases (slotPath root slot.key) with
    ⟨problem, kept⟩ | ⟨_, _, aimed, dropped⟩
  · rw [kept]
    cases problem with
    | notFound => exact .inl ⟨.ok false, by simp, rfl⟩
    | _ => exact .inl ⟨.error _, by simp, rfl⟩
  · obtain ⟨_, _, top, leads, _, aim⟩ := aim_eq_ok aimed
    obtain ⟨rfl, named⟩ := Prod.mk.inj aim
    obtain rfl := Option.some.inj named
    rw [dropped]
    exact .inr ⟨top, leads, rfl⟩

/--
A slot is a file: what is read, written or deleted for it is the file at its place below the
directory of the store, and no other file changes.
-/
structure IsFile (slot : Slot) (root : String) : Prop where
  read : ∀ {tree bytes}, (directory root).read slot.key tree = .ok (some bytes) →
    ∃ top, LeadsTo root top tree ∧ tree.fileAt (slot.place top) = some bytes
  absent : ∀ {tree top}, (directory root).read slot.key tree = .ok none →
    LeadsTo root top tree → slot.HasParent top tree → tree.fileAt (slot.place top) = none
  written : ∀ {tree bytes next}, (directory root).write slot.key bytes tree = (.ok (), next) →
    (directory root).read slot.key next = .ok (some bytes) ∧
    ∃ top, LeadsTo root top next ∧ (∀ before, LeadsTo root before tree → before = top) ∧
      next.fileAt = Function.update tree.fileAt (slot.place top) (some bytes)
  refused : ∀ {tree bytes failure next},
    (directory root).write slot.key bytes tree = (.error failure, next) →
    next.fileAt = tree.fileAt
  deleted : ∀ {tree next}, (directory root).delete slot.key tree = (.ok true, next) →
    ∃ top, LeadsTo root top tree ∧
      next.fileAt = Function.update tree.fileAt (slot.place top) none
  kept : ∀ {tree answer next}, (directory root).delete slot.key tree = (answer, next) →
    answer ≠ .ok true → next = tree

theorem isFile (slot : Slot) (root : String) : slot.IsFile root where
  read found := by
    obtain ⟨_, top, leads, _, there⟩ := readSlot_eq_some.mp found
    exact ⟨top, leads, there⟩
  absent missing leads parent := fileAt_of_readSlot_eq_none missing leads parent
  written {tree bytes next} written := by
    obtain ⟨short, ready, top, made, leads, parent, other, rfl⟩ := writeSlot_eq_ok written
    have after : LeadsTo root top (ready.put (slot.place top) (.file bytes)) :=
      leads.mono rfl fun _ there => FileTree.directory_put other bytes there
    refine ⟨?_, top, after, fun before led => ?_, ?_⟩
    · refine readSlot_eq_some.mpr ⟨short, top, after, FileTree.directory_put other bytes parent, ?_⟩
      rw [FileTree.fileAt_put, Function.update_self]
    · exact (led.mono made.home made.directories).unique leads
    · rw [FileTree.fileAt_put, made.files]
  refused refused := (writeSlot_eq_error refused).files
  deleted {tree next} deleted := by
    rcases slot.deleteSlot_cases root tree with ⟨answer, other, kept⟩ | ⟨top, leads, erased⟩
    · exact absurd (Prod.mk.inj (deleted.symm.trans kept)).1.symm other
    · obtain rfl := (Prod.mk.inj (deleted.symm.trans erased)).2
      exact ⟨top, leads, tree.fileAt_erase _⟩
  kept {tree answer next} left other := by
    rcases slot.deleteSlot_cases root tree with ⟨answer, _, kept⟩ | ⟨top, leads, erased⟩
    · exact (Prod.mk.inj (left.symm.trans kept)).2
    · exact absurd (Prod.mk.inj (left.symm.trans erased)).1 other

end Slot

/-- Slot names are file names, and every slot is a file of its own in its namespace. -/
theorem slots_are_separate_files :
    (∀ text : String,
      IsFileName (encodeName text).toList ∧ (encodeName text = "%" ↔ text = "") ∧
      (text ≠ "" → IsCoded (encodeName text).toList) ∧
      Path.ofText (encodeName text) = [nameOf (encodeName text)] ∧
      (nameOf (encodeName text)).IsProper) ∧
    (∀ slot other : Slot, slot.key = other.key ↔ slot = other) ∧
    ∀ (root : String) (slot : Slot),
      slot.IsFile root ∧ (nameOf slot.key.space).IsProper ∧ (nameOf slot.key.name).IsProper ∧
      ∀ (other : Slot) (top : Place),
        (slot.parent top = other.parent top ↔ slot.space = other.space) ∧
        (slot.place top = other.place top ↔ slot = other) := by
  refine ⟨fun text => ?_, fun slot other => ?_, fun root slot => ?_⟩
  · have named := isFileName_encodeName text
    refine ⟨named, ?_, ?_, named.ofText, named.isProper⟩
    · rcases encodeName_cases text with ⟨empty, percent⟩ | ⟨other, coded, _⟩
      · exact iff_of_true percent empty
      · exact iff_of_false coded other
    · rcases encodeName_cases text with ⟨empty, _⟩ | ⟨_, _, _, coded⟩
      · exact fun other => absurd empty other
      · exact fun _ => coded
  · exact ⟨Slot.key_injective, congrArg Slot.key⟩
  · exact ⟨slot.isFile root, slot.isFileName_space.isProper, slot.isFileName_name.isProper,
      fun other top => ⟨slot.parent_eq_iff other top, slot.place_eq_iff other top⟩⟩

theorem slots_are_separate_files_lookalikes :
    (Slot.mk .binary "u" "a").key ≠ (Slot.mk .json "u" "a.bin").key ∧
    (directory "slots").read (Slot.mk .binary "u" "a").key
      ((directory "slots").write (Slot.mk .binary "u" "a").key [1] {}).2 = .ok (some [1]) := by
  have separate := slots_are_separate_files
  have isFile := (separate.2.2 "slots" ⟨.binary, "u", "a"⟩).1
  refine ⟨fun same => absurd ((separate.2.1 _ _).mp same) (by decide), ?_⟩
  have succeeds : ((directory "slots").write (Slot.mk .binary "u" "a").key [1] {}).1.toOption =
      some () := by decide +kernel
  rcases write : (directory "slots").write (Slot.mk .binary "u" "a").key [1] {} with
    ⟨failure | done, next⟩
  · rw [write] at succeeds
    exact nomatch succeeds
  · exact (isFile.written write).1

end RobotBlocks.Store
