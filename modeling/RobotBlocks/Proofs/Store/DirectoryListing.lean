import RobotBlocks.Proofs.Store.MirroredSlots

/-!
# Listing directories

The keys of a namespace are listed in the order of their bytes, from a directory as from a memory.
So a directory that mirrors a memory lists the same keys in the same order.
-/

namespace RobotBlocks.Store

open Text (fromUTF8?_eq_some)

/-! ## The order of names -/

theorem Name.compare_eq_lt {name other : Name} (less : name < other) :
    compare name other = .lt := by
  induction name generalizing other with
  | nil =>
      cases other with
      | nil => exact absurd less (List.not_lt_nil _)
      | cons b rest => rfl
  | cons a name ih =>
      cases other with
      | nil => exact absurd less (List.not_lt_nil _)
      | cons b other =>
          change List.compareLex compare (a :: name) (b :: other) = .lt
          rw [List.compareLex_cons_cons, Ordering.then_eq_lt]
          rcases List.cons_lt_cons_iff.mp less with lower | ⟨rfl, later⟩
          · exact .inl (compareOfLessAndEq_eq_lt.mpr lower)
          · exact .inr ⟨Std.ReflCmp.compare_self, ih later⟩

/-- Two names in one directory are in the order of their places. -/
theorem Name.compare_of_places {directory : Place} {name other : Name}
    (less : compare (directory ++ [name]) (directory ++ [other]) = .lt) :
    compare name other = .lt := by
  induction directory with
  | nil =>
      change List.compareLex compare [name] [other] = .lt at less
      rw [List.compareLex_cons_cons, Ordering.then_eq_lt] at less
      rcases less with lower | ⟨_, later⟩
      · exact lower
      · exact absurd later (by decide)
  | cons first directory ih =>
      change List.compareLex compare (first :: (directory ++ [name]))
        (first :: (directory ++ [other])) = .lt at less
      have here : compare first first = .eq := Std.ReflCmp.compare_self
      rw [List.compareLex_cons_cons, here] at less
      exact ih less

/-! ## The files in a directory -/

namespace FileTree

def nameIn (directory : Place) : Place × Node → Option Name := fun (place, node) =>
  match node, place.getLast? with
  | .file _, some name => if place.dropLast = directory then some name else none
  | _, _ => none

theorem fileNames_eq (tree : FileTree) (directory : Place) :
    tree.fileNames directory = tree.nodes.toList.filterMap (nameIn directory) :=
  rfl

theorem nameIn_eq_some {directory place : Place} {node : Node} {name : Name} :
    nameIn directory (place, node) = some name ↔
      place = directory ++ [name] ∧ ∃ bytes, node = .file bytes := by
  cases node with
  | directory => simp [nameIn]
  | file bytes =>
      rcases List.eq_nil_or_concat' place with rfl | ⟨front, last, rfl⟩
      · simp [nameIn]
      · simp only [nameIn, List.getLast?_concat, List.dropLast_concat,
          Option.ite_none_right_eq_some, Option.some.injEq, Node.file.injEq, exists_eq', and_true]
        constructor
        · rintro ⟨rfl, rfl⟩
          rfl
        · intro same
          obtain ⟨fronts, lasts⟩ := List.append_inj' same rfl
          exact ⟨fronts, (List.cons.inj lasts).1⟩

theorem mem_fileNames {tree : FileTree} {directory : Place} {name : Name} :
    name ∈ tree.fileNames directory ↔
      ∃ bytes, tree.nodes[directory ++ [name]]? = some (.file bytes) := by
  rw [fileNames_eq, List.mem_filterMap]
  constructor
  · rintro ⟨⟨place, node⟩, mem, named⟩
    obtain ⟨rfl, bytes, rfl⟩ := nameIn_eq_some.mp named
    exact ⟨bytes, Std.TreeMap.mem_toList_iff_getElem?_eq_some.mp mem⟩
  · rintro ⟨bytes, there⟩
    exact ⟨_, Std.TreeMap.mem_toList_iff_getElem?_eq_some.mpr there,
      nameIn_eq_some.mpr ⟨rfl, bytes, rfl⟩⟩

theorem fileNames_sorted (tree : FileTree) (directory : Place) :
    (tree.fileNames directory).Pairwise fun name other => compare name other = .lt := by
  rw [fileNames_eq]
  refine List.Pairwise.filterMap _ ?_ Std.TreeMap.ordered_keys_toList
  rintro ⟨place, node⟩ ⟨next, content⟩ less name named other listed
  obtain ⟨rfl, _⟩ := nameIn_eq_some.mp named
  obtain ⟨rfl, _⟩ := nameIn_eq_some.mp listed
  exact Name.compare_of_places less

end FileTree

/-! ## The keys of a namespace -/

/-- A key comes before another one if its name does. -/
def SlotKey.Before (key other : SlotKey) : Prop :=
  compare (nameOf key.name) (nameOf other.name) = .lt

/-- Lists of keys are the same if both are in order and have the same members. -/
theorem keys_eq_of_mem_iff {keys others : List SlotKey}
    (ordered : keys.Pairwise SlotKey.Before) (sorted : others.Pairwise SlotKey.Before)
    (same : ∀ key, key ∈ keys ↔ key ∈ others) : keys = others := by
  have different : ∀ {key other : SlotKey}, key.Before other → key ≠ other := by
    rintro key _ before rfl
    have equal : compare (nameOf key.name) (nameOf key.name) = .eq := Std.ReflCmp.compare_self
    exact nomatch equal.symm.trans before
  have perm := (List.perm_ext_iff_of_nodup (ordered.imp different) (sorted.imp different)).mpr same
  refine List.Perm.eq_of_pairwise ?_ ordered sorted perm
  intro key other _ _ before after
  exact nomatch (Std.OrientedCmp.gt_of_lt before).symm.trans after

variable {root : String} {top : Place} {tree : FileTree} {slots : Slots}

theorem spacePath_encodeName (root space : String) :
    spacePath root (encodeName space) =
      (Path.ofText root).unclosed ++ [nameOf (encodeName space)] := by
  unfold spacePath
  rw [(isFileName_encodeName space).ofText, Path.join_single]

/-- The path of the directory of a namespace leads to where that is. -/
theorem locate_spacePath {space : String} {place : Place} :
    tree.locate (spacePath root (encodeName space)) = .ok (place, .directory) ↔
      FileTree.refusal? (spacePath root (encodeName space)) = none ∧
        (nameOf (encodeName space)).length ≤ Name.longest ∧
        ∃ top, LeadsTo root top tree ∧ place = top ++ [nameOf (encodeName space)] ∧
          tree.nodes[top ++ [nameOf (encodeName space)]]? = some .directory := by
  have proper := (isFileName_encodeName space).isProper
  have located : tree.locate (spacePath root (encodeName space)) = .ok (place, .directory) ↔
      FileTree.refusal? (spacePath root (encodeName space)) = none ∧
        tree.Reaches ((Path.ofText root).unclosed ++ [nameOf (encodeName space)]) place := by
    unfold FileTree.locate FileTree.Reaches
    rw [spacePath_encodeName, FileTree.start_append tree _ proper [],
      FileTree.origin_append tree _ proper]
    cases FileTree.refusal? ((Path.ofText root).unclosed ++ [nameOf (encodeName space)]) <;> simp
  rw [located]
  refine and_congr_right fun _ => ⟨fun reaches => ?_, ?_⟩
  · obtain ⟨short, top, leads, here, there⟩ := reaches.above proper
    exact ⟨short, top, reaches_root.mp leads, here, there⟩
  · rintro ⟨short, top, leads, rfl, there⟩
    exact (reaches_root.mpr leads).concat proper short there

def keysIn (space : String) (slots : Slots) : List SlotKey :=
  slots.keys.filter fun key => key.space == encodeName space

theorem mem_keysIn {space : String} {key : SlotKey} :
    key ∈ keysIn space slots ↔
      key.space = encodeName space ∧ ∃ bytes, slots[key]? = some bytes := by
  unfold keysIn
  rw [List.mem_filter, Std.TreeMap.mem_keys, beq_iff_eq, and_comm, ← Std.TreeMap.contains_iff_mem,
    Std.TreeMap.contains_eq_isSome_getElem?, Option.isSome_iff_exists]

/-- A memory lists the keys of slots in order. -/
theorem keysIn_sorted (usable : ∀ {key bytes}, slots[key]? = some bytes → IsUsable root key)
    (space : String) : (keysIn space slots).Pairwise SlotKey.Before := by
  have ordered : (keysIn space slots).Pairwise fun key other => SlotKey.order key other = .lt :=
    Std.TreeMap.ordered_keys.sublist List.filter_sublist
  refine ordered.imp_of_mem fun {key other} mem next less => ?_
  obtain ⟨inside, bytes, held⟩ := mem_keysIn.mp mem
  obtain ⟨same, content, kept⟩ := mem_keysIn.mp next
  obtain ⟨slot, rfl, _⟩ := usable held
  obtain ⟨another, rfl, _⟩ := usable kept
  exact Name.compare_eq_lt (bytes_lt_of_small (inside.trans same.symm)
    (slotKey_small slot.format slot.space slot.model)
    (slotKey_small another.format another.space another.model) less)

/-! ## The keys of a namespace in a directory -/

/-- The key of a file in the directory of a namespace, if its name is a text. -/
def keyIn (space : String) (name : Name) : Option SlotKey :=
  (String.fromUTF8? name.toByteArray).map fun text => ⟨encodeName space, text⟩

theorem keyIn_eq_some {space : String} {name : Name} {key : SlotKey} :
    keyIn space name = some key ↔ key.space = encodeName space ∧ name = nameOf key.name := by
  unfold keyIn
  rw [Option.map_eq_some_iff]
  constructor
  · rintro ⟨text, spelled, rfl⟩
    exact ⟨rfl, fromUTF8?_eq_some.mp spelled⟩
  · rintro ⟨inside, named⟩
    exact ⟨key.name, fromUTF8?_eq_some.mpr named, by rw [← inside]⟩

theorem slotKeys_of_locate {space : String} {place : Place}
    (found : tree.locate (spacePath root (encodeName space)) = .ok (place, .directory)) :
    slotKeys root space tree = (tree.fileNames place).filterMap (keyIn space) := by
  simp only [slotKeys, found]
  rfl

theorem slotKeys_eq_nil {space : String} (lost : ∀ place,
    tree.locate (spacePath root (encodeName space)) ≠ .ok (place, .directory)) :
    slotKeys root space tree = [] := by
  rcases located : tree.locate (spacePath root (encodeName space)) with problem | ⟨place, node⟩
  · simp only [slotKeys, located]
  cases node with
  | directory => exact absurd located (lost place)
  | file bytes => simp only [slotKeys, located]

/-- A directory that mirrors a memory lists the same keys. -/
theorem Mirrors.slotKeys_eq (mirrors : Mirrors root top tree slots) (leads : LeadsTo root top tree)
    (space : String) : slotKeys root space tree = keysIn space slots := by
  by_cases there : ∃ place,
      tree.locate (spacePath root (encodeName space)) = .ok (place, .directory)
  · obtain ⟨place, found⟩ := there
    obtain ⟨_, _, other, led, rfl, _⟩ := locate_spacePath.mp found
    obtain rfl := leads.unique led
    rw [slotKeys_of_locate found]
    apply keys_eq_of_mem_iff ?_ (keysIn_sorted mirrors.usable space)
    · intro key
      rw [List.mem_filterMap, mem_keysIn]
      constructor
      · rintro ⟨name, mem, shown⟩
        obtain ⟨inside, rfl⟩ := keyIn_eq_some.mp shown
        obtain ⟨bytes, content⟩ := FileTree.mem_fileNames.mp mem
        have file := (mirrors.files space key.name).symm.trans content
        obtain ⟨held, kept, _⟩ := Option.map_eq_some_iff.mp file
        rw [← inside] at kept
        exact ⟨inside, held, kept⟩
      · rintro ⟨inside, bytes, held⟩
        refine ⟨nameOf key.name, FileTree.mem_fileNames.mpr ⟨bytes, ?_⟩,
          keyIn_eq_some.mpr ⟨inside, rfl⟩⟩
        have file := mirrors.files space key.name
        rw [← inside, held] at file
        rw [← inside]
        exact file
    · refine List.Pairwise.filterMap _ ?_ (tree.fileNames_sorted _)
      intro name other less key shown next listed
      rw [(keyIn_eq_some.mp shown).2, (keyIn_eq_some.mp listed).2] at less
      exact less
  · rw [slotKeys_eq_nil fun place found => there ⟨place, found⟩, eq_comm,
      List.eq_nil_iff_forall_not_mem]
    intro key mem
    obtain ⟨inside, bytes, held⟩ := mem_keysIn.mp mem
    obtain ⟨slot, rfl, short⟩ := mirrors.usable held
    obtain rfl : slot.space = space := encodeName_injective inside
    rcases mirrors.spaces slot.space with parent | ⟨_, none⟩
    · have allowed : FileTree.refusal? (spacePath root (encodeName slot.space)) = none := by
        rw [spacePath_encodeName]
        exact short.allowed_parent
      exact there ⟨_, locate_spacePath.mpr ⟨allowed, short.space, top, leads, rfl, parent⟩⟩
    · exact nomatch (none slot.key.name).symm.trans held

/-- A directory that starts empty lists no keys. -/
theorem IsFree.slotKeys_eq {base names : Path} {place : Place}
    (free : IsFree root base names place tree) (space : String) :
    slotKeys root space tree = [] := by
  apply slotKeys_eq_nil
  intro directory found
  obtain ⟨_, _, top, leads, _, there⟩ := locate_spacePath.mp found
  have reaches := reaches_root.mpr leads
  rw [free.path] at reaches
  cases names with
  | nil =>
      rw [List.append_nil] at reaches
      obtain ⟨rfl, _⟩ := Prod.mk.inj (Except.ok.inj (free.reaches.symm.trans reaches))
      exact nomatch (free.nothing (List.cons_ne_nil _ _) List.nil_prefix).symm.trans there
  | cons first rest =>
      obtain ⟨proper, short⟩ := free.fits first List.mem_cons_self
      have lacks : tree.Lacks base place first :=
        ⟨free.reaches, proper, short, free.nothing (List.cons_ne_nil _ _) List.prefix_rfl⟩
      unfold FileTree.Reaches at reaches
      rw [FileTree.origin_append tree base proper, FileTree.walk_append _ _ (List.cons_ne_nil _ _),
        free.reaches] at reaches
      exact nomatch (lacks.walk rest).symm.trans reaches

end RobotBlocks.Store
