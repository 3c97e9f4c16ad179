import RobotBlocks.Store.Directory
import RobotBlocks.Proofs.Store.Calls
import RobotBlocks.Proofs.Store.FileTrees

/-!
# Places of slots

Wherever the directory of a store is, the path of a slot leads from there into the directory of its
namespace and to the file of its name in it, and nowhere else.  Slots of different namespaces,
models or formats have different places.
-/

namespace RobotBlocks.Store

/-! ## Paths of slots -/

namespace Path

/-- A path without the slash at its end. -/
def unclosed (path : Path) : Path :=
  if path.isClosed then path.dropLast else path

theorem unclosed_cases (path : Path) : path = path.unclosed ∨ path = path.unclosed ++ empty := by
  unfold unclosed
  by_cases closed : path.isClosed
  · rw [if_pos closed]
    have last : path.getLast? = some [] := by simpa [isClosed] using closed
    obtain ⟨front, rfl⟩ := List.getLast?_eq_some_iff.mp last
    rw [List.dropLast_concat]
    exact .inr rfl
  · rw [if_neg closed]
    exact .inl rfl

theorem join_single (directory : Path) (name : Name) :
    directory.join [name] = directory.unclosed ++ [name] := by
  unfold join unclosed
  rw [if_neg (by simp [isRooted])]
  split <;> rfl

theorem unclosed_concat (path : Path) {name : Name} (proper : name.IsProper) :
    unclosed (path ++ [name]) = path ++ [name] := by
  unfold unclosed isClosed
  simp [proper.nonempty]

/-- A path that goes on from another one starts where that one starts. -/
theorem isRooted_unclosed_append (path : Path) {name : Name} (proper : name.IsProper)
    (rest : Path) : isRooted (path.unclosed ++ name :: rest) = path.isRooted := by
  have relative : isRooted (name :: rest) = false := by
    cases name with
    | nil => exact absurd rfl proper.nonempty
    | cons b bytes => rfl
  rcases path with _ | ⟨first, _ | ⟨second, more⟩⟩
  · exact relative
  · cases first with
    | nil => exact relative
    | cons b bytes => rfl
  · obtain ⟨inner, front⟩ : ∃ inner, unclosed (first :: second :: more) = first :: inner := by
      unfold unclosed
      split
      · exact ⟨_, rfl⟩
      · exact ⟨_, rfl⟩
    rw [front]
    cases inner <;> cases first <;> rfl

end Path

namespace Slot

theorem isFileName_space (slot : Slot) : IsFileName slot.key.space.toList :=
  isFileName_encodeName slot.space

theorem isFileName_name (slot : Slot) : IsFileName slot.key.name.toList :=
  isFileName_slotKey slot.format slot.space slot.model

/-- The directory of the namespace of a slot, if the directory of the store is at a place. -/
def parent (slot : Slot) (top : Place) : Place :=
  top ++ [nameOf slot.key.space]

/-- The file of a slot, if the directory of the store is at a place. -/
def place (slot : Slot) (top : Place) : Place :=
  slot.parent top ++ [nameOf slot.key.name]

theorem parent_eq_iff (slot other : Slot) (top : Place) :
    slot.parent top = other.parent top ↔ slot.space = other.space := by
  constructor
  · intro same
    have names := (List.append_inj_right same rfl)
    exact encodeName_injective (nameOf_injective (List.cons.inj names).1)
  · intro same
    unfold parent key slotKey
    rw [same]

theorem place_eq_iff (slot other : Slot) (top : Place) :
    slot.place top = other.place top ↔ slot = other := by
  constructor
  · intro same
    obtain ⟨directories, names⟩ := List.append_inj' same rfl
    have spaces := nameOf_injective (List.cons.inj (List.append_cancel_left directories)).1
    have files := nameOf_injective (List.cons.inj names).1
    apply key_injective
    exact SlotKey.mk.injEq .. ▸ ⟨spaces, files⟩
  · rintro rfl
    rfl

/-- The path of a slot is that of the directory of the store with two more names. -/
theorem slotPath_key (slot : Slot) (root : String) :
    slotPath root slot.key =
      (Path.ofText root).unclosed ++ [nameOf slot.key.space, nameOf slot.key.name] := by
  unfold slotPath spacePath
  rw [slot.isFileName_space.ofText, slot.isFileName_name.ofText, Path.join_single,
    Path.join_single, Path.unclosed_concat _ slot.isFileName_space.isProper, List.append_assoc]
  rfl

end Slot

/-! ## Where the directory of the store is -/

/-- A text is the path of a directory, which is at the given place. -/
def LeadsTo (root : String) (top : Place) (tree : FileTree) : Prop :=
  tree.walk (tree.start (Path.ofText root)) (Path.ofText root) = .ok (top, .directory)

theorem LeadsTo.unique {root : String} {top other : Place} {tree : FileTree}
    (leads : LeadsTo root top tree) (same : LeadsTo root other tree) : top = other :=
  (Prod.mk.inj (Except.ok.inj (leads.symm.trans same))).1

theorem LeadsTo.mono {root : String} {top : Place} {tree next : FileTree}
    (leads : LeadsTo root top tree) (home : next.home = tree.home)
    (directories : ∀ place : Place, tree.nodes[place]? = some .directory →
      next.nodes[place]? = some .directory) : LeadsTo root top next := by
  have start : next.start (Path.ofText root) = tree.start (Path.ofText root) := by
    unfold FileTree.start
    rw [home]
  unfold LeadsTo
  rw [start]
  exact FileTree.walk_mono directories leads

theorem leadsTo_iff {root : String} {top : Place} {tree : FileTree} :
    LeadsTo root top tree ↔
      tree.walk (tree.start (Path.ofText root)) (Path.ofText root).unclosed =
        .ok (top, .directory) := by
  unfold LeadsTo
  rcases (Path.ofText root).unclosed_cases with whole | whole
  · rw [← whole]
  · generalize tree.start (Path.ofText root) = start
    generalize (Path.ofText root).unclosed = front at whole
    rw [whole, FileTree.walk_append _ _ (by decide)]
    cases tree.walk start front with
    | error problem => exact Iff.rfl
    | ok found =>
        obtain ⟨place, node⟩ := found
        cases node with
        | directory => exact Iff.rfl
        | file bytes => simp

/-- A path below the directory of the store is followed from where that is. -/
theorem walk_below {root : String} {tree : FileTree} {rest : Path} (more : rest ≠ [])
    {found : Place × Node}
    (leads : tree.walk (tree.start (Path.ofText root)) ((Path.ofText root).unclosed ++ rest) =
      .ok found) :
    ∃ top, LeadsTo root top tree ∧ tree.walk top rest = .ok found := by
  rw [FileTree.walk_append _ _ more] at leads
  cases front : tree.walk (tree.start (Path.ofText root)) (Path.ofText root).unclosed with
  | error problem =>
      rw [front] at leads
      exact nomatch leads
  | ok reached =>
      obtain ⟨top, node⟩ := reached
      rw [front] at leads
      cases node with
      | directory => exact ⟨top, leadsTo_iff.mpr front, leads⟩
      | file bytes => exact nomatch leads

theorem LeadsTo.walk {root : String} {top : Place} {tree : FileTree}
    (leads : LeadsTo root top tree) {rest : Path} (more : rest ≠ []) :
    tree.walk (tree.start (Path.ofText root)) ((Path.ofText root).unclosed ++ rest) =
      tree.walk top rest := by
  rw [FileTree.walk_append _ _ more, leadsTo_iff.mp leads]

end RobotBlocks.Store
