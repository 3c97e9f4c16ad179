import RobotBlocks.Proofs.Store.DirectoryListing
import RobotBlocks.Proofs.Store.Refinement

/-!
# The directory backend refines the memory

As long as the names of slots are short enough for files, a store over a directory that starts empty
and a store over a memory that starts empty cannot be told apart: every save, load, removal and
listing gets the same answer.  The directory may be there from the start or come into being with
the first save.
-/

namespace RobotBlocks.Store

/-! ## The same slots in a directory and in a memory -/

/--
The slots below the directory of a store are those of a memory; as long as there are none, the
directory does not have to be there.
-/
inductive Matches (root : String) (tree : FileTree) (slots : Slots) : Prop where
  | free (starts : StartsEmpty root tree) (empty : ∀ key : SlotKey, slots[key]? = none)
  | there {top : Place} (leads : LeadsTo root top tree) (mirrors : Mirrors root top tree slots)

namespace Matches

variable {root : String} {tree : FileTree} {slots : Slots} {slot : Slot}

theorem congr {others : Slots} (same : Matches root tree slots)
    (equal : ∀ key : SlotKey, others[key]? = slots[key]?) : Matches root tree others := by
  cases same with
  | free starts empty => exact .free starts fun key => (equal key).trans (empty key)
  | there leads mirrors => exact .there leads (mirrors.congr equal)

/-- A slot is in neither of the two, or in both with the same bytes. -/
theorem slot_cases (same : Matches root tree slots) (short : slot.IsShort root) :
    (slot.IsLost root tree ∧ slots[slot.key]? = none) ∨
      ∃ top bytes, LeadsTo root top tree ∧ Mirrors root top tree slots ∧
        slot.HasParent top tree ∧ tree.nodes[slot.place top]? = some (.file bytes) ∧
        slots[slot.key]? = some bytes := by
  cases same with
  | free starts empty =>
      obtain ⟨base, names, place, free⟩ := starts
      exact .inl ⟨free.lost short, empty _⟩
  | @there top leads mirrors =>
      have file : tree.nodes[slot.place top]? = slots[slot.key]?.map Node.file :=
        mirrors.files slot.space slot.key.name
      rcases mirrors.spaces slot.space with parent | ⟨missing, others⟩
      · have reaches := short.reaches_parent leads parent
        cases held : slots[slot.key]? with
        | some bytes =>
            rw [held] at file
            exact .inr ⟨top, bytes, leads, mirrors, parent, file, rfl⟩
        | none =>
            rw [held] at file
            have lacks : tree.Lacks _ _ (nameOf slot.key.name) :=
              ⟨reaches, slot.isFileName_name.isProper, short.name, file⟩
            exact .inl ⟨⟨_, _, _, [], slot.slotPath_concat root, lacks⟩, rfl⟩
      · have lacks : tree.Lacks _ _ (nameOf slot.key.space) :=
          ⟨reaches_root.mpr leads, slot.isFileName_space.isProper, short.space, missing⟩
        exact .inl ⟨⟨_, _, _, [nameOf slot.key.name], slot.slotPath_key root, lacks⟩,
          others slot.key.name⟩

theorem read (same : Matches root tree slots) (short : slot.IsShort root) :
    readSlot root slot.key tree = .ok slots[slot.key]? := by
  rcases same.slot_cases short with ⟨lost, empty⟩ | ⟨top, bytes, leads, _, parent, there, held⟩
  · rw [lost.read short, empty]
  · rw [held]
    exact Slot.readSlot_eq_some.mpr
      ⟨short, top, leads, parent, FileTree.fileAt_eq_some.mpr there⟩

theorem delete (same : Matches root tree slots) (short : slot.IsShort root) :
    (deleteSlot root slot.key tree).1 = .ok (slots.contains slot.key) ∧
      Matches root (deleteSlot root slot.key tree).2 (slots.erase slot.key) := by
  rw [Std.TreeMap.contains_eq_isSome_getElem?]
  rcases same.slot_cases short with ⟨lost, empty⟩ |
    ⟨top, bytes, leads, mirrors, parent, there, held⟩
  · rw [lost.delete short, empty]
    refine ⟨rfl, same.congr fun key => ?_⟩
    rw [Std.TreeMap.getElem?_erase]
    split
    · rename_i equal
      rw [← Std.LawfulEqCmp.compare_eq_iff_eq.mp equal, empty]
    · rfl
  · rw [short.delete_file leads parent there, held]
    have remains : LeadsTo root top { tree with nodes := tree.nodes.erase (slot.place top) } :=
      leads.mono rfl fun _ above => FileTree.directory_erase (by simp [there]) above
    exact ⟨rfl, .there remains (mirrors.erase slot)⟩

/-- The directory of a namespace can be made whenever a slot of it is written. -/
theorem prepare (same : Matches root tree slots) (short : slot.IsShort root) :
    ∃ ready top, tree.makeDirectories
        ((Path.ofText root).unclosed ++ [nameOf slot.key.space]) = (.ok (), ready) ∧
      LeadsTo root top ready ∧ slot.HasParent top ready ∧ Mirrors root top ready slots := by
  have proper := slot.isFileName_space.isProper
  have new {base names : Path} {place : Place} (path : (Path.ofText root).unclosed = base ++ names)
      (reaches : tree.Reaches base place)
      (vacant : tree.Vacant place (names ++ [nameOf slot.key.space]))
      (mirrors : Mirrors root (place ++ names) tree slots) :
      ∃ ready top, tree.makeDirectories
          ((Path.ofText root).unclosed ++ [nameOf slot.key.space]) = (.ok (), ready) ∧
        LeadsTo root top ready ∧ slot.HasParent top ready ∧ Mirrors root top ready slots := by
    have allowed := short.allowed_parent
    rw [path, List.append_assoc] at allowed
    obtain ⟨ready, made, grows, reached⟩ :=
      FileTree.makeDirectories_grows reaches (List.concat_ne_nil _ _) vacant allowed
    rw [← List.append_assoc] at made reached
    rw [← path] at made reached
    obtain ⟨_, top, front, here, parent⟩ := reached.above proper
    rw [← List.append_assoc] at here
    obtain rfl := List.append_inj_left' here rfl
    exact ⟨ready, _, made, reaches_root.mp front, parent, mirrors.grow grows⟩
  cases same with
  | free starts empty =>
      obtain ⟨base, names, place, free⟩ := starts
      exact new free.path free.reaches (free.vacant short) (free.mirrors empty)
  | @there top leads mirrors =>
      rcases mirrors.spaces slot.space with parent | ⟨missing, _⟩
      · have made := FileTree.makeDirectories_there (reaches_root.mpr leads) proper
          short.space short.allowed_parent parent
        exact ⟨tree, top, made, leads, parent, mirrors⟩
      · have lacks : tree.Lacks _ _ (nameOf slot.key.space) :=
          ⟨reaches_root.mpr leads, proper, short.space, missing⟩
        rw [← List.append_nil top] at mirrors
        exact new (List.append_nil _).symm lacks.reaches lacks.vacant mirrors

theorem write (same : Matches root tree slots) (short : slot.IsShort root) (bytes : List UInt8) :
    (writeSlot root slot.key bytes tree).1 = .ok () ∧
      Matches root (writeSlot root slot.key bytes tree).2 (slots.insert slot.key bytes) := by
  have proper := slot.isFileName_name.isProper
  obtain ⟨ready, top, made, leads, parent, mirrors⟩ := same.prepare short
  have file : ready.nodes[slot.place top]? = slots[slot.key]?.map Node.file :=
    mirrors.files slot.space slot.key.name
  have other : ready.nodes[slot.place top]? ≠ some .directory := by
    rw [file]
    cases slots[slot.key]? <;> simp
  have allowed := short.allowed
  rw [slot.slotPath_key] at allowed
  have saved : writeSlot root slot.key bytes tree =
      (.ok (), ready.put (slot.place top) (.file bytes)) := by
    unfold writeSlot
    rw [slot.slotPath_key]
    exact FileTree.save_eq_ok slot.isFileName_space.isProper made
      (short.reaches_parent leads parent) proper short.name allowed other
  rw [saved]
  have remains : LeadsTo root top (ready.put (slot.place top) (.file bytes)) :=
    leads.mono rfl fun _ above => FileTree.directory_put other bytes above
  exact ⟨rfl, .there remains (mirrors.put short parent bytes)⟩

theorem keys (same : Matches root tree slots) (space : String) :
    slotKeys root space tree = keysIn space slots := by
  cases same with
  | free starts empty =>
      obtain ⟨base, names, place, free⟩ := starts
      rw [free.slotKeys_eq space, eq_comm, List.eq_nil_iff_forall_not_mem]
      intro key mem
      obtain ⟨_, bytes, held⟩ := mem_keysIn.mp mem
      exact nomatch (empty key).symm.trans held
  | there leads mirrors => exact mirrors.slotKeys_eq leads space

theorem usable (same : Matches root tree slots) {key : SlotKey} {bytes : List UInt8}
    (held : slots[key]? = some bytes) : IsUsable root key := by
  cases same with
  | free starts empty => exact nomatch (empty key).symm.trans held
  | there leads mirrors => exact mirrors.usable held

end Matches

/-! ## The refinement -/

theorem directory_refines (root : String) :
    (directory root).Refines memory (IsUsable root) (Matches root) where
  read := by
    rintro _ tree slots ⟨slot, rfl, short⟩ same
    exact same.read short
  write := by
    rintro _ tree slots bytes ⟨slot, rfl, short⟩ same
    exact same.write short bytes
  delete := by
    rintro _ tree slots ⟨slot, rfl, short⟩ same
    exact same.delete short
  keys {space tree slots} same := congrArg Except.ok (same.keys space)
  listed {space tree slots keys} same listed key mem := by
    obtain rfl : keysIn space slots = keys := Except.ok.inj listed
    obtain ⟨_, bytes, held⟩ := mem_keysIn.mp mem
    exact same.usable held

/--
Stores over a directory that starts empty answer every call as stores over a memory that starts
empty do, listings and their order included.  The names of the slots that are saved, loaded and
removed must not be longer than names of files, and nor must their paths, which they are not if the
path of the directory leaves room for two such names.
-/
theorem directory_answers_as_memory {root : String} {tree : FileTree}
    (starts : StartsEmpty root tree) {calls : List Call}
    (names : ∀ call ∈ calls, ∀ slot ∈ call.slot?,
      (nameOf slot.key.space).length ≤ Name.longest ∧ (nameOf slot.key.name).length ≤ Name.longest)
    (paths : ∀ call ∈ calls, ∀ slot ∈ call.slot?,
      FileTree.refusal? (slotPath root slot.key) = none) :
    answers (directory root) calls tree = answers memory calls ∅ := by
  have same : Matches root tree ∅ := .free starts fun _ => Std.TreeMap.getElem?_emptyc
  apply (directory_refines root).answers same
  intro call mem slot inside
  obtain ⟨space, name⟩ := names call mem slot inside
  exact ⟨slot, rfl, paths call mem slot inside, space, name⟩

theorem directory_answers_as_memory_lookalikes :
    answers (directory "diagrams") (lookalikes ++ [.list .json "u", .load ⟨.binary, "u", "m"⟩]) {} =
        answers memory (lookalikes ++ [.list .json "u", .load ⟨.binary, "u", "m"⟩]) ∅ ∧
      answers (directory "") lookalikes {} = answers memory lookalikes ∅ := by
  constructor
  · have free : IsFree "diagrams" [] [nameOf "diagrams"] [] {} := by
      refine ⟨by decide +kernel, rfl, ?_, fun _ _ => Std.TreeMap.getElem?_emptyc⟩
      intro name mem
      obtain rfl := List.mem_singleton.mp mem
      exact ⟨⟨by decide +kernel, by decide +kernel, by decide +kernel, by decide +kernel⟩,
        by decide +kernel⟩
    have names : ∀ call ∈ lookalikes ++ [.list .json "u", .load ⟨.binary, "u", "m"⟩],
        ∀ slot ∈ call.slot?, (nameOf slot.key.space).length ≤ Name.longest ∧
          (nameOf slot.key.name).length ≤ Name.longest := by
      decide +kernel
    apply directory_answers_as_memory ⟨_, _, _, free⟩ names
    intro call mem slot inside
    obtain ⟨space, name⟩ := names call mem slot inside
    exact slot.refusal?_slotPath (by decide +kernel) (by decide +kernel) space name
  · have leads : LeadsTo "" [] {} := by
      have here : Path.ofText "" = Path.empty := by decide +kernel
      rw [LeadsTo, here]
      rfl
    have starts : StartsEmpty "" {} :=
      startsEmpty_of_leadsTo leads fun _ => Std.TreeMap.getElem?_emptyc
    exact directory_answers_as_memory starts (by decide +kernel) (by decide +kernel)

end RobotBlocks.Store
