import RobotBlocks.Proofs.Block.Diagram
import RobotBlocks.Proofs.Json.Accepted

/-!
# Accepted diagrams

Whatever a reader of diagrams takes, however it is written, can be written again and read back: all
its numbers are finite, and its own document opens no more arrays and objects than may be open.
-/

namespace RobotBlocks

open Json (Value Reader Takes)
open Json.Reader (takes_array takes_boolean takes_object takes_real takes_record takes_refuse
  takes_slot takes_tagged takes_text)

/-! ## Fields -/

theorem FieldValue.takes_reader {ε : Type} :
    Takes (reader : Reader ε FieldValue) fun value => value.isFinite = true := by
  refine takes_tagged fun tag => ?_
  split
  · exact takes_boolean.map fun _ => rfl
  · split
    · exact takes_real.map id
    · split
      · exact takes_text.map fun _ => rfl
      · exact takes_refuse _

theorem Fields.takes_reader {ε : Type} {value : Reader ε FieldValue} {good : FieldValue → Prop}
    (takes : Takes value good) :
    Takes (reader value) fun fields => ∀ entry ∈ fields.entries, good entry.2 := by
  refine (takes_object takes).map ?_
  intro entries hold entry mem
  exact hold entry ((entries_ofList entries).1 entry mem)

namespace Block

theorem takes_fieldsReader (depth : ℕ) :
    Takes (fieldsReader depth) fun fields =>
      fields.isFinite = true ∧ fields.toJson.nesting ≤ depth := by
  match depth with
  | 0 => exact takes_refuse _
  | 1 =>
      intro tokens fields rest read
      obtain ⟨none, closed⟩ := Fields.takes_reader (takes_refuse fun _ => False) _ _ _ read
      have empty : fields.entries = [] := List.eq_nil_iff_forall_not_mem.mpr none
      refine ⟨⟨?_, ?_⟩, closed⟩
      · rw [Fields.isFinite, empty]
        rfl
      · rw [Fields.nesting_toJson, empty]
        exact Nat.le_refl _
  | depth + 2 =>
      intro tokens fields rest read
      obtain ⟨finite, closed⟩ := Fields.takes_reader FieldValue.takes_reader _ _ _ read
      refine ⟨⟨List.all_eq_true.mpr finite, ?_⟩, closed⟩
      rw [Fields.nesting_toJson]
      split <;> omega

/-! ## Blocks -/

/-- What a draft holds so far can be read back inside a block. -/
structure Draft.IsReadable (depth : ℕ) (draft : Draft) : Prop where
  fields : ∀ fields ∈ draft.fields, fields.isFinite = true ∧ fields.toJson.nesting ≤ depth + 1
  children : ∀ children ∈ draft.children, ∀ child ∈ children, child.isReadable depth = true

/-- What a block leaves out is written out when the block is, and always fits into it. -/
theorem isReadable_of_draft {depth : ℕ} {draft : Draft} (readable : draft.IsReadable depth)
    {block : Block} (made : ofDraft? draft = some block) : block.isReadable (depth + 2) = true := by
  obtain ⟨id, blockType, fields, children⟩ := draft
  obtain ⟨id, rfl, made⟩ := Option.bind_eq_some_iff.mp made
  obtain ⟨blockType, rfl, made⟩ := Option.bind_eq_some_iff.mp made
  cases made
  have finite : (fields.getD .empty).isFinite = true ∧
      (fields.getD .empty).toJson.nesting ≤ depth + 1 := by
    cases fields with
    | none => exact ⟨rfl, Nat.le_add_left 1 depth⟩
    | some fields => exact readable.fields fields rfl
  have inner : (children.getD []).all (isReadable depth) = true := by
    cases children with
    | none => rfl
    | some children => exact List.all_eq_true.mpr (readable.children children rfl)
  rw [all_isReadable, Bool.and_eq_true, decide_eq_true_eq] at inner
  rw [isReadable_succ]
  simp only [Bool.and_eq_true, decide_eq_true_eq]
  exact ⟨finite, inner.1, Nat.succ_le_succ inner.2⟩

theorem takes_slots {depth : ℕ} {fields : Reader Empty Fields}
    {children : Reader Empty (List Block)}
    (takesFields : Takes fields fun fields =>
      fields.isFinite = true ∧ fields.toJson.nesting ≤ depth + 1)
    (takesChildren : Takes children fun children =>
      ∀ child ∈ children, child.isReadable depth = true) :
    ∀ slot ∈ slots fields children, slot.Takes (Draft.IsReadable depth) := by
  unfold slots
  simp only [List.forall_mem_cons]
  refine ⟨takes_slot takes_text ?_, takes_slot takes_text ?_, takes_slot takesFields ?_,
    takes_slot takesChildren ?_, List.forall_mem_nil _⟩
  · exact fun readable _ => ⟨readable.fields, readable.children⟩
  · exact fun readable _ => ⟨readable.fields, readable.children⟩
  · intro draft fields readable fine
    refine ⟨?_, readable.children⟩
    rintro _ ⟨⟩
    exact fine
  · intro draft children readable fine
    refine ⟨readable.fields, ?_⟩
    rintro _ ⟨⟩
    exact fine

/--
The readers for an odd number of levels take a block that leaves out its fields and its children
where there is no room to write them; no document is read with one of them.
-/
theorem takes_reader (level : ℕ) :
    Takes (reader (2 * level)) fun block => block.isReadable (2 * level) = true := by
  induction level with
  | zero => exact takes_refuse _
  | succ level ih =>
      have slots := takes_slots (takes_fieldsReader (2 * level + 1)) (takes_array ih)
      have empty : ({} : Draft).IsReadable (2 * level) := ⟨nofun, nofun⟩
      rw [Nat.mul_succ]
      exact (takes_record slots empty).filterMap fun readable made =>
        isReadable_of_draft readable made

end Block

namespace Diagram

def Draft.IsReadable (depth : ℕ) (draft : Draft) : Prop :=
  ∀ blocks ∈ draft.blocks, ∀ block ∈ blocks, block.isReadable depth = true

theorem takes_slots {depth : ℕ} {blocks : Reader Empty (List Block)}
    (takes : Takes blocks fun blocks => ∀ block ∈ blocks, block.isReadable depth = true) :
    ∀ slot ∈ slots blocks, slot.Takes (Draft.IsReadable depth) := by
  refine List.forall_mem_singleton.mpr (takes_slot takes ?_)
  intro draft blocks readable fine
  rintro _ ⟨⟩
  exact fine

theorem isReadable_of_draft {depth : ℕ} {draft : Draft} (readable : draft.IsReadable depth) :
    (⟨draft.blocks.getD []⟩ : Diagram).isFinite = true ∧
      (⟨draft.blocks.getD []⟩ : Diagram).toJson.nesting ≤ depth + 2 := by
  obtain ⟨blocks⟩ := draft
  have all : (blocks.getD []).all (Block.isReadable depth) = true := by
    cases blocks with
    | none => rfl
    | some blocks => exact List.all_eq_true.mpr (readable blocks rfl)
  rw [Block.all_isReadable, Bool.and_eq_true, decide_eq_true_eq] at all
  rw [nesting_toJson]
  exact ⟨all.1, Nat.add_le_add_right all.2 2⟩

theorem takes_reader (level : ℕ) :
    Takes (reader (2 * level)) fun diagram =>
      diagram.isFinite = true ∧ diagram.toJson.nesting ≤ 2 * level := by
  cases level with
  | zero => exact takes_refuse _
  | succ level =>
      have slots := takes_slots (takes_array (Block.takes_reader level))
      have empty : ({} : Draft).IsReadable (2 * level) := nofun
      intro tokens diagram rest read
      obtain ⟨⟨draft, left⟩, taken, same⟩ := bind_eq_ok.mp read
      cases same
      obtain ⟨readable, closed⟩ := takes_record slots empty _ _ _ taken
      exact ⟨isReadable_of_draft readable, closed⟩

end Diagram

end RobotBlocks
