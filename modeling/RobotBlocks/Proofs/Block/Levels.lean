import RobotBlocks.Proofs.Block.Diagram

/-!
# Levels of blocks

The blocks of a diagram stand at the first level, their children at the second, and so on.  Each
level costs two levels of a document, the record of a block and the array of its children; the
record of a field costs one more, at the place of the children.
-/

namespace RobotBlocks.Block

open Json (Value)

/-- A block stands somewhere in a list of blocks or inside one of them, at the given level. -/
inductive Occurs : List Block → ℕ → Block → Prop where
  | top {blocks : List Block} {block : Block} (mem : block ∈ blocks) : Occurs blocks 1 block
  | inside {blocks : List Block} {outer block : Block} {level : ℕ} (mem : outer ∈ blocks)
      (inner : Occurs outer.children level block) : Occurs blocks (level + 1) block

/-- A property of lists of blocks that each list has when the children of its blocks have it. -/
@[elab_as_elim]
theorem childrenInduction {motive : List Block → Prop}
    (step : ∀ blocks, (∀ block ∈ blocks, motive block.children) → motive blocks)
    (blocks : List Block) : motive blocks := by
  apply step
  intro block mem
  exact childrenInduction step block.children
termination_by sizeOf blocks
decreasing_by
  obtain ⟨id, blockType, fields, children⟩ := block
  have smaller := List.sizeOf_lt_of_mem mem
  simp only [Block.mk.sizeOf_spec] at smaller ⊢
  omega

/-! ## Finite numbers -/

theorem isFiniteAll_iff (blocks : List Block) :
    isFiniteAll blocks = true ↔ ∀ block ∈ blocks, block.isFinite = true := by
  induction blocks with
  | nil => exact ⟨fun _ => List.forall_mem_nil _, fun _ => rfl⟩
  | cons first rest ih => rw [isFiniteAll, Bool.and_eq_true, ih, List.forall_mem_cons]

theorem isFinite_iff (block : Block) :
    block.isFinite = true ↔ block.fields.isFinite = true ∧ isFiniteAll block.children = true := by
  obtain ⟨id, blockType, fields, children⟩ := block
  rw [isFinite, Bool.and_eq_true]

/-- Numbers are finite in a list of blocks when they are in every block at every level. -/
theorem isFiniteAll_of_occurs (blocks : List Block)
    (finite : ∀ level block, Occurs blocks level block → block.fields.isFinite = true) :
    isFiniteAll blocks = true := by
  induction blocks using childrenInduction with
  | step blocks ih =>
      rw [isFiniteAll_iff]
      intro block mem
      refine (isFinite_iff block).mpr ⟨finite 1 block (.top mem), ?_⟩
      exact ih block mem fun level inner occurs =>
        finite (level + 1) inner (.inside mem occurs)

theorem Occurs.isFinite {blocks : List Block} {level : ℕ} {block : Block}
    (occurs : Occurs blocks level block) (finite : isFiniteAll blocks = true) :
    block.fields.isFinite = true := by
  induction occurs with
  | top mem => exact ((isFinite_iff _).mp ((isFiniteAll_iff _).mp finite _ mem)).1
  | inside mem inner ih => exact ih ((isFinite_iff _).mp ((isFiniteAll_iff _).mp finite _ mem)).2

/-! ## Nesting -/

/-- How much deeper the fields of a block go than no children: one level, if there are any. -/
def fieldNesting (block : Block) : ℕ :=
  if block.fields.entries.isEmpty then 0 else 1

theorem nestingElements_le_iff (blocks : List Block) (depth : ℕ) :
    Value.nestingElements (toJsonAll blocks) ≤ depth ↔
      ∀ block ∈ blocks, block.toJson.nesting ≤ depth := by
  induction blocks with
  | nil => exact ⟨fun _ => List.forall_mem_nil _, fun _ => Nat.zero_le _⟩
  | cons first rest ih =>
      rw [toJsonAll, Value.nestingElements, Nat.max_le, ih, List.forall_mem_cons]

theorem nesting_le_iff (block : Block) (depth : ℕ) :
    block.toJson.nesting ≤ depth ↔ 2 + block.fieldNesting ≤ depth ∧
      Value.nestingElements (toJsonAll block.children) + 2 ≤ depth := by
  obtain ⟨id, blockType, fields, children⟩ := block
  have own : fields.toJson.nesting = fieldNesting ⟨id, blockType, fields, children⟩ + 1 := by
    rw [Fields.nesting_toJson, fieldNesting]
    split <;> rfl
  rw [nesting_toJson, own]
  simp only
  omega

/-- A list of blocks nests no deeper than each of its blocks does at its level. -/
theorem nestingElements_le_of_occurs (blocks : List Block) (depth : ℕ)
    (shallow : ∀ level block, Occurs blocks level block →
      2 * level + block.fieldNesting ≤ depth) :
    Value.nestingElements (toJsonAll blocks) ≤ depth := by
  induction blocks using childrenInduction generalizing depth with
  | step blocks ih =>
      rw [nestingElements_le_iff]
      intro block mem
      have own := shallow 1 block (.top mem)
      have inner : Value.nestingElements (toJsonAll block.children) ≤ depth - 2 := by
        refine ih block mem (depth - 2) fun level child occurs => ?_
        have deeper := shallow (level + 1) child (.inside mem occurs)
        omega
      exact (nesting_le_iff block depth).mpr ⟨own, by omega⟩

theorem Occurs.nesting_le {blocks : List Block} {level : ℕ} {block : Block}
    (occurs : Occurs blocks level block) {depth : ℕ}
    (shallow : Value.nestingElements (toJsonAll blocks) ≤ depth) :
    2 * level + block.fieldNesting ≤ depth := by
  induction occurs generalizing depth with
  | top mem =>
      exact ((nesting_le_iff _ depth).mp ((nestingElements_le_iff _ depth).mp shallow _ mem)).1
  | inside mem inner ih =>
      have deep := (nesting_le_iff _ depth).mp ((nestingElements_le_iff _ depth).mp shallow _ mem)
      have level := @ih (depth - 2) (Nat.le_sub_of_add_le deep.2)
      omega

/-! ## Blocks that can be written and read back -/

/--
A block that can be read back from a document in which it stands at a level: its numbers are
finite, and it leaves room for the document and the diagram around it.
-/
structure FitsAt (level : ℕ) (block : Block) : Prop where
  finite : ∀ entry ∈ block.fields.entries, entry.2.isFinite = true
  level_le : level ≤ 62
  level_le_of_fields : block.fields.entries ≠ [] → level ≤ 61

theorem fitsAt_iff (level : ℕ) (block : Block) :
    block.FitsAt level ↔
      block.fields.isFinite = true ∧ 2 * level + block.fieldNesting ≤ 124 := by
  unfold Fields.isFinite fieldNesting
  rw [List.all_eq_true]
  constructor
  · intro fits
    refine ⟨fits.finite, ?_⟩
    have levels := fits.level_le
    split
    · omega
    · rename_i filled
      have fewer := fits.level_le_of_fields fun empty => filled (List.isEmpty_iff.mpr empty)
      omega
  · rintro ⟨finite, room⟩
    refine ⟨finite, by omega, ?_⟩
    intro filled
    rw [if_neg fun empty => filled (List.isEmpty_iff.mp empty)] at room
    omega

/-- All blocks fit at their levels when all numbers are finite and the list is shallow enough. -/
theorem fitsAt_all_iff (blocks : List Block) :
    (∀ level block, Occurs blocks level block → block.FitsAt level) ↔
      isFiniteAll blocks = true ∧ Value.nestingElements (toJsonAll blocks) ≤ 124 := by
  constructor
  · intro fits
    constructor
    · refine isFiniteAll_of_occurs blocks fun level block occurs => ?_
      exact ((fitsAt_iff level block).mp (fits level block occurs)).1
    · refine nestingElements_le_of_occurs blocks 124 fun level block occurs => ?_
      exact ((fitsAt_iff level block).mp (fits level block occurs)).2
  · rintro ⟨finite, shallow⟩ level block occurs
    exact (fitsAt_iff level block).mpr ⟨occurs.isFinite finite, occurs.nesting_le shallow⟩

end RobotBlocks.Block
