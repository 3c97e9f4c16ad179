import RobotBlocks.Proofs.Block.Fields

/-!
# Diagrams of documents

A diagram is read back from its document exactly when all its numbers are finite and its document
opens no more arrays and objects at once than may be open.
-/

namespace RobotBlocks

open Json (Value Reader Decides)
open Json.Reader (decides_array decides_record decides_refuse decides_text Fills)

namespace Block

mutual

def isFiniteAll : List Block → Bool
  | [] => true
  | first :: rest => isFinite first && isFiniteAll rest

/-- Every number of a block and its children is finite. -/
def isFinite : Block → Bool
  | ⟨_, _, fields, children⟩ => fields.isFinite && isFiniteAll children

end

/-- A block whose document can be read back when `depth` arrays and objects may be open. -/
def isReadable (depth : ℕ) (block : Block) : Bool :=
  block.isFinite && block.toJson.nesting ≤ depth

theorem toJsonAll_eq_map (blocks : List Block) : toJsonAll blocks = blocks.map toJson := by
  induction blocks with
  | nil => rfl
  | cons first rest ih => rw [toJsonAll, ih, List.map_cons]

theorem all_isReadable (depth : ℕ) (blocks : List Block) :
    blocks.all (isReadable depth) =
      (isFiniteAll blocks && Value.nestingElements (toJsonAll blocks) ≤ depth) := by
  induction blocks with
  | nil => rfl
  | cons first rest ih =>
      have both : decide (max first.toJson.nesting (Value.nestingElements (toJsonAll rest)) ≤
          depth) = (decide (first.toJson.nesting ≤ depth) &&
            decide (Value.nestingElements (toJsonAll rest) ≤ depth)) := by
        rw [← Bool.decide_and]
        exact decide_eq_decide.mpr Nat.max_le
      rw [List.all_cons, ih, isFiniteAll, toJsonAll, Value.nestingElements, isReadable, both]
      ac_rfl

theorem nesting_toJson (id blockType : String) (fields : Fields) (children : List Block) :
    (toJson ⟨id, blockType, fields, children⟩).nesting =
      max fields.toJson.nesting (Value.nestingElements (toJsonAll children) + 1) + 1 := by
  simp only [toJson, Value.nesting, Value.nestingMembers, Nat.zero_max, Nat.max_zero]

/-- A block is readable when its fields and its children are, one level further in. -/
theorem isReadable_succ (depth : ℕ) (id blockType : String) (fields : Fields)
    (children : List Block) :
    isReadable (depth + 1) ⟨id, blockType, fields, children⟩ =
      ((fields.isFinite && fields.toJson.nesting ≤ depth) &&
        (isFiniteAll children && Value.nestingElements (toJsonAll children) + 1 ≤ depth)) := by
  have both : decide (max fields.toJson.nesting (Value.nestingElements (toJsonAll children) + 1)
      + 1 ≤ depth + 1) = (decide (fields.toJson.nesting ≤ depth) &&
        decide (Value.nestingElements (toJsonAll children) + 1 ≤ depth)) := by
    rw [← Bool.decide_and]
    exact decide_eq_decide.mpr (Nat.succ_le_succ_iff.trans Nat.max_le)
  rw [isReadable, nesting_toJson, both, isFinite]
  ac_rfl

/-- A block is found when its fields and its children are. -/
theorem decides_record_block {fieldsReader : Reader Empty Fields}
    {childrenReader : Reader Empty (List Block)} {fields : Fields} {children : List Block}
    {okFields okChildren : Bool} (id blockType : String)
    (decidesFields : Decides fieldsReader fields.toJson (if okFields then some fields else none))
    (decidesChildren : Decides childrenReader (.array (toJsonAll children))
      (if okChildren then some children else none)) :
    Decides ((Reader.record (slots fieldsReader childrenReader) {}).filterMap ofDraft?)
      (toJson ⟨id, blockType, fields, children⟩)
      (if okFields && okChildren then some ⟨id, blockType, fields, children⟩ else none) := by
  have fills : Fills (slots fieldsReader childrenReader) {}
      [("id", .text id), ("type", .text blockType), ("fields", fields.toJson),
        ("children", .array (toJsonAll children))]
      ((some id).bind fun id => (some blockType).bind fun blockType =>
        (if okFields then some fields else none).bind fun fields =>
          (if okChildren then some children else none).bind fun children =>
            some ⟨id, blockType, fields, children⟩) := by
    refine .slot (·.id) (fun draft id => { draft with id := some id }) rfl rfl (decides_text id)
      fun id => ?_
    refine .slot (·.blockType) (fun draft text => { draft with blockType := some text }) rfl rfl
      (decides_text blockType) fun blockType => ?_
    refine .slot (·.fields) (fun draft fields => { draft with fields := some fields }) rfl rfl
      decidesFields fun fields => ?_
    refine .slot (·.children) (fun draft children => { draft with children := some children })
      rfl rfl decidesChildren fun children => ?_
    exact .done _
  have decides := (decides_record fills).filterMap ofDraft?
  cases okFields <;> cases okChildren <;> exact decides

/-- A block is read back when its numbers are finite and enough arrays and objects may be open. -/
theorem decides_reader (block : Block) (depth : ℕ) :
    Decides (reader depth) block.toJson (if block.isReadable depth then some block else none) := by
  match block, depth with
  | ⟨id, blockType, fields, children⟩, 0 =>
      have refused : isReadable 0 ⟨id, blockType, fields, children⟩ = false := by
        rw [isReadable, nesting_toJson]
        exact Bool.and_false _
      rw [refused]
      exact decides_refuse _
  | ⟨id, blockType, fields, children⟩, 1 =>
      have refused : isReadable 1 ⟨id, blockType, fields, children⟩ = false := by
        rw [isReadable_succ]
        exact (congrArg _ (Bool.and_false _)).trans (Bool.and_false _)
      rw [refused]
      exact @decides_record_block _ _ fields children false false id blockType
        (decides_refuse _) (decides_refuse _)
  | ⟨id, blockType, fields, children⟩, depth + 2 =>
      -- The block and the array of its children are two levels.
      have each : ∀ child ∈ children, Decides (reader depth) child.toJson
          (if child.isReadable depth then some child else none) :=
        fun child _ => decides_reader child depth
      have all := decides_array each
      rw [← toJsonAll_eq_map, mapM_keep, all_isReadable] at all
      rw [isReadable_succ]
      have deeper : decide (Value.nestingElements (toJsonAll children) + 1 ≤ depth + 1) =
          decide (Value.nestingElements (toJsonAll children) ≤ depth) :=
        decide_eq_decide.mpr Nat.succ_le_succ_iff
      rw [deeper]
      exact decides_record_block id blockType (decides_fieldsReader (depth + 1) fields) all

end Block

namespace Diagram

def isFinite (diagram : Diagram) : Bool :=
  Block.isFiniteAll diagram.blocks

theorem nesting_toJson (diagram : Diagram) :
    diagram.toJson.nesting = Value.nestingElements (Block.toJsonAll diagram.blocks) + 2 := by
  simp only [toJson, Value.nesting, Value.nestingMembers, Nat.max_zero]

/-- A diagram is found when its blocks are. -/
theorem decides_record_diagram {blocksReader : Reader Empty (List Block)} {diagram : Diagram}
    {ok : Bool} (decides : Decides blocksReader (.array (Block.toJsonAll diagram.blocks))
      (if ok then some diagram.blocks else none)) :
    Decides ((Reader.record (slots blocksReader) {}).map fun draft => ⟨draft.blocks.getD []⟩)
      diagram.toJson (if ok then some diagram else none) := by
  have fills : Fills (slots blocksReader) {}
      [("blocks", .array (Block.toJsonAll diagram.blocks))]
      ((if ok then some diagram.blocks else none).bind fun blocks => some ⟨some blocks⟩) := by
    refine .slot (·.blocks) (fun draft blocks => { draft with blocks := some blocks }) rfl rfl
      decides fun blocks => ?_
    exact .done _
  have decides := (decides_record fills).map fun draft => (⟨draft.blocks.getD []⟩ : Diagram)
  cases ok <;> exact decides

/-- A diagram is read back when its numbers are finite and enough arrays and objects may be open. -/
theorem decides_reader (diagram : Diagram) (depth : ℕ) :
    Decides (reader depth) diagram.toJson
      (if diagram.isFinite && diagram.toJson.nesting ≤ depth then some diagram else none) := by
  rw [nesting_toJson]
  match depth with
  | 0 =>
      rw [show (diagram.isFinite && decide (_ + 2 ≤ 0)) = false from Bool.and_false _]
      exact decides_refuse _
  | 1 =>
      have refused : (diagram.isFinite && decide
          (Value.nestingElements (Block.toJsonAll diagram.blocks) + 2 ≤ 1)) = false := by
        rw [decide_eq_false (by omega), Bool.and_false]
      rw [refused]
      exact @decides_record_diagram _ diagram false (decides_refuse _)
  | depth + 2 =>
      have each : ∀ block ∈ diagram.blocks, Decides (Block.reader depth) block.toJson
          (if block.isReadable depth then some block else none) :=
        fun block _ => Block.decides_reader block depth
      have all := decides_array each
      rw [← Block.toJsonAll_eq_map, mapM_keep, Block.all_isReadable] at all
      have deeper :
          decide (Value.nestingElements (Block.toJsonAll diagram.blocks) + 2 ≤ depth + 2) =
            decide (Value.nestingElements (Block.toJsonAll diagram.blocks) ≤ depth) :=
        decide_eq_decide.mpr (Nat.add_le_add_iff_right)
      rw [deeper]
      exact decides_record_diagram all

end Diagram

end RobotBlocks
