import RobotBlocks.Store.Document
import RobotBlocks.Proofs.Block.Diagram

/-!
# Documents as texts

The text of a document is read back exactly when every number in it is finite and it opens no more
arrays and objects at once than a reader takes.  Any other document is written all the same, and
its text is refused.
-/

namespace RobotBlocks.Document

open Json (Value Reader Decides)
open Json.Reader (decides_record decides_text Fills)

/-- A document whose text can be read back. -/
def isReadable (document : Document) : Bool :=
  document.diagram.isFinite && document.toJson.nesting ≤ Json.nestingLimit

theorem nesting_toJson (document : Document) :
    document.toJson.nesting = document.diagram.toJson.nesting + 1 := by
  have some_open : 1 ≤ document.diagram.toJson.nesting := by
    rw [Diagram.nesting_toJson]
    omega
  simp only [toJson, Value.nesting, Value.nestingMembers]
  omega

/-- A readable document is found, and any other document is refused. -/
theorem decides_reader (document : Document) :
    Decides reader document.toJson (if document.isReadable then some document else none) := by
  -- The document is one level itself, so its diagram may open one less.
  have shallow : decide (document.diagram.toJson.nesting ≤ Json.nestingLimit - 1) =
      decide (document.toJson.nesting ≤ Json.nestingLimit) := by
    rw [nesting_toJson]
    exact decide_eq_decide.mpr (by unfold Json.nestingLimit; omega)
  have found : Decides (Diagram.reader (Json.nestingLimit - 1)) document.diagram.toJson
      (if document.isReadable then some document.diagram else none) := by
    rw [isReadable, ← shallow]
    exact document.diagram.decides_reader _
  have fills : Fills (slots (Diagram.reader (Json.nestingLimit - 1))) {}
      [("namespace", .text document.space), ("device_model_id", .text document.model),
        ("diagram", document.diagram.toJson)]
      ((some document.space).bind fun space => (some document.model).bind fun model =>
        (if document.isReadable then some document.diagram else none).bind fun diagram =>
          some ⟨space, model, diagram⟩) := by
    refine .slot (·.space) (fun draft space => { draft with space := some space }) rfl rfl
      (decides_text _) fun space => ?_
    refine .slot (·.model) (fun draft model => { draft with model := some model }) rfl rfl
      (decides_text _) fun model => ?_
    refine .slot (·.diagram) (fun draft diagram => { draft with diagram := some diagram })
      rfl rfl found fun diagram => ?_
    exact .done _
  have decides := (decides_record fills).filterMap ofDraft?
  revert decides
  cases document.isReadable <;> exact id

/-- The text of a document gives the document back if it is readable, and nothing otherwise. -/
theorem ofText?_toText (document : Document) :
    ofText? document.toText = if document.isReadable then some document else none := by
  unfold ofText? toText
  rw [Json.Reader.run_toPrettyBytes document.decides_reader]
  cases document.isReadable <;> rfl

end RobotBlocks.Document
