import RobotBlocks.Block.Diagram
import RobotBlocks.Json.Printer

/-!
# Stored documents

A diagram is stored together with the namespace and the model that it belongs to.
-/

namespace RobotBlocks

open Json (Value Reader)

/-- A diagram with the slot that it was stored under. -/
structure Document where
  /-- The namespace. -/
  space : String
  model : String
  diagram : Diagram
deriving Inhabited

namespace Document

def same (document other : Document) : Bool :=
  document.space == other.space && document.model == other.model &&
    document.diagram.same other.diagram

structure Draft where
  space : Option String := none
  model : Option String := none
  diagram : Option Diagram := none

def slots (diagram : Reader Empty Diagram) : List (Reader.Slot Empty Draft) := [
  Reader.slot "namespace" Reader.text (·.space) fun draft space =>
    { draft with space := some space },
  Reader.slot "device_model_id" Reader.text (·.model) fun draft model =>
    { draft with model := some model },
  Reader.slot "diagram" diagram (·.diagram) fun draft diagram =>
    { draft with diagram := some diagram }]

def ofDraft? (draft : Draft) : Option Document := do
  return { space := ← draft.space, model := ← draft.model, diagram := ← draft.diagram }

def reader : Reader Empty Document :=
  (Reader.record (slots (Diagram.reader (Json.nestingLimit - 1))) {}).filterMap ofDraft?

def toJson (document : Document) : Value :=
  .object [
    ("namespace", .text document.space),
    ("device_model_id", .text document.model),
    ("diagram", document.diagram.toJson)]

/-- The document as a text with one member or element per line. -/
def toText (document : Document) : List UInt8 :=
  document.toJson.toPrettyBytes

def ofText? (bytes : List UInt8) : Option Document :=
  (reader.run bytes).toOption

end Document

end RobotBlocks
