import RobotBlocks.Store.Backend
import RobotBlocks.Store.Binary

/-!
# Storing diagrams

A store keeps one diagram per namespace and model on a backend, in one of two formats.  The
format is part of the slot name, so that stores of both formats can share a backend.  A slot that
was never saved holds the empty diagram.
-/

namespace RobotBlocks

inductive Format where
  | json
  | binary
deriving DecidableEq, Inhabited

namespace Format

def ending : Format → String
  | .json => ".json"
  | .binary => ".bin"

def encode : Format → Document → List UInt8
  | .json, document => document.toText
  | .binary, document => Store.writeDocument document

def decode : Format → List UInt8 → Except Failure Document
  | .json, bytes =>
      match Document.ofText? bytes with
      | some document => .ok document
      | none => .error (.ofCause .document)
  | .binary, bytes => Store.readDocument bytes

end Format

/-- A backend with the format of what is kept there. -/
structure Store (σ : Type) where
  backend : Store.Backend σ
  format : Format

namespace Store

variable {σ : Type}

def slotKey (format : Format) (space model : String) : SlotKey :=
  ⟨encodeName space, encodeName model ++ format.ending⟩

/-- How a diagram is called in messages. -/
def label (space model : String) : String :=
  space ++ "/" ++ model

def save (store : Store σ) (space model : String) (diagram : Diagram) (kept : σ) :
    Except Failure Unit × σ :=
  let bytes := store.format.encode { space, model, diagram }
  let (result, kept) := store.backend.write (slotKey store.format space model) bytes kept
  (inContext ("Failed to save diagram " ++ label space model) result, kept)

def open? (format : Format) (space model : String) (bytes : List UInt8) :
    Except Failure Diagram := do
  let document ← inContext ("Corrupt diagram slot " ++ label space model) (format.decode bytes)
  if document.space = space ∧ document.model = model then
    return document.diagram
  else
    .error (.ofText ("Slot for " ++ label space model ++ " holds the diagram of " ++
      label document.space document.model))

def load (store : Store σ) (space model : String) (kept : σ) : Except Failure Diagram := do
  match ← store.backend.read (slotKey store.format space model) kept with
  | none => return {}
  | some bytes => open? store.format space model bytes

/-- Removes the diagram for a namespace and a model; says whether there was one. -/
def remove (store : Store σ) (space model : String) (kept : σ) : Except Failure Bool × σ :=
  store.backend.delete (slotKey store.format space model) kept

/-- The model whose diagram a slot holds, if the slot is the one for that model. -/
def owner? (format : Format) (space : String) (key : SlotKey) (bytes : List UInt8) :
    Option String :=
  match format.decode bytes with
  | .ok document =>
      if document.space = space ∧ key = slotKey format space document.model then
        some document.model
      else
        none
  | .error _ => none

/-- The models that own the given slots; slots of other formats or without an owner are left out. -/
def owners (store : Store σ) (space : String) (kept : σ) :
    List SlotKey → Except Failure (List String)
  | [] => .ok []
  | key :: rest =>
      if store.format.ending.toList.isSuffixOf key.name.toList then do
        let bytes ← store.backend.read key kept
        let models ← owners store space kept rest
        return (bytes.bind (owner? store.format space key)).toList ++ models
      else
        owners store space kept rest

/-- The models that have a diagram in a namespace, in the order of their slots. -/
def list (store : Store σ) (space : String) (kept : σ) : Except Failure (List String) := do
  let keys ← store.backend.keys space kept
  store.owners space kept keys

end Store

end RobotBlocks
