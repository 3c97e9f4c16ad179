import RobotBlocks.Block.Definition

/-!
# The document form of block definitions

A definition is a record of its seven components.  Shapes, kinds and rules are written by name;
the rule of a command carries the data of its catalog entry.
-/

namespace RobotBlocks

open Json (Value Reader)

def Shape.ofWord? (text : String) : Option Shape :=
  [Shape.hat, .statement, .container, .terminal].find? fun shape => shape.word == text

def FieldKind.ofWord? (text : String) : Option FieldKind :=
  [FieldKind.flag, .number, .text].find? fun kind => kind.word == text

namespace FieldSpec

structure Draft where
  name : Option String := none
  kind : Option FieldKind := none
  default : Option FieldValue := none

def slots (value : Reader Empty FieldValue) : List (Reader.Slot Empty Draft) := [
  Reader.slot "name" Reader.text (·.name) fun draft name => { draft with name := some name },
  Reader.slot "kind" (Reader.oneOf FieldKind.ofWord?) (·.kind) fun draft kind =>
    { draft with kind := some kind },
  Reader.slot "default" value (·.default) fun draft value => { draft with default := some value }]

def ofDraft? (draft : Draft) : Option FieldSpec := do
  return ⟨← draft.name, ← draft.kind, ← draft.default⟩

def reader : Reader Empty FieldSpec :=
  (Reader.record (slots FieldValue.reader) {}).filterMap ofDraft?

def toJson (spec : FieldSpec) : Value :=
  .object [
    ("name", .text spec.name),
    ("kind", .text spec.kind.word),
    ("default", spec.default.toJson)]

end FieldSpec

namespace EmitRule

structure Draft where
  kind : Option Kind := none
  code : Option String := none
  duration : Option UInt32 := none
  interruptible : Option Bool := none

def slots : List (Reader.Slot Empty Draft) := [
  Reader.slot "kind" (Reader.oneOf Kind.ofWord?) (·.kind) fun draft kind =>
    { draft with kind := some kind },
  Reader.slot "code" Reader.text (·.code) fun draft code => { draft with code := some code },
  Reader.slot "duration_seconds" Reader.count (·.duration) fun draft duration =>
    { draft with duration := some duration },
  Reader.slot "can_interrupt" Reader.boolean (·.interruptible) fun draft flag =>
    { draft with interruptible := some flag }]

def ofDraft? (draft : Draft) : Option EmitRule := do
  return .command (← draft.kind) (← draft.code) (← draft.duration) (← draft.interruptible)

def word : EmitRule → String
  | .begin => "Begin"
  | .loop => "Repeat"
  | .wait => "Wait"
  | .log => "Log"
  | .fail => "Fail"
  | .command .. => "Command"

/-- The rule without data that has the given name. -/
def ofWord? (text : String) : Option EmitRule :=
  [EmitRule.begin, .loop, .wait, .log, .fail].find? fun rule => rule.word == text

/-- Reads a rule: a name, or an object with the name and the data of the rule. -/
def reader : Reader Empty EmitRule
  | .text pieces :: rest => (Reader.text.filterMap ofWord?) (.text pieces :: rest)
  | tokens =>
      Reader.tagged (fun name =>
        if name = "Command" then (Reader.record slots {}).filterMap ofDraft?
        else (Reader.null.map fun _ => name).filterMap ofWord?) tokens

def toJson : EmitRule → Value
  | .command kind code duration interruptible =>
      .object [("Command", .object [
        ("kind", .text kind.word),
        ("code", .text code),
        ("duration_seconds", .number (.natural duration.toNat)),
        ("can_interrupt", .boolean interruptible)])]
  | rule => .text rule.word

end EmitRule

namespace Definition

structure Draft where
  blockType : Option String := none
  displayName : Option String := none
  category : Option String := none
  shape : Option Shape := none
  fields : Option (List FieldSpec) := none
  icon : Option (Option String) := none
  emit : Option EmitRule := none

def slots : List (Reader.Slot Empty Draft) := [
  Reader.slot "block_type" Reader.text (·.blockType) fun draft text =>
    { draft with blockType := some text },
  Reader.slot "display_name" Reader.text (·.displayName) fun draft text =>
    { draft with displayName := some text },
  Reader.slot "category" Reader.text (·.category) fun draft text =>
    { draft with category := some text },
  Reader.slot "shape" (Reader.oneOf Shape.ofWord?) (·.shape) fun draft shape =>
    { draft with shape := some shape },
  Reader.slot "fields" (Reader.array FieldSpec.reader) (·.fields) fun draft fields =>
    { draft with fields := some fields },
  Reader.slot "icon" (Reader.optional Reader.text) (·.icon) fun draft icon =>
    { draft with icon := some icon },
  Reader.slot "emit" EmitRule.reader (·.emit) fun draft rule => { draft with emit := some rule }]

/-- The definition, if every component but the icon is there. -/
def ofDraft? (draft : Draft) : Option Definition := do
  return {
    blockType := ← draft.blockType
    displayName := ← draft.displayName
    category := ← draft.category
    shape := ← draft.shape
    fields := ← draft.fields
    icon := draft.icon.getD none
    emit := ← draft.emit }

def reader : Reader Empty Definition :=
  (Reader.record slots {}).filterMap ofDraft?

def ofText? (text : String) : Option Definition :=
  (reader.run text.toUTF8.toList).toOption

def toJson (definition : Definition) : Value :=
  .object [
    ("block_type", .text definition.blockType),
    ("display_name", .text definition.displayName),
    ("category", .text definition.category),
    ("shape", .text definition.shape.word),
    ("fields", .array (definition.fields.map FieldSpec.toJson)),
    ("icon", match definition.icon with | some icon => .text icon | none => .null),
    ("emit", definition.emit.toJson)]

end Definition

end RobotBlocks
