import RobotBlocks.Block.Diagram
import RobotBlocks.Block.Registry
import RobotBlocks.Script.Printer

/-!
# Compiling diagrams

A generator belongs to one model and one robot.  It turns every block into one statement: the
blocks are visited in order, a block before its children and its children before the next block.
The children of a loop become its body, the children of any other block follow its statement.  The
first block that does not fit its definition ends the compilation.
-/

namespace RobotBlocks

inductive FieldProblem where
  | unknown (blockType : String)
  | wrongKind (expected found : FieldKind)
  | missing
  | notFlag
  | notText
  | notNumber
  | notDuration
  | notCount
deriving DecidableEq

def FieldProblem.message : FieldProblem → String
  | .unknown blockType => "`" ++ blockType ++ "` has no such field"
  | .wrongKind expected found => "expected " ++ expected.word ++ ", got " ++ found.word
  | .missing => "missing"
  | .notFlag => "expected a flag"
  | .notText => "expected text"
  | .notNumber => "expected a number"
  | .notDuration => "must be a non-negative number"
  | .notCount => "must be a whole non-negative number"

inductive CompileError where
  | noModel
  | modelNotRegistered (model : String)
  | unknownBlock (id blockType model : String)
  | invalidField (id field : String) (problem : FieldProblem)
deriving DecidableEq

def CompileError.message : CompileError → String
  | .noModel => "no device model selected"
  | .modelNotRegistered model => "device model `" ++ model ++ "` has no registered blocks"
  | .unknownBlock id blockType model =>
      "block `" ++ id ++ "` uses type `" ++ blockType ++ "`, which model `" ++ model ++
        "` does not provide"
  | .invalidField id field problem =>
      "block `" ++ id ++ "` field `" ++ field ++ "`: " ++ problem.message

structure Program where
  model : String
  serial : String
  code : String
  statements : List Statement
deriving Inhabited

/-- What turns the blocks of one model into statements for one robot. -/
structure Generator where
  model : String
  serial : String
  table : Table
deriving DecidableEq, Inhabited

namespace Generator

def rule? (generator : Generator) (blockType : String) : Option EmitRule :=
  (generator.table.get? blockType).map Definition.emit

/-- The first name that is no field of the definition. -/
def unknownField? (definition : Definition) (fields : Fields) : Option String :=
  fields.names.find? fun name => (definition.field? name).isNone

/-- The value of every field of the definition, given or by default, if all kinds are right. -/
def resolveAll (id : String) (fields : Fields) :
    List FieldSpec → Except CompileError (List (String × FieldValue))
  | [] => .ok []
  | spec :: rest => do
      let value := (fields.get? spec.name).getD spec.default
      if value.kind = spec.kind then
        let more ← resolveAll id fields rest
        return (spec.name, value) :: more
      else
        .error (.invalidField id spec.name (.wrongKind spec.kind value.kind))

/-- The field values of a block, if it names only fields of its definition. -/
def resolve (definition : Definition) (id : String) (fields : Fields) :
    Except CompileError (List (String × FieldValue)) :=
  match unknownField? definition fields with
  | some name => .error (.invalidField id name (.unknown definition.blockType))
  | none => resolveAll id fields definition.fields

/-- A field value, read by a function that says what is wrong with it. -/
def readField {α : Type} (id name : String) (read : FieldValue → Except FieldProblem α)
    (values : List (String × FieldValue)) : Except CompileError α :=
  match values.find? fun entry => entry.1 == name with
  | none => .error (.invalidField id name .missing)
  | some (_, value) =>
      match read value with
      | .ok result => .ok result
      | .error problem => .error (.invalidField id name problem)

def readFlag : FieldValue → Except FieldProblem Bool
  | .flag value => .ok value
  | _ => .error .notFlag

def readText : FieldValue → Except FieldProblem String
  | .text value => .ok value
  | _ => .error .notText

/-- A finite number of seconds that is not below zero. -/
def readDuration : FieldValue → Except FieldProblem Binary64
  | .number value =>
      if value.isFinite && value.isNonNegative then .ok value else .error .notDuration
  | _ => .error .notNumber

def readCount : FieldValue → Except FieldProblem UInt32
  | .number value =>
      match value.toCount? with
      | some count => .ok count
      | none => .error .notCount
  | _ => .error .notNumber

/-- What a block emits: a statement of its own, or a loop around what its children emit. -/
inductive Emission where
  | statement (statement : Statement)
  | loop (times : UInt32)

def emission (serial id : String) (values : List (String × FieldValue)) :
    EmitRule → Except CompileError Emission
  | .begin => .ok (.statement .begin)
  | .loop => do
      let times ← readField id "times" readCount values
      return .loop times
  | .wait => do
      let seconds ← readField id "seconds" readDuration values
      return .statement (.wait seconds)
  | .log => do
      let message ← readField id "message" readText values
      return .statement (.log message)
  | .fail => do
      let message ← readField id "message" readText values
      return .statement (.fail message)
  | .command kind code duration interruptible => do
      let awaited ← readField id "wait" readFlag values
      return .statement (.command { serial, kind, code, duration, interruptible, awaited })

/-- What a block emits, its children left aside. -/
def emitBlock (generator : Generator) (id blockType : String) (fields : Fields) :
    Except CompileError Emission :=
  match generator.table.get? blockType with
  | none => .error (.unknownBlock id blockType generator.model)
  | some definition => do
      let values ← resolve definition id fields
      emission generator.serial id values definition.emit

mutual

def emitAll (generator : Generator) : List Block → Except CompileError (List Statement)
  | [] => .ok []
  | first :: rest => do
      let statements ← emit generator first
      let more ← emitAll generator rest
      return statements ++ more

def emit (generator : Generator) : Block → Except CompileError (List Statement)
  | ⟨id, blockType, fields, children⟩ => do
      let emission ← emitBlock generator id blockType fields
      let inner ← emitAll generator children
      match emission with
      | .statement statement => return statement :: inner
      | .loop times => return [.loop times inner]

end

def compile (generator : Generator) (diagram : Diagram) : Except CompileError Program := do
  let statements ← generator.emitAll diagram.blocks
  return {
    model := generator.model
    serial := generator.serial
    code := Script.render generator.model generator.serial statements
    statements }

end Generator

def Registry.generator (registry : Registry) (model serial : String) :
    Except CompileError Generator :=
  match registry.table? model with
  | some table => .ok { model, serial, table }
  | none => .error (.modelNotRegistered model)

end RobotBlocks
