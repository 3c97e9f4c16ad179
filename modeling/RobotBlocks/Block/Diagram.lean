import RobotBlocks.Block.Field

/-!
# Diagrams

A diagram is a list of block stacks.  A block has a type, fields and children; what its children
mean depends on the type.
-/

namespace RobotBlocks

open Json (Value Reader)

structure Block where
  id : String
  blockType : String
  fields : Fields
  children : List Block
deriving Inhabited

/-- A diagram: the block stacks from top to bottom. -/
structure Diagram where
  blocks : List Block := []
deriving Inhabited

namespace Block

mutual

def countAll : List Block → Nat
  | [] => 0
  | first :: rest => count first + countAll rest

/-- The number of blocks in a block, itself and its children included. -/
def count : Block → Nat
  | ⟨_, _, _, children⟩ => 1 + countAll children

end

mutual

def sameAll : List Block → List Block → Bool
  | [], [] => true
  | first :: rest, other :: others => same first other && sameAll rest others
  | _, _ => false

/-- Equality of blocks, with numbers compared as numbers. -/
def same : Block → Block → Bool
  | ⟨id, blockType, fields, children⟩, ⟨otherId, otherType, otherFields, otherChildren⟩ =>
      id == otherId && blockType == otherType && fields.same otherFields &&
        sameAll children otherChildren

end

mutual

def toJsonAll : List Block → List Value
  | [] => []
  | first :: rest => toJson first :: toJsonAll rest

def toJson : Block → Value
  | ⟨id, blockType, fields, children⟩ =>
      .object [
        ("id", .text id),
        ("type", .text blockType),
        ("fields", fields.toJson),
        ("children", .array (toJsonAll children))]

end

structure Draft where
  id : Option String := none
  blockType : Option String := none
  fields : Option Fields := none
  children : Option (List Block) := none

def slots (fields : Reader Empty Fields) (children : Reader Empty (List Block)) :
    List (Reader.Slot Empty Draft) := [
  Reader.slot "id" Reader.text (·.id) fun draft id => { draft with id := some id },
  Reader.slot "type" Reader.text (·.blockType) fun draft text =>
    { draft with blockType := some text },
  Reader.slot "fields" fields (·.fields) fun draft fields => { draft with fields := some fields },
  Reader.slot "children" children (·.children) fun draft children =>
    { draft with children := some children }]

/-- The block, if it has an id and a type; fields and children may be left out. -/
def ofDraft? (draft : Draft) : Option Block := do
  return {
    id := ← draft.id
    blockType := ← draft.blockType
    fields := draft.fields.getD .empty
    children := draft.children.getD [] }

/-- Reads fields that open at most `depth` objects at once: one for all and one for each value. -/
def fieldsReader : (depth : Nat) → Reader Empty Fields
  | 0 => Reader.refuse
  | 1 => Fields.reader Reader.refuse
  | _ + 2 => Fields.reader FieldValue.reader

/-- Reads a block that opens at most `depth` arrays and objects at once. -/
def reader : (depth : Nat) → Reader Empty Block
  | 0 => Reader.refuse
  | 1 => (Reader.record (slots Reader.refuse Reader.refuse) {}).filterMap ofDraft?
  | depth + 2 =>
      (Reader.record (slots (fieldsReader (depth + 1)) (Reader.array (reader depth))) {}).filterMap
        ofDraft?

end Block

namespace Diagram

/-- The number of blocks at every depth. -/
def size (diagram : Diagram) : Nat :=
  Block.countAll diagram.blocks

def same (diagram other : Diagram) : Bool :=
  Block.sameAll diagram.blocks other.blocks

def toJson (diagram : Diagram) : Value :=
  .object [("blocks", .array (Block.toJsonAll diagram.blocks))]

structure Draft where
  blocks : Option (List Block) := none

def slots (blocks : Reader Empty (List Block)) : List (Reader.Slot Empty Draft) := [
  Reader.slot "blocks" blocks (·.blocks) fun draft blocks => { draft with blocks := some blocks }]

def reader : (depth : Nat) → Reader Empty Diagram
  | 0 => Reader.refuse
  | 1 => (Reader.record (slots Reader.refuse) {}).map fun draft => ⟨draft.blocks.getD []⟩
  | depth + 2 =>
      (Reader.record (slots (Reader.array (Block.reader depth))) {}).map fun draft =>
        ⟨draft.blocks.getD []⟩

def ofText? (text : String) : Option Diagram :=
  ((reader Json.nestingLimit).run text.toUTF8.toList).toOption

end Diagram

end RobotBlocks
