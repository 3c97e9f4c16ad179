import RobotBlocks.Block.Field
import RobotBlocks.Catalog.Feed
import RobotBlocks.Text.Case

/-!
# Block definitions

A definition is a block type of the palette: what the block is called and looks like, which fields
it has, and which statement it emits.  Every catalog entry gives one definition.
-/

namespace RobotBlocks

open Catalog (Entry)

/-- How a block attaches to its neighbours. -/
inductive Shape where
  /-- Nothing attaches above. -/
  | hat
  | statement
  /-- Holds a body. -/
  | container
  /-- Nothing attaches below. -/
  | terminal
deriving DecidableEq, Inhabited

def Shape.word : Shape → String
  | .hat => "Hat"
  | .statement => "Statement"
  | .container => "Container"
  | .terminal => "Terminal"

/-- A field of a block type, with the value that serves when a block leaves it out. -/
structure FieldSpec where
  name : String
  kind : FieldKind
  default : FieldValue
deriving DecidableEq, Inhabited

/-- The statement that a block emits. -/
inductive EmitRule where
  | begin
  | loop
  | wait
  | log
  | fail
  | command (kind : Kind) (code : String) (duration : UInt32) (interruptible : Bool)
deriving DecidableEq, Inhabited

/-- A block type of the palette. -/
structure Definition where
  /-- The key of the definition within a model. -/
  blockType : String
  displayName : String
  category : String
  shape : Shape
  fields : List FieldSpec
  icon : Option String
  emit : EmitRule
deriving DecidableEq, Inhabited

namespace Definition

def catalogType (kind : Kind) (code : String) : String :=
  kind.word ++ ":" ++ code

def ofEntry (kind : Kind) (entry : Entry) : Definition where
  blockType := catalogType kind entry.code
  displayName := entry.name
  category := kind.category
  shape := .statement
  fields := [⟨"wait", .flag, .flag true⟩]
  icon := entry.icon
  emit := .command kind entry.code entry.duration entry.interruptible

def field? (definition : Definition) (name : String) : Option FieldSpec :=
  definition.fields.find? fun spec => spec.name == name

/--
Whether the type, the display name or the category contains the query when all are in lower case.
The empty query is contained in everything.
-/
def contains (definition : Definition) (query : String) : Bool :=
  if query.isEmpty then true
  else
    let part := Text.lowercase query
    Text.occursIn part (Text.lowercase definition.blockType) ||
      Text.occursIn part (Text.lowercase definition.displayName) ||
      Text.occursIn part (Text.lowercase definition.category)

end Definition

end RobotBlocks
