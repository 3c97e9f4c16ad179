import RobotBlocks.Block.Definition

/-!
# Block tables

The block table of a model holds the built-in control blocks, followed by one definition per
catalog entry.  Two entries of one kind with the same code give one definition, that of the first.
-/

namespace RobotBlocks

open Catalog (Feed)

namespace Block

def controlCategory : String := "Control"

def builtin (blockType displayName : String) (shape : Shape) (fields : List FieldSpec)
    (emit : EmitRule) : Definition :=
  { blockType, displayName, category := controlCategory, shape, fields, icon := none, emit }

/-- The control blocks that every model has. -/
def builtins : List Definition := [
  builtin "start" "When program starts" .hat [] .begin,
  builtin "repeat" "Repeat" .container [⟨"times", .number, .number (.ofNat 2)⟩] .loop,
  builtin "wait" "Wait" .statement [⟨"seconds", .number, .number (.ofNat 1)⟩] .wait,
  builtin "log" "Log message" .statement [⟨"message", .text, .text ""⟩] .log,
  builtin "fail" "Stop with error" .terminal [⟨"message", .text, .text "stopped"⟩] .fail]

end Block

/-- The block definitions of one model, in palette order. -/
structure Table where
  definitions : List Definition
deriving DecidableEq, Inhabited

namespace Table

def get? (table : Table) (blockType : String) : Option Definition :=
  table.definitions.find? fun definition => definition.blockType == blockType

/-- Adds a definition at the end, unless its block type is taken. -/
def add (table : Table) (definition : Definition) : Table :=
  if (table.get? definition.blockType).isSome then table
  else ⟨table.definitions ++ [definition]⟩

/-- The definitions of the entries of a feed, kinds in palette order. -/
def feedDefinitions (feed : Feed) : List Definition :=
  Kind.all.flatMap fun kind => (feed.entries kind).map (Definition.ofEntry kind)

def ofFeed (feed : Feed) : Table :=
  (feedDefinitions feed).foldl add ⟨Block.builtins⟩

def size (table : Table) : Nat :=
  table.definitions.length

end Table

end RobotBlocks
