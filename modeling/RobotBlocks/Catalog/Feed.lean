import RobotBlocks.Catalog.Entry
import RobotBlocks.Catalog.Kind
import RobotBlocks.Failure

/-!
# Catalog feeds

A feed holds the five catalogs of one device model.  A catalog that a feed leaves out is empty.
-/

namespace RobotBlocks.Catalog

open Json (Value Reader)

/-- The catalogs of one device model. -/
structure Feed where
  actions : List Entry := []
  extendedActions : List Entry := []
  expressions : List Entry := []
  dances : List Entry := []
  skills : List Entry := []
deriving DecidableEq, Inhabited

namespace Feed

def entries (feed : Feed) : Kind → List Entry
  | .action => feed.actions
  | .extendedAction => feed.extendedActions
  | .expression => feed.expressions
  | .dance => feed.dances
  | .skill => feed.skills

def size (feed : Feed) : Nat :=
  (Kind.all.map fun kind => (feed.entries kind).length).foldl (· + ·) 0

structure Draft where
  actions : Option (List Entry) := none
  extendedActions : Option (List Entry) := none
  expressions : Option (List Entry) := none
  dances : Option (List Entry) := none
  skills : Option (List Entry) := none

def slots (catalog : Reader EntryError (List Entry)) : List (Reader.Slot EntryError Draft) := [
  Reader.slot "actions" catalog (·.actions) fun draft list => { draft with actions := some list },
  Reader.slot "extended_actions" catalog (·.extendedActions) fun draft list =>
    { draft with extendedActions := some list },
  Reader.slot "expressions" catalog (·.expressions) fun draft list =>
    { draft with expressions := some list },
  Reader.slot "dances" catalog (·.dances) fun draft list => { draft with dances := some list },
  Reader.slot "skills" catalog (·.skills) fun draft list => { draft with skills := some list }]

/-- The feed with empty catalogs where the draft has none. -/
def ofDraft (draft : Draft) : Feed where
  actions := draft.actions.getD []
  extendedActions := draft.extendedActions.getD []
  expressions := draft.expressions.getD []
  dances := draft.dances.getD []
  skills := draft.skills.getD []

def reader : Reader EntryError Feed :=
  (Reader.record (slots (Reader.array (Entry.reader (Json.nestingLimit - 2)))) {}).map ofDraft

def ofText (text : String) : Except (Json.Fault EntryError) Feed :=
  reader.run text.toUTF8.toList

def load (text : String) : Except Failure Feed :=
  inContext "Failed to parse catalog JSON" ((ofText text).mapError Failure.ofFault)

def toJson (feed : Feed) : Value :=
  .object [
    ("actions", .array (feed.actions.map Entry.toJson)),
    ("extended_actions", .array (feed.extendedActions.map Entry.toJson)),
    ("expressions", .array (feed.expressions.map Entry.toJson)),
    ("dances", .array (feed.dances.map Entry.toJson)),
    ("skills", .array (feed.skills.map Entry.toJson))]

end Feed

end RobotBlocks.Catalog
