/-!
# Catalog kinds

A device model ships five catalogs.  A code is only meaningful together with the catalog it comes
from, so the kind travels with every command.
-/

namespace RobotBlocks

/-- The catalog that a command comes from. -/
inductive Kind where
  | action
  | extendedAction
  | expression
  | dance
  | skill
deriving DecidableEq, Inhabited

namespace Kind

/-- Every kind, in palette order. -/
def all : List Kind :=
  [action, extendedAction, expression, dance, skill]

/-- The word for a kind in block types and scripts. -/
def word : Kind → String
  | action => "action"
  | extendedAction => "extended_action"
  | expression => "expression"
  | dance => "dance"
  | skill => "skill"

def category : Kind → String
  | action => "Actions"
  | extendedAction => "Extended Actions"
  | expression => "Expressions"
  | dance => "Dances"
  | skill => "Skills"

def ofWord? (text : String) : Option Kind :=
  all.find? fun kind => kind.word == text

@[simp] theorem ofWord?_word (kind : Kind) : ofWord? kind.word = some kind := by
  cases kind <;> decide

end Kind

end RobotBlocks
