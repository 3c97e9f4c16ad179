import RobotBlocks.Numeric.Binary64

/-!
# Values of a settings text

A settings text is a table: names with values, some of which are tables again.  A name has one
value.
-/

namespace RobotBlocks.Toml

inductive Value where
  | text (value : String)
  | integer (value : Int)
  | real (value : Binary64)
  | boolean (value : Bool)
  /-- A date, a time or both, as written. -/
  | moment (written : String)
  | array (elements : List Value)
  | table (entries : List (String × Value))
deriving Inhabited

def lookup {α : Type} (name : String) (entries : List (String × α)) : Option α :=
  (entries.find? fun entry => entry.1 == name).map Prod.snd

/-- Takes a value from the front of the text and returns the text that is left. -/
abbrev Reader (α : Type) := List Char → Option (α × List Char)

/-- How many arrays and tables of a value may be open at once. -/
def nestingLimit : Nat := 79

/-- How many names a path may have. -/
def longestPath : Nat := 79

/-! ## Space between values -/

def isGap (c : Char) : Bool :=
  c == ' ' || c == '\t'

/-- A character that may stand in a comment: no control character but the tab. -/
def isShown (c : Char) : Bool :=
  c == '\t' || (32 ≤ c.toNat && c.toNat != 127)

def skipGaps (text : List Char) : List Char :=
  text.dropWhile isGap

def skipComment : List Char → List Char
  | '#' :: rest => rest.dropWhile isShown
  | text => text

def lineEnd? : List Char → Option (List Char)
  | '\n' :: rest => some rest
  | '\r' :: '\n' :: rest => some rest
  | _ => none

/-- The rest of a line that holds nothing more but a comment; the last line may end anywhere. -/
def finishLine (text : List Char) : Option (List Char) :=
  match skipComment (skipGaps text) with
  | [] => some []
  | rest => lineEnd? rest

def skipLines : (comment : Bool) → List Char → List Char
  | _, [] => []
  | comment, c :: rest =>
      if c = '\n' ∨ (c = '\r' ∧ rest.head? = some '\n') then skipLines false rest
      else if comment then
        if isShown c then skipLines true rest else c :: rest
      else if isGap c then skipLines false rest
      else if c = '#' then skipLines true rest
      else c :: rest

end RobotBlocks.Toml
