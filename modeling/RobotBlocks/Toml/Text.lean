import RobotBlocks.Toml.Value

/-!
# Texts between quotes

There are four ways to write a text: between single or double marks, each on one line or between
triple marks over several lines.  Only double marks know escapes.  A text over several lines does
not hold the line end right after its opening, and a backslash at the end of a line joins the next
word to it.
-/

namespace RobotBlocks.Toml

structure Quoting where
  mark : Char
  escapes : Bool
  lines : Bool
deriving DecidableEq

/-- The scanner's place inside a text. -/
inductive Place where
  | plain
  /-- After a carriage return, which only a line feed may follow. -/
  | lineFeed
  | escape
  /-- Inside the hexadecimal code of a character. -/
  | code (left value : Nat)
  /-- Between words that are joined; whether the line end has been passed. -/
  | joint (passed : Bool)
deriving DecidableEq

inductive Step where
  | emit (c : Char) (next : Place)
  | pass (next : Place)
  | close
  | stop
deriving DecidableEq

/-- What a character outside of escapes does; `rest` is the text after it. -/
def plainStep (quoting : Quoting) (c : Char) (rest : List Char) : Step :=
  if c = quoting.mark then
    if quoting.lines ∧ rest.take 2 ≠ [c, c] then .emit c .plain else .close
  else if quoting.escapes ∧ c = '\\' then .pass .escape
  else if quoting.lines ∧ c = '\n' then .emit c .plain
  else if quoting.lines ∧ c = '\r' then .pass .lineFeed
  else if isShown c then .emit c .plain
  else .stop

def hexValue? (c : Char) : Option Nat :=
  if '0' ≤ c ∧ c ≤ '9' then some (c.toNat - 48)
  else if 'a' ≤ c ∧ c ≤ 'f' then some (c.toNat - 87)
  else if 'A' ≤ c ∧ c ≤ 'F' then some (c.toNat - 55)
  else none

def shortEscape? (c : Char) : Option Char :=
  if c = 'b' then some '\x08'
  else if c = 't' then some '\t'
  else if c = 'n' then some '\n'
  else if c = 'f' then some '\x0c'
  else if c = 'r' then some '\r'
  else if c = '"' then some '"'
  else if c = '\\' then some '\\'
  else none

/-- What a character after a backslash does; `rest` is the text after it. -/
def escapeStep (quoting : Quoting) (c : Char) (rest : List Char) : Step :=
  match shortEscape? c with
  | some d => .emit d .plain
  | none =>
      if c = 'u' then .pass (.code 4 0)
      else if c = 'U' then .pass (.code 8 0)
      else if quoting.lines ∧ isGap c then .pass (.joint false)
      else if quoting.lines ∧ c = '\n' then .pass (.joint true)
      else if quoting.lines ∧ c = '\r' ∧ rest.head? = some '\n' then .pass (.joint false)
      else .stop

def codeStep (left value : Nat) (c : Char) : Step :=
  match hexValue? c with
  | none => .stop
  | some digit =>
      let value := 16 * value + digit
      if 1 < left then .pass (.code (left - 1) value)
      else if value.isValidChar then .emit (Char.ofNat value) .plain
      else .stop

def jointStep (quoting : Quoting) (passed : Bool) (c : Char) (rest : List Char) : Step :=
  if isGap c then .pass (.joint passed)
  else if c = '\n' then .pass (.joint true)
  else if c = '\r' ∧ rest.head? = some '\n' then .pass (.joint passed)
  else if passed then plainStep quoting c rest
  else .stop

def textStep (quoting : Quoting) : Place → Char → List Char → Step
  | .plain, c, rest => plainStep quoting c rest
  | .lineFeed, c, _ => if c = '\n' then .emit c .plain else .stop
  | .escape, c, rest => escapeStep quoting c rest
  | .code left value, c, _ => codeStep left value c
  | .joint passed, c, rest => jointStep quoting passed c rest

/-- The end of a text whose first closing mark has been read; up to two more marks belong to it. -/
def closeText (quoting : Quoting) (rest : List Char) : List Char × List Char :=
  if quoting.lines then
    let after := rest.drop 2
    let extra := (after.take 2).takeWhile (· == quoting.mark)
    (extra, after.drop extra.length)
  else
    ([], rest)

def scanText (quoting : Quoting) : Place → Reader (List Char)
  | _, [] => none
  | place, c :: rest =>
      match textStep quoting place c rest with
      | .emit d next => (scanText quoting next rest).map fun (text, rest) => (d :: text, rest)
      | .pass next => scanText quoting next rest
      | .close => some (closeText quoting rest)
      | .stop => none

def dropLineEnd (text : List Char) : List Char :=
  (lineEnd? text).getD text

def readInline (mark : Char) (escapes : Bool) : Reader String
  | [] => none
  | first :: rest =>
      if first = mark then
        (scanText ⟨mark, escapes, false⟩ .plain rest).map fun (text, rest) =>
          (String.ofList text, rest)
      else
        none

/-- A text between the given marks, over several lines if the marks are triple. -/
def readQuoted (mark : Char) (escapes : Bool) : Reader String := fun text =>
  if [mark, mark, mark].isPrefixOf text then
    (scanText ⟨mark, escapes, true⟩ .plain (dropLineEnd (text.drop 3))).map fun (text, rest) =>
      (String.ofList text, rest)
  else
    readInline mark escapes text

end RobotBlocks.Toml
