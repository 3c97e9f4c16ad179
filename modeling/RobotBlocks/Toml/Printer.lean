import RobotBlocks.Toml.Value

/-!
# Printing a settings text

Names stand on lines of their own with their values after them.  A text is written in the
plainest of the four ways that can hold it: between double marks if it needs no escape, else
between single marks, else over several lines, and only then with escapes.
-/

namespace RobotBlocks.Toml

def longestRun (mark : Char) : (current : Nat) → List Char → Nat
  | current, [] => current
  | current, c :: rest =>
      if c = mark then longestRun mark (current + 1) rest
      else max current (longestRun mark 0 rest)

/-- A control character that can only be written as an escape. -/
def needsCode (c : Char) : Bool :=
  c != '\n' && !isShown c

def codeDigit (n : Nat) : Char :=
  Char.ofNat (if n < 10 then 48 + n else 55 + n)

/-- A character as an escape, if it is written as one between double marks. -/
def escapeOf? (lines : Bool) (c : Char) : Option (List Char) :=
  if c = '\\' then some ['\\', '\\']
  else if c = '\t' then some ['\\', 't']
  else if c = '\n' then if lines then none else some ['\\', 'n']
  else if c = '\r' then some ['\\', 'r']
  else if c.toNat = 8 then some ['\\', 'b']
  else if c.toNat = 12 then some ['\\', 'f']
  else if needsCode c then
    some ['\\', 'u', '0', '0', codeDigit (c.toNat / 16), codeDigit (c.toNat % 16)]
  else none

/--
Characters between double marks; `run` is the number of marks right before them.  One line holds
no bare mark, and several lines hold at most two in a row.
-/
def printBasic (lines : Bool) : (run : Nat) → List Char → List Char
  | _, [] => []
  | run, c :: rest =>
      if c = '"' then
        if lines ∧ run < 2 then c :: printBasic lines (run + 1) rest
        else '\\' :: c :: printBasic lines 0 rest
      else (escapeOf? lines c).getD [c] ++ printBasic lines 0 rest

/-- The triple mark that opens a text over several lines, with a line end if the text has one. -/
def openLines (mark : Char) (text : List Char) : List Char :=
  [mark, mark, mark] ++ if text.contains '\n' then ['\n'] else []

def printLines (text : List Char) : List Char :=
  openLines '"' text ++ printBasic true 0 text ++ ['"', '"', '"']

def printLine (text : List Char) : List Char :=
  '"' :: (printBasic false 0 text ++ ['"'])

def printText (text : List Char) : List Char :=
  let coded := text.any needsCode
  let slashed := text.contains '\\'
  let broken := text.contains '\n'
  let doubles := longestRun '"' 0 text
  let singles := longestRun '\'' 0 text
  if !coded && !slashed && !broken && doubles == 0 then printLine text
  else if !coded && !broken && singles == 0 then '\'' :: (text ++ ['\''])
  else if !coded && !slashed && doubles ≤ 2 then printLines text
  else if !coded && singles ≤ 2 then openLines '\'' text ++ text ++ ['\'', '\'', '\'']
  else if broken then printLines text
  else printLine text

def printEntry (name : String) (value : List Char) : List Char :=
  name.toList ++ " = ".toList ++ value ++ ['\n']

def printHeader (name : String) : List Char :=
  '[' :: (name.toList ++ [']', '\n'])

end RobotBlocks.Toml
