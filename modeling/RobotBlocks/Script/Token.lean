import RobotBlocks.Text.Blank
import RobotBlocks.Script.Problem

/-!
# Tokens of a script line

A line is made of words, quoted texts, equals signs and braces.  The scanner reads one character
at a time and remembers what it is inside of; a word ends before a blank character, an equals
sign, a brace or a quote.
-/

namespace RobotBlocks.Script

inductive Token where
  | word (text : String)
  | text (content : String)
  | equals
  | opening
  | closing
deriving DecidableEq

/-- What the scanner is inside of, with the characters read so far, last one first. -/
inductive Mode where
  | between
  | word (reversed : List Char)
  | text (reversed : List Char)
  | escape (reversed : List Char)

def endsWord (c : Char) : Bool :=
  Text.isBlank c || c == '=' || c == '\x7b' || c == '\x7d' || c == '"'

/-- The tokens and the mode that a character between two tokens gives. -/
def start (c : Char) : List Token × Mode :=
  if Text.isBlank c then ([], .between)
  else if c = '=' then ([.equals], .between)
  else if c = '\x7b' then ([.opening], .between)
  else if c = '\x7d' then ([.closing], .between)
  else if c = '"' then ([], .text [])
  else ([], .word [c])

def unescape? (c : Char) : Option Char :=
  if c = '"' then some '"'
  else if c = '\\' then some '\\'
  else if c = 'n' then some '\n'
  else if c = 'r' then some '\r'
  else if c = 't' then some '\t'
  else none

/-- One step of the scanner: the tokens that a character completes, and the mode after it. -/
def step : Mode → Char → Except Problem (List Token × Mode)
  | .between, c => .ok (start c)
  | .word reversed, c =>
      if endsWord c then
        let (tokens, mode) := start c
        .ok (.word (String.ofList reversed.reverse) :: tokens, mode)
      else
        .ok ([], .word (c :: reversed))
  | .text reversed, c =>
      if c = '"' then .ok ([.text (String.ofList reversed.reverse)], .between)
      else if c = '\\' then .ok ([], .escape reversed)
      else .ok ([], .text (c :: reversed))
  | .escape reversed, c =>
      match unescape? c with
      | some plain => .ok ([], .text (plain :: reversed))
      | none => .error (.unknownEscape c)

/-- The tokens that the end of the line completes. -/
def finish : Mode → Except Problem (List Token)
  | .between => .ok []
  | .word reversed => .ok [.word (String.ofList reversed.reverse)]
  | .text _ => .error .unfinishedText
  | .escape _ => .error .unfinishedEscape

def scan : Mode → List Char → Except Problem (List Token)
  | mode, [] => finish mode
  | mode, c :: rest => do
      let (tokens, next) ← step mode c
      let more ← scan next rest
      return tokens ++ more

def tokenize (line : List Char) : Except Problem (List Token) :=
  scan .between line

end RobotBlocks.Script
