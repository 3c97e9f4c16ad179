/-!
# Tokens of a document

A document is a sequence of bytes, read as a sequence of tokens.  The scanner reads one byte at a
time.  It checks only what holds for every token: a text keeps its bytes and its escapes apart
from each other, and a number keeps its digits, so that a value nobody asks for is never refused
for what it would mean.  The first byte that fits nowhere gives the token `broken` and ends the
scanning, which keeps problems in the order of the text.
-/

namespace RobotBlocks.Json

/-- A piece of a text: a byte of its own, or an escaped sixteen-bit unit. -/
inductive Piece where
  | byte (value : UInt8)
  | unit (value : Nat)
deriving DecidableEq

/-- A number as written: `digits * 10 ^ scale` with a sign. -/
structure Numeral where
  negative : Bool
  digits : Nat
  scale : Int
  /-- Written without a point and without a power of ten. -/
  whole : Bool
deriving DecidableEq

inductive Token where
  | arrayOpen
  | arrayClose
  | objectOpen
  | objectClose
  | comma
  | colon
  | null
  | boolean (value : Bool)
  | number (numeral : Numeral)
  | text (pieces : List Piece)
  | broken
deriving DecidableEq

/-- How far a number has been read. -/
inductive Stage where
  | sign
  | zero
  | whole
  | point
  | places
  | mark
  | powerSign
  | power
deriving DecidableEq

structure Partial where
  stage : Stage
  negative : Bool
  digits : Nat := 0
  places : Nat := 0
  powerNegative : Bool := false
  power : Nat := 0

/-- What the scanner is inside of; the pieces of a text come last one first. -/
inductive Mode where
  | between
  | word (expected : List UInt8) (token : Token)
  | text (reversed : List Piece)
  | escape (reversed : List Piece)
  | unit (left : Nat) (value : Nat) (reversed : List Piece)
  | number (sofar : Partial)
  | stopped

def digit? (b : UInt8) : Option Nat :=
  if 48 ≤ b ∧ b ≤ 57 then some (b.toNat - 48) else none

/-- A hexadecimal digit in either case. -/
def hexDigit? (b : UInt8) : Option Nat :=
  if 48 ≤ b ∧ b ≤ 57 then some (b.toNat - 48)
  else if 97 ≤ b ∧ b ≤ 102 then some (b.toNat - 87)
  else if 65 ≤ b ∧ b ≤ 70 then some (b.toNat - 55)
  else none

/-- Space, tab, line feed and carriage return. -/
def isSpace (b : UInt8) : Bool :=
  b == 32 || b == 9 || b == 10 || b == 13

def stop : List Token × Mode :=
  ([.broken], .stopped)

/-- What a byte between two tokens gives. -/
def start (b : UInt8) : List Token × Mode :=
  if isSpace b then ([], .between)
  else if b = 91 then ([.arrayOpen], .between)
  else if b = 93 then ([.arrayClose], .between)
  else if b = 123 then ([.objectOpen], .between)
  else if b = 125 then ([.objectClose], .between)
  else if b = 44 then ([.comma], .between)
  else if b = 58 then ([.colon], .between)
  else if b = 34 then ([], .text [])
  else if b = 110 then ([], .word [117, 108, 108] .null)
  else if b = 116 then ([], .word [114, 117, 101] (.boolean true))
  else if b = 102 then ([], .word [97, 108, 115, 101] (.boolean false))
  else if b = 45 then ([], .number { stage := .sign, negative := true })
  else
    match digit? b with
    | some 0 => ([], .number { stage := .zero, negative := false })
    | some digit => ([], .number { stage := .whole, negative := false, digits := digit })
    | none => stop

def shortEscape? (b : UInt8) : Option UInt8 :=
  if b = 34 then some 34
  else if b = 92 then some 92
  else if b = 47 then some 47
  else if b = 98 then some 8
  else if b = 102 then some 12
  else if b = 110 then some 10
  else if b = 114 then some 13
  else if b = 116 then some 9
  else none

namespace Partial

def complete (sofar : Partial) : Bool :=
  match sofar.stage with
  | .zero | .whole | .places | .power => true
  | _ => false

def numeral (sofar : Partial) : Numeral :=
  let power : Int := if sofar.powerNegative then -sofar.power else sofar.power
  { negative := sofar.negative
    digits := sofar.digits
    scale := power - sofar.places
    whole := sofar.stage == .zero || sofar.stage == .whole }

/-- The number with one more byte, if the byte belongs to it. -/
def extend? (sofar : Partial) (b : UInt8) : Option Partial :=
  match sofar.stage, digit? b with
  | .sign, some 0 => some { sofar with stage := .zero }
  | .sign, some digit => some { sofar with stage := .whole, digits := digit }
  | .whole, some digit => some { sofar with digits := 10 * sofar.digits + digit }
  | .point, some digit | .places, some digit =>
      some { sofar with
        stage := .places, digits := 10 * sofar.digits + digit, places := sofar.places + 1 }
  | .mark, some digit | .powerSign, some digit | .power, some digit =>
      some { sofar with stage := .power, power := 10 * sofar.power + digit }
  | .zero, none | .whole, none =>
      if b = 46 then some { sofar with stage := .point }
      else if b = 101 ∨ b = 69 then some { sofar with stage := .mark }
      else none
  | .places, none =>
      if b = 101 ∨ b = 69 then some { sofar with stage := .mark } else none
  | .mark, none =>
      if b = 43 then some { sofar with stage := .powerSign }
      else if b = 45 then some { sofar with stage := .powerSign, powerNegative := true }
      else none
  | _, _ => none

end Partial

/-- One step of the scanner: the tokens that a byte completes, and the mode after it. -/
def step : Mode → UInt8 → List Token × Mode
  | .between, b => start b
  | .word [] _, _ => stop
  | .word (expected :: rest) token, b =>
      if b ≠ expected then stop
      else if rest.isEmpty then ([token], .between)
      else ([], .word rest token)
  | .text reversed, b =>
      if b = 34 then ([.text reversed.reverse], .between)
      else if b = 92 then ([], .escape reversed)
      else if b < 32 then stop
      else ([], .text (.byte b :: reversed))
  | .escape reversed, b =>
      if b = 117 then ([], .unit 4 0 reversed)
      else
        match shortEscape? b with
        | some plain => ([], .text (.byte plain :: reversed))
        | none => stop
  | .unit left value reversed, b =>
      match hexDigit? b with
      | some digit =>
          let value := 16 * value + digit
          if left ≤ 1 then ([], .text (.unit value :: reversed))
          else ([], .unit (left - 1) value reversed)
      | none => stop
  | .number sofar, b =>
      match sofar.extend? b with
      | some more => ([], .number more)
      | none =>
          if sofar.complete then
            let (tokens, mode) := start b
            if sofar.stage = .zero ∧ (digit? b).isSome then stop
            else (.number sofar.numeral :: tokens, mode)
          else
            stop
  | .stopped, _ => ([], .stopped)

/-- The tokens that the end of the document completes. -/
def finish : Mode → List Token
  | .between => []
  | .number sofar => if sofar.complete then [.number sofar.numeral] else [.broken]
  | .stopped => []
  | _ => [.broken]

def scan : Mode → List UInt8 → List Token
  | mode, [] => finish mode
  | mode, b :: rest =>
      let (tokens, next) := step mode b
      tokens ++ scan next rest

def tokens (bytes : List UInt8) : List Token :=
  scan .between bytes

end RobotBlocks.Json
