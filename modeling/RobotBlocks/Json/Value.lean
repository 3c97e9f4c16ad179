import RobotBlocks.Json.Token
import RobotBlocks.Numeric.Nearest

/-!
# Values of a document

A text token means its bytes, with the escaped units joined to characters; a number token means a
whole number of at most sixty-four bits if it is written as one, and otherwise the nearest binary
number.
-/

namespace RobotBlocks.Json

/-- A unit that starts a pair. -/
def isHighUnit (unit : Nat) : Bool :=
  0xD800 ≤ unit && unit < 0xDC00

/-- A unit that ends a pair. -/
def isLowUnit (unit : Nat) : Bool :=
  0xDC00 ≤ unit && unit < 0xE000

/-- The bytes of the character with the given code. -/
def charBytes (code : Nat) : List UInt8 :=
  String.utf8EncodeChar (Char.ofNat code)

/-- The bytes of a text; `pending` is a unit that still needs the other half of its pair. -/
def joinPieces : (pending : Option Nat) → List Piece → Option (List UInt8)
  | none, [] => some []
  | some _, [] => none
  | none, .byte b :: rest => (joinPieces none rest).map (b :: ·)
  | some _, .byte _ :: _ => none
  | none, .unit unit :: rest =>
      if isHighUnit unit then joinPieces (some unit) rest
      else if isLowUnit unit then none
      else (joinPieces none rest).map (charBytes unit ++ ·)
  | some high, .unit low :: rest =>
      if isLowUnit low then
        let code := 0x10000 + (high - 0xD800) * 0x400 + (low - 0xDC00)
        (joinPieces none rest).map (charBytes code ++ ·)
      else
        none

def textOf? (pieces : List Piece) : Option String :=
  (joinPieces none pieces).bind fun bytes => String.fromUTF8? bytes.toByteArray

inductive Number where
  | natural (value : Nat)
  | negative (magnitude : Nat)
  | real (value : Binary64)
deriving DecidableEq

def Number.toReal : Number → Binary64
  | .natural value => .ofNat value
  | .negative magnitude => .ofDecimal true magnitude 0
  | .real value => value

namespace Numeral

/-- The nearest binary number, unless that is infinite. -/
def toReal? (numeral : Numeral) : Option Binary64 :=
  let value := Binary64.ofDecimal numeral.negative numeral.digits numeral.scale
  if value.isFinite then some value else none

def toNumber? (numeral : Numeral) : Option Number :=
  if numeral.whole && !numeral.negative && numeral.digits < 2 ^ (64 : Nat) then
    some (.natural numeral.digits)
  else if numeral.whole && numeral.negative && 0 < numeral.digits &&
      numeral.digits ≤ 2 ^ (63 : Nat) then
    some (.negative numeral.digits)
  else
    numeral.toReal?.map .real

/-- A count that fits in thirty-two bits. -/
def toCount? (numeral : Numeral) : Option UInt32 :=
  if numeral.whole && !numeral.negative && numeral.digits < 2 ^ (32 : Nat) then
    some (UInt32.ofNat numeral.digits)
  else
    none

end Numeral

/-- A value of a document; an object keeps its members as they were written. -/
inductive Value where
  | null
  | boolean (value : Bool)
  | number (value : Number)
  | text (value : String)
  | array (elements : List Value)
  | object (members : List (String × Value))
deriving Inhabited

end RobotBlocks.Json
