import RobotBlocks.Numeric.Nearest

/-!
# Reading numbers

Counts are digits with an optional plus sign.  Real numbers have an optional sign, digits around
an optional point, and an optional power of ten; the words for infinity and for the undefined
value are read in any case.
-/

namespace RobotBlocks.Numeric

/-- The value of decimal digits that continue a number. -/
def digitsValue (initial : Nat) (digits : List Char) : Nat :=
  digits.foldl (fun value digit => 10 * value + (digit.toNat - 48)) initial

/-- A count that is smaller than `bound`. -/
def readCount (bound : Nat) (text : List Char) : Option Nat :=
  let digits := match text with
    | '+' :: rest => rest
    | _ => text
  if digits ≠ [] ∧ digits.all Char.isDigit then
    let value := digitsValue 0 digits
    if value < bound then some value else none
  else
    none

def readCount32 (text : List Char) : Option UInt32 :=
  (readCount (2 ^ (32 : Nat)) text).map UInt32.ofNat

/-- The sign of a number and what follows it; no sign is a plus. -/
def readSign : List Char → Bool × List Char
  | '-' :: rest => (true, rest)
  | '+' :: rest => (false, rest)
  | text => (false, text)

/-- The power of ten at the end of a number, zero if there is none. -/
def readPower : List Char → Option Int
  | [] => some 0
  | mark :: rest =>
      let (negative, digits) := readSign rest
      if (mark = 'e' ∨ mark = 'E') ∧ digits ≠ [] ∧ digits.all Char.isDigit then
        let value : Int := digitsValue 0 digits
        some (if negative then -value else value)
      else
        none

def readMagnitude (negative : Bool) (text : List Char) : Option Binary64 :=
  let whole := text.takeWhile Char.isDigit
  let afterWhole := text.dropWhile Char.isDigit
  let afterPoint := match afterWhole with
    | '.' :: rest => rest
    | _ => []
  let places := afterPoint.takeWhile Char.isDigit
  let rest := match afterWhole with
    | '.' :: rest => rest.dropWhile Char.isDigit
    | _ => afterWhole
  if whole = [] ∧ places = [] then
    none
  else
    (readPower rest).map fun power =>
      Binary64.ofDecimal negative (digitsValue 0 (whole ++ places)) (power - places.length)

/-- A number, or one of the words for a value that is not finite. -/
def readReal (text : List Char) : Option Binary64 :=
  let (negative, magnitude) := readSign text
  let word := String.ofList (magnitude.map Char.toLower)
  if word = "inf" ∨ word = "infinity" then
    some (Binary64.ofMagnitude negative Binary64.infinityMagnitude)
  else if word = "nan" then
    some (Binary64.undefined negative)
  else
    readMagnitude negative magnitude

end RobotBlocks.Numeric
