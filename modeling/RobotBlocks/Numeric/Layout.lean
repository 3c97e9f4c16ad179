import RobotBlocks.Numeric.Shortest

/-!
# Decimal text of numbers

Two layouts of the shortest digits.  The plain layout is always positional and is used in
scripts.  The document layout marks whole numbers with `.0` and turns to a power of ten for very
large and very small numbers.  Fixed places are rounded from the exact value.
-/

namespace RobotBlocks.Binary64

def digitChars (n : Nat) : List Char :=
  Nat.toDigits 10 n

/-- The digits with the point where the scale puts it, without an exponent. -/
def positional (decimal : Decimal) : List Char :=
  let digits := digitChars decimal.digits
  if 0 ≤ decimal.scale then
    digits ++ List.replicate decimal.scale.toNat '0'
  else
    let places := (-decimal.scale).toNat
    if places < digits.length then
      digits.take (digits.length - places) ++ '.' :: digits.drop (digits.length - places)
    else
      '0' :: '.' :: (List.replicate (places - digits.length) '0' ++ digits)

/-- One digit, the others after a point, and the power of ten with its sign. -/
def scientific (decimal : Decimal) : List Char :=
  let digits := digitChars decimal.digits
  let power := decimal.scale + digits.length - 1
  let rest := digits.drop 1
  digits.take 1 ++ (if rest.isEmpty then [] else '.' :: rest) ++
    'e' :: (if power < 0 then '-' else '+') :: digitChars power.natAbs

def signChars (x : Binary64) : List Char :=
  if x.isNegative then ['-'] else []

/-- Plain text: positional, no point for whole numbers, words for what is not finite. -/
def plain (x : Binary64) : List Char :=
  if x.isNaN then "NaN".toList
  else if !x.isFinite then x.signChars ++ "inf".toList
  else if x.isZero then x.signChars ++ ['0']
  else x.signChars ++ positional (x.shortest .up)

/--
Document text of a finite number: positional with at least one decimal place while the power of
the leading digit lies from -5 to 15, and otherwise one digit before the point and a power of ten.
-/
def documentText (x : Binary64) : List Char :=
  if x.isZero then
    x.signChars ++ "0.0".toList
  else
    let decimal := x.shortest .toEven
    let power := decimal.scale + (digitChars decimal.digits).length - 1
    x.signChars ++
      if -5 ≤ power ∧ power < 16 then
        positional decimal ++ if 0 ≤ decimal.scale then ['.', '0'] else []
      else
        scientific decimal

/-- Text with one decimal place, the exact value rounded with ties to the even digit. -/
def tenths (x : Binary64) : List Char :=
  if x.isNaN then "NaN".toList
  else if !x.isFinite then x.signChars ++ "inf".toList
  else
    let (num, den) := x.ratio
    let rounded := roundDiv (10 * num) den
    x.signChars ++ digitChars (rounded / 10) ++ '.' :: digitChars (rounded % 10)

end RobotBlocks.Binary64
