/-!
# Sixty-four bit binary numbers

A number is kept as its sixty-four bits, so that storing and reading it back loses nothing, not
even the payload of a value that is no number.  A finite number is its sign, an integer
significand and a power of two.
-/

namespace RobotBlocks

-- Powers of numbers are the core library's, also where the powers of a monoid are known.
attribute [instance (2000)] instPowNat

/-- A binary floating-point number, given by its bits. -/
structure Binary64 where
  bits : UInt64
deriving DecidableEq, Inhabited

namespace Binary64

def isNegative (x : Binary64) : Bool :=
  2 ^ (63 : Nat) ≤ x.bits.toNat

/-- The eleven exponent bits. -/
def exponentField (x : Binary64) : Nat :=
  x.bits.toNat / 2 ^ (52 : Nat) % 2 ^ (11 : Nat)

/-- The fifty-two fraction bits. -/
def fraction (x : Binary64) : Nat :=
  x.bits.toNat % 2 ^ (52 : Nat)

def isFinite (x : Binary64) : Bool :=
  x.exponentField != 2047

def isNaN (x : Binary64) : Bool :=
  x.exponentField == 2047 && x.fraction != 0

/-- Zero of either sign. -/
def isZero (x : Binary64) : Bool :=
  x.exponentField == 0 && x.fraction == 0

/-- At least zero; the negative zero counts and an undefined value does not. -/
def isNonNegative (x : Binary64) : Bool :=
  !x.isNaN && (!x.isNegative || x.isZero)

def significand (x : Binary64) : Nat :=
  if x.exponentField = 0 then x.fraction else x.fraction + 2 ^ (52 : Nat)

/-- The power of two that multiplies the significand of a finite number. -/
def exponent (x : Binary64) : Int :=
  if x.exponentField = 0 then -1074 else (x.exponentField : Int) - 1075

/-- The magnitude of a finite number as a quotient of naturals with a positive denominator. -/
def ratio (x : Binary64) : Nat × Nat :=
  (x.significand * 2 ^ x.exponent.toNat, 2 ^ (-x.exponent).toNat)

/-- Equality of values: an undefined value equals nothing and the two zeros are equal. -/
def sameValue (x y : Binary64) : Bool :=
  !x.isNaN && !y.isNaN && (x.bits == y.bits || (x.isZero && y.isZero))

/-- A number with the given sign whose other bits are `magnitude`. -/
def ofMagnitude (negative : Bool) (magnitude : Nat) : Binary64 :=
  ⟨UInt64.ofNat (magnitude + if negative then 2 ^ (63 : Nat) else 0)⟩

def infinityMagnitude : Nat := 2047 * 2 ^ (52 : Nat)

/-- Zero with a positive sign. -/
def zero : Binary64 := ⟨0⟩

/-- The undefined value that reading the word for it gives, with the sign in front of the word. -/
def undefined (negative : Bool) : Binary64 :=
  ofMagnitude negative (infinityMagnitude + 2 ^ (51 : Nat))

/-- The correctly rounded sum. -/
def add (x y : Binary64) : Binary64 :=
  ⟨(Float.ofBits x.bits + Float.ofBits y.bits).toBits⟩

/-- The value as a natural number, if it is a whole number and not below zero. -/
def toNat? (x : Binary64) : Option Nat :=
  if x.isFinite && x.isNonNegative then
    let (num, den) := x.ratio
    if num % den = 0 then some (num / den) else none
  else
    none

def toCount? (x : Binary64) : Option UInt32 :=
  x.toNat?.bind fun n => if n < 2 ^ (32 : Nat) then some (UInt32.ofNat n) else none

/--
The nearest thirty-two bit count, halves going up, of a value that lies between zero and the
largest count.
-/
def roundToCount? (x : Binary64) : Option UInt32 :=
  if x.isFinite && x.isNonNegative then
    let (num, den) := x.ratio
    if num ≤ (2 ^ (32 : Nat) - 1) * den then
      some (UInt32.ofNat ((2 * num + den) / (2 * den)))
    else
      none
  else
    none

end Binary64

end RobotBlocks
