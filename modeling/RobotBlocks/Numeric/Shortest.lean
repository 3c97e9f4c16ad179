import RobotBlocks.Numeric.Nearest

/-!
# Shortest decimal digits

The decimal digits of a finite number are the fewest that read back as the same number, and of
those the ones nearest to it.  Two decimals can be equally near; which of them is taken is a
parameter.  A candidate counts only if it does read back, so the digits found always do.
-/

namespace RobotBlocks.Binary64

/-- A decimal number `digits * 10 ^ scale`. -/
structure Decimal where
  digits : Nat
  scale : Int
deriving DecidableEq, Inhabited

/-- Which of two equally near neighbours is taken. -/
inductive Tie where
  | up
  | toEven
deriving DecidableEq

namespace Decimal

/-- The same number without zeros at the end of its digits; `fuel` bounds how many go. -/
def trimZeros : Nat → Decimal → Decimal
  | 0, decimal => decimal
  | fuel + 1, ⟨digits, scale⟩ =>
      if digits ≠ 0 ∧ digits % 10 = 0 then trimZeros fuel ⟨digits / 10, scale + 1⟩
      else ⟨digits, scale⟩

end Decimal

/-- Whether `10 ^ power ≤ num / den`. -/
def powerAtMost (num den : Nat) (power : Int) : Bool :=
  10 ^ power.toNat * den ≤ num * 10 ^ (-power).toNat

/-- The greatest of `start`, `start + 1`, … whose power of ten is at most `num / den`. -/
def raisePower (num den : Nat) : Nat → Int → Int
  | 0, power => power
  | fuel + 1, power =>
      if powerAtMost num den (power + 1) then raisePower num den fuel (power + 1) else power

def leadingPower (num den : Nat) : Int :=
  let binary := (Nat.log2 num : Int) - Nat.log2 den
  raisePower num den 5 (((binary - 1) * 30103).fdiv 100000 - 1)

/-- The decimals above and below the magnitude of `x` on the grid of `10 ^ scale`, nearer first. -/
def neighbours (tie : Tie) (x : Binary64) (scale : Int) : List Decimal :=
  let (num, den) := x.ratio
  let above := num * 10 ^ (-scale).toNat
  let unit := den * 10 ^ scale.toNat
  let lower : Decimal := ⟨above / unit, scale⟩
  let upper : Decimal := ⟨above / unit + 1, scale⟩
  let twice := 2 * (above % unit)
  let lowerFirst :=
    if twice < unit then true
    else if unit < twice then false
    else
      match tie with
      | .up => false
      | .toEven => lower.digits % 2 == 0
  if lowerFirst then [lower, upper] else [upper, lower]

/-- Whether a decimal with the sign of `x` reads back as `x`. -/
def readsBack (x : Binary64) (decimal : Decimal) : Bool :=
  ofDecimal x.isNegative decimal.digits decimal.scale == x

def exactDecimal (x : Binary64) : Decimal :=
  ⟨x.significand * 2 ^ x.exponent.toNat * 5 ^ (-x.exponent).toNat, min x.exponent 0⟩

/-- The magnitude of a finite number, not zero, in the fewest digits that read back. -/
def shortest (tie : Tie) (x : Binary64) : Decimal :=
  let (num, den) := x.ratio
  let leading := leadingPower num den
  let found := (List.range 17).findSome? fun (count : Nat) =>
    (neighbours tie x (leading - count)).find? (readsBack x)
  (found.getD x.exactDecimal).trimZeros 20

end RobotBlocks.Binary64
