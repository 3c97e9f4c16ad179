import RobotBlocks.Numeric.Binary64

/-!
# The nearest binary number

Quotients of naturals and decimal numbers are rounded to the nearest binary number in exact
arithmetic; a tie goes to the even significand, and what is too large becomes infinite.
-/

namespace RobotBlocks.Binary64

/-- The quotient rounded to the nearest natural, a tie to the even one. -/
def roundDiv (num den : Nat) : Nat :=
  let quotient := num / den
  let twice := 2 * (num % den)
  if twice < den then quotient
  else if den < twice then quotient + 1
  else if quotient % 2 = 0 then quotient
  else quotient + 1

/-- The quotient `num / den / 2 ^ power` as a quotient of naturals. -/
def scaleDown (num den : Nat) (power : Int) : Nat × Nat :=
  (num * 2 ^ (-power).toNat, den * 2 ^ power.toNat)

/--
The power of two at which the significand of `num / den` has fifty-three bits, or the least power
there is.
-/
def unitPower (num den : Nat) : Int :=
  let guess := max (-1074) ((Nat.log2 num : Int) - Nat.log2 den - 53)
  let (above, below) := scaleDown num den guess
  if 2 ^ (53 : Nat) * below ≤ above then guess + 1 else guess

/-- The binary number nearest to `num / den`, with the given sign. -/
def ofRatio (negative : Bool) (num den : Nat) : Binary64 :=
  if num = 0 then
    ofMagnitude negative 0
  else
    let power := unitPower num den
    let (above, below) := scaleDown num den power
    let magnitude := (power + 1074).toNat * 2 ^ (52 : Nat) + roundDiv above below
    ofMagnitude negative (min magnitude infinityMagnitude)

/--
The binary number nearest to `digits * 10 ^ scale`.  Scales far outside the range are answered
without forming the power of ten.
-/
def ofDecimal (negative : Bool) (digits : Nat) (scale : Int) : Binary64 :=
  if digits = 0 then
    ofMagnitude negative 0
  else if 400 < scale then
    ofMagnitude negative infinityMagnitude
  else if scale < -((Nat.log2 digits : Int) + 400) then
    ofMagnitude negative 0
  else
    ofRatio negative (digits * 10 ^ scale.toNat) (10 ^ (-scale).toNat)

def ofNat (n : Nat) : Binary64 :=
  ofRatio false n 1

end RobotBlocks.Binary64
