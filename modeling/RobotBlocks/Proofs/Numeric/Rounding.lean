import Mathlib.Algebra.Order.Field.Power
import Mathlib.Data.Rat.Cast.Order
import Mathlib.Tactic.GCongr
import Mathlib.Tactic.Linarith
import Mathlib.Tactic.NormNum
import Mathlib.Tactic.Positivity
import Mathlib.Tactic.Ring
import RobotBlocks.Numeric.Nearest

/-!
# Rounding to the nearest binary number

The nearest binary number of a quotient depends on the value of the quotient and not on how it is
written, and a quotient whose value is a finite binary number is rounded to that number.  Both
rest on one description of the unit power: it is the only power of two at which the significand
has fifty-three bits, or the least power there is.
-/

namespace RobotBlocks.Binary64

/-! ## The unit power -/

/-- The power of two that the last bit of the significand of a value stands for. -/
structure HasUnitPower (value : ℚ) (power : ℤ) : Prop where
  least : -1074 ≤ power
  below : value < 2 ^ (power + 53)
  normal : power = -1074 ∨ 2 ^ (power + 52) ≤ value

theorem HasUnitPower.le {value : ℚ} {first second : ℤ}
    (one : HasUnitPower value first) (other : HasUnitPower value second) : first ≤ second := by
  rcases one.normal with least | normal
  · rw [least]
    exact other.least
  · have smaller : (2 : ℚ) ^ (first + 52) < 2 ^ (second + 53) := normal.trans_lt other.below
    have powers := (zpow_lt_zpow_iff_right₀ (by norm_num : (1 : ℚ) < 2)).mp smaller
    omega

/-- A value has one unit power at most. -/
theorem HasUnitPower.unique {value : ℚ} {first second : ℤ}
    (one : HasUnitPower value first) (other : HasUnitPower value second) : first = second :=
  le_antisymm (one.le other) (other.le one)

/-- A power with an integer exponent as the quotient that the scaling functions build. -/
theorem zpow_eq_div (base : ℚ) (power : ℤ) :
    base ^ power = base ^ power.toNat / base ^ (-power).toNat := by
  rcases le_total 0 power with nonnegative | negative
  · rw [Int.toNat_of_nonpos (Int.neg_nonpos_of_nonneg nonnegative), pow_zero, div_one,
      ← zpow_natCast, Int.toNat_of_nonneg nonnegative]
  · rw [Int.toNat_of_nonpos negative, pow_zero, one_div, ← zpow_natCast,
      Int.toNat_of_nonneg (Int.neg_nonneg_of_nonpos negative), zpow_neg, inv_inv]

theorem scaleDown_value (num den : ℕ) (power : ℤ) :
    ((scaleDown num den power).1 : ℚ) / (scaleDown num den power).2 =
      (num : ℚ) / den / 2 ^ power := by
  rw [zpow_eq_div]
  simp only [scaleDown, Nat.cast_mul, Nat.cast_pow, Nat.cast_ofNat]
  rw [div_div_eq_mul_div, mul_div_mul_comm, mul_div_assoc]

theorem scaleDown_pos {den : ℕ} (positive : 0 < den) (num : ℕ) (power : ℤ) :
    0 < (scaleDown num den power).2 :=
  Nat.mul_pos positive (Nat.two_pow_pos _)

/-- The leading bits of both parts leave two candidates for the leading bit of a quotient. -/
theorem log2_bounds {num den : ℕ} (numPos : 0 < num) (denPos : 0 < den) :
    (2 : ℚ) ^ ((Nat.log2 num : ℤ) - Nat.log2 den - 1) < num / den ∧
      (num : ℚ) / den < 2 ^ ((Nat.log2 num : ℤ) - Nat.log2 den + 1) := by
  have numLow : (2 : ℚ) ^ Nat.log2 num ≤ num := by
    exact_mod_cast Nat.log2_self_le numPos.ne'
  have numHigh : (num : ℚ) < 2 ^ (Nat.log2 num + 1) := by
    exact_mod_cast Nat.lt_log2_self
  have denLow : (2 : ℚ) ^ Nat.log2 den ≤ den := by
    exact_mod_cast Nat.log2_self_le denPos.ne'
  have denHigh : (den : ℚ) < 2 ^ (Nat.log2 den + 1) := by
    exact_mod_cast Nat.lt_log2_self
  have denPositive : (0 : ℚ) < den := by exact_mod_cast denPos
  constructor
  · rw [lt_div_iff₀ denPositive]
    calc (2 : ℚ) ^ ((Nat.log2 num : ℤ) - Nat.log2 den - 1) * den
        < 2 ^ ((Nat.log2 num : ℤ) - Nat.log2 den - 1) * 2 ^ (Nat.log2 den + 1) := by
          exact mul_lt_mul_of_pos_left denHigh (by positivity)
      _ = 2 ^ Nat.log2 num := by
          rw [← zpow_natCast, ← zpow_natCast, ← zpow_add₀ two_ne_zero]
          congr 1
          push_cast
          ring
      _ ≤ num := numLow
  · rw [div_lt_iff₀ denPositive]
    calc (num : ℚ) < 2 ^ (Nat.log2 num + 1) := numHigh
      _ = 2 ^ ((Nat.log2 num : ℤ) - Nat.log2 den + 1) * 2 ^ Nat.log2 den := by
          rw [← zpow_natCast, ← zpow_natCast, ← zpow_add₀ two_ne_zero]
          congr 1
          push_cast
          ring
      _ ≤ 2 ^ ((Nat.log2 num : ℤ) - Nat.log2 den + 1) * den := by
          exact mul_le_mul_of_nonneg_left denLow (by positivity)

theorem zpow_two_mono {first second : ℤ} (le : first ≤ second) :
    (2 : ℚ) ^ first ≤ 2 ^ second :=
  zpow_le_zpow_right₀ (by norm_num) le

/-- Comparing the parts of a scaled quotient compares the value with a power of two. -/
theorem scaleDown_test {num den : ℕ} (denPos : 0 < den) (power : ℤ) (bits : ℕ) :
    2 ^ bits * (scaleDown num den power).2 ≤ (scaleDown num den power).1 ↔
      (2 : ℚ) ^ (power + bits) ≤ num / den := by
  have belowPos : (0 : ℚ) < (scaleDown num den power).2 := by
    exact_mod_cast scaleDown_pos denPos num power
  have powerPos : (0 : ℚ) < 2 ^ power := by positivity
  rw [← Nat.cast_le (α := ℚ), Nat.cast_mul, ← le_div_iff₀ belowPos, scaleDown_value,
    le_div_iff₀ powerPos, add_comm power, zpow_add₀ two_ne_zero, zpow_natCast, Nat.cast_pow,
    Nat.cast_ofNat]

/-- The unit power that is computed is the unit power of the value. -/
theorem unitPower_spec {num den : ℕ} (numPos : 0 < num) (denPos : 0 < den) :
    HasUnitPower ((num : ℚ) / den) (unitPower num den) := by
  obtain ⟨low, high⟩ := log2_bounds numPos denPos
  have test := @scaleDown_test num den denPos
    (max (-1074) ((Nat.log2 num : ℤ) - Nat.log2 den - 53)) 53
  unfold unitPower
  simp only
  split
  · rename_i large
    refine ⟨by omega, high.trans_le (zpow_two_mono (by omega)), Or.inr ?_⟩
    have enough := test.mp large
    rwa [show ∀ guess : ℤ, guess + 1 + 52 = guess + 53 by intro; ring]
  · rename_i small
    refine ⟨by omega, not_le.mp fun large => small (test.mpr large), ?_⟩
    rcases le_total ((Nat.log2 num : ℤ) - Nat.log2 den - 53) (-1074) with least | normal
    · exact Or.inl (max_eq_left least)
    · rw [max_eq_right normal]
      exact Or.inr ((zpow_two_mono (by omega)).trans low.le)

/-! ## Values decide -/

theorem roundDiv_mul_right {factor : ℕ} (positive : 0 < factor) (num den : ℕ) :
    roundDiv (num * factor) (den * factor) = roundDiv num den := by
  have twice : 2 * (num % den * factor) = 2 * (num % den) * factor := by ring
  unfold roundDiv
  simp only [Nat.mul_div_mul_right _ _ positive, Nat.mul_mod_mul_right, twice,
    Nat.mul_lt_mul_right positive]

/-- Rounding a quotient depends on its value only. -/
theorem roundDiv_congr {num den num' den' : ℕ} (denPos : 0 < den) (denPos' : 0 < den')
    (same : (num : ℚ) / den = num' / den') : roundDiv num den = roundDiv num' den' := by
  have crossed : (num : ℚ) * den' = num' * den :=
    (div_eq_div_iff (by exact_mod_cast denPos.ne') (by exact_mod_cast denPos'.ne')).mp same
  have products : num * den' = num' * den := by exact_mod_cast crossed
  calc roundDiv num den = roundDiv (num * den') (den * den') :=
        (roundDiv_mul_right denPos' num den).symm
    _ = roundDiv (num' * den) (den' * den) := by rw [products, Nat.mul_comm den den']
    _ = roundDiv num' den' := roundDiv_mul_right denPos num' den'

theorem ofRatio_zero (negative : Bool) (den : ℕ) :
    ofRatio negative 0 den = ofMagnitude negative 0 := by
  unfold ofRatio
  rw [if_pos rfl]

/-- The nearest binary number, described by the unit power of the value. -/
theorem ofRatio_of_unitPower {num den : ℕ} (numPos : 0 < num) (denPos : 0 < den) {power : ℤ}
    (unit : HasUnitPower ((num : ℚ) / den) power) (negative : Bool) :
    ofRatio negative num den = ofMagnitude negative
      (min ((power + 1074).toNat * 2 ^ 52 +
        roundDiv (scaleDown num den power).1 (scaleDown num den power).2) infinityMagnitude) := by
  have same : unitPower num den = power := (unitPower_spec numPos denPos).unique unit
  unfold ofRatio
  rw [if_neg numPos.ne', same]

/-- The nearest binary number of a quotient depends on the value of the quotient only. -/
theorem ofRatio_congr {num den num' den' : ℕ} (denPos : 0 < den) (denPos' : 0 < den')
    (same : (num : ℚ) / den = num' / den') (negative : Bool) :
    ofRatio negative num den = ofRatio negative num' den' := by
  have denCast : (den : ℚ) ≠ 0 := by exact_mod_cast denPos.ne'
  have denCast' : (den' : ℚ) ≠ 0 := by exact_mod_cast denPos'.ne'
  rcases Nat.eq_zero_or_pos num with zero | numPos
  · have zero' : num' = 0 := by
      rw [zero, Nat.cast_zero, zero_div, eq_comm, div_eq_zero_iff] at same
      exact_mod_cast same.resolve_right denCast'
    rw [zero, zero', ofRatio_zero, ofRatio_zero]
  · have numPos' : 0 < num' := by
      refine Nat.pos_of_ne_zero fun zero' => ?_
      rw [zero', Nat.cast_zero, zero_div, div_eq_zero_iff] at same
      exact numPos.ne' (by exact_mod_cast same.resolve_right denCast)
    have unit := unitPower_spec numPos denPos
    have unit' : HasUnitPower ((num' : ℚ) / den') (unitPower num den) := same ▸ unit
    rw [ofRatio_of_unitPower numPos denPos unit, ofRatio_of_unitPower numPos' denPos' unit',
      roundDiv_congr (scaleDown_pos denPos num _) (scaleDown_pos denPos' num' _)
        (by rw [scaleDown_value, scaleDown_value, same])]

/-! ## Finite numbers are their own nearest numbers -/

theorem fraction_lt (x : Binary64) : x.fraction < 2 ^ 52 :=
  Nat.mod_lt _ (by norm_num)

theorem exponentField_lt (x : Binary64) : x.exponentField < 2 ^ 11 :=
  Nat.mod_lt _ (by norm_num)

theorem isFinite_iff (x : Binary64) : x.isFinite = true ↔ x.exponentField < 2047 := by
  have bound := exponentField_lt x
  simp only [isFinite, bne_iff_ne]
  omega

/-- The bits of a number are its sign, its exponent field and its fraction. -/
theorem bits_eq (x : Binary64) :
    x.bits.toNat =
      x.exponentField * 2 ^ 52 + x.fraction + if x.isNegative then 2 ^ 63 else 0 := by
  have bound : x.bits.toNat < 2 ^ 64 := x.bits.toNat_lt
  by_cases negative : x.isNegative = true
  · have high : 2 ^ 63 ≤ x.bits.toNat := of_decide_eq_true negative
    rw [if_pos negative]
    unfold exponentField fraction
    omega
  · have low : ¬2 ^ 63 ≤ x.bits.toNat := fun high => negative (decide_eq_true high)
    rw [if_neg negative]
    unfold exponentField fraction
    omega

/-- A number is made of its sign and its other bits. -/
theorem ofMagnitude_fields (x : Binary64) :
    ofMagnitude x.isNegative (x.exponentField * 2 ^ 52 + x.fraction) = x := by
  unfold ofMagnitude
  rw [← bits_eq x, UInt64.ofNat_toNat]

theorem significand_lt (x : Binary64) : x.significand < 2 ^ 53 := by
  have bound := fraction_lt x
  unfold significand
  split <;> omega

theorem ratio_den_pos (x : Binary64) : 0 < x.ratio.2 :=
  Nat.two_pow_pos _

theorem ratio_value (x : Binary64) :
    (x.ratio.1 : ℚ) / x.ratio.2 = x.significand * 2 ^ x.exponent := by
  rw [zpow_eq_div]
  simp only [ratio, Nat.cast_mul, Nat.cast_pow, Nat.cast_ofNat]
  rw [mul_div_assoc]

/-- The exponent of a finite number is the unit power of its magnitude. -/
theorem hasUnitPower_exponent (x : Binary64) :
    HasUnitPower (x.significand * 2 ^ x.exponent) x.exponent := by
  have small : (x.significand : ℚ) < 2 ^ 53 := by exact_mod_cast significand_lt x
  have positive : (0 : ℚ) < 2 ^ x.exponent := by positivity
  refine ⟨?_, ?_, ?_⟩
  · unfold exponent
    split <;> omega
  · rw [zpow_add₀ two_ne_zero, mul_comm]
    exact mul_lt_mul_of_pos_left (by exact_mod_cast small) positive
  · by_cases zero : x.exponentField = 0
    · exact Or.inl (by rw [exponent, if_pos zero])
    · refine Or.inr ?_
      have large : 2 ^ 52 ≤ x.significand := by
        rw [significand, if_neg zero]
        omega
      rw [zpow_add₀ two_ne_zero, mul_comm]
      exact mul_le_mul_of_nonneg_right (by exact_mod_cast large) positive.le

theorem significand_pos {x : Binary64} (notZero : x.isZero = false) : 0 < x.significand := by
  unfold significand
  split
  · rename_i subnormal
    refine Nat.pos_of_ne_zero fun zero => ?_
    rw [isZero, subnormal, zero] at notZero
    cases notZero
  · omega

theorem roundDiv_self_mul (value : ℕ) {den : ℕ} (positive : 0 < den) :
    roundDiv (value * den) den = value := by
  unfold roundDiv
  simp [Nat.mul_div_cancel _ positive, positive]

/-- A zero is its sign. -/
theorem ofMagnitude_zero {x : Binary64} (zero : x.isZero = true) :
    ofMagnitude x.isNegative 0 = x := by
  simp only [isZero, Bool.and_eq_true, beq_iff_eq] at zero
  have fields := ofMagnitude_fields x
  rwa [zero.1, zero.2] at fields

/-- Rounding the exact magnitude of a finite number gives the number back. -/
theorem ofRatio_ratio {x : Binary64} (finite : x.isFinite = true) :
    ofRatio x.isNegative x.ratio.1 x.ratio.2 = x := by
  rcases Bool.eq_false_or_eq_true x.isZero with zero | notZero
  · have nothing : x.ratio.1 = 0 := by
      simp only [isZero, Bool.and_eq_true, beq_iff_eq] at zero
      simp [ratio, significand, zero.1, zero.2]
    rw [nothing, ofRatio_zero, ofMagnitude_zero zero]
  · have numPos : 0 < x.ratio.1 := Nat.mul_pos (significand_pos notZero) (Nat.two_pow_pos _)
    have unit : HasUnitPower ((x.ratio.1 : ℚ) / x.ratio.2) x.exponent := by
      rw [ratio_value]
      exact hasUnitPower_exponent x
    have scaledPos := scaleDown_pos (ratio_den_pos x) x.ratio.1 x.exponent
    have rounded : roundDiv (scaleDown x.ratio.1 x.ratio.2 x.exponent).1
        (scaleDown x.ratio.1 x.ratio.2 x.exponent).2 = x.significand := by
      rw [← roundDiv_self_mul x.significand Nat.one_pos]
      refine roundDiv_congr scaledPos Nat.one_pos ?_
      rw [scaleDown_value, ratio_value, mul_div_assoc, div_self (by positivity)]
      norm_num
    have field := (isFinite_iff x).mp finite
    have fraction := fraction_lt x
    have magnitude : (x.exponent + 1074).toNat * 2 ^ 52 + x.significand =
        x.exponentField * 2 ^ 52 + x.fraction := by
      unfold exponent significand
      split
      · rename_i subnormal
        rw [subnormal]
        simp
      · omega
    rw [ofRatio_of_unitPower numPos (ratio_den_pos x) unit, rounded, magnitude,
      Nat.min_eq_left (by unfold infinityMagnitude; omega)]
    exact ofMagnitude_fields x

/-! ## Decimal numbers -/

theorem div_le_roundDiv (num den : ℕ) : num / den ≤ roundDiv num den := by
  unfold roundDiv
  simp only
  split
  · exact Nat.le_refl _
  · split
    · exact Nat.le_succ _
    · split
      · exact Nat.le_refl _
      · exact Nat.le_succ _

theorem roundDiv_of_small {num den : ℕ} (small : 2 * num < den) : roundDiv num den = 0 := by
  have below : num < den := by omega
  unfold roundDiv
  simp [Nat.mod_eq_of_lt below, Nat.div_eq_of_lt below, small]

/-- A value of at least `2 ^ 1024` is too large. -/
theorem ofRatio_of_large {num den : ℕ} (denPos : 0 < den)
    (large : (2 : ℚ) ^ (1024 : ℤ) ≤ num / den) (negative : Bool) :
    ofRatio negative num den = ofMagnitude negative infinityMagnitude := by
  have numPos : 0 < num := by
    refine Nat.pos_of_ne_zero fun zero => ?_
    rw [zero, Nat.cast_zero, zero_div] at large
    exact absurd large (not_le.mpr (by positivity))
  have unit := unitPower_spec numPos denPos
  have power : 972 ≤ unitPower num den := by
    have smaller := (zpow_lt_zpow_iff_right₀ (by norm_num : (1 : ℚ) < 2)).mp
      (large.trans_lt unit.below)
    omega
  have quotient : 2 ^ 52 ≤ (scaleDown num den (unitPower num den)).1 /
      (scaleDown num den (unitPower num den)).2 := by
    rw [Nat.le_div_iff_mul_le (scaleDown_pos denPos num _), scaleDown_test denPos]
    exact_mod_cast unit.normal.resolve_left (by omega)
  have rounded := div_le_roundDiv (scaleDown num den (unitPower num den)).1
    (scaleDown num den (unitPower num den)).2
  rw [ofRatio_of_unitPower numPos denPos unit, Nat.min_eq_right]
  unfold infinityMagnitude
  omega

/-- A value of less than half the least positive number is zero. -/
theorem ofRatio_of_small {num den : ℕ} (numPos : 0 < num) (denPos : 0 < den)
    (small : 2 * ((num : ℚ) / den) < 2 ^ (-1074 : ℤ)) (negative : Bool) :
    ofRatio negative num den = ofMagnitude negative 0 := by
  have valuePos : (0 : ℚ) < num / den := by positivity
  have unit : HasUnitPower ((num : ℚ) / den) (-1074) := by
    refine ⟨le_refl _, ?_, Or.inl rfl⟩
    calc (num : ℚ) / den ≤ 2 * ((num : ℚ) / den) := le_mul_of_one_le_left valuePos.le one_le_two
      _ < 2 ^ (-1074 : ℤ) := small
      _ ≤ 2 ^ (-1074 + 53 : ℤ) := zpow_two_mono (by omega)
  have scaledPos : (0 : ℚ) < (scaleDown num den (-1074)).2 := by
    exact_mod_cast scaleDown_pos denPos num _
  have half : 2 * (scaleDown num den (-1074)).1 < (scaleDown num den (-1074)).2 := by
    have scaled := scaleDown_value num den (-1074)
    rw [div_eq_iff scaledPos.ne'] at scaled
    rw [← Nat.cast_lt (α := ℚ), Nat.cast_mul, scaled]
    calc ((2 : ℕ) : ℚ) * ((num : ℚ) / den / 2 ^ (-1074 : ℤ) * (scaleDown num den (-1074)).2)
        = 2 * ((num : ℚ) / den) / 2 ^ (-1074 : ℤ) * (scaleDown num den (-1074)).2 := by
          rw [Nat.cast_ofNat, ← mul_assoc, mul_div_assoc]
      _ < 1 * (scaleDown num den (-1074)).2 := by
          refine mul_lt_mul_of_pos_right ?_ scaledPos
          exact (div_lt_one (by positivity)).mpr small
      _ = (scaleDown num den (-1074)).2 := one_mul _
  rw [ofRatio_of_unitPower numPos denPos unit, roundDiv_of_small half, neg_add_cancel,
    Int.toNat_zero, Nat.zero_mul, Nat.zero_add, Nat.zero_min]

theorem decimal_value (digits : ℕ) (scale : ℤ) :
    ((digits * 10 ^ scale.toNat : ℕ) : ℚ) / (10 ^ (-scale).toNat : ℕ) = digits * 10 ^ scale := by
  rw [zpow_eq_div]
  push_cast
  rw [mul_div_assoc]

theorem two_zpow_le_ten_zpow {binary decimal : ℤ} (nonnegative : 0 ≤ decimal)
    (le : binary ≤ 3 * decimal) : (2 : ℚ) ^ binary ≤ 10 ^ decimal :=
  calc (2 : ℚ) ^ binary ≤ 2 ^ (3 * decimal) := zpow_two_mono le
    _ = 8 ^ decimal := by
      rw [zpow_mul]
      norm_num
    _ ≤ 10 ^ decimal := zpow_le_zpow_left₀ nonnegative (by norm_num) (by norm_num)

/-- Scales above 400 are too large. -/
theorem large_of_scale {digits : ℕ} (positive : 0 < digits) {scale : ℤ} (large : 400 < scale) :
    (2 : ℚ) ^ (1024 : ℤ) ≤ digits * 10 ^ scale := by
  have one : (1 : ℚ) ≤ digits := by exact_mod_cast positive
  exact (two_zpow_le_ten_zpow (by omega) (by omega)).trans
    (le_mul_of_one_le_left (by positivity) one)

/-- Scales more than 400 below the number of binary digits are too small. -/
theorem small_of_scale {digits : ℕ} {scale : ℤ}
    (small : scale < -((Nat.log2 digits : ℤ) + 400)) :
    2 * ((digits : ℚ) * 10 ^ scale) < 2 ^ (-1074 : ℤ) := by
  have bound : (digits : ℚ) ≤ 2 ^ (Nat.log2 digits + 1) := by
    exact_mod_cast Nat.lt_log2_self.le
  have power : (10 : ℚ) ^ scale ≤ (10 ^ (Nat.log2 digits + 1))⁻¹ * 10 ^ (-400 : ℤ) := by
    rw [← zpow_natCast, ← zpow_neg, ← zpow_add₀ (by norm_num)]
    exact zpow_le_zpow_right₀ (by norm_num) (by push_cast; omega)
  have ratio : (2 : ℚ) ^ (Nat.log2 digits + 1) * (10 ^ (Nat.log2 digits + 1))⁻¹ ≤ 1 := by
    rw [← inv_pow, ← mul_pow]
    exact pow_le_one₀ (by norm_num) (by norm_num)
  have tiny : (10 : ℚ) ^ (-400 : ℤ) ≤ 2 ^ (-1200 : ℤ) := by
    rw [zpow_neg, zpow_neg]
    exact inv_anti₀ (by positivity) (two_zpow_le_ten_zpow (by norm_num) (by norm_num))
  calc 2 * ((digits : ℚ) * 10 ^ scale)
      ≤ 2 * (2 ^ (Nat.log2 digits + 1) *
          ((10 ^ (Nat.log2 digits + 1))⁻¹ * 10 ^ (-400 : ℤ))) := by gcongr
    _ = 2 * (2 ^ (Nat.log2 digits + 1) * (10 ^ (Nat.log2 digits + 1))⁻¹ * 10 ^ (-400 : ℤ)) := by
        rw [mul_assoc (2 ^ (Nat.log2 digits + 1))]
    _ ≤ 2 * (1 * 2 ^ (-1200 : ℤ)) := by gcongr
    _ = 2 ^ (-1199 : ℤ) := by
        rw [one_mul, ← zpow_one_add₀ two_ne_zero, show (1 + -1200 : ℤ) = -1199 by norm_num]
    _ < 2 ^ (-1074 : ℤ) := zpow_lt_zpow_right₀ (by norm_num) (by norm_num)

/-- The answers for scales far outside the range are those of the exact quotient. -/
theorem ofDecimal_eq_ofRatio (negative : Bool) {digits : ℕ} (positive : 0 < digits) (scale : ℤ) :
    ofDecimal negative digits scale =
      ofRatio negative (digits * 10 ^ scale.toNat) (10 ^ (-scale).toNat) := by
  have numPos : 0 < digits * 10 ^ scale.toNat := Nat.mul_pos positive (Nat.pow_pos (by norm_num))
  have denPos : 0 < 10 ^ (-scale).toNat := Nat.pow_pos (by norm_num)
  unfold ofDecimal
  rw [if_neg positive.ne']
  split
  · rename_i tooLarge
    refine (ofRatio_of_large denPos ?_ negative).symm
    rw [decimal_value]
    exact large_of_scale positive tooLarge
  · split
    · rename_i tooSmall
      refine (ofRatio_of_small numPos denPos ?_ negative).symm
      rw [decimal_value]
      exact small_of_scale tooSmall
    · rfl

/-- The nearest binary number of a decimal depends on the value of the decimal only. -/
theorem ofDecimal_congr {digits digits' : ℕ} {scale scale' : ℤ}
    (same : (digits : ℚ) * 10 ^ scale = digits' * 10 ^ scale') (negative : Bool) :
    ofDecimal negative digits scale = ofDecimal negative digits' scale' := by
  have tenNotZero : ∀ power : ℤ, (10 : ℚ) ^ power ≠ 0 := fun power => by positivity
  rcases Nat.eq_zero_or_pos digits with zero | positive
  · have zero' : digits' = 0 := by
      rw [zero, Nat.cast_zero, zero_mul, eq_comm, mul_eq_zero] at same
      exact_mod_cast same.resolve_right (tenNotZero _)
    unfold ofDecimal
    rw [if_pos zero, if_pos zero']
  · have positive' : 0 < digits' := by
      refine Nat.pos_of_ne_zero fun zero' => ?_
      rw [zero', Nat.cast_zero, zero_mul, mul_eq_zero] at same
      exact positive.ne' (by exact_mod_cast same.resolve_right (tenNotZero _))
    rw [ofDecimal_eq_ofRatio negative positive, ofDecimal_eq_ofRatio negative positive']
    refine ofRatio_congr (Nat.pow_pos (by norm_num)) (Nat.pow_pos (by norm_num)) ?_ negative
    rw [decimal_value, decimal_value, same]

end RobotBlocks.Binary64
