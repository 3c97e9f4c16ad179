import RobotBlocks.Proofs.Numeric.Rounding

/-!
# Counts

A finite number has a rational value.  The test for counts finds exactly the numbers whose value is
a natural number below `2 ^ 32`; the negative zero is one of them.
-/

namespace RobotBlocks.Binary64

def value (x : Binary64) : ℚ :=
  if x.isNegative then -(x.ratio.1 / x.ratio.2) else x.ratio.1 / x.ratio.2

theorem isNaN_of_isFinite {x : Binary64} (finite : x.isFinite = true) : x.isNaN = false := by
  rw [isFinite, bne_iff_ne] at finite
  rw [isNaN, beq_eq_false_iff_ne.mpr finite, Bool.false_and]

theorem ratio_of_isZero {x : Binary64} (zero : x.isZero = true) : x.ratio.1 = 0 := by
  simp only [isZero, Bool.and_eq_true, beq_iff_eq] at zero
  simp [ratio, significand, zero.1, zero.2]

theorem ratio_pos {x : Binary64} (notZero : x.isZero = false) : 0 < x.ratio.1 :=
  Nat.mul_pos (significand_pos notZero) (Nat.two_pow_pos _)

/-- Below zero are the finite numbers with a negative sign that are no zeros. -/
theorem isNonNegative_iff {x : Binary64} (finite : x.isFinite = true) :
    x.isNonNegative = true ↔ 0 ≤ x.value := by
  have denPos : (0 : ℚ) < x.ratio.2 := by exact_mod_cast ratio_den_pos x
  have magnitude : (0 : ℚ) ≤ x.ratio.1 / x.ratio.2 := by positivity
  unfold isNonNegative value
  rw [isNaN_of_isFinite finite]
  cases negative : x.isNegative with
  | false => simpa using magnitude
  | true =>
      cases zero : x.isZero with
      | true => simp [ratio_of_isZero zero]
      | false =>
          have numPos : (0 : ℚ) < x.ratio.1 := by exact_mod_cast ratio_pos zero
          have below : (0 : ℚ) < x.ratio.1 / x.ratio.2 := div_pos numPos denPos
          simpa using below

/-- The magnitude of a value that is not below zero is the value. -/
theorem value_of_isNonNegative {x : Binary64} (nonnegative : x.isNonNegative = true) :
    x.value = x.ratio.1 / x.ratio.2 := by
  unfold value
  split
  · rename_i negative
    have zero : x.isZero = true := by
      simpa [isNonNegative, negative] using (Bool.and_eq_true_iff.mp nonnegative).2
    simp [ratio_of_isZero zero]
  · rfl

theorem toNat?_eq_some_iff {x : Binary64} {n : ℕ} :
    x.toNat? = some n ↔ x.isFinite = true ∧ x.value = n := by
  have denPos := ratio_den_pos x
  have denCast : (x.ratio.2 : ℚ) ≠ 0 := by exact_mod_cast denPos.ne'
  have quotient : x.ratio.1 % x.ratio.2 = 0 ∧ x.ratio.1 / x.ratio.2 = n ↔
      (x.ratio.1 : ℚ) / x.ratio.2 = n := by
    rw [div_eq_iff denCast]
    constructor
    · rintro ⟨whole, rfl⟩
      exact_mod_cast (Nat.div_mul_cancel (Nat.dvd_of_mod_eq_zero whole)).symm
    · intro same
      have product : x.ratio.1 = n * x.ratio.2 := by exact_mod_cast same
      rw [product]
      exact ⟨Nat.mul_mod_left n _, Nat.mul_div_cancel n denPos⟩
  unfold toNat?
  by_cases finite : x.isFinite = true
  · by_cases nonnegative : x.isNonNegative = true
    · rw [if_pos (by rw [finite, nonnegative]; rfl), value_of_isNonNegative nonnegative,
        ← quotient]
      simp [finite, Option.ite_none_right_eq_some]
    · have below : ¬0 ≤ x.value := fun above => nonnegative ((isNonNegative_iff finite).mpr above)
      have other : x.value ≠ n := fun same => below (same ▸ Nat.cast_nonneg n)
      simp [finite, nonnegative, other]
  · simp [finite]

/-- A count is a number whose value is a natural number below `2 ^ 32`. -/
theorem toCount?_eq_some_iff {x : Binary64} {count : UInt32} :
    x.toCount? = some count ↔ x.isFinite = true ∧ x.value = count.toNat := by
  rw [← toNat?_eq_some_iff]
  unfold toCount?
  constructor
  · intro found
    obtain ⟨n, whole, small⟩ := Option.bind_eq_some_iff.mp found
    obtain ⟨bound, same⟩ := Option.ite_none_right_eq_some.mp small
    cases same
    rw [whole, UInt32.toNat_ofNat_of_lt' bound]
  · intro whole
    rw [whole, Option.bind_some, if_pos count.toNat_lt, UInt32.ofNat_toNat]

/-- A whole number from zero to the largest thirty-two bit count. -/
def IsCount (x : Binary64) : Prop :=
  x.isFinite = true ∧ ∃ n : ℕ, n ≤ 2 ^ 32 - 1 ∧ x.value = n

theorem isCount_iff {x : Binary64} : x.IsCount ↔ ∃ count, x.toCount? = some count := by
  constructor
  · rintro ⟨finite, n, small, whole⟩
    refine ⟨UInt32.ofNat n, toCount?_eq_some_iff.mpr ⟨finite, ?_⟩⟩
    rw [UInt32.toNat_ofNat_of_lt' (Nat.lt_of_le_pred (by norm_num) small), whole]
  · rintro ⟨count, found⟩
    obtain ⟨finite, whole⟩ := toCount?_eq_some_iff.mp found
    exact ⟨finite, count.toNat, Nat.le_pred_of_lt count.toNat_lt, whole⟩

end RobotBlocks.Binary64
