import RobotBlocks.Proofs.Numeric.Counts

/-!
# Naturals as binary numbers

A natural below `2 ^ 53` is a binary number, so nothing is rounded when the nearest one is taken.
-/

namespace RobotBlocks.Binary64

/-- The fields of a positive number that is made of them. -/
theorem fields_ofMagnitude {field fraction : ℕ} (fieldSmall : field < 2 ^ 11)
    (fractionSmall : fraction < 2 ^ 52) :
    (ofMagnitude false (field * 2 ^ 52 + fraction)).isNegative = false ∧
      (ofMagnitude false (field * 2 ^ 52 + fraction)).exponentField = field ∧
      (ofMagnitude false (field * 2 ^ 52 + fraction)).fraction = fraction := by
  have bits : (ofMagnitude false (field * 2 ^ 52 + fraction)).bits.toNat =
      field * 2 ^ 52 + fraction := by
    unfold ofMagnitude
    simp only [Bool.false_eq_true, if_false, Nat.add_zero]
    have bound : field * 2 ^ 52 + fraction < 2 ^ 64 := by omega
    exact UInt64.toNat_ofNat_of_lt' bound
  unfold isNegative exponentField Binary64.fraction
  rw [bits]
  refine ⟨decide_eq_false (by omega), by omega, by omega⟩

/-- A positive natural that has at most fifty-three bits has as many after some doublings. -/
theorem exists_doublings {n : ℕ} (positive : 0 < n) (small : n < 2 ^ 53) :
    ∃ doublings ≤ 52, 2 ^ 52 ≤ n * 2 ^ doublings ∧ n * 2 ^ doublings < 2 ^ 53 := by
  have bits : Nat.log2 n ≤ 52 :=
    Nat.le_of_lt_succ ((Nat.log2_lt positive.ne').mpr small)
  refine ⟨52 - Nat.log2 n, Nat.sub_le _ _, ?_, ?_⟩
  · calc 2 ^ 52 = 2 ^ Nat.log2 n * 2 ^ (52 - Nat.log2 n) := by
          rw [← Nat.pow_add, Nat.add_sub_cancel' bits]
      _ ≤ n * 2 ^ (52 - Nat.log2 n) :=
          Nat.mul_le_mul_right _ (Nat.log2_self_le positive.ne')
  · calc n * 2 ^ (52 - Nat.log2 n) < 2 ^ (Nat.log2 n + 1) * 2 ^ (52 - Nat.log2 n) :=
          Nat.mul_lt_mul_of_pos_right Nat.lt_log2_self (Nat.two_pow_pos _)
      _ = 2 ^ 53 := by
          rw [← Nat.pow_add]
          congr 1
          omega

/-- The binary number with the value of a natural, which is kept as it is. -/
structure IsNatural (n : ℕ) (x : Binary64) : Prop where
  finite : x.isFinite = true
  positive : x.isNegative = false
  exact : x.ratio.1 = n * x.ratio.2

theorem exists_isNatural {n : ℕ} (small : n < 2 ^ 53) : ∃ x, IsNatural n x := by
  rcases Nat.eq_zero_or_pos n with zero | positive
  · rw [zero]
    exact ⟨.zero, by decide, by decide, by decide +kernel⟩
  · obtain ⟨doublings, few, least, most⟩ := exists_doublings positive small
    have fractionSmall : n * 2 ^ doublings - 2 ^ 52 < 2 ^ 52 := by omega
    obtain ⟨sign, field, fraction⟩ :=
      @fields_ofMagnitude (1075 - doublings) _ (by omega) fractionSmall
    refine ⟨_, (isFinite_iff _).mpr ?_, sign, ?_⟩
    · rw [field]
      omega
    · have scaled : ((1075 - doublings : ℕ) : ℤ) - 1075 = -doublings := by omega
      unfold ratio significand exponent
      rw [field, fraction, if_neg (by omega), if_neg (by omega), scaled,
        Int.toNat_of_nonpos (by omega), Int.neg_neg, Int.toNat_natCast, Nat.sub_add_cancel least,
        Nat.pow_zero, Nat.mul_one]

/-- A natural is not changed by rounding. -/
theorem isNatural_ofNat {n : ℕ} (small : n < 2 ^ 53) : IsNatural n (ofNat n) := by
  obtain ⟨x, natural⟩ := exists_isNatural small
  have denPos := ratio_den_pos x
  have value : (n : ℚ) / (1 : ℕ) = x.ratio.1 / x.ratio.2 := by
    rw [natural.exact, Nat.cast_mul, Nat.cast_one, div_one,
      mul_div_cancel_right₀ _ (by exact_mod_cast denPos.ne')]
  have same : ofNat n = x := by
    unfold ofNat
    rw [ofRatio_congr Nat.one_pos denPos value, ← natural.positive,
      ofRatio_ratio natural.finite]
  rw [same]
  exact natural

theorem isNonNegative_of_isNatural {n : ℕ} {x : Binary64} (natural : IsNatural n x) :
    (x.isFinite && x.isNonNegative) = true := by
  rw [natural.finite, isNonNegative, isNaN_of_isFinite natural.finite, natural.positive]
  rfl

/-- A count is rounded to itself. -/
theorem roundToCount?_ofNat (count : UInt32) :
    (ofNat count.toNat).roundToCount? = some count := by
  have small := count.toNat_lt
  have natural := isNatural_ofNat (small.trans (by norm_num : 2 ^ 32 < 2 ^ 53))
  have denPos := ratio_den_pos (ofNat count.toNat)
  have bounded : (ofNat count.toNat).ratio.1 ≤ (2 ^ 32 - 1) * (ofNat count.toNat).ratio.2 := by
    rw [natural.exact]
    exact Nat.mul_le_mul_right _ (by omega)
  have quotient : (2 * (ofNat count.toNat).ratio.1 + (ofNat count.toNat).ratio.2) /
      (2 * (ofNat count.toNat).ratio.2) = count.toNat := by
    rw [natural.exact]
    generalize (ofNat count.toNat).ratio.2 = den at denPos
    have split : 2 * (count.toNat * den) + den = den + 2 * den * count.toNat := by ring
    rw [split, Nat.add_mul_div_left _ _ (by omega), Nat.div_eq_of_lt (by omega), Nat.zero_add]
  unfold roundToCount?
  rw [if_pos (isNonNegative_of_isNatural natural)]
  simp only
  rw [if_pos bounded, quotient, UInt32.ofNat_toNat]

/-- A natural with a zero after the point is the natural. -/
theorem ofDecimal_point_zero (n : ℕ) : ofDecimal false (10 * n) (-1) = ofNat n := by
  rcases Nat.eq_zero_or_pos n with zero | positive
  · rw [zero]
    rfl
  · have whole : ofDecimal false (10 * n) (-1) = ofDecimal false n 0 := by
      refine ofDecimal_congr ?_ false
      push_cast
      norm_num
      ring
    rw [whole, ofDecimal_eq_ofRatio false positive]
    simp only [Int.toNat_zero, Int.neg_zero, Nat.pow_zero, Nat.mul_one]
    rfl

end RobotBlocks.Binary64
