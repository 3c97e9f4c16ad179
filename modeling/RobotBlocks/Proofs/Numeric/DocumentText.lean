import RobotBlocks.Proofs.Numeric.Digits

/-!
# Document texts of numbers

The document text of a finite number is its sign, the digits of a whole number, decimal places and
perhaps a power of ten.  What it says is the number itself.
-/

namespace RobotBlocks.Binary64

open Numeric

def powerChars : Option ℤ → List Char
  | none => []
  | some power => 'e' :: (if power < 0 then '-' else '+') :: digitChars power.natAbs

def placesChars (places : List Char) : List Char :=
  if places.isEmpty then [] else '.' :: places

def numeralChars (whole : ℕ) (places : List Char) (power : Option ℤ) : List Char :=
  digitChars whole ++ (placesChars places ++ powerChars power)

/-- A positional text with at least one decimal place. -/
theorem positional_document {decimal : Decimal} (positive : 0 < decimal.digits) :
    ∃ whole places,
      positional decimal ++ (if 0 ≤ decimal.scale then ['.', '0'] else []) =
        numeralChars whole places none ∧ places ≠ [] ∧ AllDigits places ∧
      (digitsValue whole places : ℚ) * 10 ^ (-(places.length : ℤ)) =
        decimal.digits * 10 ^ decimal.scale := by
  rcases positional_forms positive with
    ⟨large, text⟩ | ⟨below, whole, places, text, digits, same, length⟩
  · refine ⟨decimal.digits * 10 ^ decimal.scale.toNat, ['0'], ?_, List.cons_ne_nil _ _,
      allDigits_zeros 1, ?_⟩
    · rw [if_pos large, text]
      rfl
    · have shifted : digitsValue (decimal.digits * 10 ^ decimal.scale.toNat) ['0'] =
          10 ^ 1 * (decimal.digits * 10 ^ decimal.scale.toNat) := digitsValue_zeros _ 1
      rw [shifted, zpow_eq_div 10 decimal.scale,
        Int.toNat_of_nonpos (Int.neg_nonpos_of_nonneg large)]
      push_cast
      field_simp
      norm_num
  · have some_place : places ≠ [] := by
      rintro rfl
      exact absurd length (by rw [List.length_nil]; omega)
    refine ⟨whole, places, ?_, some_place, digits, ?_⟩
    · rw [if_neg (Int.not_le.mpr below), List.append_nil, text]
      unfold numeralChars placesChars powerChars
      rw [List.isEmpty_eq_false_iff.mpr some_place, List.append_nil]
      rfl
    · rw [same, length, Int.neg_neg]

/-- The digits of a scientific text are those of the decimal, and so is the scale. -/
theorem scientific_document {decimal : Decimal} (positive : 0 < decimal.digits) :
    ∃ whole places power, scientific decimal = numeralChars whole places (some power) ∧
      AllDigits places ∧ digitsValue whole places = decimal.digits ∧
      power - places.length = decimal.scale := by
  have digits := allDigits_digitChars decimal.digits
  have value := digitsValue_digitChars decimal.digits
  obtain ⟨lead, rest, split, _⟩ := head_digitChars positive
  rw [split] at digits value
  obtain ⟨n, small, rfl⟩ := exists_digit (digits lead List.mem_cons_self)
  have single : digitChars n = [n.digitChar] := Nat.toDigits_of_lt_base small
  refine ⟨n, rest, decimal.scale + (digitChars decimal.digits).length - 1, ?_,
    fun c mem => digits c (List.mem_cons_of_mem _ mem), ?_, ?_⟩
  · unfold scientific numeralChars placesChars powerChars
    rw [single, split]
    rfl
  · have first : digitsValue 0 [n.digitChar] = n := by
      rw [← single, digitsValue_digitChars]
    rw [← List.singleton_append, digitsValue_append, first] at value
    exact value
  · rw [split, List.length_cons]
    omega

/-- A document text says the number that it is written for, never as a whole number. -/
theorem documentText_forms {x : Binary64} (finite : x.isFinite = true) :
    ∃ whole places power, x.documentText = x.signChars ++ numeralChars whole places power ∧
      AllDigits places ∧ (places.isEmpty && power.isNone) = false ∧
      ofDecimal x.isNegative (digitsValue whole places) (power.getD 0 - places.length) = x := by
  unfold documentText
  rcases Bool.eq_false_or_eq_true x.isZero with zero | notZero
  · refine ⟨0, ['0'], none, by rw [if_pos zero]; rfl, allDigits_zeros 1, rfl, ?_⟩
    exact (ofDecimal_zero _ _).trans (ofMagnitude_zero zero)
  · have positive := shortest_pos .toEven finite notZero
    have value := ofDecimal_shortest .toEven finite notZero
    rw [if_neg (by rw [notZero]; exact Bool.false_ne_true)]
    simp only
    split
    · obtain ⟨whole, places, text, some_place, digits, same⟩ := positional_document positive
      have pointed : (places.isEmpty && Option.isNone (none : Option ℤ)) = false := by
        rw [List.isEmpty_eq_false_iff.mpr some_place, Bool.false_and]
      refine ⟨whole, places, none, by rw [text], digits, pointed, ?_⟩
      rw [Option.getD_none, Int.zero_sub]
      exact (ofDecimal_congr same _).trans value
    · obtain ⟨whole, places, power, text, digits, same, scale⟩ := scientific_document positive
      refine ⟨whole, places, some power, by rw [text], digits, Bool.and_false _, ?_⟩
      rw [Option.getD_some, same, scale, value]

end RobotBlocks.Binary64
