import Mathlib.Tactic.FieldSimp
import Mathlib.Tactic.IntervalCases
import RobotBlocks.Numeric.Layout
import RobotBlocks.Numeric.Literal
import RobotBlocks.Proofs.Numeric.Rounding

/-!
# Digits and their values

The decimal digits of a natural are read back as that natural, the shortest digits of a finite
number are digits of that number, and its plain text is read back as the number itself.
-/

namespace RobotBlocks

namespace Numeric

/-! ## Naturals -/

theorem digitsValue_eq (initial : ℕ) (digits : List Char) :
    digitsValue initial digits = Nat.ofDigitChars 10 digits initial := by
  rw [Nat.ofDigitChars_eq_foldl]
  rfl

theorem digitsValue_digitChars (n : ℕ) : digitsValue 0 (Binary64.digitChars n) = n := by
  rw [digitsValue_eq]
  exact Nat.ofDigitChars_ten_toDigits

theorem digitsValue_append (first second : List Char) :
    digitsValue 0 (first ++ second) = digitsValue (digitsValue 0 first) second := by
  simp only [digitsValue, List.foldl_append]

theorem digitsValue_zeros (initial count : ℕ) :
    digitsValue initial (List.replicate count '0') = 10 ^ count * initial := by
  rw [digitsValue_eq]
  exact Nat.ofDigitChars_replicate_zero

/-- Every character of a text is a digit. -/
def AllDigits (text : List Char) : Prop :=
  ∀ c ∈ text, c.isDigit = true

theorem AllDigits.append {first second : List Char} (one : AllDigits first)
    (other : AllDigits second) : AllDigits (first ++ second) := by
  intro c mem
  rcases List.mem_append.mp mem with left | right
  · exact one c left
  · exact other c right

theorem AllDigits.take {text : List Char} (digits : AllDigits text) (count : ℕ) :
    AllDigits (text.take count) :=
  fun c mem => digits c (List.mem_of_mem_take mem)

theorem AllDigits.drop {text : List Char} (digits : AllDigits text) (count : ℕ) :
    AllDigits (text.drop count) :=
  fun c mem => digits c (List.mem_of_mem_drop mem)

theorem allDigits_zeros (count : ℕ) : AllDigits (List.replicate count '0') := by
  intro c mem
  rw [List.eq_of_mem_replicate mem]
  rfl

theorem allDigits_digitChars (n : ℕ) : AllDigits (Binary64.digitChars n) :=
  fun _ mem => Nat.isDigit_of_mem_toDigits (by decide) (by decide) mem

theorem digitChars_ne_nil (n : ℕ) : Binary64.digitChars n ≠ [] :=
  Nat.toDigits_ne_nil

theorem digitChars_zero : Binary64.digitChars 0 = ['0'] :=
  Nat.toDigits_zero 10

theorem digitChars_snoc {n digit : ℕ} (positive : 0 < n) (small : digit < 10) :
    Binary64.digitChars (10 * n + digit) = Binary64.digitChars n ++ [digit.digitChar] := by
  unfold Binary64.digitChars
  rw [← Nat.toDigits_append_toDigits (by decide) positive small, Nat.toDigits_of_lt_base small]

/-- The digits of a positive number do not start with a zero. -/
theorem head_digitChars {n : ℕ} (positive : 0 < n) :
    ∃ lead rest, Binary64.digitChars n = lead :: rest ∧ lead ≠ '0' := by
  induction n using Nat.strongRecOn with
  | ind n ih =>
      rcases Nat.lt_or_ge n 10 with small | large
      · refine ⟨n.digitChar, [], Nat.toDigits_of_lt_base small, ?_⟩
        interval_cases n <;> decide
      · obtain ⟨lead, rest, digits, notZero⟩ := ih (n / 10) (by omega) (by omega)
        have snoc := @digitChars_snoc (n / 10) (n % 10) (by omega) (by omega)
        rw [Nat.div_add_mod, digits] at snoc
        exact ⟨lead, rest ++ [(n % 10).digitChar], snoc, notZero⟩

/-- The digit that a digit character stands for. -/
theorem exists_digit {c : Char} (digit : c.isDigit = true) : ∃ n < 10, c = n.digitChar := by
  have bounds : 48 ≤ c.toNat ∧ c.toNat ≤ 57 := Char.isDigit_iff_toNat.mp digit
  have same : c = Char.ofNat c.toNat := (Char.ofNat_toNat c).symm
  refine ⟨c.toNat - 48, by omega, ?_⟩
  generalize c.toNat = code at bounds same
  subst same
  obtain ⟨low, high⟩ := bounds
  interval_cases code <;> decide

theorem digitsValue_snoc (initial : ℕ) (digits : List Char) {n : ℕ} (small : n < 10) :
    digitsValue initial (digits ++ [n.digitChar]) = 10 * digitsValue initial digits + n := by
  rw [digitsValue_eq, digitsValue_eq, Nat.ofDigitChars_append,
    Nat.ofDigitChars_cons_digitChar_of_lt_ten small, Nat.ofDigitChars_nil]

/-- Digits without a leading zero are the digits of their value. -/
theorem digitChars_digitsValue {lead : Char} {rest : List Char} (digits : AllDigits (lead :: rest))
    (notZero : lead ≠ '0') :
    0 < digitsValue 0 (lead :: rest) ∧
      Binary64.digitChars (digitsValue 0 (lead :: rest)) = lead :: rest := by
  induction rest using List.reverseRecOn with
  | nil =>
      obtain ⟨n, small, rfl⟩ := exists_digit (digits lead List.mem_cons_self)
      have value : digitsValue 0 [n.digitChar] = n := by
        simpa [digitsValue] using digitsValue_snoc 0 [] small
      rw [value]
      exact ⟨Nat.pos_of_ne_zero fun zero => notZero (Nat.digitChar_eq_zero.mpr zero),
        Nat.toDigits_of_lt_base small⟩
  | append_singleton rest last ih =>
      obtain ⟨positive, same⟩ := ih fun c mem => digits c (by
        rw [← List.cons_append]
        exact List.mem_append_left _ mem)
      obtain ⟨n, small, rfl⟩ := exists_digit (digits last (by simp))
      rw [← List.cons_append, digitsValue_snoc 0 _ small, digitChars_snoc positive small, same]
      exact ⟨by omega, rfl⟩

theorem AllDigits.takeWhile_append {digits : List Char} (all : AllDigits digits)
    (rest : List Char) :
    (digits ++ rest).takeWhile Char.isDigit = digits ++ rest.takeWhile Char.isDigit :=
  List.takeWhile_append_of_pos all

theorem AllDigits.dropWhile_append {digits : List Char} (all : AllDigits digits)
    (rest : List Char) :
    (digits ++ rest).dropWhile Char.isDigit = rest.dropWhile Char.isDigit :=
  List.dropWhile_append_of_pos all

/-- A digit is no sign. -/
theorem readSign_of_isDigit {first : Char} (digit : first.isDigit = true) (rest : List Char) :
    readSign (first :: rest) = (false, first :: rest) := by
  unfold readSign
  split
  · rename_i same
    cases same
    cases digit
  · rename_i same
    cases same
    cases digit
  · rfl

/-- Digits alone are read as their value. -/
theorem readCount_of_digits (bound : ℕ) {text : List Char} (digits : AllDigits text)
    (nonempty : text ≠ []) :
    readCount bound text =
      if digitsValue 0 text < bound then some (digitsValue 0 text) else none := by
  have all : text.all Char.isDigit = true := List.all_eq_true.mpr digits
  unfold readCount
  split
  · have plus := digits '+' List.mem_cons_self
    cases plus
  · simp only
    rw [if_pos ⟨nonempty, all⟩]

/-- A count below the bound is read back from its digits. -/
theorem readCount_digitChars {bound n : ℕ} (small : n < bound) :
    readCount bound (Binary64.digitChars n) = some n := by
  rw [readCount_of_digits bound (allDigits_digitChars n) (digitChars_ne_nil n),
    digitsValue_digitChars, if_pos small]

theorem readCount32_digitChars (count : UInt32) :
    readCount32 (Binary64.digitChars count.toNat) = some count := by
  unfold readCount32
  rw [readCount_digitChars count.toNat_lt, Option.map_some, UInt32.ofNat_toNat]

/-! ## Positional texts -/

theorem readMagnitude_whole (negative : Bool) {whole : List Char} (digits : AllDigits whole)
    (nonempty : whole ≠ []) :
    readMagnitude negative whole =
      some (Binary64.ofDecimal negative (digitsValue 0 whole) 0) := by
  have taken := digits.takeWhile_append []
  have dropped := digits.dropWhile_append []
  rw [List.append_nil] at taken dropped
  unfold readMagnitude
  rw [taken, dropped]
  simp [nonempty, readPower]

theorem readMagnitude_point (negative : Bool) {whole places : List Char}
    (digits : AllDigits whole) (others : AllDigits places) (nonempty : whole ≠ []) :
    readMagnitude negative (whole ++ '.' :: places) =
      some (Binary64.ofDecimal negative (digitsValue 0 (whole ++ places)) (-places.length)) := by
  have taken := others.takeWhile_append []
  have dropped := others.dropWhile_append []
  rw [List.append_nil] at taken dropped
  unfold readMagnitude
  rw [digits.takeWhile_append, digits.dropWhile_append]
  simp [nonempty, readPower, taken, dropped]

end Numeric

namespace Binary64

open Numeric

/-! ## Shortest digits -/

def Decimal.value (decimal : Decimal) : ℚ :=
  decimal.digits * 10 ^ decimal.scale

theorem trimZeros_value (fuel : ℕ) (decimal : Decimal) :
    (decimal.trimZeros fuel).value = decimal.value := by
  induction fuel generalizing decimal with
  | zero => rfl
  | succ fuel ih =>
      obtain ⟨digits, scale⟩ := decimal
      unfold Decimal.trimZeros
      split
      · rename_i ends
        have whole : digits = digits / 10 * 10 := by omega
        rw [ih]
        unfold Decimal.value
        rw [zpow_add_one₀ (by norm_num), mul_comm ((10 : ℚ) ^ scale), ← mul_assoc]
        congr 1
        exact_mod_cast whole.symm
      · rfl

theorem exactDecimal_value (x : Binary64) :
    x.exactDecimal.value = x.significand * 2 ^ x.exponent := by
  have scale : min x.exponent 0 = -((-x.exponent).toNat : ℤ) := by omega
  unfold Decimal.value exactDecimal
  rw [scale, zpow_neg, zpow_natCast, zpow_eq_div 2 x.exponent,
    show (10 : ℚ) = 2 * 5 by norm_num, mul_pow]
  push_cast
  field_simp

theorem exactDecimal_pos {x : Binary64} (notZero : x.isZero = false) :
    0 < x.exactDecimal.digits :=
  Nat.mul_pos (Nat.mul_pos (significand_pos notZero) (Nat.two_pow_pos _))
    (Nat.pow_pos (by norm_num))

theorem ofDecimal_zero (negative : Bool) (scale : ℤ) :
    ofDecimal negative 0 scale = ofMagnitude negative 0 := by
  unfold ofDecimal
  rw [if_pos rfl]

theorem isZero_ofMagnitude_zero (negative : Bool) : (ofMagnitude negative 0).isZero = true := by
  cases negative <;> decide

/-- A decimal is read back as a finite number when it has the same value. -/
theorem ofDecimal_of_value {x : Binary64} (finite : x.isFinite = true) {decimal : Decimal}
    (positive : 0 < decimal.digits) (same : decimal.value = x.significand * 2 ^ x.exponent) :
    ofDecimal x.isNegative decimal.digits decimal.scale = x := by
  rw [ofDecimal_eq_ofRatio _ positive,
    ofRatio_congr (Nat.pow_pos (by norm_num)) (ratio_den_pos x) _ x.isNegative,
    ofRatio_ratio finite]
  rw [decimal_value, ratio_value]
  exact same

/-- The digits before zeros are cut off are read back, whether one was found or all are taken. -/
theorem ofDecimal_found {x : Binary64} (finite : x.isFinite = true) (notZero : x.isZero = false)
    {found : Option Decimal}
    (reads : ∀ decimal, found = some decimal → readsBack x decimal = true) :
    ofDecimal x.isNegative (found.getD x.exactDecimal).digits (found.getD x.exactDecimal).scale =
      x := by
  cases found with
  | none => exact ofDecimal_of_value finite (exactDecimal_pos notZero) (exactDecimal_value x)
  | some decimal => exact eq_of_beq (reads decimal rfl)

/-- The shortest digits of a finite number are read back as the number. -/
theorem ofDecimal_shortest (tie : Tie) {x : Binary64} (finite : x.isFinite = true)
    (notZero : x.isZero = false) :
    ofDecimal x.isNegative (x.shortest tie).digits (x.shortest tie).scale = x := by
  unfold shortest
  simp only
  refine (ofDecimal_congr (trimZeros_value 20 _) _).trans (ofDecimal_found finite notZero ?_)
  intro decimal found
  obtain ⟨count, _, first⟩ := List.exists_of_findSome?_eq_some found
  exact List.find?_some first

/-- A number that is not zero has digits. -/
theorem shortest_pos (tie : Tie) {x : Binary64} (finite : x.isFinite = true)
    (notZero : x.isZero = false) : 0 < (x.shortest tie).digits := by
  refine Nat.pos_of_ne_zero fun zero => ?_
  have same := ofDecimal_shortest tie finite notZero
  rw [zero, ofDecimal_zero] at same
  rw [← same, isZero_ofMagnitude_zero] at notZero
  cases notZero

/-! ## Plain texts -/

/-- Zeros after the digits of a number multiply it by powers of ten. -/
theorem digitChars_zeros {n : ℕ} (positive : 0 < n) (zeros : ℕ) :
    digitChars (n * 10 ^ zeros) = digitChars n ++ List.replicate zeros '0' := by
  have digits := allDigits_digitChars n
  obtain ⟨lead, rest, split, notZero⟩ := head_digitChars positive
  have all : AllDigits (lead :: (rest ++ List.replicate zeros '0')) := by
    rw [← List.cons_append, ← split]
    exact digits.append (allDigits_zeros _)
  have canonical := (digitChars_digitsValue all notZero).2
  rw [← List.cons_append, ← split, digitsValue_append, digitsValue_digitChars,
    digitsValue_zeros] at canonical
  rw [← canonical, Nat.mul_comm]

/-- The first digits of a number are those of their value. -/
theorem digitChars_take {n : ℕ} (positive : 0 < n) (cut : ℕ) :
    digitChars (digitsValue 0 ((digitChars n).take (cut + 1))) = (digitChars n).take (cut + 1) := by
  have digits := allDigits_digitChars n
  obtain ⟨lead, rest, split, notZero⟩ := head_digitChars positive
  have all : AllDigits (lead :: rest.take cut) := by
    rw [← List.take_succ_cons, ← split]
    exact digits.take _
  have canonical := (digitChars_digitsValue all notZero).2
  rw [← List.take_succ_cons, ← split] at canonical
  exact canonical

/-- A positional text is the digits of a natural, followed by a point and the decimal places. -/
theorem positional_forms {decimal : Decimal} (positive : 0 < decimal.digits) :
    (0 ≤ decimal.scale ∧
      positional decimal = digitChars (decimal.digits * 10 ^ decimal.scale.toNat)) ∨
    (decimal.scale < 0 ∧ ∃ whole places, positional decimal = digitChars whole ++ '.' :: places ∧
      AllDigits places ∧ digitsValue whole places = decimal.digits ∧
      (places.length : ℤ) = -decimal.scale) := by
  have digits := allDigits_digitChars decimal.digits
  have value := digitsValue_digitChars decimal.digits
  unfold positional
  simp only
  split_ifs with whole inside
  · exact Or.inl ⟨whole, (digitChars_zeros positive _).symm⟩
  · obtain ⟨cut, position⟩ : ∃ cut, (digitChars decimal.digits).length -
        (-decimal.scale).toNat = cut + 1 := ⟨_, (Nat.sub_add_cancel (by omega)).symm⟩
    rw [position]
    refine Or.inr ⟨by omega, digitsValue 0 ((digitChars decimal.digits).take (cut + 1)),
      (digitChars decimal.digits).drop (cut + 1), ?_, digits.drop _, ?_, ?_⟩
    · rw [digitChars_take positive]
    · rw [← digitsValue_append, List.take_append_drop, value]
    · rw [List.length_drop]
      omega
  · refine Or.inr ⟨by omega, 0, List.replicate ((-decimal.scale).toNat -
      (digitChars decimal.digits).length) '0' ++ digitChars decimal.digits, ?_,
      (allDigits_zeros _).append digits, ?_, ?_⟩
    · rw [digitChars_zero]
      rfl
    · rw [digitsValue_append, digitsValue_zeros, Nat.mul_zero, value]
    · rw [List.length_append, List.length_replicate]
      omega

/-- A positional text is read as the decimal that it was made from. -/
theorem readMagnitude_positional (negative : Bool) {decimal : Decimal}
    (positive : 0 < decimal.digits) :
    readMagnitude negative (positional decimal) =
      some (ofDecimal negative decimal.digits decimal.scale) := by
  rcases positional_forms positive with ⟨whole, text⟩ | ⟨_, n, places, text, digits, value, length⟩
  · rw [text, readMagnitude_whole negative (allDigits_digitChars _) (digitChars_ne_nil _),
      digitsValue_digitChars]
    congr 1
    refine ofDecimal_congr ?_ negative
    rw [zpow_zero, mul_one, zpow_eq_div 10 decimal.scale,
      Int.toNat_of_nonpos (Int.neg_nonpos_of_nonneg whole), pow_zero, div_one]
    push_cast
    rfl
  · rw [text, readMagnitude_point negative (allDigits_digitChars n) digits (digitChars_ne_nil n),
      digitsValue_append, digitsValue_digitChars, value, length, Int.neg_neg]

/-- A positional text starts with a digit and holds nothing but digits and a point. -/
theorem positional_chars {decimal : Decimal} (positive : 0 < decimal.digits) :
    ∃ first rest, positional decimal = first :: rest ∧ first.isDigit = true ∧
      ∀ c ∈ rest, c.isDigit = true ∨ c = '.' := by
  rcases positional_forms positive with ⟨_, text⟩ | ⟨_, n, places, text, digits, _⟩
  · have all := allDigits_digitChars (decimal.digits * 10 ^ decimal.scale.toNat)
    obtain ⟨first, rest, split⟩ := List.exists_cons_of_ne_nil (digitChars_ne_nil
      (decimal.digits * 10 ^ decimal.scale.toNat))
    rw [split] at all
    exact ⟨first, rest, text.trans split, all first List.mem_cons_self,
      fun c mem => Or.inl (all c (List.mem_cons_of_mem _ mem))⟩
  · have all := allDigits_digitChars n
    obtain ⟨first, rest, split⟩ := List.exists_cons_of_ne_nil (digitChars_ne_nil n)
    rw [split] at all
    refine ⟨first, rest ++ '.' :: places, by rw [text, split]; rfl, all first List.mem_cons_self,
      fun c mem => ?_⟩
    rcases List.mem_append.mp mem with left | right
    · exact Or.inl (all c (List.mem_cons_of_mem _ left))
    · rcases List.mem_cons.mp right with point | place
      · exact Or.inr point
      · exact Or.inl (digits c place)

/-- The plain text of a finite number is its sign and a text that starts with a digit. -/
theorem plain_forms {x : Binary64} (finite : x.isFinite = true) :
    ∃ first rest, x.plain = x.signChars ++ first :: rest ∧ first.isDigit = true ∧
      (∀ c ∈ rest, c.isDigit = true ∨ c = '.') ∧
      readMagnitude x.isNegative (first :: rest) = some x := by
  have field := (isFinite_iff x).mp finite
  have defined : x.isNaN = false := by
    rw [isNaN, Bool.and_eq_false_iff, beq_eq_false_iff_ne]
    exact Or.inl field.ne
  unfold plain
  rw [defined, finite]
  rcases Bool.eq_false_or_eq_true x.isZero with zero | notZero
  · refine ⟨'0', [], by simp [zero], rfl, by simp, ?_⟩
    refine (readMagnitude_whole _ (allDigits_zeros 1) (by simp)).trans ?_
    exact congrArg some ((ofDecimal_zero _ _).trans (ofMagnitude_zero zero))
  · have positive := shortest_pos .up finite notZero
    obtain ⟨first, rest, text, digit, chars⟩ := positional_chars positive
    refine ⟨first, rest, by simp [notZero, text], digit, chars, ?_⟩
    rw [← text, readMagnitude_positional _ positive, ofDecimal_shortest .up finite notZero]

theorem readSign_signChars (x : Binary64) {first : Char} (digit : first.isDigit = true)
    (rest : List Char) :
    readSign (x.signChars ++ first :: rest) = (x.isNegative, first :: rest) := by
  unfold signChars
  cases x.isNegative with
  | true => rfl
  | false => exact readSign_of_isDigit digit rest

/-- A word in lower case that starts with a digit is none of the words for special values. -/
theorem lowered_ne {first : Char} (digit : first.isDigit = true) (rest : List Char)
    {lead : Char} {more : List Char} (letter : lead.isAlpha = true) :
    String.ofList ((first :: rest).map Char.toLower) ≠ String.ofList (lead :: more) := by
  intro same
  have lists := String.ofList_injective same
  rw [List.map_cons, List.cons.injEq] at lists
  obtain ⟨n, small, rfl⟩ := exists_digit digit
  rw [← lists.1] at letter
  interval_cases n <;> cases letter

/-- The plain text of a finite number is read back as the number. -/
theorem readReal_plain {x : Binary64} (finite : x.isFinite = true) :
    readReal x.plain = some x := by
  obtain ⟨first, rest, text, digit, _, reads⟩ := plain_forms finite
  unfold readReal
  rw [text, readSign_signChars x digit rest]
  simp only
  rw [if_neg (not_or.mpr ⟨lowered_ne digit rest (by rfl), lowered_ne digit rest (by rfl)⟩),
    if_neg (lowered_ne digit rest (by rfl)), reads]

end Binary64

end RobotBlocks
