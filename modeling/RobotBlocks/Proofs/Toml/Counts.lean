import RobotBlocks.Toml.Scalar
import RobotBlocks.Proofs.Numeric.Digits

/-!
# Printed counts are read back

The digits of a count up to the end of a line are no date, no time and no real number.  They are
read as the count if it fits in sixty-four bits with a sign.
-/

namespace RobotBlocks.Toml

open Binary64 (digitChars)
open Numeric (AllDigits allDigits_digitChars digitChars_ne_nil digitChars_zero
  digitsValue_digitChars head_digitChars)

variable {digits more : List Char}

/-! ## Whole numbers -/

theorem ne_of_isDigit {c other : Char} (digit : c.isDigit = true) (letter : other.isDigit = false) :
    c ≠ other := by
  rintro rfl
  exact absurd digit (Bool.eq_false_iff.mp letter)

theorem exists_digitChars (n : Nat) :
    ∃ first rest, digitChars n = first :: rest ∧ first.isDigit = true := by
  obtain ⟨first, rest, split⟩ := List.exists_cons_of_ne_nil (digitChars_ne_nil n)
  exact ⟨first, rest, split, allDigits_digitChars n first (split ▸ List.mem_cons_self)⟩

theorem moreDigits_line (all : AllDigits digits) (more : List Char) :
    moreDigits Char.isDigit (digits ++ '\n' :: more) = (digits, '\n' :: more) := by
  induction digits with
  | nil => cases more <;> rfl
  | cons c digits ih =>
      have digit := all c List.mem_cons_self
      have rest := ih fun d mem => all d (List.mem_cons_of_mem c mem)
      obtain ⟨second, others, split⟩ :=
        List.exists_cons_of_ne_nil (List.append_ne_nil_of_right_ne_nil digits
          (List.cons_ne_nil '\n' more))
      rw [split] at rest
      rw [List.cons_append, split, moreDigits, if_neg (ne_of_isDigit digit rfl), if_pos digit, rest]

theorem readSign_digits {c : Char} (digit : c.isDigit = true) (rest : List Char) :
    readSign (c :: rest) = ([], c :: rest) := by
  unfold readSign
  split
  · rename_i same
    exact absurd (List.cons.inj same).1 (ne_of_isDigit digit rfl)
  · rename_i same
    exact absurd (List.cons.inj same).1 (ne_of_isDigit digit rfl)
  · rfl

/-- The digits of a count are read up to the end of the line. -/
theorem readWhole_line (n : Nat) (more : List Char) :
    readWhole (digitChars n ++ '\n' :: more) = some (digitChars n, '\n' :: more) := by
  rcases Nat.eq_zero_or_pos n with rfl | positive
  · rw [digitChars_zero]
    rfl
  obtain ⟨lead, rest, split, notZero⟩ := head_digitChars positive
  have all := allDigits_digitChars n
  rw [split] at all
  have digit := all lead List.mem_cons_self
  have others := moreDigits_line (fun c mem => all c (List.mem_cons_of_mem lead mem)) more
  rw [split]
  unfold readWhole
  rw [List.cons_append, readSign_digits digit]
  simp only [List.nil_append]
  split
  · rename_i same
    exact absurd (List.cons.inj same).1 notZero
  · unfold readDigits
    simp only [digit, if_true, others, Option.map_some]

/-! ## What digits are not -/

theorem readPart_line (all : AllDigits digits) {width value : Nat} {rest : List Char}
    (read : readPart width (digits ++ '\n' :: more) = some (value, rest)) :
    ∃ others, AllDigits others ∧ rest = others ++ '\n' :: more := by
  obtain ⟨⟨_, taken⟩, found⟩ := Option.ite_none_right_eq_some.mp read
  obtain rfl := (Prod.mk.inj (Option.some_inj.mp found)).2
  rcases Nat.lt_or_ge digits.length width with beyond | within
  · -- The line end would be one of the digits.
    have inside : '\n' ∈ (digits ++ '\n' :: more).take width := by
      obtain ⟨extra, same⟩ : ∃ extra, width - digits.length = extra + 1 :=
        ⟨width - digits.length - 1, by omega⟩
      rw [List.take_append, same, List.take_succ_cons]
      exact List.mem_append_right _ List.mem_cons_self
    exact absurd (List.all_eq_true.mp taken '\n' inside) (by decide)
  · exact ⟨digits.drop width, all.drop width, List.drop_append_of_le_length within⟩

theorem readMark_line (all : AllDigits digits) {c : Char} (letter : c.isDigit = false)
    (line : c ≠ '\n') : readMark c (digits ++ '\n' :: more) = none := by
  cases digits with
  | nil => exact if_neg line.symm
  | cons d rest => exact if_neg (ne_of_isDigit (all d List.mem_cons_self) letter)

theorem readMoment_line (all : AllDigits digits) : readMoment (digits ++ '\n' :: more) = none := by
  have date : readDate (digits ++ '\n' :: more) = none := by
    unfold readDate
    cases year : readPart 4 (digits ++ '\n' :: more) with
    | none => rfl
    | some found =>
        obtain ⟨others, rest, same⟩ := readPart_line all year
        have dash : readMark '-' (others ++ '\n' :: more) = none :=
          readMark_line rest rfl (by decide)
        simp only [Option.bind_eq_bind, Option.bind_some, same, dash, Option.bind_none]
  have time : readTime (digits ++ '\n' :: more) = none := by
    unfold readTime readHourMinute
    cases hour : readPart 2 (digits ++ '\n' :: more) with
    | none => rfl
    | some found =>
        obtain ⟨others, rest, same⟩ := readPart_line all hour
        have colon : readMark ':' (others ++ '\n' :: more) = none :=
          readMark_line rest rfl (by decide)
        simp only [Option.bind_eq_bind, Option.bind_some, same, colon, Option.bind_none]
  unfold readMoment
  rw [date, time]
  rfl

theorem readDecimal_line (n : Nat) : readDecimal (digitChars n ++ '\n' :: more) = none := by
  unfold readDecimal
  rw [readWhole_line]
  rfl

theorem readSpecial_line (n : Nat) : readSpecial (digitChars n ++ '\n' :: more) = none := by
  obtain ⟨first, rest, split, digit⟩ := exists_digitChars n
  have word : ¬((first :: (rest ++ '\n' :: more)).take 3 = ['i', 'n', 'f'] ∨
      (first :: (rest ++ '\n' :: more)).take 3 = ['n', 'a', 'n']) := by
    rintro (same | same)
    · exact ne_of_isDigit digit rfl (List.cons.inj same).1
    · exact ne_of_isDigit digit rfl (List.cons.inj same).1
  unfold readSpecial
  rw [split, List.cons_append, readSign_digits digit]
  exact if_neg word

theorem readInteger_line {n : Nat} (fits : n < 2 ^ (63 : Nat)) :
    readInteger (digitChars n ++ '\n' :: more) = some (.integer n, '\n' :: more) := by
  have whole := readWhole_line n more
  have digits : (digitChars n).filter Char.isDigit = digitChars n :=
    List.filter_eq_self.mpr (allDigits_digitChars n)
  have unsigned : ((digitChars n).head? == some '-') = false := by
    obtain ⟨first, rest, split, digit⟩ := exists_digitChars n
    rw [split]
    exact beq_eq_false_iff_ne.mpr fun same => ne_of_isDigit digit rfl (Option.some_inj.mp same)
  have value : integer? false n = some (.integer n) := if_pos fits
  have second {c : Char} {rest : List Char} (letter : c.isDigit = false) (line : c ≠ '\n')
      (same : digitChars n ++ '\n' :: more = '0' :: c :: rest) : False := by
    have all := allDigits_digitChars n
    rcases split : digitChars n with _ | ⟨lead, _ | ⟨next, others⟩⟩
    · exact digitChars_ne_nil n split
    · rw [split] at same
      exact line (List.cons.inj (List.cons.inj same).2).1.symm
    · rw [split] at same all
      have digit := all next (List.mem_cons_of_mem lead List.mem_cons_self)
      exact ne_of_isDigit digit letter (List.cons.inj (List.cons.inj same).2).1
  unfold readInteger
  split
  · rename_i same
    exact (second rfl (by decide) same).elim
  · rename_i same
    exact (second rfl (by decide) same).elim
  · rename_i same
    exact (second rfl (by decide) same).elim
  · simp only [whole, Option.bind_eq_bind, Option.bind_some, digits, unsigned,
      digitsValue_digitChars, value, Option.pure_def]

/-- The digits of a count are read as the count. -/
theorem readScalar_digitChars {n : Nat} (fits : n < 2 ^ (63 : Nat)) (more : List Char) :
    readScalar (digitChars n ++ '\n' :: more) = some (.integer n, '\n' :: more) := by
  have moment : readMoment (digitChars n ++ '\n' :: more) = none :=
    readMoment_line (allDigits_digitChars n)
  obtain ⟨first, rest, split, digit⟩ := exists_digitChars n
  have marks : first ≠ '"' ∧ first ≠ '\'' ∧ first ≠ 't' ∧ first ≠ 'f' :=
    ⟨ne_of_isDigit digit rfl, ne_of_isDigit digit rfl, ne_of_isDigit digit rfl,
      ne_of_isDigit digit rfl⟩
  have scalar : readScalar (digitChars n ++ '\n' :: more) =
      (readMoment (digitChars n ++ '\n' :: more) <|> readDecimal (digitChars n ++ '\n' :: more) <|>
        readSpecial (digitChars n ++ '\n' :: more) <|>
          readInteger (digitChars n ++ '\n' :: more)) := by
    rw [split, List.cons_append]
    simp only [readScalar, marks, if_false]
  rw [scalar, moment, readDecimal_line, readSpecial_line, readInteger_line fits]
  rfl

end RobotBlocks.Toml
