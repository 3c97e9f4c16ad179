import RobotBlocks.Json.Token
import RobotBlocks.Proofs.Numeric.DocumentText
import RobotBlocks.Proofs.Text.Bytes

/-!
# Tokens of numbers

The scanner is followed through the parts of a number: a sign, a whole number, decimal places and
a power of ten.  The number is complete at the first byte that cannot belong to it.
-/

namespace RobotBlocks.Json

open Binary64 (digitChars numeralChars placesChars powerChars)
open Numeric (AllDigits digitsValue exists_digit)
open Text (bytesOf bytesOf_append bytesOf_cons_small)

theorem scan_cons (mode : Mode) (b : UInt8) (rest : List UInt8) :
    scan mode (b :: rest) = (step mode b).1 ++ scan (step mode b).2 rest := rfl

/-- A byte that completes no token only changes the mode. -/
theorem scan_silent {mode next : Mode} {b : UInt8} (silent : step mode b = ([], next))
    (rest : List UInt8) : scan mode (b :: rest) = scan next rest := by
  rw [scan_cons, silent]
  rfl

/-- The byte of a small character is read like a byte. -/
theorem scan_char {mode next : Mode} {c : Char} (small : c.toNat < 128)
    (silent : step mode (UInt8.ofNat c.toNat) = ([], next)) (text : List Char)
    (rest : List UInt8) :
    scan mode (bytesOf (c :: text) ++ rest) = scan next (bytesOf text ++ rest) := by
  rw [bytesOf_cons_small small]
  exact scan_silent silent _

/-! ## Digits -/

theorem digit_small {c : Char} (digit : c.isDigit = true) : c.toNat < 128 := by
  obtain ⟨n, small, rfl⟩ := exists_digit digit
  interval_cases n <;> decide

theorem digit?_ofNat {c : Char} (digit : c.isDigit = true) :
    digit? (UInt8.ofNat c.toNat) = some (c.toNat - 48) := by
  obtain ⟨n, small, rfl⟩ := exists_digit digit
  interval_cases n <;> rfl

theorem step_of_extend {sofar more : Partial} {b : UInt8}
    (extended : sofar.extend? b = some more) : step (.number sofar) b = ([], .number more) := by
  simp only [step, extended]

def Partial.grow (sofar : Partial) (digits : List Char) : Partial :=
  match sofar.stage with
  | .whole => { sofar with digits := digitsValue sofar.digits digits }
  | .places =>
      { sofar with
        digits := digitsValue sofar.digits digits, places := sofar.places + digits.length }
  | .power => { sofar with power := digitsValue sofar.power digits }
  | _ => sofar

theorem grow_stage (sofar : Partial) (digits : List Char) :
    (sofar.grow digits).stage = sofar.stage := by
  unfold Partial.grow
  split <;> rfl

theorem grow_cons {sofar : Partial}
    (stage : sofar.stage = .whole ∨ sofar.stage = .places ∨ sofar.stage = .power) (c : Char)
    (digits : List Char) : (sofar.grow [c]).grow digits = sofar.grow (c :: digits) := by
  obtain ⟨current, negative, value, places, powerNegative, power⟩ := sofar
  change current = .whole ∨ current = .places ∨ current = .power at stage
  rcases stage with rfl | rfl | rfl
  · rfl
  · have count : places + [c].length + digits.length = places + (c :: digits).length := by
      simp only [List.length_cons, List.length_nil]
      omega
    simp only [Partial.grow, count]
    rfl
  · rfl

/-- Digits go on with the part that is being read. -/
theorem scan_digits {sofar : Partial}
    (stage : sofar.stage = .whole ∨ sofar.stage = .places ∨ sofar.stage = .power)
    {digits : List Char} (all : AllDigits digits) (rest : List UInt8) :
    scan (.number sofar) (bytesOf digits ++ rest) = scan (.number (sofar.grow digits)) rest := by
  induction digits generalizing sofar with
  | nil =>
      unfold Partial.grow
      split <;> rfl
  | cons c digits ih =>
      have digit := all c List.mem_cons_self
      have others : AllDigits digits := fun other mem => all other (List.mem_cons_of_mem _ mem)
      have extended : sofar.extend? (UInt8.ofNat c.toNat) = some (sofar.grow [c]) := by
        unfold Partial.extend? Partial.grow
        rcases stage with stage | stage | stage <;> rw [stage, digit?_ofNat digit] <;> rfl
      rw [scan_char (digit_small digit) (step_of_extend extended),
        ih (by rwa [grow_stage]) others, grow_cons stage]

/-! ## Whole numbers and what follows them -/

def wholePart (negative : Bool) (whole : ℕ) : Partial :=
  { stage := if whole = 0 then .zero else .whole, negative, digits := whole }

def signOf (negative : Bool) : List Char :=
  if negative then ['-'] else []

/-- The first digit of a whole number, after a sign or without one. -/
theorem scan_firstDigit (negative : Bool) {n : ℕ} (small : n < 10) (text : List Char)
    (rest : List UInt8) :
    scan .between (bytesOf (signOf negative ++ n.digitChar :: text) ++ rest) =
      scan (.number (wholePart negative n)) (bytesOf text ++ rest) := by
  have digit : n.digitChar.toNat < 128 := by interval_cases n <;> decide
  cases negative with
  | true =>
      refine (@scan_char .between (.number { stage := .sign, negative := true }) '-' (by decide)
        rfl _ _).trans (scan_char digit ?_ text rest)
      interval_cases n <;> rfl
  | false =>
      refine scan_char digit ?_ text rest
      interval_cases n <;> rfl

/-- A sign and a whole number are read as far as they go. -/
theorem scan_wholePart (negative : Bool) (whole : ℕ) (text : List Char) (rest : List UInt8) :
    scan .between (bytesOf (signOf negative ++ (digitChars whole ++ text)) ++ rest) =
      scan (.number (wholePart negative whole)) (bytesOf text ++ rest) := by
  rcases Nat.eq_zero_or_pos whole with rfl | positive
  · rw [Numeric.digitChars_zero]
    exact @scan_firstDigit negative 0 (by decide) text rest
  · have digits := Numeric.allDigits_digitChars whole
    have value := Numeric.digitsValue_digitChars whole
    obtain ⟨lead, more, split, notZero⟩ := Numeric.head_digitChars positive
    rw [split] at digits value
    obtain ⟨n, small, rfl⟩ := exists_digit (digits lead List.mem_cons_self)
    have nonzero : n ≠ 0 := fun zero => notZero (by rw [zero]; rfl)
    have first : digitsValue 0 [n.digitChar] = n := by
      interval_cases n <;> rfl
    have stage : (wholePart negative n).stage = .whole := if_neg nonzero
    have grown : (wholePart negative n).grow more = wholePart negative whole := by
      rw [← List.singleton_append, Numeric.digitsValue_append, first] at value
      unfold Partial.grow
      rw [stage]
      unfold wholePart
      simp only [value, if_neg positive.ne']
    rw [split, List.cons_append, scan_firstDigit negative small, bytesOf_append, List.append_assoc,
      scan_digits (.inl stage) (fun c mem => digits c (List.mem_cons_of_mem _ mem)), grown]

/-- A number that has the given digits, of which `count` are decimal places. -/
def inPlaces (negative : Bool) (digits count : ℕ) : Partial :=
  { stage := .places, negative, digits, places := count }

def placesPart (negative : Bool) (whole : ℕ) (places : List Char) : Partial :=
  if places.isEmpty then wholePart negative whole
  else inPlaces negative (digitsValue whole places) places.length

theorem wholePart_stage (negative : Bool) (whole : ℕ) :
    (wholePart negative whole).stage = .zero ∨ (wholePart negative whole).stage = .whole := by
  unfold wholePart
  simp only
  split
  · exact .inl rfl
  · exact .inr rfl

theorem scan_placesPart (negative : Bool) (whole : ℕ) {places : List Char}
    (all : AllDigits places) (text : List Char) (rest : List UInt8) :
    scan (.number (wholePart negative whole)) (bytesOf (placesChars places ++ text) ++ rest) =
      scan (.number (placesPart negative whole places)) (bytesOf text ++ rest) := by
  cases places with
  | nil => rfl
  | cons first more =>
      have digit := all first List.mem_cons_self
      have others : AllDigits more := fun other mem => all other (List.mem_cons_of_mem _ mem)
      have point : (wholePart negative whole).extend? 46 =
          some { stage := .point, negative, digits := whole } := by
        unfold Partial.extend?
        rcases wholePart_stage negative whole with stage | stage <;> rw [stage] <;> rfl
      have opens : Partial.extend? { stage := .point, negative, digits := whole }
          (UInt8.ofNat first.toNat) =
            some (inPlaces negative (10 * whole + (first.toNat - 48)) 1) := by
        unfold Partial.extend?
        rw [digit?_ofNat digit]
        rfl
      have grown : (inPlaces negative (10 * whole + (first.toNat - 48)) 1).grow more =
          placesPart negative whole (first :: more) := by
        unfold placesPart
        rw [List.length_cons, Nat.add_comm more.length]
        rfl
      have split : placesChars (first :: more) ++ text = '.' :: first :: (more ++ text) := rfl
      rw [split, @scan_char _ _ '.' (by decide) (step_of_extend point),
        scan_char (digit_small digit) (step_of_extend opens), bytesOf_append, List.append_assoc,
        scan_digits (.inr (.inl rfl)) others, grown]

def powerPart (sofar : Partial) : Option ℤ → Partial
  | none => sofar
  | some power => { sofar with stage := .power, powerNegative := power < 0, power := power.natAbs }

theorem placesPart_stage (negative : Bool) (whole : ℕ) (places : List Char) :
    (placesPart negative whole places).stage = .zero ∨
      (placesPart negative whole places).stage = .whole ∨
      (placesPart negative whole places).stage = .places := by
  unfold placesPart
  split
  · exact (wholePart_stage negative whole).imp_right .inl
  · exact .inr (.inr rfl)

theorem placesPart_power (negative : Bool) (whole : ℕ) (places : List Char) :
    (placesPart negative whole places).powerNegative = false ∧
      (placesPart negative whole places).power = 0 := by
  unfold placesPart
  split <;> exact ⟨rfl, rfl⟩

theorem extend?_mark {sofar : Partial}
    (stage : sofar.stage = .zero ∨ sofar.stage = .whole ∨ sofar.stage = .places) :
    sofar.extend? 101 = some { sofar with stage := .mark } := by
  unfold Partial.extend?
  rcases stage with stage | stage | stage <;> rw [stage] <;> rfl

theorem extend?_powerSign {sofar : Partial} (fresh : sofar.powerNegative = false) (power : ℤ) :
    Partial.extend? { sofar with stage := .mark }
      (UInt8.ofNat (if power < 0 then '-' else '+').toNat) =
        some { sofar with stage := .powerSign, powerNegative := power < 0 } := by
  by_cases negative : power < 0
  · simp only [if_pos negative, decide_eq_true negative]
    rfl
  · simp only [if_neg negative, decide_eq_false negative, ← fresh]
    rfl

/-- The digits after the sign of a power are its magnitude. -/
theorem scan_powerDigits {sofar : Partial} (fresh : sofar.power = 0) (power : ℤ)
    (rest : List UInt8) :
    scan (.number { sofar with stage := .powerSign, powerNegative := power < 0 })
      (bytesOf (Binary64.digitChars power.natAbs) ++ rest) =
        scan (.number (powerPart sofar (some power))) rest := by
  have digits := Numeric.allDigits_digitChars power.natAbs
  have value := Numeric.digitsValue_digitChars power.natAbs
  obtain ⟨first, more, split⟩ := List.exists_cons_of_ne_nil
    (Numeric.digitChars_ne_nil power.natAbs)
  rw [split] at digits value
  have digit := digits first List.mem_cons_self
  have opens : Partial.extend? { sofar with stage := .powerSign, powerNegative := power < 0 }
      (UInt8.ofNat first.toNat) =
        some { powerPart sofar (some power) with power := first.toNat - 48 } := by
    unfold Partial.extend?
    rw [digit?_ofNat digit, fresh]
    simp only [Nat.mul_zero, Nat.zero_add]
    rfl
  have grown : Partial.grow { powerPart sofar (some power) with power := first.toNat - 48 }
      more = powerPart sofar (some power) := by
    have whole : digitsValue (first.toNat - 48) more = power.natAbs := by
      have start : digitsValue 0 (first :: more) =
          digitsValue (10 * 0 + (first.toNat - 48)) more := rfl
      rw [← value, start, Nat.mul_zero, Nat.zero_add]
    unfold Partial.grow powerPart
    simp only [whole]
  rw [split, scan_char (digit_small digit) (step_of_extend opens),
    scan_digits (.inr (.inr rfl)) (fun c mem => digits c (List.mem_cons_of_mem _ mem)), grown]

theorem scan_powerPart {sofar : Partial}
    (stage : sofar.stage = .zero ∨ sofar.stage = .whole ∨ sofar.stage = .places)
    (fresh : sofar.powerNegative = false ∧ sofar.power = 0) (power : Option ℤ)
    (rest : List UInt8) :
    scan (.number sofar) (bytesOf (powerChars power) ++ rest) =
      scan (.number (powerPart sofar power)) rest := by
  cases power with
  | none => rfl
  | some power =>
      have small : (if power < 0 then '-' else '+').toNat < 128 := by
        split <;> decide
      unfold powerChars
      rw [@scan_char _ _ 'e' (by decide) (step_of_extend (extend?_mark stage)),
        scan_char small (step_of_extend (extend?_powerSign fresh.1 power)),
        scan_powerDigits fresh.2]

/-! ## Complete numbers -/

/-- A number in front of these bytes is complete: there are none, or one that belongs to none. -/
def EndsNumber (rest : List UInt8) : Prop :=
  ∀ b ∈ rest.head?, b = 10 ∨ b = 44 ∨ b = 93 ∨ b = 125

theorem complete_iff {sofar : Partial} :
    sofar.complete = true ↔ sofar.stage = .zero ∨ sofar.stage = .whole ∨
      sofar.stage = .places ∨ sofar.stage = .power := by
  unfold Partial.complete
  cases sofar.stage <;> simp

theorem scan_complete {sofar : Partial} (complete : sofar.complete = true) {rest : List UInt8}
    (ends : EndsNumber rest) :
    scan (.number sofar) rest = .number sofar.numeral :: scan .between rest := by
  cases rest with
  | nil =>
      have finished : finish (.number sofar) = [.number sofar.numeral] := if_pos complete
      exact finished
  | cons b more =>
      have foreign : digit? b = none ∧ sofar.extend? b = none := by
        have noDigit : digit? b = none := by
          rcases ends b rfl with rfl | rfl | rfl | rfl <;> rfl
        refine ⟨noDigit, ?_⟩
        unfold Partial.extend?
        rw [noDigit]
        rcases complete_iff.mp complete with stage | stage | stage | stage <;> rw [stage] <;>
          rcases ends b rfl with rfl | rfl | rfl | rfl <;> rfl
      have stepped : step (.number sofar) b =
          (.number sofar.numeral :: (start b).1, (start b).2) := by
        simp only [step, foreign.2, complete, if_true, foreign.1]
        rw [if_neg (by simp)]
      rw [scan_cons, stepped]
      rfl

def numeralOf (negative : Bool) (whole : ℕ) (places : List Char) (power : Option ℤ) : Numeral where
  negative := negative
  digits := digitsValue whole places
  scale := power.getD 0 - places.length
  whole := places.isEmpty && power.isNone

theorem placesPart_fields (negative : Bool) (whole : ℕ) (places : List Char) :
    (placesPart negative whole places).negative = negative ∧
      (placesPart negative whole places).digits = digitsValue whole places ∧
      (placesPart negative whole places).places = places.length := by
  cases places <;> exact ⟨rfl, rfl, rfl⟩

theorem complete_powerPart (negative : Bool) (whole : ℕ) (places : List Char) (power : Option ℤ) :
    (powerPart (placesPart negative whole places) power).complete = true := by
  cases power with
  | none =>
      exact complete_iff.mpr ((placesPart_stage negative whole places).imp_right
        fun later => later.imp_right .inl)
  | some power => rfl

theorem numeral_powerPart (negative : Bool) (whole : ℕ) (places : List Char) (power : Option ℤ) :
    (powerPart (placesPart negative whole places) power).numeral =
      numeralOf negative whole places power := by
  obtain ⟨sign, digits, count⟩ := placesPart_fields negative whole places
  cases power with
  | none =>
      obtain ⟨positive, zero⟩ := placesPart_power negative whole places
      have stage : ((placesPart negative whole places).stage == .zero ||
          (placesPart negative whole places).stage == .whole) = places.isEmpty := by
        cases places with
        | nil =>
            rcases wholePart_stage negative whole with stage | stage <;>
              exact (congrArg (fun stage => stage == .zero || stage == .whole) stage)
        | cons first more => rfl
      unfold Partial.numeral numeralOf powerPart
      rw [sign, digits, count, positive, zero, stage]
      simp
  | some power =>
      have scale : (if power < 0 then -(power.natAbs : ℤ) else power.natAbs) = power := by
        split <;> omega
      unfold Partial.numeral numeralOf powerPart
      simp only [sign, digits, count, decide_eq_true_eq, scale]
      simp

/-- A printed number is one token, whatever comes after it. -/
theorem scan_numeral (negative : Bool) (whole : ℕ) {places : List Char} (all : AllDigits places)
    (power : Option ℤ) {rest : List UInt8} (ends : EndsNumber rest) :
    scan .between (bytesOf (signOf negative ++ numeralChars whole places power) ++ rest) =
      .number (numeralOf negative whole places power) :: scan .between rest := by
  have complete := complete_powerPart negative whole places power
  unfold numeralChars
  rw [scan_wholePart, scan_placesPart negative whole all,
    scan_powerPart (placesPart_stage negative whole places)
      (placesPart_power negative whole places), scan_complete complete ends,
    numeral_powerPart]

end RobotBlocks.Json
