import RobotBlocks.Toml.Reader
import RobotBlocks.Proofs.Toml.Counts
import RobotBlocks.Proofs.Toml.Texts

/-!
# Printed statements are read back

A printed header or entry is one statement on a line of its own.  The lines of a printed text are
read one after the other, and empty lines between them are passed over.
-/

namespace RobotBlocks.Toml

variable {name : String} {printed rest : List Char} {value : Value}

/-! ## Names -/

/-- A name that is written without quotes. -/
structure IsBareName (name : String) : Prop where
  filled : name.toList ≠ []
  bare : ∀ c ∈ name.toList, isBare c = true

theorem isBare_facts {c : Char} (bare : isBare c = true) :
    c ≠ '"' ∧ c ≠ '\'' ∧ c ≠ '[' ∧ c ≠ '#' ∧ c ≠ '\n' ∧ c ≠ '\r' ∧ isGap c = false := by
  have other {d : Char} (quoted : isBare d = false) : c ≠ d := by
    rintro rfl
    exact absurd bare (Bool.eq_false_iff.mp quoted)
  refine ⟨other rfl, other rfl, other rfl, other rfl, other rfl, other rfl, ?_⟩
  unfold isGap
  rw [beq_eq_false_iff_ne.mpr (other rfl), beq_eq_false_iff_ne.mpr (other rfl)]
  rfl

theorem skipGaps_cons {first : Char} (gap : isGap first = false) (rest : List Char) :
    skipGaps (first :: rest) = first :: rest :=
  List.dropWhile_cons_of_neg (Bool.eq_false_iff.mp gap)

theorem IsBareName.cons (named : IsBareName name) :
    ∃ first more, name.toList = first :: more ∧ isBare first = true := by
  obtain ⟨first, more, split⟩ := List.exists_cons_of_ne_nil named.filled
  exact ⟨first, more, split, named.bare first (split ▸ List.mem_cons_self)⟩

theorem IsBareName.skipGaps (named : IsBareName name) (rest : List Char) :
    Toml.skipGaps (name.toList ++ rest) = name.toList ++ rest := by
  obtain ⟨first, more, split, bare⟩ := named.cons
  obtain ⟨_, _, _, _, _, _, gap⟩ := isBare_facts bare
  rw [split, List.cons_append, skipGaps_cons gap]

/-- A bare name ends where another character comes. -/
theorem IsBareName.readName (named : IsBareName name) {c : Char} (ends : isBare c = false)
    (rest : List Char) : Toml.readName (name.toList ++ c :: rest) = some (name, c :: rest) := by
  have taken : (name.toList ++ c :: rest).takeWhile isBare = name.toList := by
    rw [List.takeWhile_append_of_pos named.bare, List.takeWhile_cons_of_neg
      (Bool.eq_false_iff.mp ends), List.append_nil]
  have dropped : (name.toList ++ c :: rest).dropWhile isBare = c :: rest := by
    rw [List.dropWhile_append_of_pos named.bare, List.dropWhile_cons_of_neg
      (Bool.eq_false_iff.mp ends)]
  obtain ⟨first, more, split, bare⟩ := named.cons
  obtain ⟨double, single, _⟩ := isBare_facts bare
  unfold Toml.readName
  split
  · rename_i same
    rw [split] at same
    exact absurd (List.cons.inj same).1 double
  · rename_i same
    rw [split] at same
    exact absurd (List.cons.inj same).1 single
  · rw [taken, dropped]
    rw [split]
    simp only
    rw [← split, String.ofList_toList]

theorem IsBareName.readDotted (named : IsBareName name) {c d : Char} (ends : isBare c = false)
    {rest more : List Char} (next : Toml.skipGaps (c :: rest) = d :: more) (single : d ≠ '.') :
    Toml.readDotted (name.toList ++ c :: rest) = some (([], name), d :: more) := by
  unfold Toml.readDotted longestPath
  rw [readPath, named.skipGaps, named.readName ends]
  simp only [Option.bind_eq_bind, Option.bind_some]
  rw [next]
  split
  · rename_i same
    exact absurd (List.cons.inj same).1 single
  · rfl

/-! ## Lines -/

/-- What is printed is read back as a value, up to the end of the line. -/
structure PrintsAs (printed : List Char) (value : Value) : Prop where
  starts : ∃ first more, printed = first :: more ∧ isGap first = false ∧ first ≠ '[' ∧ first ≠ '{'
  read : ∀ rest, readScalar (printed ++ '\n' :: rest) = some (value, '\n' :: rest)

theorem printsAs_count {n : Nat} (fits : n < 2 ^ (63 : Nat)) :
    PrintsAs (Binary64.digitChars n) (.integer n) where
  starts := by
    obtain ⟨first, rest, split, digit⟩ := exists_digitChars n
    refine ⟨first, rest, split, ?_, ne_of_isDigit digit rfl, ne_of_isDigit digit rfl⟩
    unfold isGap
    rw [beq_eq_false_iff_ne.mpr (ne_of_isDigit digit rfl),
      beq_eq_false_iff_ne.mpr (ne_of_isDigit digit rfl)]
    rfl
  read rest := readScalar_digitChars fits rest

theorem printsAs_text (text : String) : PrintsAs (printText text.toList) (.text text) where
  starts := by
    obtain ⟨first, more, printed, mark⟩ := exists_printText text.toList
    refine ⟨first, more, printed, ?_⟩
    rcases mark with rfl | rfl
    · exact ⟨rfl, by decide, by decide⟩
    · exact ⟨rfl, by decide, by decide⟩
  read rest := by
    have double : ('\n' :: rest).head? ≠ some '"' := fun same => nomatch Option.some_inj.mp same
    have single : ('\n' :: rest).head? ≠ some '\'' := fun same => nomatch Option.some_inj.mp same
    have read := readScalar_printText text.toList double single
    rw [String.ofList_toList] at read
    exact read

theorem PrintsAs.skipGaps (prints : PrintsAs printed value) (rest : List Char) :
    Toml.skipGaps (printed ++ rest) = printed ++ rest := by
  obtain ⟨first, more, split, gap, _⟩ := prints.starts
  rw [split, List.cons_append, skipGaps_cons gap]

theorem PrintsAs.readValue (prints : PrintsAs printed value) (rest : List Char) :
    Toml.readValue nestingLimit (printed ++ '\n' :: rest) = some (value, '\n' :: rest) := by
  obtain ⟨first, more, split, _, array, table⟩ := prints.starts
  have read := prints.read rest
  unfold nestingLimit
  rw [split, List.cons_append] at read ⊢
  rw [Toml.readValue]
  · exact read
  · exact fun _ same => array (List.cons.inj same).1
  · exact fun _ same => table (List.cons.inj same).1

/-- An entry is a statement up to the end of its line. -/
theorem readStatement_entry (named : IsBareName name) (prints : PrintsAs printed value)
    (rest : List Char) :
    readStatement (printEntry name printed ++ rest) =
      some (.entry [] name value, '\n' :: rest) := by
  have line : printEntry name printed ++ rest =
      name.toList ++ ' ' :: '=' :: ' ' :: (printed ++ '\n' :: rest) := by
    unfold printEntry
    have equals : " = ".toList = [' ', '=', ' '] := by decide
    simp only [equals, List.append_assoc, List.cons_append, List.nil_append]
  have dotted : readDotted (name.toList ++ ' ' :: '=' :: ' ' :: (printed ++ '\n' :: rest)) =
      some (([], name), '=' :: ' ' :: (printed ++ '\n' :: rest)) :=
    named.readDotted rfl rfl (by decide)
  have gap : Toml.skipGaps (' ' :: (printed ++ '\n' :: rest)) = printed ++ '\n' :: rest :=
    prints.skipGaps _
  obtain ⟨first, more, split, bare⟩ := named.cons
  obtain ⟨_, _, bracket, _⟩ := isBare_facts bare
  rw [line]
  unfold readStatement
  split
  · rename_i same
    rw [split] at same
    exact absurd (List.cons.inj same).1 bracket
  · rename_i same
    rw [split] at same
    exact absurd (List.cons.inj same).1 bracket
  · simp only [dotted, Option.bind_eq_bind, Option.bind_some, readMark, if_true, gap,
      prints.readValue, Option.pure_def]

/-- A header is a statement up to the end of its line. -/
theorem readStatement_header (named : IsBareName name) (rest : List Char) :
    readStatement (printHeader name ++ rest) = some (.header [] name, '\n' :: rest) := by
  have line : printHeader name ++ rest = '[' :: (name.toList ++ ']' :: '\n' :: rest) := by
    unfold printHeader
    simp only [List.cons_append, List.append_assoc, List.nil_append]
  have dotted : readDotted (name.toList ++ ']' :: '\n' :: rest) =
      some (([], name), ']' :: '\n' :: rest) := named.readDotted rfl rfl (by decide)
  obtain ⟨first, more, split, bare⟩ := named.cons
  obtain ⟨_, _, bracket, _⟩ := isBare_facts bare
  rw [line]
  unfold readStatement
  split
  · rename_i same
    rw [split] at same
    exact absurd (List.cons.inj (List.cons.inj same).2).1 bracket
  · rename_i same
    obtain rfl := (List.cons.inj same).2
    unfold readHeader
    simp only [dotted, Option.bind_eq_bind, Option.bind_some, readMark, if_true, Option.pure_def]
    rfl
  · rename_i other
    exact absurd rfl (other _)

/-! ## Texts of several lines -/

/-- A statement on a line of its own is read before the lines after it. -/
theorem readStatements_cons {first : Char} {line : List Char} {statement : Statement}
    (start : first ≠ '#' ∧ first ≠ '\n' ∧ first ≠ '\r' ∧ isGap first = false)
    (read : readStatement (first :: line) = some (statement, '\n' :: rest)) (fuel : Nat) :
    readStatements (fuel + 1) (first :: line) =
      (readStatements fuel rest).map (statement :: ·) := by
  obtain ⟨comment, feed, turn, gap⟩ := start
  rw [readStatements, skipGaps_cons gap]
  split
  · rename_i same
    exact absurd same (List.cons_ne_nil _ _)
  · rename_i same
    exact absurd (List.cons.inj same).1 comment
  · rename_i same
    exact absurd (List.cons.inj same).1 feed
  · rename_i same
    exact absurd (List.cons.inj same).1 turn
  · have finished : finishLine ('\n' :: rest) = some rest := rfl
    simp only [read, Option.bind_eq_bind, Option.bind_some, finished]
    cases readStatements fuel rest <;> rfl

theorem readStatements_entry (named : IsBareName name) (prints : PrintsAs printed value)
    (rest : List Char) (fuel : Nat) :
    readStatements (fuel + 1) (printEntry name printed ++ rest) =
      (readStatements fuel rest).map (.entry [] name value :: ·) := by
  have read := readStatement_entry named prints rest
  obtain ⟨first, more, split, bare⟩ := named.cons
  obtain ⟨_, _, _, comment, feed, turn, gap⟩ := isBare_facts bare
  have line : ∃ tail, printEntry name printed ++ rest = first :: tail := by
    unfold printEntry
    rw [split]
    exact ⟨_, rfl⟩
  obtain ⟨tail, line⟩ := line
  rw [line] at read ⊢
  exact readStatements_cons ⟨comment, feed, turn, gap⟩ read fuel

theorem readStatements_header (named : IsBareName name) (rest : List Char) (fuel : Nat) :
    readStatements (fuel + 1) (printHeader name ++ rest) =
      (readStatements fuel rest).map (.header [] name :: ·) :=
  readStatements_cons ⟨by decide, by decide, by decide, rfl⟩ (readStatement_header named rest) fuel

theorem readStatements_blank (rest : List Char) (fuel : Nat) :
    readStatements (fuel + 1) ('\n' :: rest) = readStatements fuel rest :=
  rfl

theorem readStatements_nil (fuel : Nat) : readStatements (fuel + 1) [] = some [] :=
  rfl

end RobotBlocks.Toml
