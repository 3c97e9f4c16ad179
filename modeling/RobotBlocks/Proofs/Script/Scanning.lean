import Mathlib.Data.List.TakeWhile
import RobotBlocks.Proofs.Script.Lexical

/-!
# Reading tokens in turns

The tokens of a line are read in turns: each turn takes what stands at the start of what is left, a
blank character, a symbol, a word as far as it goes, or a quoted text up to the mark that closes it.
A turn takes at least one character, and none is possible only at the end of the line or before a
quoted text that does not end as it should.  Whatever follows a printed text, the first turn takes
exactly that text.
-/

namespace RobotBlocks.Script

/-! ## Words -/

/-- The words among the tokens of a line are words of the line. -/
theorem Lexes.isWord {line : List Char} {tokens : List Token} (lexes : Lexes line tokens)
    {word : String} (mem : .word word ∈ tokens) : IsWord word.toList := by
  induction lexes with
  | nil => cases mem
  | blank _ _ ih => exact ih mem
  | equals _ ih | opening _ ih | closing _ ih | text _ _ ih =>
      rcases List.mem_cons.mp mem with ⟨⟨⟩⟩ | later
      exact ih later
  | word isWord _ _ ih =>
      rcases List.mem_cons.mp mem with here | later
      · cases here
        rwa [String.toList_ofList]
      · exact ih later

theorem endsWord_eq_false {c : Char} :
    endsWord c = false ↔
      Text.isBlank c = false ∧ c ≠ '=' ∧ c ≠ '\x7b' ∧ c ≠ '\x7d' ∧ c ≠ '"' := by
  simp only [endsWord, Bool.or_eq_false_iff, beq_eq_false_iff_ne, and_assoc]

/-! ## Turns -/

/-- What a turn takes from the start of a text: the tokens that it gives, and what it leaves. -/
inductive Turn : List Char → List Token → List Char → Prop where
  | blank {c : Char} {rest : List Char} (blank : Text.isBlank c = true) : Turn (c :: rest) [] rest
  | equals {rest : List Char} : Turn ('=' :: rest) [.equals] rest
  | opening {rest : List Char} : Turn ('\x7b' :: rest) [.opening] rest
  | closing {rest : List Char} : Turn ('\x7d' :: rest) [.closing] rest
  | word {word rest : List Char} (isWord : IsWord word) (ends : EndsWords rest) :
      Turn (word ++ rest) [.word (String.ofList word)] rest
  | text {body content rest : List Char} (quoted : Quoted body content) :
      Turn ('"' :: (body ++ '"' :: rest)) [.text (String.ofList content)] rest

/-- What is wrong with characters after a quotation mark that do not make a quoted text: they end
too early, or a backslash stands before a mark that cannot be escaped. -/
inductive Unclosed : List Char → Problem → Prop where
  | ended : Unclosed [] .unfinishedText
  | endedEscape : Unclosed ['\\'] .unfinishedEscape
  | unknown {mark : Char} {rest : List Char} (unknown : ∀ c, ¬Escapes mark c) :
      Unclosed ('\\' :: mark :: rest) (.unknownEscape mark)
  | plain {c : Char} {rest : List Char} {problem : Problem} (notQuote : c ≠ '"')
      (notBackslash : c ≠ '\\') (later : Unclosed rest problem) : Unclosed (c :: rest) problem
  | escaped {mark c : Char} {rest : List Char} {problem : Problem} (escapes : Escapes mark c)
      (later : Unclosed rest problem) : Unclosed ('\\' :: mark :: rest) problem

/-- A text that starts with a quotation mark from which no quoted text can be read. -/
def Broken (line : List Char) (problem : Problem) : Prop :=
  ∃ rest, line = '"' :: rest ∧ Unclosed rest problem

/-- A number of turns one after the other, and the tokens that they give together. -/
inductive Turns : Nat → List Char → List Token → List Char → Prop where
  | none (line : List Char) : Turns 0 line [] line
  | more {count : Nat} {line middle left : List Char} {tokens later : List Token}
      (first : Turn line tokens middle) (rest : Turns count middle later left) :
      Turns (count + 1) line (tokens ++ later) left

/-- Every turn takes at least one character. -/
theorem Turn.length_lt {line rest : List Char} {tokens : List Token}
    (turn : Turn line tokens rest) : rest.length < line.length := by
  cases turn with
  | blank | equals | opening | closing => exact Nat.lt_succ_self _
  | word isWord ends =>
      rw [List.length_append]
      exact Nat.lt_add_of_pos_left (List.length_pos_iff.mpr isWord.1)
  | text quoted =>
      rw [List.length_cons, List.length_append, List.length_cons]
      omega

theorem Turns.length_le {count : Nat} {line left : List Char} {tokens : List Token}
    (turns : Turns count line tokens left) : count + left.length ≤ line.length := by
  induction turns with
  | none line => exact Nat.le_of_eq (Nat.zero_add _)
  | more first rest ih =>
      have shorter := first.length_lt
      omega

/-! ## Turns and the scanner -/

theorem scan_broken {rest : List Char} {problem : Problem} (unclosed : Unclosed rest problem)
    (reversed : List Char) : scan (.text reversed) rest = .error problem := by
  have opens (reversed : List Char) : step (.text reversed) '\\' = .ok ([], .escape reversed) := rfl
  induction unclosed generalizing reversed with
  | ended => rfl
  | endedEscape => rw [scan_silent (opens reversed), scan, finish]
  | @unknown mark rest unknown =>
      have meant : unescape? mark = none :=
        Option.eq_none_iff_forall_not_mem.mpr fun c found => unknown c (unescape?_eq_some.mp found)
      have refused : step (.escape reversed) mark = .error (.unknownEscape mark) := by
        simp [step, meant]
      rw [scan_silent (opens reversed), scan_cons, refused]
      rfl
  | plain notQuote notBackslash later ih =>
      rw [scan_silent (step_plain notQuote notBackslash reversed), ih]
  | escaped escapes later ih =>
      rw [scan_silent (opens reversed), scan_silent (step_escaped escapes reversed), ih]

theorem Broken.tokenize {line : List Char} {problem : Problem} (broken : Broken line problem) :
    Script.tokenize line = .error problem := by
  obtain ⟨rest, rfl, unclosed⟩ := broken
  have opens : step .between '"' = .ok ([], .text []) := rfl
  unfold Script.tokenize
  rw [scan_silent opens, scan_broken unclosed]

/-- A turn puts its tokens in front of what the rest of the line gives, a problem included. -/
theorem Turn.tokenize {line rest : List Char} {tokens : List Token}
    (turn : Turn line tokens rest) :
    Script.tokenize line = (Script.tokenize rest).map (tokens ++ ·) := by
  unfold Script.tokenize
  cases turn with
  | blank blank =>
      rw [scan_blank blank]
      cases scan .between rest <;> rfl
  | equals => exact scan_equals rest
  | opening => exact scan_opening rest
  | closing => exact scan_closing rest
  | word isWord ends => exact scan_word isWord ends
  | text quoted =>
      have opens : step .between '"' = .ok ([], .text []) := rfl
      rw [scan_silent opens]
      exact quoted.scan [] rest

theorem Turns.tokenize {count : Nat} {line left : List Char} {tokens : List Token}
    (turns : Turns count line tokens left) :
    Script.tokenize line = (Script.tokenize left).map (tokens ++ ·) := by
  induction turns with
  | none line => cases Script.tokenize line <;> rfl
  | @more count line middle left tokens later first rest ih =>
      rw [first.tokenize, ih]
      cases Script.tokenize left with
      | error problem => rfl
      | ok found => exact congrArg Except.ok (List.append_assoc _ _ _).symm

/-! ## A turn is possible -/

def staysInWord (c : Char) : Bool :=
  !endsWord c

/-- What follows a quotation mark is a quoted text, or there is something wrong with it. -/
theorem quoted_or_unclosed : (chars : List Char) →
    (∃ body content rest, chars = body ++ '"' :: rest ∧ Quoted body content) ∨
      ∃ problem, Unclosed chars problem
  | [] => .inr ⟨_, .ended⟩
  | c :: rest => by
      by_cases quotation : c = '"'
      · subst quotation
        exact .inl ⟨[], [], rest, rfl, .nil⟩
      by_cases backslash : c = '\\'
      · subst backslash
        cases rest with
        | nil => exact .inr ⟨_, .endedEscape⟩
        | cons mark rest =>
            cases meant : unescape? mark with
            | none =>
                refine .inr ⟨_, .unknown fun c escapes => ?_⟩
                rw [unescape?_eq_some.mpr escapes] at meant
                cases meant
            | some plain =>
                have escapes := unescape?_eq_some.mp meant
                rcases quoted_or_unclosed rest with
                  ⟨body, content, left, rfl, quoted⟩ | ⟨problem, unclosed⟩
                · exact .inl ⟨'\\' :: mark :: body, plain :: content, left, rfl,
                    .escaped escapes quoted⟩
                · exact .inr ⟨problem, .escaped escapes unclosed⟩
      · rcases quoted_or_unclosed rest with
          ⟨body, content, left, rfl, quoted⟩ | ⟨problem, unclosed⟩
        · exact .inl ⟨c :: body, c :: content, left, rfl, .plain quotation backslash quoted⟩
        · exact .inr ⟨problem, .plain quotation backslash unclosed⟩

/-- Characters that end no word are read as far as they go. -/
theorem exists_word_turn {c : Char} (plain : endsWord c = false) (rest : List Char) :
    ∃ tokens left, Turn (c :: rest) tokens left := by
  have isWord : IsWord (c :: rest.takeWhile staysInWord) := by
    refine ⟨List.cons_ne_nil _ _, List.forall_mem_cons.mpr ⟨plain, fun other mem => ?_⟩⟩
    have taken : staysInWord other = true := List.mem_takeWhile_imp mem
    exact Bool.not_eq_eq_eq_not.mp taken
  have ends : EndsWords (rest.dropWhile staysInWord) := by
    intro other first
    have stopped := List.head?_dropWhile_not staysInWord rest
    rw [first] at stopped
    exact Bool.not_eq_eq_eq_not.mp stopped
  have turn := Turn.word isWord ends
  rw [List.cons_append, List.takeWhile_append_dropWhile] at turn
  exact ⟨_, _, turn⟩

/-- Before the end of a line a turn is possible, or a quoted text does not end as it should. -/
theorem exists_turn_or_broken {line : List Char} (notEnd : line ≠ []) :
    (∃ tokens rest, Turn line tokens rest) ∨ ∃ problem, Broken line problem := by
  obtain ⟨c, rest, rfl⟩ := List.exists_cons_of_ne_nil notEnd
  by_cases plain : endsWord c = false
  · exact .inl (exists_word_turn plain rest)
  · simp only [Bool.not_eq_false, endsWord, Bool.or_eq_true, beq_iff_eq] at plain
    rcases plain with (((blank | rfl) | rfl) | rfl) | rfl
    · exact .inl ⟨_, _, .blank blank⟩
    · exact .inl ⟨_, _, .equals⟩
    · exact .inl ⟨_, _, .opening⟩
    · exact .inl ⟨_, _, .closing⟩
    · rcases quoted_or_unclosed rest with ⟨body, content, left, rfl, quoted⟩ | ⟨problem, unclosed⟩
      · exact .inl ⟨_, _, .text quoted⟩
      · exact .inr ⟨problem, rest, rfl, unclosed⟩

/-- Turn by turn every line comes to its end or to a quoted text that does not end as it should. -/
theorem exists_turns (line : List Char) :
    ∃ count tokens left, Turns count line tokens left ∧
      (left = [] ∨ ∃ problem, Broken left problem) := by
  by_cases atEnd : line = []
  · exact ⟨0, [], line, .none line, .inl atEnd⟩
  rcases exists_turn_or_broken atEnd with ⟨tokens, rest, turn⟩ | broken
  · have shorter := turn.length_lt
    obtain ⟨count, later, left, turns, stopped⟩ := exists_turns rest
    exact ⟨count + 1, tokens ++ later, left, .more turn turns, stopped⟩
  · exact ⟨0, [], line, .none line, .inr broken⟩
termination_by line.length

/-- Where the turns stop decides what the whole line gives. -/
theorem exists_turns_tokenize (line : List Char) :
    ∃ count tokens left, Turns count line tokens left ∧
      (left = [] ∧ tokenize line = .ok tokens ∨
        ∃ problem, Broken left problem ∧ tokenize line = .error problem) := by
  obtain ⟨count, tokens, left, turns, stopped⟩ := exists_turns line
  refine ⟨count, tokens, left, turns, ?_⟩
  rcases stopped with rfl | ⟨problem, broken⟩
  · refine .inl ⟨rfl, turns.tokenize.trans ?_⟩
    exact congrArg Except.ok (List.append_nil tokens)
  · refine .inr ⟨problem, broken, turns.tokenize.trans ?_⟩
    rw [broken.tokenize]
    rfl

theorem exists_broken {line : List Char} {problem : Problem}
    (failed : tokenize line = .error problem) : ∃ left, Broken left problem := by
  obtain ⟨_, _, left, _, ⟨_, found⟩ | ⟨_, broken, found⟩⟩ := exists_turns_tokenize line
  · rw [failed] at found
    cases found
  · rw [failed] at found
    cases found
    exact ⟨left, broken⟩

/-! ## Printed texts among other tokens -/

/-- A printed text stays on its line and is one token, whatever comes after it: the tokens of the
rest follow, or the problem of the rest is reported.  Reading a line comes to an end, as every turn
takes at least one character and turns are possible up to the end or to a quoted text that does not
end as it should.  The words among the tokens are not empty and hold no character that stands for
something else. -/
theorem tokenize_quote_exact (text : String) (rest line : List Char) :
    ('\n' ∉ quote text ∧ '\r' ∉ quote text) ∧
    tokenize (quote text ++ rest) = (tokenize rest).map (.text text :: ·) ∧
    ((∀ count tokens left, Turns count line tokens left → count + left.length ≤ line.length) ∧
      ∃ count tokens left, Turns count line tokens left ∧
        (left = [] ∧ tokenize line = .ok tokens ∨
          ∃ problem, Broken left problem ∧ tokenize line = .error problem)) ∧
    ∀ tokens, tokenize line = .ok tokens → ∀ word, .word word ∈ tokens →
      word ≠ "" ∧ ∀ c ∈ word.toList,
        Text.isBlank c = false ∧ c ≠ '=' ∧ c ≠ '\x7b' ∧ c ≠ '\x7d' ∧ c ≠ '"' := by
  refine ⟨⟨break_notMem_quote (.inl rfl) text, break_notMem_quote (.inr rfl) text⟩,
    scan_quote text rest,
    ⟨fun count tokens left turns => turns.length_le, exists_turns_tokenize line⟩, ?_⟩
  intro tokens found word mem
  obtain ⟨nonempty, plain⟩ := (tokenize_eq_ok.mp found).isWord mem
  refine ⟨?_, fun c inWord => endsWord_eq_false.mp (plain c inWord)⟩
  rintro rfl
  exact nonempty rfl

/-- A backslash at the end of a text does not hide the mark that closes it: a second mark opens
another text, and a word after it is a token of its own. -/
theorem tokenize_quote_exact_backslash :
    (tokenize "\"".toList = .error .unfinishedText ∧
      tokenize (quote "\"\\" ++ "\"".toList) = .error .unfinishedText) ∧
    (tokenize "code=\"a\\\\\" x".toList = .ok [.word "code", .equals, .text "a\\", .word "x"] ∧
      Token.word "x" ∈ [Token.word "code", .equals, .text "a\\", .word "x"] ∧ 'x' ∈ "x".toList ∧
      "x" ≠ "" ∧ Text.isBlank 'x' = false ∧ 'x' ≠ '=' ∧ 'x' ≠ '\x7b' ∧ 'x' ≠ '\x7d' ∧
      'x' ≠ '"') := by
  have line : tokenize "code=\"a\\\\\" x".toList =
      .ok [.word "code", .equals, .text "a\\", .word "x"] := by
    rfl
  have mem : Token.word "x" ∈ [Token.word "code", .equals, .text "a\\", .word "x"] := by decide
  have inWord : 'x' ∈ "x".toList := by decide
  have second : tokenize "\"".toList = .error .unfinishedText := by rfl
  obtain ⟨_, exact, _, words⟩ :=
    tokenize_quote_exact "\"\\" "\"".toList "code=\"a\\\\\" x".toList
  obtain ⟨nonempty, plain⟩ := words _ line _ mem
  refine ⟨⟨second, ?_⟩, line, mem, inWord, nonempty, plain _ inWord⟩
  rw [exact, second]
  rfl

end RobotBlocks.Script
