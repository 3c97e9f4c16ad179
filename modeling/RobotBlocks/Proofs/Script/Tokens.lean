import Mathlib.Tactic.SplitIfs
import RobotBlocks.Script.Printer
import RobotBlocks.Script.Token

/-!
# Tokens of printed lines

The scanner is followed over the pieces that printed lines are made of: words, quoted texts and
symbols.  Each piece gives its own token, whatever comes after it.
-/

namespace RobotBlocks.Script

/-! ## One character -/

theorem scan_cons (mode : Mode) (c : Char) (rest : List Char) :
    scan mode (c :: rest) =
      (step mode c).bind fun completed =>
        (scan completed.2 rest).map fun more => completed.1 ++ more := by
  rw [scan]
  cases step mode c with
  | error problem => rfl
  | ok completed =>
      change (scan completed.2 rest >>= _) = Except.map _ (scan completed.2 rest)
      cases scan completed.2 rest <;> rfl

/-- A character that completes no token only changes the mode. -/
theorem scan_silent {mode next : Mode} {c : Char} (silent : step mode c = .ok ([], next))
    (rest : List Char) : scan mode (c :: rest) = scan next rest := by
  rw [scan_cons, silent]
  change Except.map _ (scan next rest) = _
  cases scan next rest <;> rfl

/-- A character that completes one token puts it in front. -/
theorem scan_emits {mode next : Mode} {c : Char} {token : Token}
    (emits : step mode c = .ok ([token], next)) (rest : List Char) :
    scan mode (c :: rest) = (scan next rest).map (token :: ·) := by
  rw [scan_cons, emits]
  rfl

theorem scan_blank {c : Char} (blank : Text.isBlank c = true) (rest : List Char) :
    scan .between (c :: rest) = scan .between rest :=
  scan_silent (by simp [step, start, blank]) rest

theorem scan_space (rest : List Char) : scan .between (' ' :: rest) = scan .between rest :=
  scan_blank (by decide) rest

theorem scan_equals (rest : List Char) :
    scan .between ('=' :: rest) = (scan .between rest).map (.equals :: ·) :=
  scan_emits rfl rest

theorem scan_opening (rest : List Char) :
    scan .between ('\x7b' :: rest) = (scan .between rest).map (.opening :: ·) :=
  scan_emits rfl rest

/-! ## Words -/

/-- Characters that can stand in one word. -/
def IsWord (word : List Char) : Prop :=
  word ≠ [] ∧ ∀ c ∈ word, endsWord c = false

instance : DecidablePred IsWord := fun word =>
  decidable_of_iff ((!word.isEmpty && word.all fun c => !endsWord c) = true) <| by
    simp [IsWord]

/-- A word in front of this text is complete: the text is empty or starts with what ends words. -/
def EndsWords (rest : List Char) : Prop :=
  ∀ c ∈ rest.head?, endsWord c = true

theorem start_of_plain {c : Char} (plain : endsWord c = false) : start c = ([], .word [c]) := by
  simp only [endsWord, Bool.or_eq_false_iff, beq_eq_false_iff_ne] at plain
  obtain ⟨⟨⟨⟨blank, equals⟩, opening⟩, closing⟩, quotation⟩ := plain
  simp [start, blank, equals, opening, closing, quotation]

theorem scan_inWord {word : List Char} (plain : ∀ c ∈ word, endsWord c = false)
    {rest : List Char} (ends : EndsWords rest) (reversed : List Char) :
    scan (.word reversed) (word ++ rest) =
      (scan .between rest).map (.word (String.ofList (reversed.reverse ++ word)) :: ·) := by
  induction word generalizing reversed with
  | nil =>
      rw [List.nil_append, List.append_nil]
      cases rest with
      | nil => rfl
      | cons c more =>
          have stops : endsWord c = true := ends c rfl
          have here : step (.word reversed) c =
              .ok (.word (String.ofList reversed.reverse) :: (start c).1, (start c).2) := by
            simp [step, stops]
          have between : step .between c = .ok (start c) := rfl
          rw [scan_cons, scan_cons, here, between]
          change Except.map _ (scan (start c).2 more) =
            Except.map _ (Except.map _ (scan (start c).2 more))
          cases scan (start c).2 more <;> rfl
  | cons c word ih =>
      have inside : step (.word reversed) c = .ok ([], .word (c :: reversed)) := by
        simp [step, plain c List.mem_cons_self]
      rw [List.cons_append, scan_silent inside, ih fun other mem =>
        plain other (List.mem_cons_of_mem _ mem)]
      simp

/-- A word is one token. -/
theorem scan_word {word : List Char} (isWord : IsWord word) {rest : List Char}
    (ends : EndsWords rest) :
    scan .between (word ++ rest) =
      (scan .between rest).map (.word (String.ofList word) :: ·) := by
  obtain ⟨nonempty, plain⟩ := isWord
  cases word with
  | nil => exact absurd rfl nonempty
  | cons first more =>
      have begins : step .between first = .ok ([], .word [first]) :=
        congrArg Except.ok (start_of_plain (plain first List.mem_cons_self))
      rw [List.cons_append, scan_silent begins, scan_inWord
        (fun c mem => plain c (List.mem_cons_of_mem _ mem)) ends]
      rfl

theorem scan_keyword {keyword : String} (isWord : IsWord keyword.toList) {rest : List Char}
    (ends : EndsWords rest) :
    scan .between (keyword.toList ++ rest) = (scan .between rest).map (.word keyword :: ·) := by
  rw [scan_word isWord ends, String.ofList_toList]

/-- The name of an argument and the equals sign after it are two tokens. -/
theorem scan_key {key : String} (isWord : IsWord key.toList) (rest : List Char) :
    scan .between (' ' :: (key.toList ++ '=' :: rest)) =
      (scan .between rest).map fun more => .word key :: .equals :: more := by
  rw [scan_space, scan_keyword isWord (by rintro c ⟨⟩; rfl), scan_equals]
  cases scan .between rest <;> rfl

/-- A word at the end of a line is one token. -/
theorem scan_lastWord {word : List Char} (isWord : IsWord word) :
    scan .between word = .ok [.word (String.ofList word)] := by
  have last := @scan_word word isWord [] (by rintro c ⟨⟩)
  rw [List.append_nil] at last
  exact last

/-! ## Quoted texts -/

/-- What one character of a quoted text adds to the text, whether it is escaped or not. -/
theorem scan_quoteChar (c : Char) (reversed rest : List Char) :
    scan (.text reversed) (quoteChar c ++ rest) = scan (.text (c :: reversed)) rest := by
  have escaped (mark : Char) (meant : unescape? mark = some c) :
      scan (.text reversed) (['\\', mark] ++ rest) = scan (.text (c :: reversed)) rest := by
    have opens : step (.text reversed) '\\' = .ok ([], .escape reversed) := rfl
    have closes : step (.escape reversed) mark = .ok ([], .text (c :: reversed)) := by
      simp [step, meant]
    rw [List.cons_append, scan_silent opens, List.cons_append, scan_silent closes,
      List.nil_append]
  unfold quoteChar
  split_ifs with quotation backslash feed back tab
  · exact escaped '"' (by rw [quotation]; rfl)
  · exact escaped '\\' (by rw [backslash]; rfl)
  · exact escaped 'n' (by rw [feed]; rfl)
  · exact escaped 'r' (by rw [back]; rfl)
  · exact escaped 't' (by rw [tab]; rfl)
  · have plain : step (.text reversed) c = .ok ([], .text (c :: reversed)) := by
      simp [step, quotation, backslash]
    rw [List.cons_append, scan_silent plain, List.nil_append]

theorem scan_inText (content reversed rest : List Char) :
    scan (.text reversed) (content.flatMap quoteChar ++ '"' :: rest) =
      (scan .between rest).map (.text (String.ofList (reversed.reverse ++ content)) :: ·) := by
  induction content generalizing reversed with
  | nil =>
      have closes : step (.text reversed) '"' =
          .ok ([.text (String.ofList reversed.reverse)], .between) := rfl
      rw [List.append_nil]
      exact scan_emits closes rest
  | cons c content ih =>
      rw [List.flatMap_cons, List.append_assoc, scan_quoteChar, ih]
      simp

/-- A quoted text is one token, whatever comes after it. -/
theorem scan_quote (text : String) (rest : List Char) :
    scan .between (quote text ++ rest) = (scan .between rest).map (.text text :: ·) := by
  have opens : step .between '"' = .ok ([], .text []) := rfl
  unfold quote
  rw [List.cons_append, List.append_assoc, scan_silent opens]
  exact (scan_inText text.toList [] rest).trans (by rw [List.reverse_nil, List.nil_append,
    String.ofList_toList])

theorem scan_lastQuote (text : String) : scan .between (quote text) = .ok [.text text] := by
  have last := scan_quote text []
  rw [List.append_nil] at last
  exact last

theorem break_notMem_quoteChar {mark : Char} (breaks : mark = '\n' ∨ mark = '\r') (c : Char) :
    mark ∉ quoteChar c := by
  unfold quoteChar
  split_ifs with quotation backslash feed back tab
  · rcases breaks with rfl | rfl <;> decide
  · rcases breaks with rfl | rfl <;> decide
  · rcases breaks with rfl | rfl <;> decide
  · rcases breaks with rfl | rfl <;> decide
  · rcases breaks with rfl | rfl <;> decide
  · intro mem
    cases List.mem_singleton.mp mem
    exact breaks.elim feed back

/-- A printed text stays on its line. -/
theorem break_notMem_quote {mark : Char} (breaks : mark = '\n' ∨ mark = '\r') (text : String) :
    mark ∉ quote text := by
  have outside : mark ≠ '"' := by
    rintro rfl
    exact absurd breaks (by decide)
  have inside : mark ∉ text.toList.flatMap quoteChar := by
    intro mem
    obtain ⟨c, _, mem⟩ := List.mem_flatMap.mp mem
    exact break_notMem_quoteChar breaks c mem
  simp [quote, outside, inside]

end RobotBlocks.Script
