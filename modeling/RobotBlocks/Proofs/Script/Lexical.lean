import RobotBlocks.Proofs.Results
import RobotBlocks.Proofs.Script.Tokens

/-!
# The lexical grammar

Which characters spell which tokens is said here without a scanner: blank characters spell nothing, a
word goes on up to a character that ends words, and a quoted text goes on up to a quote that is not
escaped.  The scanner gives exactly the tokens that a line spells.
-/

namespace RobotBlocks.Script

/-! ## Grammar -/

/-- A mark that may follow a backslash, and the character that both stand for. -/
inductive Escapes : Char → Char → Prop where
  | quotation : Escapes '"' '"'
  | backslash : Escapes '\\' '\\'
  | feed : Escapes 'n' '\n'
  | back : Escapes 'r' '\r'
  | tab : Escapes 't' '\t'

/-- What may stand between two quotes, and the text that it spells. -/
inductive Quoted : List Char → List Char → Prop where
  | nil : Quoted [] []
  | plain {c : Char} {body content : List Char} (notQuote : c ≠ '"') (notBackslash : c ≠ '\\')
      (rest : Quoted body content) : Quoted (c :: body) (c :: content)
  | escaped {mark c : Char} {body content : List Char} (escapes : Escapes mark c)
      (rest : Quoted body content) : Quoted ('\\' :: mark :: body) (c :: content)

/-- Characters of a line and the tokens that they spell. -/
inductive Lexes : List Char → List Token → Prop where
  | nil : Lexes [] []
  | blank {c : Char} {rest : List Char} {tokens : List Token} (blank : Text.isBlank c = true)
      (later : Lexes rest tokens) : Lexes (c :: rest) tokens
  | equals {rest : List Char} {tokens : List Token} (later : Lexes rest tokens) :
      Lexes ('=' :: rest) (.equals :: tokens)
  | opening {rest : List Char} {tokens : List Token} (later : Lexes rest tokens) :
      Lexes ('\x7b' :: rest) (.opening :: tokens)
  | closing {rest : List Char} {tokens : List Token} (later : Lexes rest tokens) :
      Lexes ('\x7d' :: rest) (.closing :: tokens)
  | word {word rest : List Char} {tokens : List Token} (isWord : IsWord word)
      (ends : EndsWords rest) (later : Lexes rest tokens) :
      Lexes (word ++ rest) (.word (String.ofList word) :: tokens)
  | text {body content rest : List Char} {tokens : List Token} (quoted : Quoted body content)
      (later : Lexes rest tokens) :
      Lexes ('"' :: (body ++ '"' :: rest)) (.text (String.ofList content) :: tokens)

/-! ## The scanner finds what is spelled -/

theorem unescape?_eq_some {mark c : Char} : unescape? mark = some c ↔ Escapes mark c := by
  constructor
  · intro meant
    unfold unescape? at meant
    split_ifs at meant with quotation backslash feed back tab
    · cases quotation
      cases meant
      exact .quotation
    · cases backslash
      cases meant
      exact .backslash
    · cases feed
      cases meant
      exact .feed
    · cases back
      cases meant
      exact .back
    · cases tab
      cases meant
      exact .tab
  · rintro (_ | _ | _ | _ | _) <;> rfl

theorem step_plain {c : Char} (notQuote : c ≠ '"') (notBackslash : c ≠ '\\')
    (reversed : List Char) : step (.text reversed) c = .ok ([], .text (c :: reversed)) := by
  simp [step, notQuote, notBackslash]

theorem step_escaped {mark c : Char} (escapes : Escapes mark c) (reversed : List Char) :
    step (.escape reversed) mark = .ok ([], .text (c :: reversed)) := by
  simp [step, unescape?_eq_some.mpr escapes]

theorem Quoted.scan {body content : List Char} (quoted : Quoted body content)
    (reversed rest : List Char) :
    Script.scan (.text reversed) (body ++ '"' :: rest) =
      (Script.scan .between rest).map
        (.text (String.ofList (reversed.reverse ++ content)) :: ·) := by
  induction quoted generalizing reversed with
  | nil =>
      have closes : step (.text reversed) '"' =
          .ok ([.text (String.ofList reversed.reverse)], .between) := rfl
      rw [List.append_nil]
      exact scan_emits closes rest
  | plain notQuote notBackslash later ih =>
      rw [List.cons_append, scan_silent (step_plain notQuote notBackslash reversed), ih,
        List.reverse_cons, List.append_assoc, List.singleton_append]
  | escaped escapes later ih =>
      have opens : step (.text reversed) '\\' = .ok ([], .escape reversed) := rfl
      rw [List.cons_append, List.cons_append, scan_silent opens,
        scan_silent (step_escaped escapes reversed), ih, List.reverse_cons, List.append_assoc,
        List.singleton_append]

theorem scan_closing (rest : List Char) :
    scan .between ('\x7d' :: rest) = (scan .between rest).map (.closing :: ·) :=
  scan_emits rfl rest

theorem Lexes.tokenize {line : List Char} {tokens : List Token} (lexes : Lexes line tokens) :
    Script.tokenize line = .ok tokens := by
  unfold Script.tokenize
  induction lexes with
  | nil => rfl
  | blank blank later ih => rw [scan_blank blank, ih]
  | equals later ih =>
      rw [scan_equals, ih]
      rfl
  | opening later ih =>
      rw [scan_opening, ih]
      rfl
  | closing later ih =>
      rw [scan_closing, ih]
      rfl
  | word isWord ends later ih =>
      rw [scan_word isWord ends, ih]
      rfl
  | text quoted later ih =>
      have opens : step .between '"' = .ok ([], .text []) := rfl
      rw [scan_silent opens, quoted.scan, ih, List.reverse_nil, List.nil_append]
      rfl

/-! ## What the scanner finds is spelled -/

/-- What is left of a line, seen from inside of a token, and the tokens from that one on. -/
def Completes : Mode → List Char → List Token → Prop
  | .between, line, tokens => Lexes line tokens
  | .word reversed, line, tokens =>
      ∃ word rest more, line = word ++ rest ∧ (∀ c ∈ word, endsWord c = false) ∧ EndsWords rest ∧
        Lexes rest more ∧ tokens = .word (String.ofList (reversed.reverse ++ word)) :: more
  | .text reversed, line, tokens =>
      ∃ body content rest more, line = body ++ '"' :: rest ∧ Quoted body content ∧
        Lexes rest more ∧ tokens = .text (String.ofList (reversed.reverse ++ content)) :: more
  | .escape reversed, line, tokens =>
      ∃ mark c body content rest more, line = mark :: (body ++ '"' :: rest) ∧ Escapes mark c ∧
        Quoted body content ∧ Lexes rest more ∧
        tokens = .text (String.ofList (reversed.reverse ++ c :: content)) :: more

/-- A line is spelled from a character between two tokens on when it is from every next mode on. -/
theorem completes_between {c : Char} {rest : List Char}
    (later : ∀ mode tokens, scan mode rest = .ok tokens → Completes mode rest tokens)
    {tokens : List Token} (scanned : scan .between (c :: rest) = .ok tokens) :
    Lexes (c :: rest) tokens := by
  by_cases blank : Text.isBlank c = true
  · rw [scan_blank blank] at scanned
    exact .blank blank (later .between tokens scanned)
  by_cases equals : c = '='
  · subst equals
    rw [scan_equals] at scanned
    obtain ⟨more, found, rfl⟩ := map_eq_ok.mp scanned
    exact .equals (later .between more found)
  by_cases opening : c = '\x7b'
  · subst opening
    rw [scan_opening] at scanned
    obtain ⟨more, found, rfl⟩ := map_eq_ok.mp scanned
    exact .opening (later .between more found)
  by_cases closing : c = '\x7d'
  · subst closing
    rw [scan_closing] at scanned
    obtain ⟨more, found, rfl⟩ := map_eq_ok.mp scanned
    exact .closing (later .between more found)
  by_cases quotation : c = '"'
  · subst quotation
    have opens : step .between '"' = .ok ([], .text []) := rfl
    rw [scan_silent opens] at scanned
    obtain ⟨body, content, after, more, rfl, quoted, lexes, rfl⟩ := later (.text []) tokens scanned
    exact .text quoted lexes
  · have plain : endsWord c = false := by
      simp [endsWord, blank, equals, opening, closing, quotation]
    have begins : step .between c = .ok ([], .word [c]) :=
      congrArg Except.ok (start_of_plain plain)
    rw [scan_silent begins] at scanned
    obtain ⟨word, after, more, rfl, inside, ends, lexes, rfl⟩ := later (.word [c]) tokens scanned
    exact .word ⟨List.cons_ne_nil c word, List.forall_mem_cons.mpr ⟨plain, inside⟩⟩ ends lexes

/-- Whatever the scanner is inside of, the tokens that it gives are spelled. -/
theorem completes_of_scan {mode : Mode} {line : List Char} {tokens : List Token}
    (scanned : scan mode line = .ok tokens) : Completes mode line tokens := by
  induction line generalizing mode tokens with
  | nil =>
      cases mode with
      | between =>
          cases scanned
          exact .nil
      | word reversed =>
          cases scanned
          exact ⟨[], [], [], rfl, nofun, nofun, .nil, by rw [List.append_nil]⟩
      | text reversed | escape reversed => cases scanned
  | cons c rest ih =>
      have later (mode : Mode) (tokens : List Token) (scanned : scan mode rest = .ok tokens) :
          Completes mode rest tokens := ih scanned
      cases mode with
      | between => exact completes_between later scanned
      | word reversed =>
          by_cases stops : endsWord c = true
          · have ends : EndsWords (c :: rest) := by
              rintro _ ⟨⟩
              exact stops
            have complete := @scan_inWord [] nofun (c :: rest) ends reversed
            rw [List.nil_append] at complete
            rw [complete] at scanned
            obtain ⟨more, found, rfl⟩ := map_eq_ok.mp scanned
            exact ⟨[], c :: rest, more, rfl, nofun, ends, completes_between later found, rfl⟩
          · have plain : endsWord c = false := Bool.eq_false_iff.mpr stops
            have inside : step (.word reversed) c = .ok ([], .word (c :: reversed)) := by
              simp [step, plain]
            rw [scan_silent inside] at scanned
            obtain ⟨word, after, more, rfl, all, ends, lexes, rfl⟩ := ih scanned
            refine ⟨c :: word, after, more, rfl, List.forall_mem_cons.mpr ⟨plain, all⟩, ends,
              lexes, ?_⟩
            rw [List.reverse_cons, List.append_assoc, List.singleton_append]
      | text reversed =>
          by_cases quotation : c = '"'
          · subst quotation
            have closes : step (.text reversed) '"' =
                .ok ([.text (String.ofList reversed.reverse)], .between) := rfl
            rw [scan_emits closes] at scanned
            obtain ⟨more, found, rfl⟩ := map_eq_ok.mp scanned
            exact ⟨[], [], rest, more, rfl, .nil, ih found, by rw [List.append_nil]⟩
          by_cases backslash : c = '\\'
          · subst backslash
            have opens : step (.text reversed) '\\' = .ok ([], .escape reversed) := rfl
            rw [scan_silent opens] at scanned
            obtain ⟨mark, c, body, content, after, more, rfl, escapes, quoted, lexes, rfl⟩ :=
              ih scanned
            exact ⟨'\\' :: mark :: body, c :: content, after, more, rfl, .escaped escapes quoted,
              lexes, rfl⟩
          · rw [scan_silent (step_plain quotation backslash reversed)] at scanned
            obtain ⟨body, content, after, more, rfl, quoted, lexes, rfl⟩ := ih scanned
            refine ⟨c :: body, c :: content, after, more, rfl, .plain quotation backslash quoted,
              lexes, ?_⟩
            rw [List.reverse_cons, List.append_assoc, List.singleton_append]
      | escape reversed =>
          cases meant : unescape? c with
          | none =>
              have refused : step (.escape reversed) c = .error (.unknownEscape c) := by
                simp [step, meant]
              rw [scan_cons, refused] at scanned
              cases scanned
          | some plain =>
              have escapes := unescape?_eq_some.mp meant
              rw [scan_silent (step_escaped escapes reversed)] at scanned
              obtain ⟨body, content, after, more, rfl, quoted, lexes, rfl⟩ := ih scanned
              refine ⟨c, plain, body, content, after, more, rfl, escapes, quoted, lexes, ?_⟩
              rw [List.reverse_cons, List.append_assoc, List.singleton_append]

/-- The scanner gives exactly the tokens that a line spells. -/
theorem tokenize_eq_ok {line : List Char} {tokens : List Token} :
    tokenize line = .ok tokens ↔ Lexes line tokens :=
  ⟨fun scanned => completes_of_scan scanned, Lexes.tokenize⟩

end RobotBlocks.Script
