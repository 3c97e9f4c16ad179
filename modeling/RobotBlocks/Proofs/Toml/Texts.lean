import Mathlib.Tactic.SplitIfs
import RobotBlocks.Toml.Printer
import RobotBlocks.Toml.Scalar

/-!
# Printed texts are read back

Whichever of the four ways a text is printed in, scanning it gives the characters of the text and
stops right after the closing marks.
-/

namespace RobotBlocks.Toml

variable {quoting : Quoting} {place next : Place} {c d : Char} {text rest left : List Char}

/-! ## Steps of the scanner -/

theorem scanText_emit (step : textStep quoting place c rest = .emit d next)
    (scanned : scanText quoting next rest = some (text, left)) :
    scanText quoting place (c :: rest) = some (d :: text, left) := by
  rw [scanText, step]
  simp only
  rw [scanned, Option.map_some]

theorem scanText_pass (next : Place) (step : textStep quoting place c rest = .pass next) :
    scanText quoting place (c :: rest) = scanText quoting next rest := by
  rw [scanText, step]

/-- Up to two marks right before the three that close a text belong to it. -/
theorem scanText_closing (lines : quoting.lines = true) {marks : Nat} (few : marks ≤ 2)
    (ends : rest.head? ≠ some quoting.mark) :
    scanText quoting .plain (List.replicate (marks + 3) quoting.mark ++ rest) =
      some (List.replicate marks quoting.mark, rest) := by
  have two : (List.replicate (marks + 2) quoting.mark ++ rest).take 2 =
      [quoting.mark, quoting.mark] := by
    simp [List.replicate_succ]
  have closes : plainStep quoting quoting.mark (List.replicate (marks + 2) quoting.mark ++ rest) =
      .close := by
    unfold plainStep
    rw [if_pos rfl, if_neg fun alone => alone.2 two]
  have own : ((List.replicate marks quoting.mark ++ rest).take 2).takeWhile
      (· == quoting.mark) = List.replicate marks quoting.mark := by
    obtain rfl | rfl | rfl : marks = 0 ∨ marks = 1 ∨ marks = 2 := by omega
    all_goals
      cases rest with
      | nil => simp [List.replicate_succ]
      | cons first more =>
          have other : first ≠ quoting.mark := fun same => ends (congrArg some same)
          simp [List.replicate_succ, other]
  have after : closeText quoting (List.replicate (marks + 2) quoting.mark ++ rest) =
      (List.replicate marks quoting.mark, rest) := by
    have dropped : (List.replicate (marks + 2) quoting.mark ++ rest).drop 2 =
        List.replicate marks quoting.mark ++ rest := by
      simp [List.replicate_succ]
    unfold closeText
    rw [if_pos lines, dropped]
    simp only
    rw [own, List.length_replicate, List.drop_left' List.length_replicate]
  rw [List.replicate_succ, List.cons_append, scanText, textStep, closes]
  simp only
  rw [after]

/-- A character that is neither a mark nor starts an escape stands for itself. -/
theorem plainStep_other (other : c ≠ quoting.mark) (bare : quoting.escapes = true → c ≠ '\\')
    (shown : isShown c = true ∨ quoting.lines = true ∧ c = '\n') :
    plainStep quoting c rest = .emit c .plain := by
  unfold plainStep
  rw [if_neg other, if_neg fun escape => bare escape.1 escape.2]
  by_cases line : quoting.lines = true ∧ c = '\n'
  · rw [if_pos line]
  have visible : isShown c = true := shown.resolve_right line
  rw [if_neg line, if_neg, if_pos visible]
  rintro ⟨_, rfl⟩
  exact absurd visible (by decide)

/-- A mark stands for itself in a text over several lines unless two more follow it. -/
theorem plainStep_mark (lines : quoting.lines = true)
    (alone : rest.take 2 ≠ [quoting.mark, quoting.mark]) :
    plainStep quoting quoting.mark rest = .emit quoting.mark .plain := by
  unfold plainStep
  rw [if_pos rfl, if_pos ⟨lines, alone⟩]

/-! ## Escapes -/

theorem hexValue?_codeDigit {n : Nat} (small : n < 16) : hexValue? (codeDigit n) = some n := by
  have digits : ∀ n : Fin 16, hexValue? (codeDigit n.val) = some n.val := by decide
  exact digits ⟨n, small⟩

theorem scanText_backslash {lines : Bool} (rest : List Char) :
    scanText ⟨'"', true, lines⟩ .plain ('\\' :: rest) = scanText ⟨'"', true, lines⟩ .escape rest :=
  scanText_pass .escape (by simp [textStep, plainStep])

/-- A code of four digits stands for its character. -/
theorem scanText_code {n : Nat} (small : n < 128)
    (scanned : scanText quoting .plain rest = some (text, left)) :
    scanText quoting (.code 4 0) ('0' :: '0' :: codeDigit (n / 16) :: codeDigit (n % 16) :: rest) =
      some (Char.ofNat n :: text, left) := by
  have high : hexValue? (codeDigit (n / 16)) = some (n / 16) := hexValue?_codeDigit (by omega)
  have low : hexValue? (codeDigit (n % 16)) = some (n % 16) := hexValue?_codeDigit (by omega)
  have zero : hexValue? '0' = some 0 := by decide
  have value : 16 * (n / 16) + n % 16 = n := Nat.div_add_mod n 16
  have valid : n.isValidChar := .inl (by omega)
  rw [scanText_pass (.code 3 0) (by simp [textStep, codeStep, zero]),
    scanText_pass (.code 2 0) (by simp [textStep, codeStep, zero]),
    scanText_pass (.code 1 (n / 16)) (by simp [textStep, codeStep, high])]
  refine scanText_emit ?_ scanned
  simp [textStep, codeStep, low, value, valid]

/-- Only small characters need a code. -/
theorem toNat_lt_of_needsCode (coded : needsCode c = true) : c.toNat < 128 := by
  simp only [needsCode, isShown, Bool.and_eq_true, bne_iff_ne, Bool.not_eq_true',
    Bool.or_eq_false_iff, Bool.and_eq_false_iff, decide_eq_false_iff_not] at coded
  have last := coded.2.2
  rcases last with low | delete
  · omega
  · simp only [bne_eq_false_iff_eq] at delete
    omega

/-- What a character is printed as between double marks is scanned as the character. -/
theorem scanText_escapeOf {lines : Bool} (other : c ≠ '"')
    (scanned : scanText ⟨'"', true, lines⟩ .plain rest = some (text, left)) :
    scanText ⟨'"', true, lines⟩ .plain ((escapeOf? lines c).getD [c] ++ rest) =
      some (c :: text, left) := by
  have short {letter : Char} (stands : shortEscape? letter = some c) :
      scanText ⟨'"', true, lines⟩ .plain ('\\' :: letter :: rest) = some (c :: text, left) := by
    rw [scanText_backslash]
    refine scanText_emit ?_ scanned
    simp [textStep, escapeStep, stands]
  unfold escapeOf?
  split_ifs with slash tab feed line turn back form coded
  · subst slash
    exact short rfl
  · subst tab
    exact short rfl
  · have kept : plainStep ⟨'"', true, lines⟩ c rest = .emit c .plain :=
      plainStep_other other (fun _ => slash) (.inr ⟨line, feed⟩)
    exact scanText_emit kept scanned
  · subst feed
    exact short rfl
  · subst turn
    exact short rfl
  · have same : c = '\x08' := Char.toNat_inj.mp back
    subst same
    exact short rfl
  · have same : c = '\x0c' := Char.toNat_inj.mp form
    subst same
    exact short rfl
  · have small : c.toNat < 128 := toNat_lt_of_needsCode coded
    have opened : scanText ⟨'"', true, lines⟩ .plain ('\\' :: 'u' :: '0' :: '0' ::
        codeDigit (c.toNat / 16) :: codeDigit (c.toNat % 16) :: rest) =
        some (Char.ofNat c.toNat :: text, left) := by
      rw [scanText_backslash, scanText_pass (.code 4 0) rfl]
      exact scanText_code small scanned
    rw [Char.ofNat_toNat] at opened
    exact opened
  · have shown : isShown c = true := by
      simpa [needsCode, feed] using coded
    have kept : plainStep ⟨'"', true, lines⟩ c rest = .emit c .plain :=
      plainStep_other other (fun _ => slash) (.inl shown)
    exact scanText_emit kept scanned

theorem scanText_mark {lines : Bool}
    (scanned : scanText ⟨'"', true, lines⟩ .plain rest = some (text, left)) :
    scanText ⟨'"', true, lines⟩ .plain ('\\' :: '"' :: rest) = some ('"' :: text, left) := by
  rw [scanText_backslash]
  exact scanText_emit rfl scanned

/-! ## Texts between double marks -/

theorem exists_escapeOf {lines : Bool} {code : List Char} (escape : escapeOf? lines c = some code) :
    ∃ more, code = '\\' :: more := by
  unfold escapeOf? at escape
  split_ifs at escape
  all_goals exact ⟨_, (Option.some_inj.mp escape).symm⟩

/-- What is printed starts with a bare mark only where the text does. -/
theorem head_printBasic {lines : Bool} {run : Nat} (guarded : c = '"' → ¬(lines = true ∧ run < 2))
    (text tail : List Char) :
    ∃ first more, printBasic lines run (c :: text) ++ tail = first :: more ∧ first ≠ '"' ∧
      first ≠ '\r' ∧ (first = '\n' → c = '\n') := by
  rw [printBasic]
  by_cases mark : c = '"'
  · rw [if_pos mark, if_neg (guarded mark)]
    exact ⟨_, _, rfl, by decide, by decide, nofun⟩
  rw [if_neg mark]
  by_cases turn : c = '\r'
  · subst turn
    exact ⟨'\\', _, rfl, by decide, by decide, nofun⟩
  cases escape : escapeOf? lines c with
  | none => exact ⟨c, _, rfl, mark, turn, id⟩
  | some code =>
      obtain ⟨more, rfl⟩ := exists_escapeOf escape
      exact ⟨'\\', _, rfl, by decide, by decide, nofun⟩

/-- Marks are printed together only where the text ends in them. -/
theorem take_printBasic {run : Nat} (later : 1 ≤ run) (filled : text ≠ [])
    (other : text = ['"'] → 2 ≤ run) (tail : List Char) :
    (printBasic true run text ++ tail).take 2 ≠ ['"', '"'] := by
  cases text with
  | nil => exact absurd rfl filled
  | cons c more =>
      by_cases bare : c = '"' ∧ run < 2
      · obtain ⟨rfl, few⟩ := bare
        cases more with
        | nil => exact absurd (other rfl) (Nat.not_le.mpr few)
        | cons d more =>
            obtain ⟨first, left, printed, guarded, _⟩ :=
              head_printBasic (fun _ (free : true = true ∧ run + 1 < 2) => absurd free.2 (by omega))
                more tail
            rw [printBasic, if_pos rfl, if_pos ⟨rfl, few⟩, List.cons_append, printed]
            simpa using guarded
      · obtain ⟨first, left, printed, guarded, _⟩ :=
          head_printBasic (fun mark free => bare ⟨mark, free.2⟩) more tail
        rw [printed]
        intro same
        exact guarded (List.cons.inj same).1

/-- A text that is printed on one line is scanned up to the mark after it. -/
theorem scanText_printLine (text rest : List Char) (run : Nat) :
    scanText ⟨'"', true, false⟩ .plain (printBasic false run text ++ '"' :: rest) =
      some (text, rest) := by
  induction text generalizing run with
  | nil => rfl
  | cons c text ih =>
      rw [printBasic]
      by_cases mark : c = '"'
      · rw [if_pos mark, if_neg fun lines => Bool.false_ne_true lines.1, mark]
        exact scanText_mark (ih 0)
      · rw [if_neg mark, List.append_assoc]
        exact scanText_escapeOf mark (ih 0)

/-- A text that is printed over several lines is scanned up to the last of the marks after it. -/
theorem scanText_printLines (text : List Char) (ends : rest.head? ≠ some '"') (run : Nat) :
    scanText ⟨'"', true, true⟩ .plain (printBasic true run text ++ ('"' :: '"' :: '"' :: rest)) =
      some (text, rest) := by
  have closing (marks : Nat) (few : marks ≤ 2) :
      scanText ⟨'"', true, true⟩ .plain (List.replicate (marks + 3) '"' ++ rest) =
        some (List.replicate marks '"', rest) := scanText_closing rfl few ends
  induction text generalizing run with
  | nil => exact closing 0 (Nat.zero_le 2)
  | cons c text ih =>
      rw [printBasic]
      by_cases mark : c = '"'
      · subst mark
        rw [if_pos rfl]
        by_cases few : run < 2
        · rw [if_pos ⟨rfl, few⟩]
          -- The marks that end the text are scanned together with those that close it.
          by_cases last : text = []
          · subst last
            exact closing 1 (by decide)
          by_cases pair : text = ['"'] ∧ run = 0
          · obtain ⟨rfl, rfl⟩ := pair
            exact closing 2 (by decide)
          have second (single : text = ['"']) : 2 ≤ run + 1 :=
            Nat.succ_le_succ (Nat.pos_of_ne_zero fun zero => pair ⟨single, zero⟩)
          have alone := take_printBasic (Nat.succ_pos run) last second ('"' :: '"' :: '"' :: rest)
          have kept : plainStep ⟨'"', true, true⟩ '"' _ = .emit '"' .plain :=
            plainStep_mark rfl alone
          exact scanText_emit kept (ih (run + 1))
        · rw [if_neg fun free => few free.2]
          exact scanText_mark (ih 0)
      · rw [if_neg mark, List.append_assoc]
        exact scanText_escapeOf mark (ih 0)

/-! ## Texts between single marks -/

theorem longestRun_mono (mark : Char) {run other : Nat} (le : run ≤ other) (text : List Char) :
    longestRun mark run text ≤ longestRun mark other text := by
  induction text generalizing run other with
  | nil => exact le
  | cons c text ih =>
      rw [longestRun, longestRun]
      split
      · exact ih (Nat.succ_le_succ le)
      · omega

theorem le_longestRun (mark : Char) (run : Nat) (text : List Char) :
    run ≤ longestRun mark run text := by
  induction text generalizing run with
  | nil => exact Nat.le_refl run
  | cons c text ih =>
      rw [longestRun]
      split
      · exact Nat.le_trans (Nat.le_succ run) (ih (run + 1))
      · exact Nat.le_max_left ..

/-- The runs in the rest of a text are runs of the text. -/
theorem longestRun_tail {mark : Char} {most : Nat} (runs : longestRun mark 0 (c :: text) ≤ most) :
    longestRun mark 0 text ≤ most := by
  rw [longestRun] at runs
  split at runs
  · exact Nat.le_trans (longestRun_mono mark (Nat.zero_le 1) text) runs
  · omega

theorem longestRun_eq_zero {mark : Char} :
    longestRun mark 0 text = 0 ↔ mark ∉ text := by
  induction text with
  | nil => exact iff_of_true rfl List.not_mem_nil
  | cons c text ih =>
      rw [longestRun, List.mem_cons, not_or]
      by_cases same : c = mark
      · rw [if_pos same]
        have positive := le_longestRun mark 1 text
        exact iff_of_false (Nat.ne_of_gt positive) fun absent => absent.1 same.symm
      · rw [if_neg same, Nat.zero_max, ih]
        exact (and_iff_right (Ne.symm same)).symm

/-- A text without marks is scanned up to the mark after it. -/
theorem scanText_literal {mark : Char} (absent : mark ∉ text)
    (shown : ∀ c ∈ text, isShown c = true) (rest : List Char) :
    scanText ⟨mark, false, false⟩ .plain (text ++ mark :: rest) = some (text, rest) := by
  induction text with
  | nil =>
      have closes : plainStep ⟨mark, false, false⟩ mark rest = .close := by simp [plainStep]
      rw [List.nil_append, scanText, textStep, closes]
      rfl
  | cons c text ih =>
      obtain ⟨other, later⟩ := not_or.mp (mt List.mem_cons.mpr absent)
      have scanned := ih later fun d mem => shown d (List.mem_cons_of_mem c mem)
      have kept : plainStep ⟨mark, false, false⟩ c (text ++ mark :: rest) = .emit c .plain :=
        plainStep_other (Ne.symm other) nofun (.inl (shown c List.mem_cons_self))
      exact scanText_emit kept scanned

/-- Of at most two marks together the first is followed by two only where the text ends. -/
theorem take_literal {mark : Char} (runs : longestRun mark 0 (mark :: text) ≤ 2)
    (last : text ≠ []) (pair : text ≠ [mark]) (tail : List Char) :
    (text ++ tail).take 2 ≠ [mark, mark] := by
  rw [longestRun, if_pos rfl] at runs
  rcases text with _ | ⟨c, _ | ⟨d, more⟩⟩
  · exact absurd rfl last
  · intro same
    exact pair (congrArg (· :: []) (List.cons.inj same).1)
  · intro same
    obtain ⟨rfl, rest⟩ := List.cons.inj same
    obtain rfl := (List.cons.inj rest).1
    rw [longestRun, if_pos rfl, longestRun, if_pos rfl] at runs
    have three := le_longestRun d 3 more
    exact absurd (Nat.le_trans three runs) (by decide)

/-- A text with at most two marks together is scanned up to the last of the marks after it. -/
theorem scanText_literalLines {mark : Char} (runs : longestRun mark 0 text ≤ 2)
    (plain : ∀ c ∈ text, needsCode c = false) (ends : rest.head? ≠ some mark) :
    scanText ⟨mark, false, true⟩ .plain (text ++ (mark :: mark :: mark :: rest)) =
      some (text, rest) := by
  have closing (marks : Nat) (few : marks ≤ 2) :
      scanText ⟨mark, false, true⟩ .plain (List.replicate (marks + 3) mark ++ rest) =
        some (List.replicate marks mark, rest) := scanText_closing rfl few ends
  induction text with
  | nil => exact closing 0 (Nat.zero_le 2)
  | cons c text ih =>
      have scanned := ih (longestRun_tail runs) fun d mem => plain d (List.mem_cons_of_mem c mem)
      by_cases same : c = mark
      · subst same
        by_cases last : text = []
        · subst last
          exact closing 1 (by decide)
        by_cases pair : text = [c]
        · subst pair
          exact closing 2 (by decide)
        have alone := take_literal runs last pair (c :: c :: c :: rest)
        have kept : plainStep ⟨c, false, true⟩ c _ = .emit c .plain := plainStep_mark rfl alone
        exact scanText_emit kept scanned
      · have shown : isShown c = true ∨ true = true ∧ c = '\n' := by
          have bare := plain c List.mem_cons_self
          simpa [needsCode, or_comm, Classical.or_iff_not_imp_left] using bare
        have kept : plainStep ⟨mark, false, true⟩ c (text ++ (mark :: mark :: mark :: rest)) =
            .emit c .plain := plainStep_other same nofun shown
        exact scanText_emit kept scanned

/-! ## Printed texts -/

/-- A text on one line is scanned after its opening mark. -/
theorem readQuoted_line {mark : Char} {escapes : Bool} {body : List Char}
    (single : body.take 2 ≠ [mark, mark])
    (scanned : scanText ⟨mark, escapes, false⟩ .plain body = some (text, left)) :
    readQuoted mark escapes (mark :: body) = some (String.ofList text, left) := by
  have opened : ¬[mark, mark, mark].isPrefixOf (mark :: body) = true := by
    rw [List.isPrefixOf_iff_prefix, List.cons_prefix_cons, List.prefix_iff_eq_take]
    exact fun both => single both.2.symm
  have inline : readInline mark escapes (mark :: body) = some (String.ofList text, left) := by
    rw [readInline, if_pos rfl, scanned, Option.map_some]
  unfold readQuoted
  rw [if_neg opened, inline]

/-- A text over several lines is scanned after its opening marks and the line end after them. -/
theorem readQuoted_lines {mark : Char} {escapes : Bool} {printed body : List Char}
    (inline : printed.contains '\n' = false → lineEnd? body = none)
    (scanned : scanText ⟨mark, escapes, true⟩ .plain body = some (text, left)) :
    readQuoted mark escapes (openLines mark printed ++ body) = some (String.ofList text, left) := by
  have opened : [mark, mark, mark].isPrefixOf (openLines mark printed ++ body) = true := by
    rw [List.isPrefixOf_iff_prefix, openLines, List.append_assoc]
    exact List.prefix_append _ _
  have start : dropLineEnd ((openLines mark printed ++ body).drop 3) = body := by
    rw [openLines, List.append_assoc]
    change dropLineEnd ((if printed.contains '\n' then ['\n'] else []) ++ body) = body
    cases broken : printed.contains '\n' with
    | true => rfl
    | false =>
        change (lineEnd? body).getD body = body
        rw [inline broken, Option.getD_none]
  unfold readQuoted
  rw [if_pos opened, start, scanned, Option.map_some]

theorem lineEnd?_cons (line : c ≠ '\n') (turn : c ≠ '\r') : lineEnd? (c :: rest) = none := by
  unfold lineEnd?
  split
  · rename_i same
    exact absurd (List.cons.inj same).1 line
  · rename_i same
    exact absurd (List.cons.inj same).1 turn
  · rfl

/-- A closing mark is not taken for the first of three. -/
theorem take_closing {mark : Char} (ends : rest.head? ≠ some mark) :
    (mark :: rest).take 2 ≠ [mark, mark] := by
  cases rest with
  | nil => exact fun same => nomatch (List.cons.inj same).2
  | cons first more =>
      intro same
      exact ends (congrArg some (List.cons.inj (List.cons.inj same).2).1)

theorem readQuoted_printLine (text : List Char) (ends : rest.head? ≠ some '"') :
    readQuoted '"' true (printLine text ++ rest) = some (String.ofList text, rest) := by
  have body : printBasic false 0 text ++ ['"'] ++ rest = printBasic false 0 text ++ '"' :: rest :=
    List.append_assoc ..
  unfold printLine
  rw [List.cons_append, body]
  refine readQuoted_line ?_ (scanText_printLine text rest 0)
  cases text with
  | nil => exact take_closing ends
  | cons c text =>
      have guarded (_ : c = '"') : ¬(false = true ∧ 0 < 2) := fun free =>
        Bool.false_ne_true free.1
      obtain ⟨first, more, printed, other, _⟩ := head_printBasic guarded text ('"' :: rest)
      rw [printed]
      exact fun same => other (List.cons.inj same).1

theorem readQuoted_printLines (text : List Char) (ends : rest.head? ≠ some '"') :
    readQuoted '"' true (printLines text ++ rest) = some (String.ofList text, rest) := by
  have body : openLines '"' text ++ printBasic true 0 text ++ ['"', '"', '"'] ++ rest =
      openLines '"' text ++ (printBasic true 0 text ++ '"' :: '"' :: '"' :: rest) := by
    simp only [List.append_assoc, List.cons_append, List.nil_append]
  unfold printLines
  rw [body]
  refine readQuoted_lines (fun unbroken => ?_) (scanText_printLines text ends 0)
  cases text with
  | nil => rfl
  | cons c text =>
      have line : c ≠ '\n' := by
        rintro rfl
        exact absurd unbroken (by simp)
      by_cases mark : c = '"'
      · subst mark
        rw [printBasic, if_pos rfl, if_pos ⟨rfl, Nat.two_pos⟩]
        exact lineEnd?_cons (by decide) (by decide)
      · have guarded (equal : c = '"') : ¬(true = true ∧ 0 < 2) := absurd equal mark
        obtain ⟨first, more, printed, _, turn, same⟩ :=
          head_printBasic guarded text ('"' :: '"' :: '"' :: rest)
        rw [printed]
        exact lineEnd?_cons (fun broken => line (same broken)) turn

theorem readQuoted_literal (absent : '\'' ∉ text) (shown : ∀ c ∈ text, isShown c = true)
    (ends : rest.head? ≠ some '\'') :
    readQuoted '\'' false ('\'' :: (text ++ ['\'']) ++ rest) = some (String.ofList text, rest) := by
  have body : text ++ ['\''] ++ rest = text ++ '\'' :: rest := List.append_assoc ..
  rw [List.cons_append, body]
  refine readQuoted_line ?_ (scanText_literal absent shown rest)
  cases text with
  | nil => exact take_closing ends
  | cons c text =>
      intro same
      exact absent (List.mem_cons.mpr (.inl (List.cons.inj same).1.symm))

theorem readQuoted_literalLines (runs : longestRun '\'' 0 text ≤ 2)
    (plain : ∀ c ∈ text, needsCode c = false) (ends : rest.head? ≠ some '\'') :
    readQuoted '\'' false (openLines '\'' text ++ text ++ ['\'', '\'', '\''] ++ rest) =
      some (String.ofList text, rest) := by
  have body : openLines '\'' text ++ text ++ ['\'', '\'', '\''] ++ rest =
      openLines '\'' text ++ (text ++ '\'' :: '\'' :: '\'' :: rest) := by
    simp only [List.append_assoc, List.cons_append, List.nil_append]
  rw [body]
  refine readQuoted_lines (fun unbroken => ?_) (scanText_literalLines runs plain ends)
  cases text with
  | nil => rfl
  | cons c text =>
      have line : c ≠ '\n' := by
        rintro rfl
        exact absurd unbroken (by simp)
      have turn : c ≠ '\r' := by
        rintro rfl
        exact absurd (plain '\r' List.mem_cons_self) (by decide)
      exact lineEnd?_cons line turn

/-! ## Values -/

theorem readScalar_double {value : String} {written : List Char}
    (read : readQuoted '"' true ('"' :: written) = some (value, left)) :
    readScalar ('"' :: written) = some (.text value, left) := by
  simp only [readScalar, if_true, read, Option.map_some]

theorem readScalar_single {value : String} {written : List Char}
    (read : readQuoted '\'' false ('\'' :: written) = some (value, left)) :
    readScalar ('\'' :: written) = some (.text value, left) := by
  have other : '\'' ≠ '"' := by decide
  simp only [readScalar, other, if_true, if_false, read, Option.map_some]

/-- A printed text starts with a mark. -/
theorem exists_printText (text : List Char) :
    ∃ first more, printText text = first :: more ∧ (first = '"' ∨ first = '\'') := by
  unfold printText
  simp only
  split_ifs
  · exact ⟨'"', _, rfl, .inl rfl⟩
  · exact ⟨'\'', _, rfl, .inr rfl⟩
  · exact ⟨'"', _, rfl, .inl rfl⟩
  · exact ⟨'\'', _, rfl, .inr rfl⟩
  · exact ⟨'"', _, rfl, .inl rfl⟩
  · exact ⟨'"', _, rfl, .inl rfl⟩

/-- A printed text is read back, whatever it holds. -/
theorem readScalar_printText (text : List Char) (double : rest.head? ≠ some '"')
    (single : rest.head? ≠ some '\'') :
    readScalar (printText text ++ rest) = some (.text (String.ofList text), rest) := by
  have line := readScalar_double (readQuoted_printLine text double)
  have lines := readScalar_double (readQuoted_printLines text double)
  have plain (uncoded : text.any needsCode = false) (c : Char) (mem : c ∈ text) :
      needsCode c = false := Bool.eq_false_iff.mpr (List.any_eq_false.mp uncoded c mem)
  unfold printText
  simp only
  split_ifs with one two three four five
  · exact line
  · simp only [Bool.and_eq_true, Bool.not_eq_true', beq_iff_eq] at two
    obtain ⟨⟨uncoded, unbroken⟩, none⟩ := two
    have shown (c : Char) (mem : c ∈ text) : isShown c = true := by
      have bare := plain uncoded c mem
      have inside : c ≠ '\n' := by
        rintro rfl
        exact absurd (List.contains_iff_mem.mpr mem) (Bool.eq_false_iff.mp unbroken)
      simpa [needsCode, inside] using bare
    exact readScalar_single (readQuoted_literal (longestRun_eq_zero.mp none) shown single)
  · exact lines
  · simp only [Bool.and_eq_true, Bool.not_eq_true', decide_eq_true_eq] at four
    exact readScalar_single (readQuoted_literalLines four.2 (plain four.1) single)
  · exact lines
  · exact line

end RobotBlocks.Toml
