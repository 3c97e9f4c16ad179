import RobotBlocks.Proofs.Script.Lines
import RobotBlocks.Script.Parser

/-!
# Parsing printed programs

The lines of a printed program are added one after the other.  Statements come back as they were
printed, and the first loop that stands deeper than the limit is refused on its own line.
-/

namespace RobotBlocks.Script

open Statement (nesting nestingOne Waitable WaitableOne lineCount lineCountOne Opening openings
  openingsOne)

/-! ## Lines of a printed program -/

mutual

def linesAll (level : Nat) : List Statement → List (List Char)
  | [] => []
  | first :: rest => linesOne level first ++ linesAll level rest

def linesOne (level : Nat) : Statement → List (List Char)
  | .loop times body =>
      (indentation level ++ firstLine (.loop times body)) ::
        (linesAll (level + 1) body ++ [indentation level ++ "\x7d".toList])
  | statement => [indentation level ++ firstLine statement]

end

theorem lines_indented (level : Nat) {content : List Char} (single : '\n' ∉ content)
    (rest : List Char) :
    Text.lines (indentation level ++ (content ++ '\n' :: rest)) =
      (indentation level ++ content) :: Text.lines rest := by
  rw [← List.append_assoc]
  exact Text.lines_append
    (fun mem => (List.mem_append.mp mem).elim (oneLine_indentation level) single) rest

theorem printOne_flat (level : Nat) {statement : Statement} (flat : nestingOne statement = 0) :
    printOne level statement = indentation level ++ (firstLine statement ++ ['\n']) := by
  have regroup (keyword argument feed : List Char) :
      indentation level ++ keyword ++ argument ++ feed =
        indentation level ++ (keyword ++ argument ++ feed) := by
    rw [List.append_assoc, List.append_assoc, List.append_assoc]
  cases statement with
  | loop times body => exact absurd flat (Nat.succ_ne_zero _)
  | begin => rfl
  | command command =>
      rw [printOne]
      unfold firstLine
      exact List.append_assoc _ _ _
  | wait seconds =>
      rw [printOne]
      unfold firstLine
      exact regroup _ _ _
  | log message =>
      rw [printOne]
      unfold firstLine
      exact regroup _ _ _
  | fail message =>
      rw [printOne]
      unfold firstLine
      exact regroup _ _ _

theorem linesOne_flat (level : Nat) {statement : Statement} (flat : nestingOne statement = 0) :
    linesOne level statement = [indentation level ++ firstLine statement] := by
  cases statement with
  | loop times body => exact absurd flat (Nat.succ_ne_zero _)
  | begin | command | wait | log | fail => rfl

theorem printOne_loop (level : Nat) (times : UInt32) (body : List Statement) :
    printOne level (.loop times body) =
      indentation level ++ (firstLine (.loop times body) ++ '\n' ::
        (printAll (level + 1) body ++ (indentation level ++ ("\x7d".toList ++ ['\n'])))) := by
  have opening : " \x7b\n".toList = " \x7b".toList ++ ['\n'] := rfl
  have closing : "\x7d\n".toList = "\x7d".toList ++ ['\n'] := rfl
  have regroup (keyword count brace inside last : List Char) :
      indentation level ++ keyword ++ count ++ (brace ++ ['\n']) ++ inside ++ indentation level ++
        last = indentation level ++ (keyword ++ count ++ brace ++ '\n' ::
          (inside ++ (indentation level ++ last))) := by
    simp only [List.append_assoc, List.cons_append, List.nil_append]
  rw [printOne, opening, closing]
  unfold firstLine
  exact regroup _ _ _ _ _

theorem lines_flat (level : Nat) (rest : List Char) {statement : Statement}
    (flat : nestingOne statement = 0) (waitable : WaitableOne statement) :
    Text.lines (printOne level statement ++ rest) =
      linesOne level statement ++ Text.lines rest := by
  have single := lines_indented level (oneLine_firstLine statement waitable) rest
  rw [printOne_flat level flat, linesOne_flat level flat, List.singleton_append, ← single,
    List.append_assoc, List.append_assoc]
  rfl

mutual

/-- The printed text has these lines. -/
theorem lines_printAll (level : Nat) (rest : List Char) : (statements : List Statement) →
    Waitable statements →
    Text.lines (printAll level statements ++ rest) = linesAll level statements ++ Text.lines rest
  | [], _ => rfl
  | first :: more, waitable => by
      rw [printAll, linesAll, List.append_assoc, lines_printOne level _ first waitable.1,
        lines_printAll level rest more waitable.2, List.append_assoc]

theorem lines_printOne (level : Nat) (rest : List Char) : (statement : Statement) →
    WaitableOne statement →
    Text.lines (printOne level statement ++ rest) = linesOne level statement ++ Text.lines rest
  | .loop times body, waitable => by
      have opening := lines_indented level (oneLine_firstLine (.loop times body) waitable)
      have inside := lines_printAll (level + 1)
        (indentation level ++ ("\x7d".toList ++ '\n' :: rest)) body waitable
      have closing := @lines_indented level "\x7d".toList (by decide) rest
      rw [printOne_loop]
      simp only [List.append_assoc, List.cons_append, List.nil_append]
      rw [opening, inside, closing, linesOne, List.cons_append, List.append_assoc,
        List.singleton_append]
  | .begin, waitable => lines_flat level rest rfl waitable
  | .command _, waitable => lines_flat level rest rfl waitable
  | .wait _, waitable => lines_flat level rest rfl waitable
  | .log _, waitable => lines_flat level rest rfl waitable
  | .fail _, waitable => lines_flat level rest rfl waitable

end

mutual

theorem length_linesAll (level : Nat) : (statements : List Statement) →
    (linesAll level statements).length = lineCount statements
  | [] => rfl
  | first :: rest => by
      rw [linesAll, lineCount, List.length_append, length_linesOne level first,
        length_linesAll level rest]

theorem length_linesOne (level : Nat) : (statement : Statement) →
    (linesOne level statement).length = lineCountOne statement
  | .loop times body => by
      rw [linesOne, lineCountOne, List.length_cons, List.length_append,
        length_linesAll (level + 1) body]
      rfl
  | .begin | .command _ | .wait _ | .log _ | .fail _ => rfl

end

/-! ## Parsing printed lines -/

namespace Assembly

/-- Adds statements one after the other to the innermost open body. -/
def placeAll (assembly : Assembly) (statements : List Statement) : Assembly :=
  statements.foldl place assembly

theorem place_frames_length (assembly : Assembly) (statement : Statement) :
    (assembly.place statement).frames.length = assembly.frames.length := by
  obtain ⟨frames, reversed⟩ := assembly
  cases frames <;> rfl

theorem placeAll_frame (frame : Frame) (outer : List Frame) (reversed : List Statement)
    (statements : List Statement) :
    placeAll ⟨frame :: outer, reversed⟩ statements =
      ⟨{ frame with reversed := statements.reverse ++ frame.reversed } :: outer, reversed⟩ := by
  induction statements generalizing frame with
  | nil => rfl
  | cons first rest ih =>
      refine (ih { frame with reversed := first :: frame.reversed }).trans ?_
      rw [List.reverse_cons, List.append_assoc, List.singleton_append]

theorem placeAll_outermost (reversed statements : List Statement) :
    placeAll ⟨[], reversed⟩ statements = ⟨[], statements.reverse ++ reversed⟩ := by
  induction statements generalizing reversed with
  | nil => rfl
  | cons first rest ih =>
      refine (ih (first :: reversed)).trans ?_
      rw [List.reverse_cons, List.append_assoc, List.singleton_append]

/-- One line is added, and the rest after it. -/
theorem addLines_cons {line : List Char} {meaning : Line} (read : Line.read line = .ok meaning)
    (limit number : Nat) (assembly : Assembly) (rest : List (List Char)) :
    addLines limit number assembly (line :: rest) =
      match assembly.add limit number meaning with
      | .error problem => .error ⟨number, problem⟩
      | .ok next => addLines limit (number + 1) next rest := by
  rw [addLines, read]
  rfl

end Assembly

/-- Refuses the first loop that stands deeper than the limit. -/
def refuseDeep {α : Type} (limit : Nat) (loops : List Opening) (otherwise : Except Fault α) :
    Except Fault α :=
  match loops.find? fun opening => limit < opening.depth with
  | some opening => .error ⟨opening.line, .tooDeep limit⟩
  | none => otherwise

theorem refuseDeep_of_find {α : Type} {limit : Nat} {loops : List Opening} {opening : Opening}
    (found : loops.find? (fun opening => limit < opening.depth) = some opening)
    (otherwise : Except Fault α) :
    refuseDeep limit loops otherwise = .error ⟨opening.line, .tooDeep limit⟩ := by
  unfold refuseDeep
  rw [found]

theorem refuseDeep_append {α : Type} (limit : Nat) (loops more : List Opening)
    (otherwise : Except Fault α) :
    refuseDeep limit (loops ++ more) otherwise =
      refuseDeep limit loops (refuseDeep limit more otherwise) := by
  unfold refuseDeep
  rw [List.find?_append]
  cases loops.find? fun opening => limit < opening.depth <;> rfl

theorem refuseDeep_deep {α : Type} {limit : Nat} {opening : Opening}
    (deep : limit < opening.depth) (more : List Opening) (otherwise : Except Fault α) :
    refuseDeep limit (opening :: more) otherwise =
      .error ⟨opening.line, .tooDeep limit⟩ := by
  unfold refuseDeep
  rw [List.find?_cons, decide_eq_true deep]

theorem refuseDeep_fits {α : Type} {limit : Nat} {opening : Opening}
    (fits : opening.depth ≤ limit) (more : List Opening) (otherwise : Except Fault α) :
    refuseDeep limit (opening :: more) otherwise = refuseDeep limit more otherwise := by
  unfold refuseDeep
  rw [List.find?_cons, decide_eq_false (Nat.not_lt.mpr fits)]

section Parsing

variable (limit : Nat)

theorem addLines_flat (level number : Nat) (assembly : Assembly) (rest : List (List Char))
    {statement : Statement} (flat : nestingOne statement = 0)
    (waitable : WaitableOne statement) :
    assembly.addLines limit number (linesOne level statement ++ rest) =
      refuseDeep limit (openingsOne number assembly.frames.length statement)
        ((assembly.place statement).addLines limit (number + lineCountOne statement) rest) := by
  have meaning : firstMeaning statement = .statement statement ∧
      openingsOne number assembly.frames.length statement = [] ∧ lineCountOne statement = 1 := by
    cases statement with
    | loop times body => exact absurd flat (Nat.succ_ne_zero _)
    | begin | command | wait | log | fail => exact ⟨rfl, rfl, rfl⟩
  rw [linesOne_flat level flat, List.singleton_append,
    Assembly.addLines_cons (read_firstLine level statement waitable), meaning.1, meaning.2.1,
    meaning.2.2]
  rfl

mutual

/-- Printed statements are added one by one, unless a loop stands too deep. -/
theorem addLines_linesAll (level number : Nat) (assembly : Assembly) (rest : List (List Char)) :
    (statements : List Statement) → Waitable statements →
    assembly.addLines limit number (linesAll level statements ++ rest) =
      refuseDeep limit (openings number assembly.frames.length statements)
        ((assembly.placeAll statements).addLines limit (number + lineCount statements) rest)
  | [], _ => rfl
  | first :: more, waitable => by
      have after := addLines_linesAll level (number + lineCountOne first) (assembly.place first)
        rest more waitable.2
      rw [Assembly.place_frames_length] at after
      rw [linesAll, List.append_assoc, addLines_linesOne level number assembly _ first waitable.1,
        after, openings, refuseDeep_append, lineCount, Nat.add_assoc]
      rfl

theorem addLines_linesOne (level number : Nat) (assembly : Assembly) (rest : List (List Char)) :
    (statement : Statement) → WaitableOne statement →
    assembly.addLines limit number (linesOne level statement ++ rest) =
      refuseDeep limit (openingsOne number assembly.frames.length statement)
        ((assembly.place statement).addLines limit (number + lineCountOne statement) rest)
  | .loop times body, waitable => by
      have opens := Assembly.addLines_cons (read_firstLine level (.loop times body) waitable)
        limit number assembly (linesAll (level + 1) body ++
          ([indentation level ++ "\x7d".toList] ++ rest))
      rw [linesOne, List.cons_append, List.append_assoc, opens, openingsOne]
      rcases Nat.lt_or_ge assembly.frames.length limit with fits | full
      · have pushed : assembly.add limit number (.opening times) =
            .ok ⟨⟨number, times, []⟩ :: assembly.frames, assembly.reversed⟩ :=
          if_neg (Nat.not_le.mpr fits)
        have inside := addLines_linesAll (level + 1) (number + 1)
          ⟨⟨number, times, []⟩ :: assembly.frames, assembly.reversed⟩
          ([indentation level ++ "\x7d".toList] ++ rest) body waitable
        have closes := Assembly.addLines_cons (read_closing level) limit
          (number + 1 + lineCount body)
          ⟨⟨number, times, body.reverse ++ []⟩ :: assembly.frames, assembly.reversed⟩ rest
        have restored : (body.reverse ++ []).reverse = body := by
          rw [List.append_nil, List.reverse_reverse]
        rw [Assembly.placeAll_frame, List.singleton_append, closes] at inside
        rw [refuseDeep_fits fits, firstMeaning, pushed, lineCountOne]
        have count : number + 1 + lineCount body + 1 = number + (lineCount body + 2) := by omega
        refine inside.trans ?_
        simp only [Assembly.add, restored, count, List.length_cons]
      · have refused : assembly.add limit number (.opening times) = .error (.tooDeep limit) :=
          if_pos full
        rw [refuseDeep_deep (Nat.lt_succ_of_le full), firstMeaning, refused]
  | .begin, waitable => addLines_flat limit level number assembly rest rfl waitable
  | .command _, waitable => addLines_flat limit level number assembly rest rfl waitable
  | .wait _, waitable => addLines_flat limit level number assembly rest rfl waitable
  | .log _, waitable => addLines_flat limit level number assembly rest rfl waitable
  | .fail _, waitable => addLines_flat limit level number assembly rest rfl waitable

end

end Parsing

/-- The header is one line, whatever names it holds. -/
theorem lines_header (model serial : String) (rest : List Char) :
    ∃ names, Text.lines (header model serial ++ rest) =
      ("# blocklink program model=".toList ++ names) :: Text.lines rest := by
  have regroup (start middle serialNames : List Char) :
      start ++ onOneLine model ++ middle ++ serialNames ++ ['\n'] ++ rest =
        (start ++ (onOneLine model ++ (middle ++ serialNames))) ++ '\n' :: rest := by
    simp only [List.append_assoc, List.cons_append, List.nil_append]
  have single : '\n' ∉ "# blocklink program model=".toList ++
      (onOneLine model ++ (" serial=".toList ++ onOneLine serial)) := by
    have last := @oneLine_append " serial=".toList _ (by decide) (oneLine_onOneLine serial)
    exact oneLine_append (by decide) (oneLine_append (oneLine_onOneLine model) last)
  refine ⟨onOneLine model ++ (" serial=".toList ++ onOneLine serial), ?_⟩
  unfold header
  rw [regroup]
  exact Text.lines_append single rest

/-- The lines of a script: its header and the lines of its statements. -/
theorem lines_render (model serial : String) {statements : List Statement}
    (waitable : Waitable statements) :
    ∃ names, Text.lines (render model serial statements).toList =
      ("# blocklink program model=".toList ++ names) :: linesAll 0 statements := by
  obtain ⟨names, split⟩ := lines_header model serial (printAll 0 statements)
  have body := lines_printAll 0 [] statements waitable
  rw [List.append_nil] at body
  refine ⟨names, ?_⟩
  unfold render
  rw [String.toList_ofList, split, body]
  exact congrArg _ (List.append_nil _)

/-- A printed program is parsed back, unless a loop stands too deep. -/
theorem parse_render_eq (model serial : String) {statements : List Statement}
    (waitable : Waitable statements) (maxDepth : Nat) :
    parse (render model serial statements) maxDepth =
      refuseDeep (min maxDepth nestingCeiling) (openings 2 0 statements) (.ok statements) := by
  obtain ⟨names, lines⟩ := lines_render model serial waitable
  have added := addLines_linesAll (min maxDepth nestingCeiling) 0 2 {} [] statements waitable
  have header := Assembly.addLines_cons (read_header names) (min maxDepth nestingCeiling) 1 {}
    (linesAll 0 statements)
  rw [List.append_nil] at added
  unfold parse
  rw [lines]
  simp only [header, Assembly.add, added]
  unfold refuseDeep
  cases (openings 2 0 statements).find? fun opening =>
      min maxDepth nestingCeiling < opening.depth with
  | some opening => rfl
  | none =>
      change (Assembly.placeAll {} statements).program _ = _
      rw [Assembly.placeAll_outermost, List.append_nil]
      exact congrArg Except.ok (List.reverse_reverse statements)

def openingLine (opening : Opening) : List Char :=
  indentation (opening.depth - 1) ++
    ("repeat ".toList ++ countChars opening.times ++ " \x7b".toList)

mutual

/-- Every loop opens on the line that is counted for it. -/
theorem linesAll_opening (number depth : Nat) : (statements : List Statement) →
    ∀ opening ∈ openings number depth statements, ∃ index, opening.line = number + index ∧
      (linesAll depth statements)[index]? = some (openingLine opening)
  | [], opening, mem => by cases mem
  | first :: rest, opening, mem => by
      rcases List.mem_append.mp mem with here | later
      · obtain ⟨index, line, text⟩ := linesOne_opening number depth first opening here
        refine ⟨index, line, ?_⟩
        rw [linesAll, List.getElem?_append_left (List.getElem?_eq_some_iff.mp text).1, text]
      · obtain ⟨index, line, text⟩ :=
          linesAll_opening (number + lineCountOne first) depth rest opening later
        refine ⟨lineCountOne first + index, by omega, ?_⟩
        rw [linesAll, List.getElem?_append_right (by rw [length_linesOne]; omega),
          length_linesOne, Nat.add_sub_cancel_left, text]

theorem linesOne_opening (number depth : Nat) : (statement : Statement) →
    ∀ opening ∈ openingsOne number depth statement, ∃ index, opening.line = number + index ∧
      (linesOne depth statement)[index]? = some (openingLine opening)
  | .loop times body, opening, mem => by
      rcases List.mem_cons.mp mem with rfl | inside
      · exact ⟨0, rfl, rfl⟩
      · obtain ⟨index, line, text⟩ :=
          linesAll_opening (number + 1) (depth + 1) body opening inside
        refine ⟨index + 1, by omega, ?_⟩
        rw [linesOne, List.getElem?_cons_succ,
          List.getElem?_append_left (List.getElem?_eq_some_iff.mp text).1, text]
  | .begin, _, mem | .command _, _, mem | .wait _, _, mem | .log _, _, mem | .fail _, _, mem => by
      cases mem

end

/-- Every loop of a script opens on the line that is counted for it. -/
theorem render_opening (model serial : String) {statements : List Statement}
    (waitable : Waitable statements) {opening : Opening}
    (mem : opening ∈ openings 2 0 statements) :
    (Text.lines (render model serial statements).toList)[opening.line - 1]? =
      some (openingLine opening) := by
  obtain ⟨names, lines⟩ := lines_render model serial waitable
  obtain ⟨index, line, text⟩ := linesAll_opening 2 0 statements opening mem
  rw [lines, line, show 2 + index - 1 = index + 1 by omega, List.getElem?_cons_succ, text]

end RobotBlocks.Script
