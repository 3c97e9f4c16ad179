import RobotBlocks.Proofs.Script.Assembled
import RobotBlocks.Proofs.Script.Scanning
import RobotBlocks.Proofs.Script.Settings

/-!
# The first problem of a script

A text is refused for its first line that cannot be added, or at its end for a loop that is still open.
What follows the line does not matter, and the lines before it are not refused on their own.
-/

namespace RobotBlocks.Script

/-! ## Problems of a line -/

/-- The line of the loop that a problem leaves open. -/
def Problem.opened? : Problem → Option Nat
  | .neverClosed line => some line
  | _ => none

/-- A result that leaves no loop open: whether one stays open only the end of a text shows. -/
def Settled {α : Type} (result : Except Problem α) : Prop :=
  ∀ problem, result = .error problem → problem.opened? = none

theorem settled_ok {α : Type} (value : α) : Settled (.ok value : Except Problem α) := by
  rintro problem ⟨⟩

theorem settled_error {α : Type} {problem : Problem} (other : problem.opened? = none) :
    Settled (.error problem : Except Problem α) := by
  rintro _ ⟨⟩
  exact other

theorem Settled.bind {α β : Type} {first : Except Problem α} {next : α → Except Problem β}
    (settled : Settled first) (later : ∀ value, Settled (next value)) : Settled (first >>= next) := by
  intro problem failed
  rcases bind_eq_error.mp failed with here | ⟨value, _, second⟩
  · exact settled problem here
  · exact later value problem second

theorem settled_orProblem {α : Type} {problem : Problem} (other : problem.opened? = none)
    (option : Option α) : Settled (orProblem problem option) := by
  cases option with
  | none => exact settled_error other
  | some value => exact settled_ok value

theorem Unclosed.opened?_eq_none {rest : List Char} {problem : Problem}
    (unclosed : Unclosed rest problem) : problem.opened? = none := by
  induction unclosed with
  | ended | endedEscape | unknown => rfl
  | plain _ _ _ ih | escaped _ _ ih => exact ih

theorem settled_tokenize (line : List Char) : Settled (tokenize line) := by
  intro problem failed
  obtain ⟨_, _, _, unclosed⟩ := exists_broken failed
  exact unclosed.opened?_eq_none

theorem settled_readCommand (tokens : List Token) : Settled (readCommand tokens) := by
  intro problem failed
  rcases readCommand_eq_error.mp failed with ⟨_, _, _, _, starts⟩ | ⟨_, key, _, _, _, rfl⟩
  · cases starts with
    | noPair => rfl
    | refused refused => cases refused <;> rfl
  · rfl

theorem settled_readSeconds (word : String) : Settled (readSeconds word) := by
  unfold readSeconds
  split
  · split
    · exact settled_ok _
    · exact settled_error rfl
  · exact settled_error rfl

theorem settled_ofKeyword (keyword : String) (arguments : List Token) :
    Settled (Line.ofKeyword keyword arguments) := by
  have message : Settled (readMessage keyword arguments) := by
    unfold readMessage
    split
    · exact settled_ok _
    · exact settled_error rfl
  unfold Line.ofKeyword
  split_ifs
  · exact settled_ok _
  · exact settled_error rfl
  · split
    · exact (settled_readSeconds _).bind fun _ => settled_ok _
    · exact settled_error rfl
  · exact message.bind fun _ => settled_ok _
  · exact message.bind fun _ => settled_ok _
  · exact (settled_readCommand arguments).bind fun _ => settled_ok _
  · split
    · exact Settled.bind (settled_orProblem rfl _) fun _ => settled_ok _
    · exact settled_error rfl
  · exact settled_error rfl

theorem settled_read (line : List Char) : Settled (Line.read line) := by
  unfold Line.read
  split
  · exact settled_ok _
  · exact settled_ok _
  · refine (settled_tokenize _).bind fun tokens => ?_
    unfold Line.ofTokens
    split
    · exact settled_ofKeyword _ _
    · exact settled_ok _
    · exact settled_error rfl

theorem settled_add (limit number : Nat) (assembly : Assembly) (meaning : Line) :
    Settled (assembly.add limit number meaning) := by
  cases meaning with
  | blank | statement => exact settled_ok _
  | opening times =>
      rw [Assembly.add]
      split
      · exact settled_error rfl
      · exact settled_ok _
  | closing =>
      rw [Assembly.add]
      split
      · exact settled_error rfl
      · exact settled_ok _

/-! ## The first lines of a text -/

/-- Blank characters around a line, among them what ends it, do not change what it says. -/
theorem read_congr {line other : List Char} (same : Text.trim line = Text.trim other) :
    Line.read line = Line.read other := by
  unfold Line.read
  rw [same]

namespace Assembly

variable {limit : Nat}

theorem addLines_congr {lines others : List (List Char)}
    (same : lines.map Text.trim = others.map Text.trim) (number : Nat) (assembly : Assembly) :
    assembly.addLines limit number lines = assembly.addLines limit number others := by
  induction lines generalizing others number assembly with
  | nil => rw [List.map_eq_nil_iff.mp same.symm]
  | cons line rest ih =>
      obtain ⟨other, more, rfl, first, later⟩ := List.map_eq_cons_iff.mp same.symm
      rw [addLines, addLines, read_congr first]
      split
      · rfl
      · exact ih later.symm _ _

theorem addLines_append (front back : List (List Char)) (number : Nat) (assembly : Assembly) :
    assembly.addLines limit number (front ++ back) =
      assembly.addLines limit number front >>= fun middle =>
        middle.addLines limit (number + front.length) back := by
  induction front generalizing number assembly with
  | nil => rfl
  | cons line rest ih =>
      rw [List.cons_append, addLines, addLines]
      split
      · rfl
      · rw [ih, List.length_cons, Nat.add_assoc, Nat.add_comm 1]

variable {number : Nat} {assembly last : Assembly} {lines : List (List Char)} {fault : Fault}

/-- Lines are refused for the first of them that cannot be added to what the lines before it make. -/
theorem addLines_eq_error (refused : assembly.addLines limit number lines = .error fault) :
    ∃ front line back middle, lines = front ++ line :: back ∧
      assembly.addLines limit number front = .ok middle ∧
      fault.line = number + front.length ∧
      (Line.read line >>= middle.add limit fault.line) = .error fault.problem := by
  induction lines generalizing number assembly with
  | nil => cases refused
  | cons line rest ih =>
      rcases addLines_cons_eq_error.mp refused with ⟨problem, here, rfl⟩ | ⟨next, added, later⟩
      · exact ⟨[], line, rest, assembly, rfl, rfl, rfl, here⟩
      · obtain ⟨front, other, back, middle, rfl, before, place, here⟩ := ih later
        refine ⟨line :: front, other, back, middle, rfl,
          addLines_cons_eq_ok.mpr ⟨next, added, before⟩, ?_, here⟩
        rw [place, List.length_cons]
        omega

theorem addLines_take_ok (added : assembly.addLines limit number lines = .ok last) (count : Nat) :
    ∃ middle, assembly.addLines limit number (lines.take count) = .ok middle := by
  have split := @addLines_append limit (lines.take count) (lines.drop count) number assembly
  rw [List.take_append_drop, added] at split
  obtain ⟨middle, front, _⟩ := bind_eq_ok.mp split.symm
  exact ⟨middle, front⟩

theorem addLines_of_take_error {count : Nat}
    (refused : assembly.addLines limit number (lines.take count) = .error fault) :
    assembly.addLines limit number lines = .error fault := by
  have split := @addLines_append limit (lines.take count) (lines.drop count) number assembly
  rw [List.take_append_drop, refused] at split
  exact split

/-- What is wrong with lines shows as soon as the line at fault is added, and no earlier. -/
theorem addLines_take_of_error (refused : assembly.addLines limit 1 lines = .error fault) :
    (1 ≤ fault.line ∧ fault.line ≤ lines.length) ∧
      assembly.addLines limit 1 (lines.take fault.line) = .error fault ∧
      ∀ count < fault.line, ∃ middle, assembly.addLines limit 1 (lines.take count) = .ok middle := by
  obtain ⟨front, line, back, middle, rfl, added, place, here⟩ := addLines_eq_error refused
  refine ⟨?_, ?_, fun count early => ?_⟩
  · rw [List.length_append, List.length_cons]
    exact ⟨by omega, by omega⟩
  · have first : (front ++ line :: back).take fault.line = front ++ [line] := by
      rw [place, Nat.add_comm, List.take_length_add_append, List.take_succ_cons, List.take_zero]
    rw [first, addLines_append, added]
    exact addLines_cons_eq_error.mpr (.inl ⟨_, place ▸ here, by rw [← place]⟩)
  · rw [List.take_append_of_le_length (by omega)]
    exact addLines_take_ok added count

end Assembly

/-! ## The end of a text -/

/-- The line with this number opens a loop, and the lines after it close every loop that they open
and no other: it opens the innermost of the loops that are open at the end. -/
def InnermostOpen (lines : List (List Char)) (number : Nat) : Prop :=
  ∃ front line back times contents, lines = front ++ line :: back ∧ number = front.length + 1 ∧
    ¬Silent line ∧ Says line (.opening times) ∧ SaysAll back contents ∧ Balanced contents

theorem Assembled.innermostOpen {lines : List (List Char)} {frame : Frame} {outer : List Frame}
    {reversed : List Statement} (assembled : Assembled lines ⟨frame :: outer, reversed⟩) :
    InnermostOpen lines frame.line := by
  cases assembled with
  | inside around speaks opens number body =>
      exact ⟨_, _, _, _, _, rfl, number, speaks, opens, body, balanced_flatten _⟩

/-- A loop that opens after another one would have to be closed before the end. -/
theorem InnermostOpen.not_lt {lines : List (List Char)} {number later : Nat}
    (one : InnermostOpen lines number) (two : InnermostOpen lines later) : ¬number < later := by
  obtain ⟨front, line, back, times, contents, rfl, rfl, _, _, spoken, balanced⟩ := one
  obtain ⟨front', line', back', times', contents', same, rfl, speaks, opens, spoken', balanced'⟩ :=
    two
  intro before
  rcases List.append_eq_append_iff.mp same with ⟨between, rfl, rest⟩ | ⟨between, rfl, _⟩
  · cases between with
    | nil =>
        rw [List.append_nil] at before
        exact Nat.lt_irrefl _ before
    | cons _ between =>
        cases (List.cons.inj rest).2
        obtain ⟨first, last, rfl, _, spokenLast⟩ := saysAll_append.mp spoken
        rcases saysAll_cons.mp spokenLast with ⟨silent, _⟩ | ⟨_, meaning, more, rfl, meant, spokenMore⟩
        · exact speaks silent
        · cases Says.unique speaks meant opens
          cases spokenMore.unique spoken'
          -- Between the two lines the height would have to fall below that of the outer loop.
          have above := balanced.above first.length
          have closed := balanced.closed
          have opening : Line.rise (.opening times') = 1 := rfl
          rw [List.take_left] at above
          rw [height_append, height, opening, balanced'.closed] at closed
          omega
  · rw [List.length_append] at before
    omega

/-- Only one loop is the innermost. -/
theorem InnermostOpen.unique {lines : List (List Char)} {number other : Nat}
    (one : InnermostOpen lines number) (two : InnermostOpen lines other) : number = other :=
  Nat.le_antisymm (Nat.not_lt.mp (two.not_lt one)) (Nat.not_lt.mp (one.not_lt two))

variable {code : String} {maxDepth : Nat}

/-- A text is refused for one of its lines, or at the end for the innermost loop that is open. -/
theorem parse_eq_error {fault : Fault} (failed : parse code maxDepth = .error fault) :
    Assembly.addLines (min maxDepth nestingCeiling) 1 {} (Text.lines code.toList) = .error fault ∨
      ∃ opened, fault = ⟨(Text.lines code.toList).length, .neverClosed opened⟩ ∧
        InnermostOpen (Text.lines code.toList) opened := by
  rcases bind_eq_error.mp failed with refused | ⟨⟨frames, reversed⟩, added, unclosed⟩
  · exact .inl refused
  · cases frames with
    | nil => cases unclosed
    | cons frame outer =>
        exact .inr ⟨frame.line, (Except.error.inj unclosed).symm,
          (Assembled.ofLines added).innermostOpen⟩

/-- A text whose lines can be added fails at most for a loop that is open at its end. -/
theorem parse_of_addLines {assembly : Assembly}
    (added : Assembly.addLines (min maxDepth nestingCeiling) 1 {} (Text.lines code.toList) =
      .ok assembly) :
    (∃ statements, parse code maxDepth = .ok statements) ∨
      ∃ opened, parse code maxDepth =
        .error ⟨(Text.lines code.toList).length, .neverClosed opened⟩ := by
  obtain ⟨frames, reversed⟩ := assembly
  cases frames with
  | nil => exact .inl ⟨_, bind_eq_ok.mpr ⟨_, added, rfl⟩⟩
  | cons frame outer => exact .inr ⟨_, bind_eq_error.mpr (.inr ⟨_, added, rfl⟩)⟩

theorem parse_of_addLines_error {fault : Fault}
    (refused : Assembly.addLines (min maxDepth nestingCeiling) 1 {} (Text.lines code.toList) =
      .error fault) : parse code maxDepth = .error fault :=
  bind_eq_error.mpr (.inl refused)

/-- A problem of the lines is no loop left open. -/
theorem addLines_settled {limit number : Nat} {assembly : Assembly} {lines : List (List Char)}
    {fault : Fault} (refused : assembly.addLines limit number lines = .error fault) (opened : Nat) :
    fault.problem ≠ .neverClosed opened := by
  obtain ⟨front, line, back, middle, _, _, _, here⟩ := Assembly.addLines_eq_error refused
  have settled := (settled_read line).bind fun meaning =>
    settled_add limit fault.line middle meaning
  intro same
  have closed := settled fault.problem here
  rw [same] at closed
  cases closed

/-! ## The first problem -/

/-- A text is refused for its first problem.  A loop that is left open is reported on the last line,
with the line of the innermost one.  Any other problem is that of its line: whatever follows the line,
the problem stays, and without the line the text is accepted or ends inside a loop.  Lines are the
same when they are the same trimmed, so that it does not matter how they end. -/
theorem parse_reports_first_problem {code : String} {maxDepth : Nat} {fault : Fault}
    (failed : parse code maxDepth = .error fault) :
    (1 ≤ fault.line ∧ fault.line ≤ (Text.lines code.toList).length) ∧
    (∀ opened, fault.problem = .neverClosed opened →
      fault.line = (Text.lines code.toList).length ∧
        fault.problem.message = "`repeat` opened on line " ++ toString opened ++
          " is never closed" ∧
        ∀ number, InnermostOpen (Text.lines code.toList) number ↔ number = opened) ∧
    ((∀ opened, fault.problem ≠ .neverClosed opened) →
      (∀ other : String,
        ((Text.lines other.toList).take fault.line).map Text.trim =
          ((Text.lines code.toList).take fault.line).map Text.trim →
        parse other maxDepth = .error fault) ∧
      ∀ (front : String) (count : Nat), count < fault.line →
        (Text.lines front.toList).map Text.trim =
          ((Text.lines code.toList).take count).map Text.trim →
        (∃ statements, parse front maxDepth = .ok statements) ∨
          ∃ opened, parse front maxDepth = .error ⟨count, .neverClosed opened⟩) := by
  rcases parse_eq_error failed with refused | ⟨opened, rfl, innermost⟩
  · obtain ⟨counted, here, before⟩ := Assembly.addLines_take_of_error refused
    refine ⟨counted, fun opened same => absurd same (addLines_settled refused opened), fun _ =>
      ⟨fun other same => parse_of_addLines_error ?_, fun front count early same => ?_⟩⟩
    · rw [← Assembly.addLines_congr same] at here
      exact Assembly.addLines_of_take_error here
    · obtain ⟨middle, added⟩ := before count early
      rw [← Assembly.addLines_congr same] at added
      have lines := congrArg List.length same
      rw [List.length_map, List.length_map, List.length_take_of_le (by omega)] at lines
      exact lines ▸ parse_of_addLines added
  · obtain ⟨front, line, back, _, _, split, _⟩ := id innermost
    have positive : 1 ≤ (Text.lines code.toList).length := by
      rw [split, List.length_append, List.length_cons]
      omega
    refine ⟨⟨positive, Nat.le_refl _⟩, ?_, fun other => absurd rfl (other opened)⟩
    rintro _ ⟨⟩
    refine ⟨rfl, rfl, fun number => ⟨fun other => other.unique innermost, ?_⟩⟩
    rintro rfl
    exact innermost

/-- A closing too many is reported whatever comes after it, and a loop left open by the line that opens
it, although another loop opens and closes later. -/
theorem parse_reports_first_problem_unpaired :
    (parse "repeat 2 \x7b\n\x7d\r\n\x7d\nnonsense" 4 = .error ⟨3, .strayClosing⟩ ∧
      ∀ other : String, ((Text.lines other.toList).take 3).map Text.trim =
          ["repeat 2 \x7b".toList, "\x7d".toList, "\x7d".toList] →
        parse other 4 = .error ⟨3, .strayClosing⟩) ∧
    (parse "repeat 2 \x7b\n\nrepeat 3 \x7b\n\x7d\n# end" 4 = .error ⟨5, .neverClosed 1⟩ ∧
      Problem.message (.neverClosed 1) = "`repeat` opened on line 1 is never closed" ∧
      InnermostOpen
        (Text.lines "repeat 2 \x7b\n\nrepeat 3 \x7b\n\x7d\n# end".toList) 1) := by
  have stray : parse "repeat 2 \x7b\n\x7d\r\n\x7d\nnonsense" 4 = .error ⟨3, .strayClosing⟩ := by
    rfl
  have unclosed : parse "repeat 2 \x7b\n\nrepeat 3 \x7b\n\x7d\n# end" 4 =
      .error ⟨5, .neverClosed 1⟩ := by
    rfl
  obtain ⟨_, named, innermost⟩ := (parse_reports_first_problem unclosed).2.1 1 rfl
  refine ⟨⟨stray, fun other same => ?_⟩, unclosed, named, (innermost 1).mpr rfl⟩
  exact ((parse_reports_first_problem stray).2.2 (by rintro opened ⟨⟩)).1 other same

end RobotBlocks.Script
