import RobotBlocks.Proofs.Script.Accepted
import RobotBlocks.Proofs.Script.Bodies
import RobotBlocks.Proofs.Script.Printed

/-!
# Programs out of lines

While a text is read, every part of the assembly is found again in the lines that it came from: each
open loop has its line, and the lines after it say its body.  A text is accepted exactly when its
lines say something in the grammar, and the program then flattens to what they say.
-/

namespace RobotBlocks.Script

/-! ## One line at a time -/

namespace Assembly

variable {limit number : Nat} {assembly last : Assembly} {line : List Char}
  {rest : List (List Char)}

theorem addLines_cons_eq_ok :
    assembly.addLines limit number (line :: rest) = .ok last ↔
      ∃ next, (Line.read line >>= assembly.add limit number) = .ok next ∧
        next.addLines limit (number + 1) rest = .ok last := by
  rw [addLines]
  cases Line.read line >>= assembly.add limit number <;> simp

theorem addLines_cons_eq_error {fault : Fault} :
    assembly.addLines limit number (line :: rest) = .error fault ↔
      (∃ problem, (Line.read line >>= assembly.add limit number) = .error problem ∧
        fault = ⟨number, problem⟩) ∨
      ∃ next, (Line.read line >>= assembly.add limit number) = .ok next ∧
        next.addLines limit (number + 1) rest = .error fault := by
  rw [addLines]
  cases Line.read line >>= assembly.add limit number <;> simp [eq_comm]

/-- A line is added as long as it closes a loop that is open and opens none beyond the limit. -/
theorem add_of_room {meaning : Line} (above : 0 ≤ assembly.frames.length + meaning.rise)
    (within : assembly.frames.length + meaning.rise ≤ limit) :
    ∃ next, assembly.add limit number meaning = .ok next ∧
      (next.frames.length : Int) = assembly.frames.length + meaning.rise := by
  cases meaning with
  | blank => exact ⟨assembly, rfl, (Int.add_zero _).symm⟩
  | statement statement =>
      refine ⟨assembly.place statement, rfl, ?_⟩
      rw [place_frames_length]
      exact (Int.add_zero _).symm
  | opening times =>
      have room : ¬limit ≤ assembly.frames.length := by
        change (assembly.frames.length : Int) + 1 ≤ limit at within
        omega
      exact ⟨_, if_neg room, rfl⟩
  | closing =>
      obtain ⟨frames, reversed⟩ := assembly
      cases frames with
      | nil =>
          change (0 : Int) ≤ 0 + -1 at above
          omega
      | cons frame outer =>
          refine ⟨_, rfl, ?_⟩
          rw [place_frames_length, List.length_cons]
          change (outer.length : Int) = (outer.length + 1 : Nat) + -1
          omega

/-- Lines are added as long as what they say keeps the number of open loops within the limit. -/
theorem addLines_of_saysAll {lines : List (List Char)} {contents : List Line}
    (spoken : SaysAll lines contents)
    (above : ∀ n, 0 ≤ assembly.frames.length + height (contents.take n))
    (within : ∀ n, assembly.frames.length + height (contents.take n) ≤ limit) :
    ∃ last, assembly.addLines limit number lines = .ok last ∧
      (last.frames.length : Int) = assembly.frames.length + height contents := by
  induction lines generalizing assembly number contents with
  | nil =>
      cases spoken
      exact ⟨assembly, rfl, (Int.add_zero _).symm⟩
  | cons line rest ih =>
      rcases saysAll_cons.mp spoken with
        ⟨silent, later⟩ | ⟨speaks, meaning, more, rfl, meant, later⟩
      · obtain ⟨last, added, length⟩ := ih later above within
        have read := read_eq_ok.mpr (.inl ⟨silent, rfl⟩)
        exact ⟨last, addLines_cons_eq_ok.mpr ⟨assembly, bind_eq_ok.mpr ⟨_, read, rfl⟩, added⟩, length⟩
      · have one (n : Nat) : height ((meaning :: more).take (n + 1)) =
            meaning.rise + height (more.take n) := by
          rw [List.take_succ_cons, height]
        have first : height ((meaning :: more).take 1) = meaning.rise := by
          rw [one, List.take_zero]
          exact Int.add_zero _
        obtain ⟨next, added, depth⟩ := @add_of_room limit number assembly meaning
          (first ▸ above 1) (first ▸ within 1)
        have aboveNext (n : Nat) : 0 ≤ next.frames.length + height (more.take n) := by
          rw [depth, Int.add_assoc, ← one]
          exact above (n + 1)
        have withinNext (n : Nat) : next.frames.length + height (more.take n) ≤ limit := by
          rw [depth, Int.add_assoc, ← one]
          exact within (n + 1)
        obtain ⟨last, rest, length⟩ := ih later aboveNext withinNext
        have read := read_eq_ok.mpr (.inr ⟨speaks, meant⟩)
        refine ⟨last, addLines_cons_eq_ok.mpr ⟨next, bind_eq_ok.mpr ⟨_, read, added⟩, rest⟩, ?_⟩
        rw [length, depth, height, Int.add_assoc]

end Assembly

/-! ## Lines of the open bodies -/

/-- An assembly and the lines it was put together from. -/
inductive Assembled : List (List Char) → Assembly → Prop where
  | outermost {lines : List (List Char)} {reversed : List Statement}
      (body : SaysAll lines (flatten reversed.reverse)) : Assembled lines ⟨[], reversed⟩
  | inside {front back : List (List Char)} {line : List Char} {frame : Frame} {outer : List Frame}
      {reversed : List Statement} (around : Assembled front ⟨outer, reversed⟩)
      (speaks : ¬Silent line) (opens : Says line (.opening frame.times))
      (number : frame.line = front.length + 1)
      (body : SaysAll back (flatten frame.reversed.reverse)) :
      Assembled (front ++ line :: back) ⟨frame :: outer, reversed⟩

namespace Assembled

variable {lines more : List (List Char)} {line : List Char} {assembly next : Assembly}
  {limit : Nat}

/-- Lines that say whole statements add to the innermost open body. -/
theorem append (assembled : Assembled lines assembly) {statements : List Statement}
    (later : SaysAll more (flatten statements)) :
    Assembled (lines ++ more) (assembly.placeAll statements) := by
  cases assembled with
  | outermost body =>
      rw [Assembly.placeAll_outermost]
      refine .outermost ?_
      rw [List.reverse_append, List.reverse_reverse, flatten_append]
      exact body.append later
  | inside around speaks opens number body =>
      rw [Assembly.placeAll_frame, List.append_assoc, List.cons_append]
      refine .inside around speaks opens number ?_
      dsimp only
      rw [List.reverse_append, List.reverse_reverse, flatten_append]
      exact body.append later

theorem place (assembled : Assembled lines assembly) {statement : Statement}
    (later : SaysAll more (flattenOne statement)) :
    Assembled (lines ++ more) (assembly.place statement) := by
  rw [← flatten_singleton] at later
  exact assembled.append later

theorem append_silent (assembled : Assembled lines assembly) (silent : Silent line) :
    Assembled (lines ++ [line]) assembly :=
  @append _ _ _ assembled [] (saysAll_silent silent)

/-- A line that says something is added to what the lines before it were put together to. -/
theorem append_spoken (assembled : Assembled lines assembly) {meaning : Line}
    (speaks : ¬Silent line) (meant : Says line meaning)
    (added : assembly.add limit (lines.length + 1) meaning = .ok next) :
    Assembled (lines ++ [line]) next := by
  have single := saysAll_single speaks meant
  cases meaning with
  | blank =>
      obtain ⟨tokens, _, spelled⟩ := meant
      cases spelled
  | statement statement =>
      cases added
      have flat := (read_statement (read_eq_ok.mpr (.inr ⟨speaks, meant⟩))).1
      rw [← flattenOne_flat flat] at single
      exact assembled.place single
  | opening times =>
      unfold Assembly.add at added
      split_ifs at added
      cases added
      exact .inside assembled speaks meant rfl .nil
  | closing =>
      cases assembled with
      | outermost body => cases added
      | inside around opened opens number body =>
          cases added
          have loop := (saysAll_single opened opens).append (body.append single)
          rw [List.append_assoc]
          exact around.place loop

theorem add (assembled : Assembled lines assembly)
    (added : (Line.read line >>= assembly.add limit (lines.length + 1)) = .ok next) :
    Assembled (lines ++ [line]) next := by
  obtain ⟨meaning, read, added⟩ := bind_eq_ok.mp added
  rcases read_eq_ok.mp read with ⟨silent, rfl⟩ | ⟨speaks, meant⟩
  · cases added
    exact assembled.append_silent silent
  · exact assembled.append_spoken speaks meant added

theorem addLines (assembled : Assembled lines assembly)
    (added : assembly.addLines limit (lines.length + 1) more = .ok next) :
    Assembled (lines ++ more) next := by
  induction more generalizing lines assembly with
  | nil =>
      cases added
      rwa [List.append_nil]
  | cons line rest ih =>
      obtain ⟨middle, first, later⟩ := Assembly.addLines_cons_eq_ok.mp added
      have here := ih (assembled.add first)
      rw [List.length_append, List.append_assoc] at here
      exact here later

/-- Every text is put together from nothing. -/
theorem ofLines (added : Assembly.addLines limit 1 {} lines = .ok next) : Assembled lines next := by
  have nothing : Assembled [] {} := .outermost .nil
  exact nothing.addLines added

/-- When no loop is open, the lines say the program so far. -/
theorem saysAll {reversed : List Statement} (assembled : Assembled lines ⟨[], reversed⟩) :
    SaysAll lines (flatten reversed.reverse) := by
  cases assembled with
  | outermost body => exact body

end Assembled

/-! ## Accepted texts -/

variable {code : String} {maxDepth : Nat}

theorem parse_eq_ok {statements : List Statement} :
    parse code maxDepth = .ok statements ↔
      ∃ reversed, Assembly.addLines (min maxDepth nestingCeiling) 1 {} (Text.lines code.toList) =
        .ok ⟨[], reversed⟩ ∧ reversed.reverse = statements := by
  unfold parse
  rw [bind_eq_ok]
  constructor
  · rintro ⟨⟨frames, reversed⟩, added, closed⟩
    cases frames with
    | nil => exact ⟨reversed, added, Except.ok.inj closed⟩
    | cons frame outer => cases closed
  · rintro ⟨reversed, added, rfl⟩
    exact ⟨_, added, rfl⟩

/-- The lines of an accepted text say its program, line by line. -/
theorem saysAll_of_parse {statements : List Statement}
    (accepted : parse code maxDepth = .ok statements) :
    SaysAll (Text.lines code.toList) (flatten statements) := by
  obtain ⟨reversed, added, rfl⟩ := parse_eq_ok.mp accepted
  exact (Assembled.ofLines added).saysAll

/-- A text is accepted when its lines say something and their loops are nested within the limit. -/
theorem parse_of_nested {contents : List Line}
    (spoken : SaysAll (Text.lines code.toList) contents)
    (nested : Nested (min maxDepth nestingCeiling) contents) :
    ∃ statements, parse code maxDepth = .ok statements := by
  obtain ⟨⟨frames, reversed⟩, added, depth⟩ := @Assembly.addLines_of_saysAll _ 1 {} _ _ spoken
    (fun n => (nested.above n).trans_eq (Int.zero_add _).symm)
    (fun n => (Int.zero_add _).trans_le (nested.within n))
  rw [nested.closed] at depth
  cases List.length_eq_zero_iff.mp (Int.ofNat_inj.mp depth)
  exact ⟨_, parse_eq_ok.mpr ⟨reversed, added, rfl⟩⟩

/-- Exactly the texts of the grammar are accepted: every line is silent or says something, and what
the lines say nests within the limit.  The program is the only one whose lines are those. -/
theorem parse_accepts_grammar (code : String) (maxDepth : Nat) :
    ((∃ statements, parse code maxDepth = .ok statements) ↔
      ∃ contents, SaysAll (Text.lines code.toList) contents ∧
        Nested (min maxDepth 256) contents) ∧
    ∀ statements, parse code maxDepth = .ok statements ↔
      SaysAll (Text.lines code.toList) (flatten statements) ∧
        Nested (min maxDepth 256) (flatten statements) := by
  have sound {statements : List Statement} (accepted : parse code maxDepth = .ok statements) :
      SaysAll (Text.lines code.toList) (flatten statements) ∧
        Nested (min maxDepth 256) (flatten statements) :=
    ⟨saysAll_of_parse accepted, nested_flatten (parse_fits accepted).2⟩
  refine ⟨⟨fun ⟨statements, accepted⟩ => ⟨_, sound accepted⟩, fun ⟨contents, spoken, nested⟩ =>
    parse_of_nested spoken nested⟩, fun statements => ⟨sound, fun ⟨spoken, nested⟩ => ?_⟩⟩
  obtain ⟨other, accepted⟩ := parse_of_nested spoken nested
  cases flatten_injective ((saysAll_of_parse accepted).unique spoken)
  exact accepted

end RobotBlocks.Script
