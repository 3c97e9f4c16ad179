import RobotBlocks.Proofs.Program.Nesting
import RobotBlocks.Proofs.Results
import RobotBlocks.Script.Parser

/-!
# What accepted texts hold

A text that is parsed at all gives a program whose waits are for durations and whose loops nest
within the limit.  Every line that is added keeps this true of the bodies that are still open.
-/

namespace RobotBlocks.Script

open Statement (nesting nestingOne nesting_le Waitable WaitableOne waitable_iff)

/-! ## Statements of one line -/

theorem readSeconds_duration {word : String} {seconds : Binary64}
    (read : readSeconds word = .ok seconds) : IsDuration seconds := by
  unfold readSeconds at read
  split at read
  · split at read
    · rename_i duration
      cases read
      exact Bool.and_eq_true_iff.mp duration
    · cases read
  · cases read

/-- A statement of one line is no loop, and a wait only if it is for a duration. -/
theorem ofKeyword_statement {keyword : String} {arguments : List Token} {statement : Statement}
    (made : Line.ofKeyword keyword arguments = .ok (.statement statement)) :
    nestingOne statement = 0 ∧ WaitableOne statement := by
  unfold Line.ofKeyword at made
  split at made
  · split at made <;> cases made
    exact ⟨rfl, trivial⟩
  split at made
  · split at made
    · obtain ⟨seconds, read, made⟩ := bind_eq_ok.mp made
      cases made
      exact ⟨rfl, readSeconds_duration read⟩
    · cases made
  split at made
  · obtain ⟨message, _, made⟩ := bind_eq_ok.mp made
    cases made
    exact ⟨rfl, trivial⟩
  split at made
  · obtain ⟨message, _, made⟩ := bind_eq_ok.mp made
    cases made
    exact ⟨rfl, trivial⟩
  split at made
  · obtain ⟨command, _, made⟩ := bind_eq_ok.mp made
    cases made
    exact ⟨rfl, trivial⟩
  split at made
  · split at made
    · obtain ⟨times, _, made⟩ := bind_eq_ok.mp made
      cases made
    · cases made
  · cases made

theorem read_statement {line : List Char} {statement : Statement}
    (read : Line.read line = .ok (.statement statement)) :
    nestingOne statement = 0 ∧ WaitableOne statement := by
  unfold Line.read at read
  split at read
  · cases read
  · cases read
  · obtain ⟨tokens, _, made⟩ := bind_eq_ok.mp read
    unfold Line.ofTokens at made
    split at made
    · exact ofKeyword_statement made
    · cases made
    · cases made

/-! ## Open bodies -/

theorem nesting_reverse (statements : List Statement) :
    nesting statements.reverse = nesting statements := by
  refine Nat.le_antisymm (nesting_le.mpr fun statement mem => ?_)
    (nesting_le.mpr fun statement mem => ?_)
  · exact nesting_le.mp (Nat.le_refl _) statement (List.mem_reverse.mp mem)
  · exact nesting_le.mp (Nat.le_refl _) statement (List.mem_reverse.mpr mem)

theorem waitable_reverse {statements : List Statement} (waitable : Waitable statements) :
    Waitable statements.reverse :=
  waitable_iff.mpr fun statement mem =>
    waitable_iff.mp waitable statement (List.mem_reverse.mp mem)

/-- The bodies of open loops, with the loops around them counted, fit the limit. -/
def FramesFit (limit : Nat) : List Frame → Prop
  | [] => True
  | frame :: outer =>
      Waitable frame.reversed ∧ outer.length + 1 + nesting frame.reversed ≤ limit ∧
        FramesFit limit outer

/-- Everything that was put together so far fits the limit. -/
structure Assembly.Fits (limit : Nat) (assembly : Assembly) : Prop where
  frames : FramesFit limit assembly.frames
  waitable : Waitable assembly.reversed
  shallow : nesting assembly.reversed ≤ limit

namespace Assembly

variable {limit : Nat}

theorem fits_empty : Fits limit {} :=
  ⟨trivial, trivial, Nat.zero_le limit⟩

/-- A statement that fits where it stands is added to what fits. -/
theorem Fits.place {assembly : Assembly} (fits : Fits limit assembly) {statement : Statement}
    (waitable : WaitableOne statement)
    (shallow : assembly.frames.length + nestingOne statement ≤ limit) :
    Fits limit (assembly.place statement) := by
  obtain ⟨frames, reversed⟩ := assembly
  cases frames with
  | nil =>
      refine ⟨trivial, ⟨waitable, fits.waitable⟩, Nat.max_le.mpr ⟨?_, fits.shallow⟩⟩
      rwa [List.length_nil, Nat.zero_add] at shallow
  | cons frame outer =>
      obtain ⟨frameWaitable, frameShallow, rest⟩ := fits.frames
      refine ⟨⟨⟨waitable, frameWaitable⟩, ?_, rest⟩, fits.waitable, fits.shallow⟩
      rw [List.length_cons] at shallow
      rw [nesting]
      omega

/-- What one line says keeps everything within the limit. -/
theorem Fits.add {assembly next : Assembly} (fits : Fits limit assembly) {line : List Char}
    {meaning : Line} (read : Line.read line = .ok meaning) {number : Nat}
    (added : assembly.add limit number meaning = .ok next) : Fits limit next := by
  cases meaning with
  | blank =>
      cases added
      exact fits
  | statement statement =>
      cases added
      obtain ⟨flat, waitable⟩ := read_statement read
      refine fits.place waitable ?_
      rw [flat, Nat.add_zero]
      obtain ⟨frames, reversed⟩ := assembly
      cases frames with
      | nil => exact Nat.zero_le limit
      | cons frame outer =>
          exact Nat.le_trans (Nat.le_add_right _ _) fits.frames.2.1
  | opening times =>
      rcases Nat.lt_or_ge assembly.frames.length limit with room | full
      · have pushed : assembly.add limit number (.opening times) =
            .ok ⟨⟨number, times, []⟩ :: assembly.frames, assembly.reversed⟩ :=
          if_neg (Nat.not_le.mpr room)
        rw [pushed] at added
        cases added
        exact ⟨⟨trivial, room, fits.frames⟩, fits.waitable, fits.shallow⟩
      · have refused : assembly.add limit number (.opening times) = .error (.tooDeep limit) :=
          if_pos full
        rw [refused] at added
        cases added
  | closing =>
      obtain ⟨frames, reversed⟩ := assembly
      cases frames with
      | nil => cases added
      | cons frame outer =>
          cases added
          obtain ⟨waitable, shallow, rest⟩ := fits.frames
          have outside : Fits limit ⟨outer, reversed⟩ := ⟨rest, fits.waitable, fits.shallow⟩
          refine outside.place (waitable_reverse waitable) ?_
          rw [nestingOne, nesting_reverse]
          dsimp only
          omega

theorem Fits.addLines {lines : List (List Char)} {number : Nat} {assembly last : Assembly}
    (fits : Fits limit assembly)
    (added : assembly.addLines limit number lines = .ok last) : Fits limit last := by
  induction lines generalizing number assembly with
  | nil =>
      cases added
      exact fits
  | cons line rest ih =>
      rw [Assembly.addLines] at added
      split at added
      · cases added
      · rename_i next step
        obtain ⟨meaning, read, here⟩ := bind_eq_ok.mp step
        exact ih (fits.add read here) added

end Assembly

/-- Every program that a text is accepted as has durations for waits and loops within the limit. -/
theorem parse_fits {code : String} {maxDepth : Nat} {statements : List Statement}
    (accepted : parse code maxDepth = .ok statements) :
    Waitable statements ∧ nesting statements ≤ min maxDepth nestingCeiling := by
  obtain ⟨assembly, added, closed⟩ := bind_eq_ok.mp accepted
  have fits := Assembly.fits_empty.addLines added
  unfold Assembly.program at closed
  split at closed
  · cases closed
    have shallow := Nat.le_trans (Nat.le_of_eq (nesting_reverse _)) fits.shallow
    exact ⟨waitable_reverse fits.waitable, shallow⟩
  · cases closed

end RobotBlocks.Script
