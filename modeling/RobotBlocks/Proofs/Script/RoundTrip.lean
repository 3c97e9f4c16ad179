import RobotBlocks.Proofs.Script.Accepted
import RobotBlocks.Proofs.Script.Printed

/-!
# Printing and parsing are inverse

Up to the nesting limit, printing a program and parsing it again gives the program back, and
printing what was parsed and parsing it again changes nothing.
-/

namespace RobotBlocks.Script

open Statement (nesting Waitable openings find_deep_opening_eq_none find_deep_opening_isSome)

theorem parse_render_fits (model serial : String) {statements : List Statement}
    (waitable : Waitable statements) {maxDepth : Nat}
    (fits : nesting statements ≤ min maxDepth nestingCeiling) :
    parse (render model serial statements) maxDepth = .ok statements := by
  rw [parse_render_eq model serial waitable, refuseDeep, find_deep_opening_eq_none fits]

theorem parse_render_deep (model serial : String) {statements : List Statement}
    (waitable : Waitable statements) {maxDepth : Nat}
    (deep : min maxDepth nestingCeiling < nesting statements) :
    ∃ opening, (openings 2 0 statements).find?
        (fun opening => min maxDepth nestingCeiling < opening.depth) = some opening ∧
      parse (render model serial statements) maxDepth =
        .error ⟨opening.line, .tooDeep (min maxDepth nestingCeiling)⟩ := by
  obtain ⟨opening, found⟩ := find_deep_opening_isSome deep 2
  refine ⟨opening, found, ?_⟩
  rw [parse_render_eq model serial waitable, refuseDeep_of_find found]

/--
A printed program whose waits are for durations is parsed back if its loops nest within the limit.
Otherwise it is refused on the line that opens the first loop beyond the limit.  Whatever text is
accepted, printing the program for any model and robot and parsing it again gives the same program.
-/
theorem parse_render_inverse (maxDepth : Nat) :
    (∀ (model serial : String) (statements : List Statement), Waitable statements →
      (nesting statements ≤ min maxDepth 256 →
        parse (render model serial statements) maxDepth = .ok statements) ∧
      (min maxDepth 256 < nesting statements → ∃ opening,
        (openings 2 0 statements).find? (fun opening => min maxDepth 256 < opening.depth) =
          some opening ∧
        (Text.lines (render model serial statements).toList)[opening.line - 1]? =
          some (openingLine opening) ∧
        parse (render model serial statements) maxDepth =
          .error ⟨opening.line, .tooDeep (min maxDepth 256)⟩)) ∧
    (∀ (code : String) (statements : List Statement), parse code maxDepth = .ok statements →
      Waitable statements ∧ nesting statements ≤ min maxDepth 256 ∧
      ∀ model serial : String,
        parse (render model serial statements) maxDepth = .ok statements) := by
  constructor
  · intro model serial statements waitable
    refine ⟨parse_render_fits model serial waitable, fun deep => ?_⟩
    obtain ⟨opening, found, refused⟩ := parse_render_deep model serial waitable deep
    exact ⟨opening, found,
      render_opening model serial waitable (List.mem_of_find?_eq_some found), refused⟩
  · intro code statements accepted
    obtain ⟨waitable, fits⟩ := parse_fits accepted
    exact ⟨waitable, fits, fun model serial => parse_render_fits model serial waitable fits⟩

/-- Two loops around a wait for the negative zero, with texts that look like lines of a script. -/
def nestedProgram : List Statement := [
  .log "\" \x7d\n# \\",
  .loop 2 [.wait ⟨0x8000000000000000⟩, .loop 0 [.fail "a=\"b\"\r\n\t"]]]

theorem parse_render_nestedProgram :
    parse (render "m\n\x7d" "r begin\r" nestedProgram) 2 = .ok nestedProgram ∧
      parse (render "m\n\x7d" "r begin\r" nestedProgram) 1 = .error ⟨5, .tooDeep 1⟩ := by
  have waitable : Waitable nestedProgram :=
    ⟨trivial, ⟨⟨by decide, by decide⟩, ⟨trivial, trivial⟩, trivial⟩, trivial⟩
  have accepted := ((parse_render_inverse 2).1 "m\n\x7d" "r begin\r" nestedProgram waitable).1
    (by decide)
  obtain ⟨opening, found, _, refused⟩ :=
    ((parse_render_inverse 1).1 "m\n\x7d" "r begin\r" nestedProgram waitable).2 (by decide)
  cases found
  exact ⟨accepted, refused⟩

end RobotBlocks.Script
