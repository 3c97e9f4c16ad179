import RobotBlocks.Proofs.Program.Validity

/-!
# The first error of a diagram

Blocks are checked in the order of the listing, a block before its children and these before the next
block.  A diagram of a registered model is compiled exactly when all of its blocks are valid.
Otherwise the error is that of the first block that is not, and nothing that is listed later has a
part in it.
-/

namespace RobotBlocks

namespace Block

def alone (block : Block) : Block :=
  { block with children := [] }

/-- The first block of a list, in the order of the listing, that is not valid, and its error. -/
structure FirstViolation (model : String) (table : Table) (blocks before : List Block)
    (block : Block) (error : CompileError) : Prop where
  place : ∃ after, listing blocks = before ++ block :: after
  valid : ∀ earlier ∈ before, earlier.IsValid table
  violates : block.Violates model table error

end Block

namespace Generator

variable {generator : Generator}

/-! ## The order of the checks -/

mutual

/-- Of all blocks the first one that is refused gives the error. -/
theorem problem?_emitAll : (blocks : List Block) →
    problem? (generator.emitAll blocks) =
      (Block.listing blocks).findSome? fun block => problem? (generator.check block)
  | [] => rfl
  | first :: rest => by
      have later (here : List Statement) :
          problem? (do let more ← generator.emitAll rest; return here ++ more) =
            (Block.listing rest).findSome? fun block => problem? (generator.check block) := by
        rw [← problem?_emitAll rest]
        exact problem?_bind_ok fun more => rfl
      rw [emitAll, Block.listing, List.findSome?_append, ← problem?_emit first]
      exact problem?_bind later

theorem problem?_emit : (block : Block) →
    problem? (generator.emit block) =
      (Block.listingOne block).findSome? fun block => problem? (generator.check block)
  | ⟨id, blockType, fields, children⟩ => by
      have later (emission : Emission) :
          problem? (do
            let inner ← generator.emitAll children
            match emission with
            | .statement statement => return statement :: inner
            | .loop times => return [.loop times inner]) =
            (Block.listing children).findSome? fun block => problem? (generator.check block) := by
        rw [← problem?_emitAll children]
        exact problem?_bind_ok fun inner => by cases emission <;> rfl
      rw [emit, Block.listingOne, List.findSome?_cons]
      refine (problem?_bind later).trans ?_
      unfold check
      cases problem? (generator.emitBlock id blockType fields) <;> rfl

end

theorem problem?_compile (diagram : Diagram) :
    problem? (generator.compile diagram) =
      (Block.listing diagram.blocks).findSome? fun block => problem? (generator.check block) := by
  rw [← problem?_emitAll]
  exact problem?_bind_ok fun statements => rfl

/-- What is checked of a block does not depend on its children. -/
theorem findSome?_alone (blocks : List Block) :
    (blocks.map Block.alone).findSome? (fun block => problem? (generator.check block)) =
      blocks.findSome? fun block => problem? (generator.check block) := by
  rw [List.findSome?_map]
  rfl

/-- Diagrams that begin in the same way, up to a block with an error, have the same error. -/
theorem compile_of_prefix {diagram : Diagram} {front : List Block} {error : CompileError}
    (found : (front.findSome? fun block => problem? (generator.check block)) = some error)
    (same : front.map Block.alone <+: (Block.listing diagram.blocks).map Block.alone) :
    generator.compile diagram = .error error := by
  obtain ⟨rest, split⟩ := same
  rw [← problem?_eq_some, problem?_compile, ← findSome?_alone, ← split, List.findSome?_append,
    findSome?_alone, found, Option.some_or]

/-! ## Checks and violations -/

theorem check_cases (supplied : ∀ blockType definition,
      generator.table.get? blockType = some definition → definition.Supplies) (block : Block) :
    (problem? (generator.check block) = none ↔ block.IsValid generator.table) ∧
      ∀ error, problem? (generator.check block) = some error ↔
        block.Violates generator.model generator.table error := by
  rcases Block.isValid_or_violates generator.model supplied block with valid | ⟨first, violates⟩
  · obtain ⟨definition, found, conforms⟩ := valid
    obtain ⟨emission, passed⟩ := check_of_valid found (supplied _ _ found) conforms
    rw [passed]
    refine ⟨iff_of_true rfl ⟨definition, found, conforms⟩, fun error => iff_of_false nofun ?_⟩
    intro violates
    cases passed.symm.trans (check_of_violates violates)
  · have refused := check_of_violates violates
    rw [refused]
    refine ⟨iff_of_false nofun ?_, fun error => ⟨?_, ?_⟩⟩
    · rintro ⟨definition, found, conforms⟩
      obtain ⟨emission, passed⟩ := check_of_valid found (supplied _ _ found) conforms
      cases passed.symm.trans refused
    · rintro ⟨⟩
      exact violates
    · intro other
      exact congrArg problem? (refused.symm.trans (check_of_violates other))

end Generator

/--
A diagram of a registered model is compiled exactly when every block is valid.  It is refused with an
error exactly when that is the first violation of the first block that is not valid.  The error names
this block, and every diagram that has the same blocks up to this one is refused with the same error.
-/
theorem compile_checked (operations : List Registry.Operation) (model serial : String)
    (generator : Generator)
    (built : (Registry.after operations).generator model serial = .ok generator)
    (diagram : Diagram) :
    ((∃ program, generator.compile diagram = .ok program) ↔
      ∀ block ∈ Block.listing diagram.blocks, block.IsValid generator.table) ∧
    (∀ error, generator.compile diagram = .error error ↔ ∃ before block,
      Block.FirstViolation generator.model generator.table diagram.blocks before block error) ∧
    ∀ before block error,
      Block.FirstViolation generator.model generator.table diagram.blocks before block error →
        error.block? = some block.id ∧
        ∀ other : Diagram,
          (before ++ [block]).map Block.alone <+: (Block.listing other.blocks).map Block.alone →
            generator.compile other = .error error := by
  obtain ⟨table, known, rfl⟩ := Registry.generator_eq_ok.mp built
  rw [Registry.table?_after] at known
  obtain ⟨feed, _, rfl⟩ := Option.map_eq_some_iff.mp known
  have checks := @Generator.check_cases ⟨model, serial, .ofFeed feed⟩
    fun _ _ => Definition.supplies_ofFeed
  refine ⟨?_, fun error => ?_, fun before block error first => ?_⟩
  · rw [← problem?_eq_none, Generator.problem?_compile, List.findSome?_eq_none_iff]
    exact forall₂_congr fun block _ => (checks block).1
  · rw [← problem?_eq_some, Generator.problem?_compile, List.findSome?_eq_some_iff]
    constructor
    · rintro ⟨before, block, after, split, violates, valid⟩
      exact ⟨before, block, ⟨after, split⟩, fun earlier mem => (checks earlier).1.mp
        (valid earlier mem), ((checks block).2 error).mp violates⟩
    · rintro ⟨before, block, ⟨after, split⟩, valid, violates⟩
      exact ⟨before, block, after, split, ((checks block).2 error).mpr violates,
        fun earlier mem => (checks earlier).1.mpr (valid earlier mem)⟩
  · refine ⟨first.violates.blames, fun other same => Generator.compile_of_prefix ?_ same⟩
    exact List.findSome?_eq_some_iff.mpr ⟨before, block, [], rfl,
      ((checks block).2 error).mpr first.violates,
      fun earlier mem => (checks earlier).1.mpr (first.valid earlier mem)⟩

/-- Repeats for the negative zero, which is a count. -/
def repeatNothing : Fields :=
  .ofList [("times", .number ⟨0x8000000000000000⟩)]

def waitBackwards : Fields :=
  .ofList [("seconds", .number ⟨0xBFF0000000000000⟩)]

/-- A wait backwards inside a loop, with an unknown block inside it and a stray field after it. -/
def brokenDiagram : Diagram where
  blocks := [
    ⟨"r", "repeat", repeatNothing, [⟨"w", "wait", waitBackwards, [⟨"x", "juggle", .empty, []⟩]⟩]⟩,
    ⟨"l", "log", .ofList [("speed", .flag true)], []⟩]

theorem compile_checked_brokenDiagram :
    ∃ generator, (Registry.after [.register "m" {}]).generator "m" "R1" = .ok generator ∧
      generator.compile brokenDiagram = .error (.invalidField "w" "seconds" .notDuration) ∧
      ∀ inside beside after : List Block,
        generator.compile ⟨⟨"r", "repeat", repeatNothing,
            ⟨"w", "wait", waitBackwards, inside⟩ :: beside⟩ :: after⟩ =
          .error (.invalidField "w" "seconds" .notDuration) := by
  refine ⟨_, rfl, ?_⟩
  obtain ⟨_, refused, alike⟩ :=
    compile_checked [.register "m" {}] "m" "R1" _ rfl brokenDiagram
  have first : Block.FirstViolation "m" (.ofFeed {}) brokenDiagram.blocks
      [⟨"r", "repeat", repeatNothing, [⟨"w", "wait", waitBackwards, [⟨"x", "juggle", .empty, []⟩]⟩]⟩]
      ⟨"w", "wait", waitBackwards, [⟨"x", "juggle", .empty, []⟩]⟩
      (.invalidField "w" "seconds" .notDuration) := by
    refine ⟨⟨_, rfl⟩, fun earlier mem => ?_, ?_⟩
    · obtain rfl := List.mem_singleton.mp mem
      have count : (⟨0x8000000000000000⟩ : Binary64).IsCount :=
        Binary64.isCount_iff.mpr ⟨0, by decide +kernel⟩
      exact ⟨_, rfl, List.forall_mem_singleton.mpr ⟨_, List.mem_singleton_self _, rfl⟩,
        List.forall_mem_singleton.mpr rfl, fun _ => ⟨_, rfl, count⟩, nofun⟩
    · exact .badDuration rfl (List.forall_mem_singleton.mpr ⟨_, List.mem_singleton_self _, rfl⟩)
        (List.forall_mem_singleton.mpr rfl) rfl rfl fun duration => absurd duration.2 (by decide)
  refine ⟨(refused _).mpr ⟨_, _, first⟩, fun inside beside after => ?_⟩
  exact (alike _ _ _ first).2 _ ⟨_, rfl⟩

end RobotBlocks
