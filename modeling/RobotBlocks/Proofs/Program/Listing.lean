import Mathlib.Data.List.Forall2
import RobotBlocks.Proofs.Program.Emission

/-!
# Blocks and their statements

The blocks of a diagram and the statements of a program are listed in the order in which they
stand, a block before its children and a loop before its body.  In a compiled program every
statement is what the block at the same place emits.  What cannot be compiled is blamed on a block
of the diagram.
-/

namespace RobotBlocks

namespace Block

mutual

/-- The blocks of a list, each before its children. -/
def listing : List Block → List Block
  | [] => []
  | first :: rest => listingOne first ++ listing rest

def listingOne : Block → List Block
  | ⟨id, blockType, fields, children⟩ => ⟨id, blockType, fields, children⟩ :: listing children

end

end Block

namespace Statement

mutual

/-- The statements of a list, each loop before its body. -/
def listing : List Statement → List Statement
  | [] => []
  | first :: rest => listingOne first ++ listing rest

def listingOne : Statement → List Statement
  | .loop times body => .loop times body :: listing body
  | other => [other]

end

theorem listing_append (front back : List Statement) :
    listing (front ++ back) = listing front ++ listing back := by
  induction front with
  | nil => rfl
  | cons first rest ih => simp only [List.cons_append, listing, ih, List.append_assoc]

/-- What a block emits that has become a statement, the body of a loop left aside. -/
def emission : Statement → Generator.Emission
  | .loop times _ => .loop times
  | other => .statement other

end Statement

namespace Generator

/-! ## The statement of a block -/

/-- A statement is what a block emits. -/
def Emits (generator : Generator) (block : Block) (statement : Statement) : Prop :=
  generator.emitBlock block.id block.blockType block.fields = .ok statement.emission

/-- The statements of a block are one of its own and those of its children. -/
theorem emit_listing {generator : Generator} {id blockType : String} {fields : Fields}
    {children : List Block} {statements : List Statement}
    (emitted : generator.emit ⟨id, blockType, fields, children⟩ = .ok statements) :
    ∃ own inner, generator.emitAll children = .ok inner ∧
      generator.Emits ⟨id, blockType, fields, children⟩ own ∧
      Statement.listing statements = own :: Statement.listing inner := by
  unfold emit at emitted
  obtain ⟨emission, one, emitted⟩ := bind_eq_ok.mp emitted
  obtain ⟨inner, others, made⟩ := bind_eq_ok.mp emitted
  obtain ⟨shape, _, _⟩ := emitBlock_eq_ok one
  cases deed : deedOf generator.table.get? generator.serial blockType fields with
  | again times =>
      rw [deed] at shape
      subst shape
      cases made
      exact ⟨.loop times inner, inner, others, one, List.append_nil _⟩
  | nothing | command _ | wait _ | log _ | fail _ =>
      rw [deed] at shape
      subst shape
      cases made
      refine ⟨_, inner, others, ?_, rfl⟩
      exact one

mutual

/-- Every statement of a compiled diagram is what the block at its place emits. -/
theorem emitAll_listing {generator : Generator} : (blocks : List Block) →
    ∀ statements, generator.emitAll blocks = .ok statements →
      List.Forall₂ generator.Emits (Block.listing blocks) (Statement.listing statements)
  | [], statements, emitted => by
      cases emitted
      exact .nil
  | first :: rest, statements, emitted => by
      obtain ⟨here, more, one, others, rfl⟩ := emitAll_cons_eq_ok emitted
      rw [Statement.listing_append, Block.listing]
      exact List.rel_append (emitOne_listing first here one) (emitAll_listing rest more others)

theorem emitOne_listing {generator : Generator} : (block : Block) →
    ∀ statements, generator.emit block = .ok statements →
      List.Forall₂ generator.Emits (Block.listingOne block) (Statement.listing statements)
  | ⟨id, blockType, fields, children⟩, statements, emitted => by
      obtain ⟨own, inner, others, emits, listed⟩ := emit_listing emitted
      rw [listed, Block.listingOne]
      exact .cons emits (emitAll_listing children inner others)

end

/-- A command takes all but its flag from the rule of its block type. -/
theorem Emits.command {generator : Generator} {block : Block} {command : Command}
    (emits : generator.Emits block (.command command)) :
    command.serial = generator.serial ∧
      ∃ definition, generator.table.get? block.blockType = some definition ∧
        definition.emit =
          .command command.kind command.code command.duration command.interruptible := by
  unfold Emits emitBlock at emits
  split at emits
  · cases emits
  · rename_i definition found
    obtain ⟨values, _, emitted⟩ := bind_eq_ok.mp emits
    cases rule : definition.emit with
    | command kind code duration interruptible =>
        rw [rule] at emitted
        obtain ⟨awaited, _, made⟩ := bind_eq_ok.mp emitted
        cases made
        exact ⟨rfl, definition, found, rule⟩
    | begin =>
        rw [rule] at emitted
        cases emitted
    | loop | wait | log | fail =>
        rw [rule] at emitted
        obtain ⟨value, _, made⟩ := bind_eq_ok.mp emitted
        cases made

/-! ## The block of an error -/

end Generator

def CompileError.block? : CompileError → Option String
  | .noModel => none
  | .modelNotRegistered _ => none
  | .unknownBlock id _ _ => some id
  | .invalidField id _ _ => some id

namespace Generator

theorem resolveAll_blames {id : String} {fields : Fields} {specs : List FieldSpec}
    {error : CompileError} (refused : resolveAll id fields specs = .error error) :
    error.block? = some id := by
  induction specs with
  | nil => cases refused
  | cons spec rest ih =>
      unfold resolveAll at refused
      simp only at refused
      split at refused
      · rcases bind_eq_error.mp refused with later | ⟨more, _, made⟩
        · exact ih later
        · cases made
      · cases refused
        rfl

theorem resolve_blames {definition : Definition} {id : String} {fields : Fields}
    {error : CompileError} (refused : resolve definition id fields = .error error) :
    error.block? = some id := by
  unfold resolve at refused
  split at refused
  · cases refused
    rfl
  · exact resolveAll_blames refused

theorem readField_blames {α : Type} {id name : String} {read : FieldValue → Except FieldProblem α}
    {values : List (String × FieldValue)} {error : CompileError}
    (refused : readField id name read values = .error error) : error.block? = some id := by
  unfold readField at refused
  split at refused
  · cases refused
    rfl
  · split at refused
    · cases refused
    · cases refused
      rfl

theorem emission_blames {serial id : String} {values : List (String × FieldValue)}
    {rule : EmitRule} {error : CompileError}
    (refused : Generator.emission serial id values rule = .error error) :
    error.block? = some id := by
  cases rule with
  | begin => cases refused
  | loop | wait | log | fail | command =>
      rcases bind_eq_error.mp refused with unread | ⟨value, _, made⟩
      · exact readField_blames unread
      · cases made

theorem emitBlock_blames {generator : Generator} {id blockType : String} {fields : Fields}
    {error : CompileError} (refused : generator.emitBlock id blockType fields = .error error) :
    error.block? = some id := by
  unfold emitBlock at refused
  split at refused
  · cases refused
    rfl
  · rcases bind_eq_error.mp refused with unresolved | ⟨values, _, unemitted⟩
    · exact resolve_blames unresolved
    · exact emission_blames unemitted

mutual

/-- A diagram that cannot be compiled has a block that is to blame. -/
theorem emitAll_blames {generator : Generator} : (blocks : List Block) →
    ∀ error, generator.emitAll blocks = .error error →
      ∃ block ∈ Block.listing blocks, error.block? = some block.id
  | [], error, refused => by cases refused
  | first :: rest, error, refused => by
      rw [Block.listing]
      rcases bind_eq_error.mp refused with here | ⟨statements, _, later⟩
      · obtain ⟨block, mem, blamed⟩ := emit_blames first error here
        exact ⟨block, List.mem_append_left _ mem, blamed⟩
      · rcases bind_eq_error.mp later with there | ⟨more, _, made⟩
        · obtain ⟨block, mem, blamed⟩ := emitAll_blames rest error there
          exact ⟨block, List.mem_append_right _ mem, blamed⟩
        · cases made

theorem emit_blames {generator : Generator} : (block : Block) →
    ∀ error, generator.emit block = .error error →
      ∃ other ∈ Block.listingOne block, error.block? = some other.id
  | ⟨id, blockType, fields, children⟩, error, refused => by
      rw [Block.listingOne]
      rcases bind_eq_error.mp refused with here | ⟨emission, _, later⟩
      · exact ⟨_, List.mem_cons_self, emitBlock_blames here⟩
      · rcases bind_eq_error.mp later with inside | ⟨inner, _, made⟩
        · obtain ⟨block, mem, blamed⟩ := emitAll_blames children error inside
          exact ⟨block, List.mem_cons_of_mem _ mem, blamed⟩
        · cases emission <;> cases made

end

theorem compile_blames {generator : Generator} {diagram : Diagram} {error : CompileError}
    (refused : generator.compile diagram = .error error) :
    ∃ block ∈ Block.listing diagram.blocks, error.block? = some block.id := by
  rcases bind_eq_error.mp refused with unemitted | ⟨statements, _, made⟩
  · exact emitAll_blames diagram.blocks error unemitted
  · cases made

end Generator

end RobotBlocks
