import RobotBlocks.Proofs.Program.Provenance

/-!
# Statements in the places of their blocks

A compiled program has one statement for every block.  Both are numbered in the order of their
listings, and a statement stands inside a loop exactly when its block stands inside the block of the
loop.  The children of any other block follow their parent in the same body.
-/

namespace RobotBlocks

/-! ## Places -/

namespace Statement

mutual

/--
The places of the loops around each statement of a list, innermost first.  The list starts at a place
and stands inside the given loops.
-/
def loopsAround (place : Nat) (outer : List Nat) : List Statement → List (List Nat)
  | [] => []
  | first :: rest =>
      loopsAroundOne place outer first ++ loopsAround (place + countOne first) outer rest

def loopsAroundOne (place : Nat) (outer : List Nat) : Statement → List (List Nat)
  | .loop _ body => outer :: loopsAround (place + 1) (place :: outer) body
  | _ => [outer]

end

/-- The statement at one place of a program is in the body of the loop at another place. -/
def StandsIn (statements : List Statement) (inner outer : Nat) : Prop :=
  ∃ loops, (loopsAround 0 [] statements)[inner]? = some loops ∧ outer ∈ loops

theorem count_append (front back : List Statement) :
    count (front ++ back) = count front + count back := by
  induction front with
  | nil => rw [List.nil_append, count, Nat.zero_add]
  | cons first rest ih => rw [List.cons_append, count, count, ih, Nat.add_assoc]

mutual

theorem length_listing : (statements : List Statement) →
    (listing statements).length = count statements
  | [] => rfl
  | first :: rest => by
      rw [listing, count, List.length_append, length_listingOne first, length_listing rest]

theorem length_listingOne : (statement : Statement) →
    (listingOne statement).length = countOne statement
  | .loop _ body => by
      rw [listingOne, countOne, List.length_cons, length_listing body, Nat.add_comm]
  | .begin | .command _ | .wait _ | .log _ | .fail _ => rfl

end

theorem loopsAround_append (place : Nat) (outer : List Nat) (front back : List Statement) :
    loopsAround place outer (front ++ back) =
      loopsAround place outer front ++ loopsAround (place + count front) outer back := by
  induction front generalizing place with
  | nil => rfl
  | cons first rest ih =>
      rw [List.cons_append, loopsAround, loopsAround, ih, count, List.append_assoc, Nat.add_assoc]

end Statement

namespace Block

mutual

/--
The places of the blocks around each block of a list, the parent first.  The list starts at a place
and stands inside the given blocks.
-/
def ancestors (place : Nat) (outer : List Nat) : List Block → List (List Nat)
  | [] => []
  | first :: rest => ancestorsOne place outer first ++ ancestors (place + count first) outer rest

def ancestorsOne (place : Nat) (outer : List Nat) : Block → List (List Nat)
  | ⟨_, _, _, children⟩ => outer :: ancestors (place + 1) (place :: outer) children

end

/-- The block at one place of a diagram is inside the block at another place. -/
def DescendsFrom (blocks : List Block) (inner outer : Nat) : Prop :=
  ∃ above, (ancestors 0 [] blocks)[inner]? = some above ∧ outer ∈ above

/-- The block at one place of a diagram is a child of the block at another place. -/
def ChildOf (blocks : List Block) (inner outer : Nat) : Prop :=
  ∃ above, (ancestors 0 [] blocks)[inner]? = some (outer :: above)

def repeatsAt (lookup : Lookup) (blocks : List Block) (place : Nat) : Bool :=
  (listing blocks)[place]?.any fun block =>
    decide ((lookup block.blockType).map Definition.emit = some .loop)

mutual

theorem length_listing : (blocks : List Block) → (listing blocks).length = countAll blocks
  | [] => rfl
  | first :: rest => by
      rw [listing, countAll, List.length_append, length_listingOne first, length_listing rest]

theorem length_listingOne : (block : Block) → (listingOne block).length = count block
  | ⟨_, _, _, children⟩ => by
      rw [listingOne, count, List.length_cons, length_listing children, Nat.add_comm]

end

mutual

theorem length_ancestors (place : Nat) (outer : List Nat) : (blocks : List Block) →
    (ancestors place outer blocks).length = countAll blocks
  | [] => rfl
  | first :: rest => by
      rw [ancestors, countAll, List.length_append, length_ancestorsOne place outer first,
        length_ancestors _ outer rest]

theorem length_ancestorsOne (place : Nat) (outer : List Nat) : (block : Block) →
    (ancestorsOne place outer block).length = count block
  | ⟨_, _, _, children⟩ => by
      rw [ancestorsOne, count, List.length_cons, length_ancestors _ _ children, Nat.add_comm]

end

mutual

/-- Around a block stand its parent and the blocks around its parent. -/
theorem ancestors_parent (place : Nat) (outer : List Nat) : (blocks : List Block) →
    ∀ (index parent : Nat) (above : List Nat),
      (ancestors place outer blocks)[index]? = some (parent :: above) →
        outer = parent :: above ∨ ∃ earlier, parent = place + earlier ∧
          (ancestors place outer blocks)[earlier]? = some above
  | [], index, parent, above, found => nomatch found
  | first :: rest, index, parent, above, found => by
      rw [ancestors] at found ⊢
      rcases Nat.lt_or_ge index (ancestorsOne place outer first).length with here | later
      · rw [List.getElem?_append_left here] at found
        rcases ancestorsOne_parent place outer first index parent above found with
          outside | ⟨earlier, same, inside⟩
        · exact .inl outside
        · refine .inr ⟨earlier, same, ?_⟩
          rwa [List.getElem?_append_left (List.getElem?_eq_some_iff.mp inside).1]
      · rw [List.getElem?_append_right later] at found
        rcases ancestors_parent (place + count first) outer rest _ parent above found with
          outside | ⟨earlier, same, inside⟩
        · exact .inl outside
        · refine .inr ⟨count first + earlier, by rw [same, Nat.add_assoc], ?_⟩
          rw [List.getElem?_append_right (by rw [length_ancestorsOne]; exact Nat.le_add_right _ _),
            length_ancestorsOne, Nat.add_sub_cancel_left, inside]

theorem ancestorsOne_parent (place : Nat) (outer : List Nat) : (block : Block) →
    ∀ (index parent : Nat) (above : List Nat),
      (ancestorsOne place outer block)[index]? = some (parent :: above) →
        outer = parent :: above ∨ ∃ earlier, parent = place + earlier ∧
          (ancestorsOne place outer block)[earlier]? = some above
  | ⟨id, blockType, fields, children⟩, index, parent, above, found => by
      rw [ancestorsOne] at found ⊢
      cases index with
      | zero => exact .inl (Option.some_inj.mp found)
      | succ index =>
          rcases ancestors_parent (place + 1) (place :: outer) children index parent above found
            with child | ⟨earlier, same, inside⟩
          · cases child
            exact .inr ⟨0, rfl, rfl⟩
          · exact .inr ⟨earlier + 1, by rw [same, Nat.add_assoc, Nat.add_comm 1], inside⟩

end

theorem ChildOf.parent {blocks : List Block} {child parent : Nat}
    (childOf : ChildOf blocks child parent) :
    ∃ above, (ancestors 0 [] blocks)[child]? = some (parent :: above) ∧
      (ancestors 0 [] blocks)[parent]? = some above := by
  obtain ⟨above, found⟩ := childOf
  rcases ancestors_parent 0 [] blocks child parent above found with outside | ⟨earlier, same, at_⟩
  · cases outside
  · rw [Nat.zero_add] at same
    exact ⟨above, found, same ▸ at_⟩

end Block

namespace Generator

variable {generator : Generator}

/-! ## Statements and blocks -/

/-- A statement is what the rule and the field values of a block prescribe. -/
def Prescribes (generator : Generator) (block : Block) (statement : Statement) : Prop :=
  ∃ definition deed, generator.table.get? block.blockType = some definition ∧
    Deed.of? generator.serial definition block.fields = some deed ∧
    statement.emission = emissionOf deed

theorem Emits.prescribes {block : Block} {statement : Statement}
    (emits : generator.Emits block statement) : generator.Prescribes block statement := by
  unfold Emits emitBlock at emits
  split at emits
  · cases emits
  · rename_i definition found
    obtain ⟨values, resolved, emitted⟩ := bind_eq_ok.mp emits
    obtain ⟨deed, meaning, same, _, _⟩ := emission_eq_ok resolved emitted
    exact ⟨definition, deed, found, meaning, same⟩

mutual

/-- The loops around the statements of blocks are those of the repeat blocks around the blocks. -/
theorem loopsAround_emitAll (repeats : Nat → Bool) (place : Nat) (outer : List Nat) :
    (blocks : List Block) → ∀ statements, generator.emitAll blocks = .ok statements →
      (∀ (index : Nat) block, (Block.listing blocks)[index]? = some block → repeats (place + index) =
        decide ((generator.table.get? block.blockType).map Definition.emit = some .loop)) →
      Statement.count statements = Block.countAll blocks ∧
        Statement.loopsAround place (outer.filter repeats) statements =
          (Block.ancestors place outer blocks).map (List.filter repeats)
  | [], statements, emitted, _ => by
      cases emitted
      exact ⟨rfl, rfl⟩
  | first :: rest, statements, emitted, marked => by
      obtain ⟨here, more, one, others, rfl⟩ := emitAll_cons_eq_ok emitted
      rw [Block.listing] at marked
      obtain ⟨hereCount, hereLoops⟩ := loopsAround_emit repeats place outer first here one
        fun index block found => marked index block (by
          rwa [List.getElem?_append_left (List.getElem?_eq_some_iff.mp found).1])
      obtain ⟨moreCount, moreLoops⟩ := loopsAround_emitAll repeats (place + Block.count first) outer
        rest more others fun index block found => by
          rw [Nat.add_assoc]
          refine marked _ block ?_
          rw [← Block.length_listingOne first,
            List.getElem?_append_right (Nat.le_add_right _ _), Nat.add_sub_cancel_left, found]
      constructor
      · rw [Statement.count_append, hereCount, moreCount, Block.countAll]
      · rw [Statement.loopsAround_append, hereLoops, hereCount, moreLoops, Block.ancestors,
          List.map_append]

theorem loopsAround_emit (repeats : Nat → Bool) (place : Nat) (outer : List Nat) :
    (block : Block) → ∀ statements, generator.emit block = .ok statements →
      (∀ (index : Nat) other, (Block.listingOne block)[index]? = some other → repeats (place + index) =
        decide ((generator.table.get? other.blockType).map Definition.emit = some .loop)) →
      Statement.count statements = Block.count block ∧
        Statement.loopsAround place (outer.filter repeats) statements =
          (Block.ancestorsOne place outer block).map (List.filter repeats)
  | ⟨id, blockType, fields, children⟩, statements, emitted, marked => by
      obtain ⟨inner, others, rfl, _, loops⟩ := emit_eq_ok emitted
      rw [Block.listingOne] at marked
      have own := marked 0 _ rfl
      rw [Nat.add_zero] at own
      obtain ⟨innerCount, innerLoops⟩ := loopsAround_emitAll repeats (place + 1) (place :: outer)
        children inner others fun index block found => by
          rw [Nat.add_assoc, Nat.add_comm 1]
          exact marked (index + 1) block found
      rw [Block.count, Block.ancestorsOne, List.map_cons, ← innerCount, ← innerLoops]
      cases deed : deedOf generator.table.get? generator.serial blockType fields with
      | again times =>
          rw [decide_eq_true (loops.mpr ⟨times, deed⟩)] at own
          rw [List.filter_cons_of_pos own]
          exact ⟨rfl, List.append_nil _⟩
      | nothing | command | wait | log | fail =>
          have notLoop : repeats place = false := own.trans (decide_eq_false fun loop =>
            (loops.mp loop).elim fun _ same => nomatch deed.symm.trans same)
          rw [List.filter_cons_of_neg (by rw [notLoop]; exact Bool.false_ne_true)]
          exact ⟨rfl, rfl⟩

end

end Generator

open Generator (Prescribes emitAll_listing emitAll_spec loopsAround_emitAll)

/--
A compiled program has as many statements as the diagram has blocks, and each statement is what the
block at its place prescribes.  It stands in the body of a loop exactly when its block is inside that
repeat block; the children of any other block stand in the same bodies as their parent.  Loops nest
as deep as repeat blocks do.
-/
theorem statements_follow_blocks (generator : Generator) (diagram : Diagram) (program : Program)
    (compiled : generator.compile diagram = .ok program) :
    Statement.count program.statements = diagram.size ∧
    List.Forall₂ generator.Prescribes (Block.listing diagram.blocks)
      (Statement.listing program.statements) ∧
    (∀ inner outer, Statement.StandsIn program.statements inner outer ↔
      Block.DescendsFrom diagram.blocks inner outer ∧
        Block.repeatsAt generator.table.get? diagram.blocks outer = true) ∧
    (∀ child parent, Block.ChildOf diagram.blocks child parent →
      Block.repeatsAt generator.table.get? diagram.blocks parent = false →
        ∀ outer, Statement.StandsIn program.statements child outer ↔
          Statement.StandsIn program.statements parent outer) ∧
    Statement.nesting program.statements =
      repeatNestingAll generator.table.get? diagram.blocks := by
  obtain ⟨statements, emitted, made⟩ := bind_eq_ok.mp compiled
  cases made
  obtain ⟨count, loops⟩ := loopsAround_emitAll
    (Block.repeatsAt generator.table.get? diagram.blocks) 0 [] diagram.blocks statements emitted
    fun index block found => by rw [Nat.zero_add, Block.repeatsAt, found, Option.any_some]
  have places := (emitAll_listing diagram.blocks statements emitted).imp
    fun _ _ => Generator.Emits.prescribes
  refine ⟨count, places, fun inner outer => ?_, fun child parent childOf flat outer => ?_,
    (emitAll_spec diagram.blocks statements emitted).2⟩
  · unfold Statement.StandsIn Block.DescendsFrom
    rw [List.filter_nil] at loops
    simp only [loops, List.getElem?_map, Option.map_eq_some_iff]
    constructor
    · rintro ⟨_, ⟨above, found, rfl⟩, mem⟩
      obtain ⟨inside, loop⟩ := List.mem_filter.mp mem
      exact ⟨⟨above, found, inside⟩, loop⟩
    · rintro ⟨⟨above, found, inside⟩, loop⟩
      exact ⟨_, ⟨above, found, rfl⟩, List.mem_filter.mpr ⟨inside, loop⟩⟩
  · obtain ⟨above, here, there⟩ := childOf.parent
    unfold Statement.StandsIn
    rw [List.filter_nil] at loops
    rw [loops, List.getElem?_map, List.getElem?_map, here, there, Option.map_some, Option.map_some,
      List.filter_cons_of_neg (by rw [flat]; exact Bool.false_ne_true)]

/-- The dance is a child of the wave and so stands beside it, in the body of the loop. -/
theorem statements_follow_dancingDiagram :
    ∃ program, Generator.compile ⟨"m", "R1", .ofFeed ambiguousFeed⟩ dancingDiagram = .ok program ∧
      Statement.count program.statements = 4 ∧
      Statement.StandsIn program.statements 2 0 ∧ ¬Statement.StandsIn program.statements 2 1 ∧
      ¬Statement.StandsIn program.statements 3 0 ∧ Statement.nesting program.statements = 1 := by
  refine ⟨_, rfl, ?_⟩
  obtain ⟨count, _, inside, _, nesting⟩ :=
    statements_follow_blocks ⟨"m", "R1", .ofFeed ambiguousFeed⟩ dancingDiagram _ rfl
  refine ⟨count, (inside 2 0).mpr ⟨⟨[1, 0], rfl, by decide⟩, rfl⟩, fun stands => ?_,
    fun stands => ?_, nesting⟩
  · exact absurd ((inside 2 1).mp stands).2 (by decide)
  · obtain ⟨above, found, mem⟩ := ((inside 3 0).mp stands).1
    cases found
    cases mem

end RobotBlocks
