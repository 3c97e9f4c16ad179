import RobotBlocks.Proofs.Block.Registry
import RobotBlocks.Proofs.Program.Listing

/-!
# Where commands come from

Every command of a compiled program is an entry of the feed that its model was registered with
first: the first entry that has the command's code in the catalog of the command's kind.  No other
model, no later registration and no entry of another kind has a part in it.
-/

namespace RobotBlocks

open Catalog (Feed)

/--
A command is for the given robot and is the first entry of its kind and code in a feed.  The block
that it comes from has the type of that kind and code, and of no other.
-/
structure Command.Originates (command : Command) (feed : Feed) (serial : String) (block : Block) :
    Prop where
  serial : command.serial = serial
  entry : ∃ entry,
    (feed.entries command.kind).find? (fun entry => entry.code == command.code) = some entry ∧
      command.duration = entry.duration ∧ command.interruptible = entry.interruptible
  blockType : ∀ kind code, block.blockType = Definition.catalogType kind code ↔
    kind = command.kind ∧ code = command.code

namespace Generator

/-- What a generator with the blocks of a feed emits as commands originates in the feed. -/
theorem Emits.originates {model serial : String} {feed : Feed} {block : Block} {command : Command}
    (emits : Emits ⟨model, serial, .ofFeed feed⟩ block (.command command)) :
    command.Originates feed serial block := by
  obtain ⟨own, definition, found, rule⟩ := emits.command
  have blockType := Table.get?_ofFeed_command found rule
  rw [blockType, Table.get?_ofFeed] at found
  obtain ⟨entry, first, rfl⟩ := Option.map_eq_some_iff.mp found
  obtain ⟨_, _, duration, interruptible⟩ := EmitRule.command.inj rule
  refine ⟨own, ⟨entry, first, duration.symm, interruptible.symm⟩, ?_⟩
  intro kind code
  rw [blockType, Definition.catalogType_inj]
  exact and_congr eq_comm eq_comm

end Generator

/--
However often models have been registered, a program that is compiled for a model has the blocks of
the first registration of that model only.  Each of its statements is emitted by the block at its
place, and each command among them originates in the feed of that registration.
-/
theorem commands_originate (operations : List Registry.Operation) (model serial : String)
    (diagram : Diagram) (program : Program)
    (compiled : (((Registry.after operations).generator model serial).bind fun generator =>
      generator.compile diagram) = .ok program) :
    ∃ feed, Registry.firstFeed? operations model = some feed ∧
      List.Forall₂ (fun block statement =>
          Generator.Emits ⟨model, serial, .ofFeed feed⟩ block statement ∧
          ∀ command, statement = .command command → command.Originates feed serial block)
        (Block.listing diagram.blocks) (Statement.listing program.statements) := by
  obtain ⟨generator, built, compiled⟩ := bind_eq_ok.mp compiled
  obtain ⟨table, found, rfl⟩ := Registry.generator_eq_ok.mp built
  rw [Registry.table?_after] at found
  obtain ⟨feed, first, rfl⟩ := Option.map_eq_some_iff.mp found
  obtain ⟨statements, emitted, made⟩ := bind_eq_ok.mp compiled
  cases made
  refine ⟨feed, first, ?_⟩
  have places := Generator.emitAll_listing diagram.blocks statements emitted
  refine places.imp ?_
  rintro block statement emits
  refine ⟨emits, ?_⟩
  rintro command rfl
  exact emits.originates

/-- A feed with two entries of one code in a catalog and the same code in another catalog. -/
def ambiguousFeed : Feed where
  actions := [⟨"wave", "Wave", 3, true, none⟩, ⟨"wave", "Wave again", 9, false, none⟩]
  dances := [⟨"wave", "Wave dance", 60, false, none⟩, ⟨"a:b", "Split", 5, true, none⟩]

/-- The model `m` is registered between other registrations that do not agree with it. -/
def conflictingRegistrations : List Registry.Operation := [
  .register "n" { actions := [⟨"wave", "Wave", 1, true, none⟩] },
  .register "m" ambiguousFeed,
  .register "m" { actions := [⟨"wave", "Wave", 7, true, none⟩] },
  .setActive "n"]

def dancingDiagram : Diagram where
  blocks := [
    ⟨"r", "repeat", .empty, [
      ⟨"w", "action:wave", .empty, [⟨"d", "dance:wave", .empty, []⟩]⟩]⟩,
    ⟨"s", "dance:a:b", .empty, []⟩]

theorem commands_originate_dancingDiagram :
    ∃ program, (((Registry.after conflictingRegistrations).generator "m" "R1").bind fun generator =>
        generator.compile dancingDiagram) = .ok program ∧
      Registry.firstFeed? conflictingRegistrations "m" = some ambiguousFeed ∧
      Command.Originates ⟨"R1", .action, "wave", 3, true, true⟩ ambiguousFeed "R1"
        ⟨"w", "action:wave", .empty, [⟨"d", "dance:wave", .empty, []⟩]⟩ := by
  refine ⟨_, rfl, rfl, ?_⟩
  obtain ⟨feed, first, places⟩ :=
    commands_originate conflictingRegistrations "m" "R1" dancingDiagram _ rfl
  obtain rfl : ambiguousFeed = feed := Option.some_inj.mp first
  obtain ⟨_, inside⟩ := List.forall₂_cons.mp places
  obtain ⟨⟨_, originates⟩, _⟩ := List.forall₂_cons.mp inside
  exact originates _ rfl

end RobotBlocks
