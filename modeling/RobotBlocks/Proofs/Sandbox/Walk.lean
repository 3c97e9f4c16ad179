import RobotBlocks.Program.Generator
import RobotBlocks.Sandbox.Run

/-!
# Walking a diagram

A diagram has a meaning of its own, without a script: its blocks are visited from top to bottom,
every visit costs one step, and a block does what its definition and its fields say.
-/

namespace RobotBlocks

/-- What a block does when it is visited, its children left aside. -/
inductive Deed where
  | nothing
  | command (command : Command)
  | wait (seconds : Binary64)
  | log (message : String)
  | fail (message : String)
  | again (times : UInt32)

namespace Deed

/-- The value of a field of a block: as given, or else as the definition has it. -/
def value? (definition : Definition) (fields : Fields) (name : String) : Option FieldValue :=
  (definition.field? name).map fun spec => (fields.get? name).getD spec.default

def of? (serial : String) (definition : Definition) (fields : Fields) : Option Deed :=
  match definition.emit with
  | .begin => some nothing
  | .loop =>
      match value? definition fields "times" with
      | some (.number value) => value.toCount?.map again
      | _ => none
  | .wait =>
      match value? definition fields "seconds" with
      | some (.number seconds) => some (wait seconds)
      | _ => none
  | .log =>
      match value? definition fields "message" with
      | some (.text message) => some (log message)
      | _ => none
  | .fail =>
      match value? definition fields "message" with
      | some (.text message) => some (fail message)
      | _ => none
  | .command kind code duration interruptible =>
      match value? definition fields "wait" with
      | some (.flag awaited) =>
          some (command { serial, kind, code, duration, interruptible, awaited })
      | _ => none

end Deed

abbrev Lookup := String → Option Definition

/-- What a block of a diagram does for a robot; nothing, if it has no meaning. -/
def deedOf (lookup : Lookup) (serial blockType : String) (fields : Fields) : Deed :=
  ((lookup blockType).bind fun definition => Deed.of? serial definition fields).getD .nothing

mutual

def repeatNestingAll (lookup : Lookup) : List Block → Nat
  | [] => 0
  | first :: rest => max (repeatNesting lookup first) (repeatNestingAll lookup rest)

/-- The largest number of repeat blocks in a block that are inside each other. -/
def repeatNesting (lookup : Lookup) : Block → Nat
  | ⟨_, blockType, _, children⟩ =>
      if (lookup blockType).map Definition.emit = some .loop then
        repeatNestingAll lookup children + 1
      else
        repeatNestingAll lookup children

end

namespace Sandbox

/-- Goes on from where a part of a run came to, unless the part was stopped. -/
def Outcome.andThen {σ : Type} (outcome : Outcome σ) (next : Progress σ → Outcome σ) :
    Outcome σ :=
  match outcome with
  | (none, progress) => next progress
  | stopped => stopped

/-- Goes through parts of a run in turn, until one of them is stopped. -/
def inTurn {σ : Type} : List (Progress σ → Outcome σ) → Progress σ → Outcome σ
  | [], progress => (none, progress)
  | first :: rest, progress => (first progress).andThen (inTurn rest)

section Walk

variable {σ : Type} (limits : Limits) (issue : Command → State σ → Reply × State σ)
  (lookup : Lookup) (serial : String)

/-- Calls the hook with a command.  One that is accepted counts, with its time if it is awaited. -/
def carryOut (command : Command) (progress : Progress σ) : Outcome σ :=
  match issue command progress.state with
  | (.accepted, state) =>
      let time : Binary64 := .ofNat command.duration.toNat
      (none, { progress with
        state
        commands := progress.commands + 1
        seconds := if command.awaited then progress.seconds.add time else progress.seconds })
  | (.refused reason, state) => (some (.commandFailed command reason), { progress with state })
  | (.crashed, state) =>
      (some (.commandFailed command "command hook panicked"), { progress with state })

mutual

/-- Visits blocks from top to bottom. -/
def walkAll : List Block → Progress σ → Outcome σ
  | [], progress => (none, progress)
  | first :: rest, progress => (walk first progress).andThen (walkAll rest)

/--
Visits a block, which costs one step, and then its children where they stand.  A repeat block has
its children visited in turn as often as it says.
-/
def walk : Block → Progress σ → Outcome σ
  | ⟨_, blockType, fields, children⟩, progress =>
      let progress := { progress with steps := progress.steps + 1 }
      if limits.maxSteps < progress.steps then
        (some (.stepLimit limits.maxSteps), progress)
      else
        match deedOf lookup serial blockType fields with
        | .nothing => walkAll children progress
        | .command command => (carryOut issue command progress).andThen (walkAll children)
        | .wait seconds =>
            walkAll children { progress with seconds := progress.seconds.add seconds }
        | .log message =>
            walkAll children { progress with reversedLog := message :: progress.reversedLog }
        | .fail message => (some (.explicitFailure message), progress)
        | .again times =>
            if limits.maxRepeat < times.toNat then
              (some (.repeatLimit times.toNat limits.maxRepeat), progress)
            else
              inTurn (List.replicate times.toNat (walkAll children)) progress

end

end Walk

/-- Refuses every run, as a busy sandbox does. -/
def refuseRun {σ : Type} : Runner σ := fun _ state => (.error .busy, state)

/-- Walks a diagram instead of running its script. -/
def walkDiagram {σ : Type} (limits : Limits) (hook : Hook σ) (lookup : Lookup) (serial : String)
    (diagram : Diagram) (world : σ) : Except RunError Report × State σ :=
  let issue := fun command state => (hook command state.world).perform refuseRun state
  let (stopped, progress) :=
    walkAll limits issue lookup serial diagram.blocks { state := { busy := true, world } }
  let result := match stopped with
    | some error => .error error
    | none => .ok ⟨progress.commands, progress.seconds, progress.reversedLog.reverse⟩
  (result, { progress.state with busy := false })

/-! ## Recorded commands -/

def Action.beside {σ : Type} (commands : List Command) : Action σ → Action (List Command × σ)
  | .reply answer world => .reply answer (commands, world)
  | .run code world next =>
      .run code (commands, world) fun result kept => (next result kept.2).beside kept.1
  | .inspect next => .inspect fun busy => (next busy).beside commands

/-- The same hook, with the commands it is called with in their order. -/
def Hook.recorded {σ : Type} (hook : Hook σ) : Hook (List Command × σ) :=
  fun command kept => (hook command kept.2).beside (kept.1 ++ [command])

end Sandbox

end RobotBlocks
