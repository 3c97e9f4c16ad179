import RobotBlocks.Notice
import RobotBlocks.Sandbox.Hook
import RobotBlocks.Script.Parser

/-!
# Running scripts

A sandbox runs one script at a time.  A script is parsed first; then its statements are executed
in order, each costing one step, until the end or the first thing that stops the run: a limit, a
command that is not carried out, or a statement that reports failure.  The only effect of a script
is what the hook does.
-/

namespace RobotBlocks

namespace Sandbox

structure Limits where
  /-- Statements that are executed, every repetition counted. -/
  maxSteps : Nat := 10000
  /-- Repetitions of one loop. -/
  maxRepeat : Nat := 1000
  /-- Loops inside each other. -/
  maxDepth : Nat := Script.defaultMaxDepth
deriving DecidableEq, Inhabited

/-- A sandbox: whether a run is in flight, and the world of its hook. -/
structure State (σ : Type) where
  busy : Bool := false
  world : σ

abbrev Runner (σ : Type) := String → State σ → Except RunError Report × State σ

/-- Carries out what a hook does; `run` serves the runs that the hook starts. -/
def Action.perform {σ : Type} (run : Runner σ) : Action σ → State σ → Reply × State σ
  | .reply answer world, state => (answer, { state with world })
  | .run code world next, state =>
      let (result, state) := run code { state with world }
      (next result state.world).perform run state
  | .inspect next, state => (next state.busy).perform run state

structure Progress (σ : Type) where
  state : State σ
  steps : Nat := 0
  commands : Nat := 0
  seconds : Binary64 := .zero
  /-- Messages so far, last one first. -/
  reversedLog : List String := []

namespace Progress

variable {σ : Type}

def report (progress : Progress σ) : Report where
  commands := progress.commands
  seconds := progress.seconds
  log := progress.reversedLog.reverse

def wait (progress : Progress σ) (seconds : Binary64) : Progress σ :=
  { progress with seconds := progress.seconds.add seconds }

def sent (progress : Progress σ) (command : Command) : Progress σ :=
  let counted := { progress with commands := progress.commands + 1 }
  if command.awaited then counted.wait (.ofNat command.duration.toNat) else counted

end Progress

/-- What stopped a run, if anything did, and how far it came. -/
abbrev Outcome (σ : Type) := Option RunError × Progress σ

section Execution

variable {σ : Type} (limits : Limits) (issue : Command → State σ → Reply × State σ)

/-- Repeats a part of a run until it is stopped. -/
def iterate (part : Progress σ → Outcome σ) : Nat → Progress σ → Outcome σ
  | 0, progress => (none, progress)
  | times + 1, progress =>
      match part progress with
      | (none, progress) => iterate part times progress
      | stopped => stopped

def execCommand (command : Command) (progress : Progress σ) : Outcome σ :=
  let (reply, state) := issue command progress.state
  let progress := { progress with state }
  match reply.failure? with
  | some reason => (some (.commandFailed command reason), progress)
  | none => (none, progress.sent command)

mutual

def execAll : List Statement → Progress σ → Outcome σ
  | [], progress => (none, progress)
  | first :: rest, progress =>
      let progress := { progress with steps := progress.steps + 1 }
      if limits.maxSteps < progress.steps then
        (some (.stepLimit limits.maxSteps), progress)
      else
        match exec first progress with
        | (none, progress) => execAll rest progress
        | stopped => stopped

/-- Executes one statement whose step has been counted.  An empty body has nothing to repeat. -/
def exec : Statement → Progress σ → Outcome σ
  | .begin, progress => (none, progress)
  | .command command, progress => execCommand issue command progress
  | .wait seconds, progress => (none, progress.wait seconds)
  | .log message, progress =>
      (none, { progress with reversedLog := message :: progress.reversedLog })
  | .fail message, progress => (some (.explicitFailure message), progress)
  | .loop times body, progress =>
      if limits.maxRepeat < times.toNat then
        (some (.repeatLimit times.toNat limits.maxRepeat), progress)
      else if body.isEmpty then
        (none, progress)
      else
        iterate (execAll body) times.toNat progress

end

end Execution

/--
Runs a script where at most `levels` runs may be inside each other.  A sandbox that is busy
refuses a run, so that a run inside a run is refused at its start.
-/
def runNested {σ : Type} (limits : Limits) (hook : Hook σ) : (levels : Nat) → Runner σ
  | 0, _, state => (.error .busy, state)
  | levels + 1, code, state =>
      if state.busy then
        (.error .busy, state)
      else
        match Script.parse code limits.maxDepth with
        | .error fault => (.error (.ofFault fault), state)
        | .ok statements =>
            let issue := fun command state =>
              (hook command state.world).perform (runNested limits hook levels) state
            let (stopped, progress) :=
              execAll limits issue statements { state := { state with busy := true } }
            let result := match stopped with
              | some error => .error error
              | none => .ok progress.report
            (result, { progress.state with busy := false })

def run {σ : Type} (limits : Limits) (hook : Hook σ) : Runner σ :=
  runNested limits hook 2

def outcomeNotice : Except RunError Report → Notice
  | .ok report =>
      .info ("Program finished: " ++ toString report.commands ++ " command(s) sent")
  | .error .busy => .warning "A program is already running"
  | .error (.compile line message) =>
      .error ("Program could not be built, nothing was sent (" ++
        (RunError.compile line message).message ++ ")")
  | .error error => .error error.message

end Sandbox

end RobotBlocks
