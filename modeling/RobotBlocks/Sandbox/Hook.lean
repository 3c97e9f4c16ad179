import RobotBlocks.Program.Statement
import RobotBlocks.Script.Problem

/-!
# Command hooks

A hook carries out the commands of a running script.  It has a world of its own, and while it
works on a command it may start another run on the same sandbox or look whether the sandbox is
busy.  What a hook does is written down as an action, so that the sandbox itself decides what a
run from inside a run gives.
-/

namespace RobotBlocks

structure Report where
  commands : Nat := 0
  /-- The sum of waits and of the durations of awaited commands. -/
  seconds : Binary64 := .zero
  /-- The messages of the run in their order. -/
  log : List String := []
deriving DecidableEq, Inhabited

/-- Why a run did not complete. -/
inductive RunError where
  /-- Another run is in flight on the same sandbox. -/
  | busy
  /-- The script does not parse; nothing ran. -/
  | compile (line : Nat) (message : String)
  /-- The run was broken off. -/
  | runtime (message : String)
  /-- The program itself reported a failure. -/
  | explicitFailure (message : String)
deriving DecidableEq, Inhabited

namespace RunError

def message : RunError → String
  | .busy => "a program is already running"
  | .compile line message => "compile error on line " ++ toString line ++ ": " ++ message
  | .runtime message => "runtime error: " ++ message
  | .explicitFailure message => "program reported failure: " ++ message

def ofFault (fault : Script.Fault) : RunError :=
  .compile fault.line fault.problem.message

def stepLimit (limit : Nat) : RunError :=
  .runtime ("step limit of " ++ toString limit ++ " exceeded")

def repeatLimit (times limit : Nat) : RunError :=
  .runtime ("repeat count " ++ toString times ++ " exceeds the limit of " ++ toString limit)

def commandFailed (command : Command) (reason : String) : RunError :=
  .runtime (command.kind.word ++ " `" ++ command.code ++ "` on " ++ command.serial ++
    " failed: " ++ reason)

end RunError

namespace Sandbox

inductive Reply where
  | accepted
  | refused (reason : String)
  | crashed
deriving DecidableEq

def Reply.failure? : Reply → Option String
  | .accepted => none
  | .refused reason => some reason
  | .crashed => some "command hook panicked"

inductive Action (σ : Type) where
  /-- Answers and leaves the world as given. -/
  | reply (reply : Reply) (world : σ)
  /-- Runs a script on the same sandbox and goes on with the result. -/
  | run (code : String) (world : σ) (next : Except RunError Report → σ → Action σ)
  /-- Looks whether the sandbox is busy. -/
  | inspect (next : Bool → Action σ)

abbrev Hook (σ : Type) := Command → σ → Action σ

end Sandbox

end RobotBlocks
