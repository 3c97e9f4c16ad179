import RobotBlocks.Catalog.Kind
import RobotBlocks.Numeric.Binary64

/-!
# Statements

A program is a list of statements.  A command is fully resolved: it names the robot, the catalog
and the code, and says whether the program waits for it.
-/

namespace RobotBlocks

structure Command where
  serial : String
  kind : Kind
  code : String
  /-- How long the robot takes, in seconds. -/
  duration : UInt32
  interruptible : Bool
  /-- Whether the program waits for the duration before it goes on. -/
  awaited : Bool
deriving DecidableEq, Inhabited

inductive Statement where
  | begin
  | command (command : Command)
  | wait (seconds : Binary64)
  | loop (times : UInt32) (body : List Statement)
  | log (message : String)
  | fail (message : String)
deriving Inhabited

namespace Statement

mutual

def count : List Statement → Nat
  | [] => 0
  | first :: rest => countOne first + count rest

/-- The number of statements of one statement, itself included. -/
def countOne : Statement → Nat
  | .loop _ body => 1 + count body
  | _ => 1

end

mutual

def sameAll : List Statement → List Statement → Bool
  | [], [] => true
  | first :: rest, other :: others => same first other && sameAll rest others
  | _, _ => false

/-- Equality of statements, with durations compared as numbers. -/
def same : Statement → Statement → Bool
  | .begin, .begin => true
  | .command one, .command other => one == other
  | .wait seconds, .wait other => seconds.sameValue other
  | .loop times body, .loop otherTimes otherBody => times == otherTimes && sameAll body otherBody
  | .log message, .log other => message == other
  | .fail message, .fail other => message == other
  | _, _ => false

end

end Statement

end RobotBlocks
