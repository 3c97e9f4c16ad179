import RobotBlocks.Numeric.Literal
import RobotBlocks.Program.Statement
import RobotBlocks.Script.Token

/-!
# Lines of a script

Every line of a script stands for itself: it is blank or a comment, a statement, the opening of a
loop, or the closing of one.  What the loops hold is left to the parser.
-/

namespace RobotBlocks.Script

inductive Line where
  | blank
  | statement (statement : Statement)
  | opening (times : UInt32)
  | closing

structure Arguments where
  serial : Option String := none
  kind : Option Kind := none
  code : Option String := none
  duration : Option UInt32 := none
  interruptible : Option Bool := none
  awaited : Option Bool := none

def readFlag (key word : String) : Except Problem Bool :=
  if word = "true" then .ok true
  else if word = "false" then .ok false
  else .error (.badFlag key)

def orProblem {α : Type} (problem : Problem) : Option α → Except Problem α
  | some value => .ok value
  | none => .error problem

namespace Arguments

/-- Stores the value of one argument; a later value replaces an earlier one. -/
def set (arguments : Arguments) (key : String) : Token → Except Problem Arguments
  | .text content =>
      if key = "serial" then .ok { arguments with serial := some content }
      else if key = "code" then .ok { arguments with code := some content }
      else .error (.unknownArgument key)
  | .word word =>
      if key = "kind" then do
        let kind ← orProblem (.unknownKind word) (Kind.ofWord? word)
        return { arguments with kind := some kind }
      else if key = "duration" then do
        let duration ← orProblem (.badDuration word) (Numeric.readCount32 word.toList)
        return { arguments with duration := some duration }
      else if key = "interrupt" then do
        let flag ← readFlag key word
        return { arguments with interruptible := some flag }
      else if key = "wait" then do
        let flag ← readFlag key word
        return { arguments with awaited := some flag }
      else
        .error (.unknownArgument key)
  | _ => .error (.unknownArgument key)

/-- Reads arguments written as key, equals sign and value. -/
def read (arguments : Arguments) : List Token → Except Problem Arguments
  | [] => .ok arguments
  | .word key :: .equals :: value :: rest => do
      let arguments ← arguments.set key value
      read arguments rest
  | _ => .error .noPair

/-- The command, once every argument is there; else the first one that is missing. -/
def toCommand (arguments : Arguments) : Except Problem Command := do
  let serial ← orProblem (.missingArgument "serial") arguments.serial
  let kind ← orProblem (.missingArgument "kind") arguments.kind
  let code ← orProblem (.missingArgument "code") arguments.code
  let duration ← orProblem (.missingArgument "duration") arguments.duration
  let interruptible ← orProblem (.missingArgument "interrupt") arguments.interruptible
  let awaited ← orProblem (.missingArgument "wait") arguments.awaited
  return { serial, kind, code, duration, interruptible, awaited }

end Arguments

def readCommand (tokens : List Token) : Except Problem Command := do
  let arguments ← Arguments.read {} tokens
  arguments.toCommand

/-- A finite number of seconds that is not below zero. -/
def readSeconds (word : String) : Except Problem Binary64 :=
  match Numeric.readReal word.toList with
  | some seconds =>
      if seconds.isFinite && seconds.isNonNegative then .ok seconds
      else .error (.badDuration word)
  | none => .error (.badDuration word)

def readMessage (keyword : String) : List Token → Except Problem String
  | [.text content] => .ok content
  | _ => .error (.messageForm keyword)

def Line.ofKeyword (keyword : String) (arguments : List Token) : Except Problem Line :=
  if keyword = "begin" then
    if arguments.isEmpty then .ok (.statement .begin) else .error .extraArguments
  else if keyword = "wait" then
    match arguments with
    | [.word word] => do
        let seconds ← readSeconds word
        return .statement (.wait seconds)
    | _ => .error .waitForm
  else if keyword = "log" then do
    let message ← readMessage keyword arguments
    return .statement (.log message)
  else if keyword = "fail" then do
    let message ← readMessage keyword arguments
    return .statement (.fail message)
  else if keyword = "command" then do
    let command ← readCommand arguments
    return .statement (.command command)
  else if keyword = "repeat" then
    match arguments with
    | [.word word, .opening] => do
        let times ← orProblem (.badCount word) (Numeric.readCount32 word.toList)
        return .opening times
    | _ => .error .loopForm
  else
    .error (.unknownStatement keyword)

def Line.ofTokens : List Token → Except Problem Line
  | .word keyword :: arguments => Line.ofKeyword keyword arguments
  | [.closing] => .ok .closing
  | _ => .error .noStatement

/-- Reads one line.  A line without text or with a leading number sign says nothing. -/
def Line.read (line : List Char) : Except Problem Line :=
  match Text.trim line with
  | [] => .ok .blank
  | '#' :: _ => .ok .blank
  | trimmed => do
      let tokens ← tokenize trimmed
      Line.ofTokens tokens

end RobotBlocks.Script
