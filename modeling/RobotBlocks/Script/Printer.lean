import RobotBlocks.Numeric.Layout
import RobotBlocks.Program.Statement

/-!
# Printing a script

One statement per line, two more spaces of indentation inside each loop, and a comment line at
the top that names the model and the robot.
-/

namespace RobotBlocks.Script

def quoteChar (c : Char) : List Char :=
  if c = '"' then ['\\', '"']
  else if c = '\\' then ['\\', '\\']
  else if c = '\n' then ['\\', 'n']
  else if c = '\r' then ['\\', 'r']
  else if c = '\t' then ['\\', 't']
  else [c]

def quote (text : String) : List Char :=
  '"' :: (text.toList.flatMap quoteChar ++ ['"'])

def flagWord (flag : Bool) : List Char :=
  if flag then "true".toList else "false".toList

def countChars (count : UInt32) : List Char :=
  Binary64.digitChars count.toNat

def printCommand (command : Command) : List Char :=
  "command serial=".toList ++ quote command.serial ++
    " kind=".toList ++ command.kind.word.toList ++
    " code=".toList ++ quote command.code ++
    " duration=".toList ++ countChars command.duration ++
    " interrupt=".toList ++ flagWord command.interruptible ++
    " wait=".toList ++ flagWord command.awaited

def indentation (level : Nat) : List Char :=
  List.replicate (2 * level) ' '

mutual

/-- The lines of a list of statements, each ended by a line feed. -/
def printAll (level : Nat) : List Statement → List Char
  | [] => []
  | first :: rest => printOne level first ++ printAll level rest

def printOne (level : Nat) : Statement → List Char
  | .begin => indentation level ++ "begin\n".toList
  | .command command => indentation level ++ printCommand command ++ ['\n']
  | .wait seconds => indentation level ++ "wait ".toList ++ seconds.plain ++ ['\n']
  | .loop times body =>
      indentation level ++ "repeat ".toList ++ countChars times ++ " \x7b\n".toList ++
        printAll (level + 1) body ++ indentation level ++ "\x7d\n".toList
  | .log message => indentation level ++ "log ".toList ++ quote message ++ ['\n']
  | .fail message => indentation level ++ "fail ".toList ++ quote message ++ ['\n']

end

def onOneLine (text : String) : List Char :=
  text.toList.map fun c => if c = '\n' ∨ c = '\r' then ' ' else c

def header (model serial : String) : List Char :=
  "# blocklink program model=".toList ++ onOneLine model ++
    " serial=".toList ++ onOneLine serial ++ ['\n']

def render (model serial : String) (statements : List Statement) : String :=
  String.ofList (header model serial ++ printAll 0 statements)

end RobotBlocks.Script
