import RobotBlocks.Text.Shown

/-!
# Problems of a script

Everything that can be wrong with a script, and the wording of each.
-/

namespace RobotBlocks.Script

inductive Problem where
  | unknownEscape (c : Char)
  | unfinishedEscape
  | unfinishedText
  | noStatement
  | unknownStatement (word : String)
  | extraArguments
  | waitForm
  | messageForm (word : String)
  | loopForm
  | badDuration (word : String)
  | badCount (word : String)
  | noPair
  | unknownKind (word : String)
  | badFlag (key : String)
  | unknownArgument (key : String)
  | missingArgument (key : String)
  | strayClosing
  | tooDeep (limit : Nat)
  | neverClosed (line : Nat)
deriving DecidableEq

def Problem.message : Problem → String
  | .unknownEscape c => "unknown escape \\" ++ String.singleton c
  | .unfinishedEscape => "unterminated escape"
  | .unfinishedText => "unterminated string"
  | .noStatement => "expected a statement"
  | .unknownStatement word => "unknown statement `" ++ word ++ "`"
  | .extraArguments => "unexpected arguments"
  | .waitForm => "usage: wait <seconds>"
  | .messageForm word => "usage: " ++ word ++ " \"<message>\""
  | .loopForm => "usage: repeat <count> \x7b"
  | .badDuration word => "invalid duration " ++ Text.shown word
  | .badCount word => "invalid repeat count " ++ Text.shown word
  | .noPair => "expected key=value"
  | .unknownKind word => "unknown kind `" ++ word ++ "`"
  | .badFlag key => "`" ++ key ++ "` must be true or false"
  | .unknownArgument key => "unexpected argument `" ++ key ++ "`"
  | .missingArgument key => "command is missing `" ++ key ++ "`"
  | .strayClosing => "unexpected `\x7d`"
  | .tooDeep limit => "`repeat` nested deeper than " ++ toString limit ++ " levels"
  | .neverClosed line => "`repeat` opened on line " ++ toString line ++ " is never closed"

/-- A problem and the line it is on, counted from one. -/
structure Fault where
  line : Nat
  problem : Problem
deriving DecidableEq

end RobotBlocks.Script
