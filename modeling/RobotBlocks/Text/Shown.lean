import RobotBlocks.Text.CaseTable
import RobotBlocks.Text.HiddenTable

/-!
# Text shown inside a message

A word that a message complains about is shown between quotes, with everything that would not
show written as an escape.
-/

namespace RobotBlocks.Text

def shownChar (c : Char) : List Char :=
  if c = '"' then ['\\', '"']
  else if c = '\\' then ['\\', '\\']
  else if c = '\t' then ['\\', 't']
  else if c = '\n' then ['\\', 'n']
  else if c = '\r' then ['\\', 'r']
  else if c.toNat = 0 then ['\\', '0']
  else if inRanges hiddenRanges c.toNat then
    ['\\', 'u', '\x7b'] ++ Nat.toDigits 16 c.toNat ++ ['\x7d']
  else [c]

/-- A text between quotes, with escapes for what would not show. -/
def shown (text : String) : String :=
  String.ofList ('"' :: (text.toList.flatMap shownChar ++ ['"']))

end RobotBlocks.Text
