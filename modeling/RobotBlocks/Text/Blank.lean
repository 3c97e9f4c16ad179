/-!
# Blank characters, trimming and lines

A character is blank when it has the Unicode property `White_Space`.  Texts are trimmed of blank
characters at both ends, and a text is a sequence of lines that each end in a line feed; the
line feed after the last line may be missing.
-/

namespace RobotBlocks.Text

/-- The Unicode property `White_Space`. -/
def isBlank (c : Char) : Bool :=
  let code := c.toNat
  (9 ≤ code && code ≤ 13) || code == 0x20 || code == 0x85 || code == 0xA0 || code == 0x1680 ||
    (0x2000 ≤ code && code ≤ 0x200A) || code == 0x2028 || code == 0x2029 || code == 0x202F ||
    code == 0x205F || code == 0x3000

def trimStart (text : List Char) : List Char :=
  text.dropWhile isBlank

def trimEnd (text : List Char) : List Char :=
  (text.reverse.dropWhile isBlank).reverse

def trim (text : List Char) : List Char :=
  trimEnd (trimStart text)

/-- Nothing but blank characters, the empty text included. -/
def isAllBlank (text : String) : Bool :=
  text.toList.all isBlank

/--
The lines of a text.  A line feed ends a line and belongs to none; no empty line is added after a
final line feed.
-/
def lines : List Char → List (List Char)
  | [] => []
  | first :: rest =>
      if first = '\n' then
        [] :: lines rest
      else
        match lines rest with
        | [] => [[first]]
        | line :: more => (first :: line) :: more

end RobotBlocks.Text
