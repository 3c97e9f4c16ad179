/-!
# Paths

A path is written as names with slashes between them.  It is kept as it is written: empty names
stand for slashes at either end or beside each other, and the names `.` and `..` have no meaning
before the path is followed.  Only the directory above a path passes over what leads nowhere.
-/

namespace RobotBlocks.Store

/-- A file name, as bytes. -/
abbrev Name := List UInt8

namespace Name

/-- The name of the directory itself. -/
def here : Name := [46]

/-- The name of the directory above. -/
def above : Name := [46, 46]

def longest : Nat := 255

/-- A name that stays in the directory it is looked up in. -/
def leadsNowhere (name : Name) : Bool :=
  name = [] || name = here

end Name

/-- A path as it is written: the names between its slashes. -/
abbrev Path := List Name

namespace Path

def empty : Path := [[]]

/-- The longest path that is followed, in bytes. -/
def longest : Nat := 4095

def ofBytes : List UInt8 → Path
  | [] => empty
  | byte :: rest =>
      match ofBytes rest with
      | [] => [[byte]]
      | name :: more => if byte = 47 then [] :: name :: more else (byte :: name) :: more

def ofText (text : String) : Path :=
  ofBytes text.toUTF8.toList

/-- The text that spells a path; the empty text if its bytes are no text. -/
def text (path : Path) : String :=
  (String.fromUTF8? (List.intercalate [47] path).toByteArray).getD ""

/-- The number of bytes that spell a path. -/
def size (path : Path) : Nat :=
  (path.map List.length).foldl (· + ·) (path.length - 1)

/-- Whether a path starts with a slash, so that it is followed from the top. -/
def isRooted : Path → Bool
  | [] :: _ :: _ => true
  | _ => false

/-- Whether a path ends with a slash, so that it can only be a directory. -/
def isClosed (path : Path) : Bool :=
  path.getLast? = some []

def unslashed (path : Path) : Path :=
  (path.reverse.dropWhile List.isEmpty).reverse

/-- The path without the names at its end that lead nowhere. -/
def trimmed (path : Path) : Path :=
  (path.reverse.dropWhile Name.leadsNowhere).reverse

/-- A path inside a directory; a path that starts at the top stays what it is. -/
def join (directory path : Path) : Path :=
  if path.isRooted then path
  else if directory.isClosed then directory.dropLast ++ path
  else directory ++ path

/-- The directory above the end of a path; the empty path and the top have none. -/
def parent? : Path → Option Path
  | [] => none
  | first :: rest =>
      match trimmed rest with
      | [] => if first.isEmpty then none else some empty
      | body =>
          match first, trimmed body.dropLast with
          | [], [] => some [[], []]
          | first, names => some (first :: names)

/-- A path and the directories above it, as far as `count` of them. -/
def upwards : (count : Nat) → Path → List Path
  | 0, _ => []
  | count + 1, path =>
      if path = empty then []
      else path :: (path.parent?.map (upwards count)).getD []

/-- A path and all the directories above it that it names, from the inside out. -/
def lineage (path : Path) : List Path :=
  upwards (path.length + 1) path

end Path

end RobotBlocks.Store
