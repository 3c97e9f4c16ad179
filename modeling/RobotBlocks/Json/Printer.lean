import RobotBlocks.Json.Value
import RobotBlocks.Numeric.Layout

/-!
# Printing documents

A value is printed on one line without spaces, or with one member or element per line and two
spaces of indentation per level.  Numbers that are not finite are printed as `null`.
-/

namespace RobotBlocks.Json

def escapeChar (c : Char) : List Char :=
  if c = '"' then ['\\', '"']
  else if c = '\\' then ['\\', '\\']
  else if c = '\n' then ['\\', 'n']
  else if c = '\r' then ['\\', 'r']
  else if c = '\t' then ['\\', 't']
  else if c.toNat = 8 then ['\\', 'b']
  else if c.toNat = 12 then ['\\', 'f']
  else if c.toNat < 32 then
    ['\\', 'u', '0', '0', Nat.digitChar (c.toNat / 16), Nat.digitChar (c.toNat % 16)]
  else [c]

def printText (text : String) : List Char :=
  '"' :: (text.toList.flatMap escapeChar ++ ['"'])

def printNumber : Number → List Char
  | .natural value => Binary64.digitChars value
  | .negative magnitude => '-' :: Binary64.digitChars magnitude
  | .real value => if value.isFinite then value.documentText else "null".toList

namespace Value

mutual

/-- A value on one line. -/
def compact : Value → List Char
  | .null => "null".toList
  | .boolean value => if value then "true".toList else "false".toList
  | .number value => printNumber value
  | .text value => printText value
  | .array elements => '[' :: (compactElements elements ++ [']'])
  | .object members => '\x7b' :: (compactMembers members ++ ['\x7d'])

def compactElements : List Value → List Char
  | [] => []
  | [last] => last.compact
  | first :: rest => first.compact ++ ',' :: compactElements rest

def compactMembers : List (String × Value) → List Char
  | [] => []
  | [(name, last)] => printText name ++ ':' :: last.compact
  | (name, first) :: rest =>
      printText name ++ ':' :: (first.compact ++ ',' :: compactMembers rest)

end

def newLine (level : Nat) : List Char :=
  '\n' :: List.replicate (2 * level) ' '

mutual

/-- A value over several lines. -/
def pretty (level : Nat) : Value → List Char
  | .null => "null".toList
  | .boolean value => if value then "true".toList else "false".toList
  | .number value => printNumber value
  | .text value => printText value
  | .array elements =>
      if elements.isEmpty then "[]".toList
      else '[' :: (prettyElements (level + 1) elements ++ newLine level ++ [']'])
  | .object members =>
      if members.isEmpty then "\x7b\x7d".toList
      else '\x7b' :: (prettyMembers (level + 1) members ++ newLine level ++ ['\x7d'])

def prettyElements (level : Nat) : List Value → List Char
  | [] => []
  | [last] => newLine level ++ last.pretty level
  | first :: rest => newLine level ++ first.pretty level ++ ',' :: prettyElements level rest

def prettyMembers (level : Nat) : List (String × Value) → List Char
  | [] => []
  | [(name, last)] => newLine level ++ printText name ++ ": ".toList ++ last.pretty level
  | (name, first) :: rest =>
      newLine level ++ printText name ++ ": ".toList ++ first.pretty level ++
        ',' :: prettyMembers level rest

end

/-- Adds a member in the order of the names; a later member replaces an earlier one. -/
def insertSorted (name : String) (value : Value) : List (String × Value) → List (String × Value)
  | [] => [(name, value)]
  | (other, old) :: rest =>
      if name < other then (name, value) :: (other, old) :: rest
      else if name = other then (name, value) :: rest
      else (other, old) :: insertSorted name value rest

mutual

/-- The value with the members of its objects in the order of their names, each name once. -/
def sorted : Value → Value
  | .array elements => .array (sortedElements elements)
  | .object members => .object (sortedMembers [] members)
  | value => value

def sortedElements : List Value → List Value
  | [] => []
  | first :: rest => first.sorted :: sortedElements rest

def sortedMembers (done : List (String × Value)) : List (String × Value) → List (String × Value)
  | [] => done
  | (name, first) :: rest => sortedMembers (insertSorted name first.sorted done) rest

end

/-- A value on one line as it is shown inside a message. -/
def shown (value : Value) : String :=
  String.ofList value.sorted.compact

def toText (value : Value) : String :=
  String.ofList value.compact

def toPrettyBytes (value : Value) : List UInt8 :=
  (String.ofList (value.pretty 0)).toUTF8.toList

end Value

end RobotBlocks.Json
