/-!
# Slot names

A slot is kept under a name for its namespace and a name of its own.  Both have to be usable as
file names, whatever text they come from, and different texts have to give different names.
-/

namespace RobotBlocks.Store

/-- Whether a byte is kept as it is: letters, digits, `-` and `_`, and a dot unless it is first. -/
def isKept (first : Bool) (b : UInt8) : Bool :=
  (65 ≤ b && b ≤ 90) || (97 ≤ b && b ≤ 122) || (48 ≤ b && b ≤ 57) || b == 45 || b == 95 ||
    (b == 46 && !first)

def upperHex (n : Nat) : Char :=
  Char.ofNat (if n < 10 then 48 + n else 55 + n)

def encodeByte (first : Bool) (b : UInt8) : List Char :=
  if isKept first b then [Char.ofNat b.toNat]
  else ['%', upperHex (b.toNat / 16), upperHex (b.toNat % 16)]

def encodeBytes : List UInt8 → List Char
  | [] => []
  | first :: rest => encodeByte true first ++ rest.flatMap (encodeByte false)

/-- A text as a file name: other bytes turn into their code, and no bytes into a lone `%`. -/
def encodeName (text : String) : String :=
  if text.isEmpty then "%" else String.ofList (encodeBytes text.toUTF8.toList)

end RobotBlocks.Store
