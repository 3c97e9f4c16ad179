import RobotBlocks.Failure
import RobotBlocks.Store.Document

/-!
# Binary documents

A binary document is a fixed mark, a version and a body.  The body writes every component one
after the other, without names: texts, lists and maps start with their length, and a field value
starts with the number of its kind.  Lengths take one byte if they are small, and otherwise a
marker byte and two, four or eight bytes, the lowest first.  What follows the body is not looked
at.
-/

namespace RobotBlocks.Store

/-! ## Writing -/

/-- The lowest `width` bytes of a number, the lowest first. -/
def littleEndian : (width : Nat) → Nat → List UInt8
  | 0, _ => []
  | width + 1, n => UInt8.ofNat (n % 256) :: littleEndian width (n / 256)

/-- A length in as few bytes as it needs. -/
def writeLength (n : Nat) : List UInt8 :=
  if n < 251 then [UInt8.ofNat n]
  else if n < 2 ^ (16 : Nat) then 251 :: littleEndian 2 n
  else if n < 2 ^ (32 : Nat) then 252 :: littleEndian 4 n
  else 253 :: littleEndian 8 n

/-- A text: its length in bytes, and the bytes. -/
def writeText (text : String) : List UInt8 :=
  let bytes := text.toUTF8.toList
  writeLength bytes.length ++ bytes

/-- A field value: the number of its kind, and the value. -/
def writeValue : FieldValue → List UInt8
  | .flag value => writeLength 0 ++ [if value then 1 else 0]
  | .number value => writeLength 1 ++ littleEndian 8 value.bits.toNat
  | .text value => writeLength 2 ++ writeText value

def writeField (field : String × FieldValue) : List UInt8 :=
  writeText field.1 ++ writeValue field.2

/-- Fields: their number, and each name with its value. -/
def writeFields (fields : Fields) : List UInt8 :=
  writeLength fields.entries.length ++ fields.entries.flatMap writeField

mutual

def writeBlocks : List Block → List UInt8
  | [] => []
  | first :: rest => writeBlock first ++ writeBlocks rest

/-- A block: its components, and the number of its children before the children. -/
def writeBlock : Block → List UInt8
  | ⟨id, blockType, fields, children⟩ =>
      writeText id ++ writeText blockType ++ writeFields fields ++
        writeLength children.length ++ writeBlocks children

end

def writeBody (document : Document) : List UInt8 :=
  writeText document.space ++ writeText document.model ++
    writeLength document.diagram.blocks.length ++ writeBlocks document.diagram.blocks

def mark : List UInt8 :=
  "BLOCKLINK".toUTF8.toList

def version : Nat := 1

def writeDocument (document : Document) : List UInt8 :=
  mark ++ littleEndian 4 version ++ writeBody document

/-! ## Reading -/

/-- Takes a value from the front of the bytes and returns the bytes that are left. -/
abbrev Decoder (α : Type) := List UInt8 → Option (α × List UInt8)

def readBytes (count : Nat) : Decoder (List UInt8) := fun bytes =>
  if count ≤ bytes.length then some (bytes.take count, bytes.drop count) else none

/-- The number whose bytes are given, the lowest first. -/
def ofLittleEndian : List UInt8 → Nat
  | [] => 0
  | first :: rest => first.toNat + 256 * ofLittleEndian rest

def readFixed (width : Nat) : Decoder Nat := fun bytes => do
  let (number, rest) ← readBytes width bytes
  return (ofLittleEndian number, rest)

/-- A length, in as many bytes as the marker says and at most `widest`. -/
def readLength (widest : Nat) : Decoder Nat
  | [] => none
  | first :: rest =>
      if first < 251 then some (first.toNat, rest)
      else if first = 251 ∧ 2 ≤ widest then readFixed 2 rest
      else if first = 252 ∧ 4 ≤ widest then readFixed 4 rest
      else if first = 253 ∧ 8 ≤ widest then readFixed 8 rest
      else none

def readCount : Decoder Nat :=
  readLength 8

def readText : Decoder String := fun bytes => do
  let (length, rest) ← readCount bytes
  let (content, rest) ← readBytes length rest
  let text ← String.fromUTF8? content.toByteArray
  return (text, rest)

def readFlag : Decoder Bool
  | first :: rest =>
      if first = 0 then some (false, rest)
      else if first = 1 then some (true, rest)
      else none
  | [] => none

def readValue : Decoder FieldValue := fun bytes => do
  let (kind, rest) ← readLength 4 bytes
  match kind with
  | 0 =>
      let (value, rest) ← readFlag rest
      return (.flag value, rest)
  | 1 =>
      let (bits, rest) ← readFixed 8 rest
      return (.number ⟨UInt64.ofNat bits⟩, rest)
  | 2 =>
      let (value, rest) ← readText rest
      return (.text value, rest)
  | _ => none

def readEntries : (count : Nat) → Decoder (List (String × FieldValue))
  | 0, bytes => some ([], bytes)
  | count + 1, bytes => do
      let (name, rest) ← readText bytes
      let (value, rest) ← readValue rest
      let (more, rest) ← readEntries count rest
      return ((name, value) :: more, rest)

/-- Fields; a later value for a name replaces an earlier one. -/
def readFields : Decoder Fields := fun bytes => do
  let (count, rest) ← readCount bytes
  let (entries, rest) ← readEntries count rest
  return (Fields.ofList entries, rest)

/-- A given number of blocks; `fuel` is at least the number of bytes. -/
def readBlocks : (fuel count : Nat) → Decoder (List Block)
  | _, 0, bytes => some ([], bytes)
  | 0, _ + 1, _ => none
  | fuel + 1, count + 1, bytes => do
      let (id, rest) ← readText bytes
      let (blockType, rest) ← readText rest
      let (fields, rest) ← readFields rest
      let (inner, rest) ← readCount rest
      let (children, rest) ← readBlocks fuel inner rest
      let (more, rest) ← readBlocks fuel count rest
      return (⟨id, blockType, fields, children⟩ :: more, rest)

def readBody : Decoder Document := fun bytes => do
  let (space, rest) ← readText bytes
  let (model, rest) ← readText rest
  let (count, rest) ← readCount rest
  let (blocks, rest) ← readBlocks rest.length count rest
  return (⟨space, model, ⟨blocks⟩⟩, rest)

/-- The document that the bytes start with. -/
def readDocument (bytes : List UInt8) : Except Failure Document :=
  match readBytes mark.length bytes with
  | none => .error (.ofCause .cutShort)
  | some (found, rest) =>
      if found = mark then
        match readFixed 4 rest with
        | none => .error (.ofCause .cutShort)
        | some (number, rest) =>
            if number = version then
              match readBody rest with
              | some (document, _) => .ok document
              | none => .error (.ofCause .binary)
            else
              .error (.ofText ("Unsupported version: " ++ toString number))
      else
        .error (.ofText "Invalid magic bytes: expected 'BLOCKLINK'")

end RobotBlocks.Store
