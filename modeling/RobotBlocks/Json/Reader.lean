import RobotBlocks.Json.Value

/-!
# Reading documents

A reader takes what it needs from the front of the tokens and leaves the rest.  Readers run from
front to back and stop at the first problem, so a value that is refused for its meaning is
reported before anything that is wrong further on.

Arrays and objects may nest only so deep.  The readers for containers do not count levels
themselves: whoever uses one inside another passes on one level less.  Values that are skipped may
nest as they like.
-/

namespace RobotBlocks.Json

/-- Why a document is refused: it has the wrong form, or a value in it is not acceptable. -/
inductive Fault (ε : Type) where
  | malformed
  | rejected (reason : ε)
deriving DecidableEq

/-- Takes a value from the front of the tokens and returns the tokens that are left. -/
abbrev Reader (ε α : Type) := List Token → Except (Fault ε) (α × List Token)

/-- How many arrays and objects of a document may be open at once. -/
def nestingLimit : Nat := 127

namespace Reader

variable {ε α β δ : Type}

def refuse : Reader ε α :=
  fun _ => .error .malformed

def map (f : α → β) (reader : Reader ε α) : Reader ε β := fun tokens => do
  let (value, rest) ← reader tokens
  return (f value, rest)

/-- The value read, refused as malformed where the function has no result. -/
def filterMap (f : α → Option β) (reader : Reader ε α) : Reader ε β := fun tokens => do
  let (value, rest) ← reader tokens
  match f value with
  | some result => return (result, rest)
  | none => .error .malformed

/-- The value read, checked by a function that gives its reason for a refusal. -/
def check (f : α → Except ε β) (reader : Reader ε α) : Reader ε β := fun tokens => do
  let (value, rest) ← reader tokens
  match f value with
  | .ok result => return (result, rest)
  | .error reason => .error (.rejected reason)

def boolean : Reader ε Bool
  | .boolean value :: rest => .ok (value, rest)
  | _ => .error .malformed

def text : Reader ε String
  | .text pieces :: rest =>
      match textOf? pieces with
      | some value => .ok (value, rest)
      | none => .error .malformed
  | _ => .error .malformed

/-- A number, rounded to the nearest finite one. -/
def real : Reader ε Binary64
  | .number numeral :: rest =>
      match numeral.toReal? with
      | some value => .ok (value, rest)
      | none => .error .malformed
  | _ => .error .malformed

/-- A count of at most thirty-two bits. -/
def count : Reader ε UInt32
  | .number numeral :: rest =>
      match numeral.toCount? with
      | some value => .ok (value, rest)
      | none => .error .malformed
  | _ => .error .malformed

def null : Reader ε Unit
  | .null :: rest => .ok ((), rest)
  | _ => .error .malformed

def optional (reader : Reader ε α) : Reader ε (Option α)
  | .null :: rest => .ok (none, rest)
  | tokens => reader.map some tokens

/-- Elements and the bracket after them; `fuel` is at least the number of elements. -/
def elements (reader : Reader ε α) : (fuel : Nat) → Reader ε (List α)
  | 0, _ => .error .malformed
  | fuel + 1, tokens => do
      let (first, rest) ← reader tokens
      match rest with
      | .arrayClose :: rest => return ([first], rest)
      | .comma :: rest =>
          let (more, rest) ← elements reader fuel rest
          return (first :: more, rest)
      | _ => .error .malformed

def array (reader : Reader ε α) : Reader ε (List α)
  | .arrayOpen :: .arrayClose :: rest => .ok ([], rest)
  | .arrayOpen :: rest => elements reader rest.length rest
  | _ => .error .malformed

/-- Members and the brace after them; `fuel` is at least the number of members. -/
def members (reader : Reader ε α) : (fuel : Nat) → Reader ε (List (String × α))
  | fuel + 1, .text pieces :: .colon :: rest => do
      match textOf? pieces with
      | none => .error .malformed
      | some name =>
          let (first, rest) ← reader rest
          match rest with
          | .objectClose :: rest => return ([(name, first)], rest)
          | .comma :: rest =>
              let (more, rest) ← members reader fuel rest
              return ((name, first) :: more, rest)
          | _ => .error .malformed
  | _, _ => .error .malformed

def object (reader : Reader ε α) : Reader ε (List (String × α))
  | .objectOpen :: .objectClose :: rest => .ok ([], rest)
  | .objectOpen :: rest => members reader rest.length rest
  | _ => .error .malformed

/-! ## Skipping -/

inductive Bracket where
  | array
  | object
deriving DecidableEq

/-- What may come next in a value that is skipped. -/
inductive Expected where
  | value
  | valueOrClose
  | key
  | keyOrClose
  | colon
  | commaOrClose
deriving DecidableEq

/-- What may come after a value inside the given open containers; nothing if it was the last. -/
def afterValue (opened : List Bracket) : List Bracket × Option Expected :=
  (opened, if opened.isEmpty then none else some .commaOrClose)

def skipStep (opened : List Bracket) : Expected → Token →
    Option (List Bracket × Option Expected)
  | .value, .null | .value, .boolean _ | .value, .number _ | .value, .text _
  | .valueOrClose, .null | .valueOrClose, .boolean _ | .valueOrClose, .number _
  | .valueOrClose, .text _ => some (afterValue opened)
  | .value, .arrayOpen | .valueOrClose, .arrayOpen => some (.array :: opened, some .valueOrClose)
  | .value, .objectOpen | .valueOrClose, .objectOpen => some (.object :: opened, some .keyOrClose)
  | .valueOrClose, .arrayClose => some (afterValue opened.tail)
  | .keyOrClose, .objectClose => some (afterValue opened.tail)
  | .key, .text _ | .keyOrClose, .text _ => some (opened, some .colon)
  | .colon, .colon => some (opened, some .value)
  | .commaOrClose, token =>
      match opened, token with
      | .array :: _, .comma => some (opened, some .value)
      | .object :: _, .comma => some (opened, some .key)
      | .array :: outer, .arrayClose => some (afterValue outer)
      | .object :: outer, .objectClose => some (afterValue outer)
      | _, _ => none
  | _, _ => none

def skipFrom (opened : List Bracket) (expected : Expected) : Reader ε Unit
  | [] => .error .malformed
  | token :: rest =>
      match skipStep opened expected token with
      | none => .error .malformed
      | some (_, none) => .ok ((), rest)
      | some (outer, some next) => skipFrom outer next rest

def skip : Reader ε Unit :=
  skipFrom [] .value

/-! ## Records -/

/-- A field of a record that is being read into a draft. -/
structure Slot (ε δ : Type) where
  name : String
  /-- Whether the draft already has the field. -/
  filled : δ → Bool
  /-- Reads the value of the field into the draft. -/
  fill : δ → Reader ε δ

def slot (name : String) (reader : Reader ε α) (get : δ → Option α) (set : δ → α → δ) :
    Slot ε δ :=
  { name, filled := fun draft => (get draft).isSome, fill := fun draft => reader.map (set draft) }

/-- One member of a record: a field that is not there yet, or a value to skip. -/
def member (slots : List (Slot ε δ)) (name : String) (draft : δ) : Reader ε δ :=
  match slots.find? fun slot => slot.name == name with
  | some slot => if slot.filled draft then refuse else slot.fill draft
  | none => skip.map fun _ => draft

/-- Members of a record and the brace after them; `fuel` is at least their number. -/
def recordMembers (slots : List (Slot ε δ)) : (fuel : Nat) → δ → Reader ε δ
  | fuel + 1, draft, .text pieces :: .colon :: rest => do
      match textOf? pieces with
      | none => .error .malformed
      | some name =>
          let (draft, rest) ← member slots name draft rest
          match rest with
          | .objectClose :: rest => return (draft, rest)
          | .comma :: rest => recordMembers slots fuel draft rest
          | _ => .error .malformed
  | _, _, _ => .error .malformed

/-- Fields of a record in their order, each after a comma, and the bracket after them. -/
def positionsAfter : List (Slot ε δ) → δ → Reader ε δ
  | _, draft, .arrayClose :: rest => .ok (draft, rest)
  | slot :: slots, draft, .comma :: rest => do
      let (draft, rest) ← slot.fill draft rest
      positionsAfter slots draft rest
  | _, _, _ => .error .malformed

/-- A record, as an object with named fields or as an array of its fields in their order. -/
def record (slots : List (Slot ε δ)) (draft : δ) : Reader ε δ
  | .objectOpen :: .objectClose :: rest => .ok (draft, rest)
  | .objectOpen :: rest => recordMembers slots rest.length draft rest
  | .arrayOpen :: .arrayClose :: rest => .ok (draft, rest)
  | .arrayOpen :: rest =>
      match slots with
      | slot :: slots => do
          let (draft, rest) ← slot.fill draft rest
          positionsAfter slots draft rest
      | [] => .error .malformed
  | _ => .error .malformed

/-! ## Alternatives -/

/-- An object with one member, whose name says what its value is. -/
def tagged (payload : String → Reader ε α) : Reader ε α
  | .objectOpen :: .text pieces :: .colon :: rest =>
      match textOf? pieces with
      | none => .error .malformed
      | some name => do
          let (value, rest) ← payload name rest
          match rest with
          | .objectClose :: rest => return (value, rest)
          | _ => .error .malformed
  | _ => .error .malformed

/-- One of several names, as a text or as an object whose one member is null. -/
def oneOf (choose : String → Option α) : Reader ε α
  | .text pieces :: rest => (text.filterMap choose) (.text pieces :: rest)
  | tokens =>
      tagged (fun name => (null.map fun _ => name).filterMap choose) tokens

/-! ## Whole documents -/

/-- A value without structure. -/
def scalar : Reader ε Value
  | .null :: rest => .ok (.null, rest)
  | .boolean value :: rest => .ok (.boolean value, rest)
  | .number numeral :: rest =>
      match numeral.toNumber? with
      | some value => .ok (.number value, rest)
      | none => .error .malformed
  | .text pieces :: rest => (text.map .text) (.text pieces :: rest)
  | _ => .error .malformed

/-- Any value that opens at most `depth` arrays and objects at once. -/
def value : (depth : Nat) → Reader ε Value
  | 0 => scalar
  | depth + 1 => fun tokens =>
      match tokens with
      | .arrayOpen :: _ => (array (value depth)).map .array tokens
      | .objectOpen :: _ => (object (value depth)).map .object tokens
      | _ => scalar tokens

/-- Reads a document that holds one value and nothing else. -/
def run (reader : Reader ε α) (bytes : List UInt8) : Except (Fault ε) α := do
  let (value, rest) ← reader (tokens bytes)
  if rest.isEmpty then return value else .error .malformed

end Reader

end RobotBlocks.Json
