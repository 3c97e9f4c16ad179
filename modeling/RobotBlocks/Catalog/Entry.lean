import RobotBlocks.Json.Printer
import RobotBlocks.Json.Reader
import RobotBlocks.Numeric.Literal
import RobotBlocks.Text.Blank
import RobotBlocks.Text.Shown

/-!
# Catalog entries

An entry is one named, timed thing that a device model can do.  A feed gives it as a record or as
a tuple of code, name, duration, interrupt flag and icon, of which all but the code may be left
out at the end.  Tuples are read leniently: numbers and flags may be texts, and a code may be a
number.  An entry always has a code that is not blank.
-/

namespace RobotBlocks.Catalog

open Json (Value Number Reader)

/-- One entry of a device model's catalog. -/
structure Entry where
  code : String
  name : String
  duration : UInt32
  interruptible : Bool
  icon : Option String
deriving DecidableEq, Inhabited

inductive EntryError where
  | missingCode
  | nameNotText (code : String) (value : Value)
  | durationOutOfRange (code : String) (value : Number)
  | durationNotNumber (code text : String)
  | durationOtherForm (code : String) (value : Value)
  | flagNotUnderstood (code text : String)
  | flagOtherForm (code : String) (value : Value)

def entryMessage (code problem : String) : String :=
  "catalog entry `" ++ code ++ "`: " ++ problem

def EntryError.message : EntryError → String
  | .missingCode => "catalog entry has no code"
  | .nameNotText code value =>
      entryMessage code ("name must be a string, got " ++ value.shown)
  | .durationOutOfRange code value =>
      entryMessage code ("duration out of range: " ++ (Value.number value).shown)
  | .durationNotNumber code text =>
      entryMessage code ("duration is not a number: " ++ Text.shown text)
  | .durationOtherForm code value =>
      entryMessage code ("duration must be a number, got " ++ value.shown)
  | .flagNotUnderstood code text =>
      entryMessage code ("interrupt flag not understood: " ++ Text.shown text)
  | .flagOtherForm code value =>
      entryMessage code ("interrupt flag must be a bool, got " ++ value.shown)

/-! ## Tuples -/

/-- The code at the start of a tuple: a text that is not blank, or a number as it is printed. -/
def tupleCode : List Value → Except EntryError String
  | .text text :: _ => if Text.isAllBlank text then .error .missingCode else .ok text
  | .number number :: _ => .ok (Value.number number).toText
  | _ => .error .missingCode

/-- The name of a tuple; the code serves if there is none. -/
def tupleName (code : String) : Option Value → Except EntryError String
  | some (.text text) => .ok text
  | some .null | none => .ok code
  | some other => .error (.nameNotText code other)

/-- The duration of a tuple: none is zero, a number is rounded, a text holds a count. -/
def tupleDuration (code : String) : Option Value → Except EntryError UInt32
  | some .null | none => .ok 0
  | some (.number number) =>
      match number.toReal.roundToCount? with
      | some count => .ok count
      | none => .error (.durationOutOfRange code number)
  | some (.text text) =>
      match Numeric.readCount32 (Text.trim text.toList) with
      | some count => .ok count
      | none => .error (.durationNotNumber code text)
  | some other => .error (.durationOtherForm code other)

/-- The interrupt flag of a tuple: none is set, a number is set unless it is zero. -/
def tupleFlag (code : String) : Option Value → Except EntryError Bool
  | some .null | none => .ok true
  | some (.boolean flag) => .ok flag
  | some (.number number) => .ok (!number.toReal.isZero)
  | some (.text text) =>
      let word := String.ofList (Text.trim text.toList)
      if word = "1" ∨ word = "true" then .ok true
      else if word = "0" ∨ word = "false" then .ok false
      else .error (.flagNotUnderstood code text)
  | some other => .error (.flagOtherForm code other)

/-- The icon of a tuple: a text that is not empty. -/
def tupleIcon : Option Value → Option String
  | some (.text text) => if text.isEmpty then none else some text
  | _ => none

namespace Entry

/-- The entry that a tuple describes; what follows the icon is not looked at. -/
def ofTuple (values : List Value) : Except EntryError Entry := do
  let code ← tupleCode values
  let name ← tupleName code values[1]?
  let duration ← tupleDuration code values[2]?
  let interruptible ← tupleFlag code values[3]?
  return { code, name, duration, interruptible, icon := tupleIcon values[4]? }

/-! ## Records -/

/-- The member of the given name, if there is one; nothing if there are several. -/
def single (name : String) (members : List (String × Value)) : Option (Option Value) :=
  match members.filter fun member => member.1 == name with
  | [] => some none
  | [(_, value)] => some (some value)
  | _ => none

def textOf? : Value → Option String
  | .text text => some text
  | _ => none

/-- A whole number of thirty-two bits. -/
def countOf? : Value → Option UInt32
  | .number (.natural n) => if n < 2 ^ (32 : Nat) then some (UInt32.ofNat n) else none
  | _ => none

def flagOf? : Value → Option Bool
  | .boolean flag => some flag
  | _ => none

/-- A text or null. -/
def iconOf? : Value → Option (Option String)
  | .null => some none
  | .text text => some (some text)
  | _ => none

def required {α : Type} (get : Value → Option α) (members : List (String × Value))
    (name : String) : Option α :=
  (single name members).bind fun found => found.bind get

def withDefault {α : Type} (default : α) (get : Value → Option α)
    (members : List (String × Value)) (name : String) : Option α :=
  (single name members).bind fun
    | none => some default
    | some value => get value

/-- The entry that a record has the form of; names that are not known are passed over. -/
def ofMembers? (members : List (String × Value)) : Option Entry := do
  let code ← required textOf? members "code"
  let name ← required textOf? members "name"
  let duration ← withDefault 0 countOf? members "duration_seconds"
  let interruptible ← withDefault true flagOf? members "can_interrupt"
  let icon ← withDefault none iconOf? members "icon"
  return { code, name, duration, interruptible, icon }

/-- The entry that a value describes; `none` if it has neither form. -/
def ofValue? : Value → Option (Except EntryError Entry)
  | .array values => some (ofTuple values)
  | .object members =>
      (ofMembers? members).map fun entry =>
        if Text.isAllBlank entry.code then .error .missingCode else .ok entry
  | _ => none

def reader (depth : Nat) : Reader EntryError Entry :=
  ((Reader.value depth).filterMap ofValue?).check id

def toJson (entry : Entry) : Value :=
  .object [
    ("code", .text entry.code),
    ("name", .text entry.name),
    ("duration_seconds", .number (.natural entry.duration.toNat)),
    ("can_interrupt", .boolean entry.interruptible),
    ("icon", match entry.icon with | some icon => .text icon | none => .null)]

end Entry

end RobotBlocks.Catalog
