import RobotBlocks.Numeric.Literal
import RobotBlocks.Toml.Text

/-!
# Numbers, dates and times

Whole numbers have sixty-four bits and a sign; with a base mark they have no sign.  Underscores
may stand between digits.  A date that is followed by a time is one moment with it.
-/

namespace RobotBlocks.Toml

open Numeric (digitsValue readReal)

/-! ## Digits -/

/-- The digits that follow a digit, each with or without an underscore before it. -/
def moreDigits (isDigit : Char → Bool) : List Char → List Char × List Char
  | [] => ([], [])
  | [last] => if isDigit last then ([last], []) else ([], [last])
  | first :: second :: rest =>
      if first = '_' then
        if isDigit second then
          let (digits, rest) := moreDigits isDigit rest
          (second :: digits, rest)
        else
          ([], first :: second :: rest)
      else if isDigit first then
        let (digits, rest) := moreDigits isDigit (second :: rest)
        (first :: digits, rest)
      else
        ([], first :: second :: rest)

/-- Digits, with single underscores between them. -/
def readDigits (isDigit : Char → Bool) : Reader (List Char)
  | [] => none
  | first :: rest =>
      if isDigit first then
        let (digits, rest) := moreDigits isDigit rest
        some (first :: digits, rest)
      else
        none

def readSign : List Char → List Char × List Char
  | '-' :: rest => (['-'], rest)
  | '+' :: rest => (['+'], rest)
  | text => ([], text)

/-- A sign and digits; a zero at the start is the only digit. -/
def readWhole : Reader (List Char) := fun text =>
  let (sign, rest) := readSign text
  match rest with
  | '0' :: rest => some (sign ++ ['0'], rest)
  | _ => (readDigits Char.isDigit rest).map fun (digits, rest) => (sign ++ digits, rest)

/-! ## Whole numbers -/

/-- A whole number, if it fits in sixty-four bits with a sign. -/
def integer? (negative : Bool) (magnitude : Nat) : Option Value :=
  if negative then
    if magnitude ≤ 2 ^ (63 : Nat) then some (.integer (-magnitude)) else none
  else
    if magnitude < 2 ^ (63 : Nat) then some (.integer magnitude) else none

def baseValue (base : Nat) (digits : List Char) : Nat :=
  digits.foldl (fun value digit => base * value + (hexValue? digit).getD 0) 0

def isBaseDigit (base : Nat) (c : Char) : Bool :=
  match hexValue? c with
  | some digit => digit < base
  | none => false

def readBase (base : Nat) : Reader Value := fun text => do
  let (digits, rest) ← readDigits (isBaseDigit base) text
  let value ← integer? false (baseValue base digits)
  return (value, rest)

def readInteger : Reader Value
  | '0' :: 'x' :: rest => readBase 16 rest
  | '0' :: 'o' :: rest => readBase 8 rest
  | '0' :: 'b' :: rest => readBase 2 rest
  | text => do
      let (written, rest) ← readWhole text
      let digits := written.filter Char.isDigit
      let value ← integer? (written.head? == some '-') (digitsValue 0 digits)
      return (value, rest)

/-! ## Real numbers -/

def readPower : Reader (List Char)
  | mark :: rest =>
      if mark = 'e' ∨ mark = 'E' then do
        let (sign, rest) := readSign rest
        let (digits, rest) ← readDigits Char.isDigit rest
        return ('e' :: (sign ++ digits), rest)
      else
        none
  | [] => none

def readPlaces : Reader (List Char)
  | '.' :: rest => do
      let (digits, rest) ← readDigits Char.isDigit rest
      match readPower rest with
      | some (power, rest) => return ('.' :: (digits ++ power), rest)
      | none => return ('.' :: digits, rest)
  | _ => none

/-- A number with decimal places or a power of ten; it may not be too large. -/
def readDecimal : Reader Value := fun text => do
  let (whole, rest) ← readWhole text
  let (fraction, rest) ← readPower rest <|> readPlaces rest
  let value ← readReal (whole ++ fraction)
  if value = .ofMagnitude false Binary64.infinityMagnitude then
    none
  else
    return (.real value, rest)

/-- One of the words for what is no finite number, with a sign or without. -/
def readSpecial : Reader Value := fun text => do
  let (sign, rest) := readSign text
  let word := rest.take 3
  if word = ['i', 'n', 'f'] ∨ word = ['n', 'a', 'n'] then
    let value ← readReal (sign ++ word)
    return (.real value, rest.drop 3)
  else
    none

/-! ## Dates and times -/

def readPart (width : Nat) : Reader Nat := fun text =>
  let digits := text.take width
  if digits.length = width ∧ digits.all Char.isDigit then
    some (digitsValue 0 digits, text.drop width)
  else
    none

def readMark (c : Char) : Reader Unit
  | first :: rest => if first = c then some ((), rest) else none
  | [] => none

def daysIn (year month : Nat) : Nat :=
  if month = 2 then
    if year % 4 = 0 ∧ (year % 100 ≠ 0 ∨ year % 400 = 0) then 29 else 28
  else if month = 4 ∨ month = 6 ∨ month = 9 ∨ month = 11 then 30
  else 31

def readDate : Reader Unit := fun text => do
  let (year, rest) ← readPart 4 text
  let (_, rest) ← readMark '-' rest
  let (month, rest) ← readPart 2 rest
  let (_, rest) ← readMark '-' rest
  let (day, rest) ← readPart 2 rest
  if 1 ≤ month ∧ month ≤ 12 ∧ 1 ≤ day ∧ day ≤ daysIn year month then
    return ((), rest)
  else
    none

def readHourMinute : Reader Unit := fun text => do
  let (hour, rest) ← readPart 2 text
  let (_, rest) ← readMark ':' rest
  let (minute, rest) ← readPart 2 rest
  if hour < 24 ∧ minute < 60 then return ((), rest) else none

/-- A time of day; a leap second is possible. -/
def readTime : Reader Unit := fun text => do
  let (_, rest) ← readHourMinute text
  let (_, rest) ← readMark ':' rest
  let (second, rest) ← readPart 2 rest
  if second ≤ 60 then
    match rest with
    | '.' :: digit :: more =>
        if digit.isDigit then return ((), more.dropWhile Char.isDigit) else return ((), rest)
    | _ => return ((), rest)
  else
    none

def skipOffset (text : List Char) : List Char :=
  match text with
  | 'Z' :: rest | 'z' :: rest => rest
  | '+' :: rest | '-' :: rest =>
      match readHourMinute rest with
      | some (_, rest) => rest
      | none => text
  | _ => text

def skipTime (text : List Char) : List Char :=
  match text with
  | 'T' :: rest | 't' :: rest | ' ' :: rest =>
      match readTime rest with
      | some (_, rest) => skipOffset rest
      | none => text
  | _ => text

def readMoment : Reader Value := fun text => do
  let rest ← ((readDate text).map fun (_, rest) => skipTime rest) <|>
    ((readTime text).map Prod.snd)
  return (.moment (String.ofList (text.take (text.length - rest.length))), rest)

/-! ## Scalars -/

def readWord (word : List Char) (value : Value) : Reader Value := fun text =>
  if word.isPrefixOf text then some (value, text.drop word.length) else none

def readScalar : Reader Value
  | [] => none
  | first :: rest =>
      let text := first :: rest
      if first = '"' then (readQuoted '"' true text).map fun (value, rest) => (.text value, rest)
      else if first = '\'' then
        (readQuoted '\'' false text).map fun (value, rest) => (.text value, rest)
      else if first = 't' then readWord ['t', 'r', 'u', 'e'] (.boolean true) text
      else if first = 'f' then readWord ['f', 'a', 'l', 's', 'e'] (.boolean false) text
      else readMoment text <|> readDecimal text <|> readSpecial text <|> readInteger text

end RobotBlocks.Toml
