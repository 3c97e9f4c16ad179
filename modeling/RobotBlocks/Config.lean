import RobotBlocks.Failure
import RobotBlocks.Numeric.Layout
import RobotBlocks.Sandbox.Run
import RobotBlocks.Store.FileTree
import RobotBlocks.Store.Library
import RobotBlocks.Toml.Printer
import RobotBlocks.Toml.Reader

/-!
# Configuration

A configuration limits dispatching and the sandbox, and says where and how diagrams are stored.
It is read from a settings text with three sections.  What a text leaves out has its default, and
names that are not known are passed over.
-/

namespace RobotBlocks

structure Config where
  /-- How many robots one request sends to at the same time. -/
  maxConcurrency : UInt64 := 8
  /-- How many statements one run executes. -/
  maxSteps : UInt64 := 10000
  /-- How often a loop repeats. -/
  maxRepeat : UInt32 := 1000
  /-- How deep loops nest. -/
  maxDepth : UInt64 := 32
  /-- The directory of the stored diagrams. -/
  root : String := "diagrams"
  /-- How diagrams are stored. -/
  format : Format := .json
deriving DecidableEq, Inhabited

def Format.word : Format → String
  | .json => "json"
  | .binary => "binary"

def Format.ofWord? (text : String) : Option Format :=
  [Format.json, .binary].find? fun format => format.word == text

namespace Config

open Toml (Value)

def limits (config : Config) : Sandbox.Limits where
  maxSteps := config.maxSteps.toNat
  maxRepeat := config.maxRepeat.toNat
  maxDepth := config.maxDepth.toNat

/-! ## Reading -/

/--
The named values of a section.  An array gives the fields their values in their order, and a
moment is a section that leaves everything out.
-/
def section? (names : List String) : Value → Option (List (String × Value))
  | .table entries => some entries
  | .array elements => some (names.zip elements)
  | .moment _ => some []
  | _ => none

/-- A whole number that is not below zero. -/
def count? : Value → Option UInt64
  | .integer value => if 0 ≤ value then some (UInt64.ofNat value.toNat) else none
  | _ => none

def count32? : Value → Option UInt32
  | .integer value =>
      if 0 ≤ value ∧ value < 2 ^ (32 : Nat) then some (UInt32.ofNat value.toNat) else none
  | _ => none

def text? : Value → Option String
  | .text value => some value
  | _ => none

/-- A format, by its word or as a table with the word as its name and nothing in it. -/
def format? : Value → Option Format
  | .text word => Format.ofWord? word
  | .table [(word, .table [])] => Format.ofWord? word
  | .table [(word, .array [])] => Format.ofWord? word
  | _ => none

/-- The value of a field, or the default if it is left out. -/
def field? {α : Type} (read : Value → Option α) (default : α) (name : String)
    (entries : List (String × Value)) : Option α :=
  match Toml.lookup name entries with
  | none => some default
  | some value => read value

/-- The values of a section; a section that is left out leaves everything out. -/
def entries? (name : String) (names : List String) (sections : List (String × Value)) :
    Option (List (String × Value)) :=
  field? (section? names) [] name sections

def ofSections? (sections : List (String × Value)) : Option Config := do
  let usual : Config := {}
  let dispatch ← entries? "dispatch" ["max_concurrency"] sections
  let sandbox ← entries? "sandbox" ["max_steps", "max_repeat", "max_depth"] sections
  let store ← entries? "store" ["root", "format"] sections
  return {
    maxConcurrency := ← field? count? usual.maxConcurrency "max_concurrency" dispatch
    maxSteps := ← field? count? usual.maxSteps "max_steps" sandbox
    maxRepeat := ← field? count32? usual.maxRepeat "max_repeat" sandbox
    maxDepth := ← field? count? usual.maxDepth "max_depth" sandbox
    root := ← field? text? usual.root "root" store
    format := ← field? format? usual.format "format" store }

/-- The configuration, if it lets a request and a run do anything. -/
def validate (config : Config) : Except Failure Config :=
  if config.maxConcurrency = 0 then
    .error (.ofText "dispatch.max_concurrency must be at least 1")
  else if config.maxSteps = 0 then
    .error (.ofText "sandbox.max_steps must be at least 1")
  else
    .ok config

def ofText (text : String) : Except Failure Config :=
  match (Toml.read text).bind ofSections? with
  | some config => config.validate
  | none => inContext "Failed to parse configuration" (.error (.ofCause .settings))

/-! ## Writing -/

/-- A count, if it fits in sixty-four bits with a sign. -/
def countText? (count : UInt64) : Option (List Char) :=
  if count.toNat < 2 ^ (63 : Nat) then some (Binary64.digitChars count.toNat) else none

def toText? (config : Config) : Option String := do
  let concurrency ← countText? config.maxConcurrency
  let steps ← countText? config.maxSteps
  let depth ← countText? config.maxDepth
  return String.ofList (
    Toml.printHeader "dispatch" ++
    Toml.printEntry "max_concurrency" concurrency ++ ['\n'] ++
    Toml.printHeader "sandbox" ++
    Toml.printEntry "max_steps" steps ++
    Toml.printEntry "max_repeat" (Binary64.digitChars config.maxRepeat.toNat) ++
    Toml.printEntry "max_depth" depth ++ ['\n'] ++
    Toml.printHeader "store" ++
    Toml.printEntry "root" (Toml.printText config.root.toList) ++
    Toml.printEntry "format" (Toml.printText config.format.word.toList))

/-! ## Files -/

def fileText (path : String) (content : Except FileError (List UInt8)) :
    Except Failure String :=
  match content with
  | .error problem => .error (.ofFile "Failed to read" path problem)
  | .ok bytes =>
      match String.fromUTF8? bytes.toByteArray with
      | some text => .ok text
      | none => .error (.ofFile "Failed to read" path .notText)

/-- The configuration of a file; where nothing can be found at the path, everything is left out. -/
def ofFile (path : String) (content : Except FileError (List UInt8)) : Except Failure Config :=
  match content with
  | .error .notFound | .error .notDirectory | .error .nameTooLong | .error .invalidPath => .ok {}
  | content => do
      let text ← fileText path content
      inContext ("Invalid configuration in " ++ path) (ofText text)

def load (path : String) (tree : Store.FileTree) : Except Failure Config :=
  ofFile path (tree.bytesAt (Store.Path.ofText path))

/-- Saves a configuration at a path, creating directories on the way. -/
def save (config : Config) (path : String) (tree : Store.FileTree) :
    Except Failure Unit × Store.FileTree :=
  match config.toText? with
  | none => (.error (.ofCause .settingsRange), tree)
  | some text => tree.save (Store.Path.ofText path) text.toUTF8.toList

end Config

end RobotBlocks
