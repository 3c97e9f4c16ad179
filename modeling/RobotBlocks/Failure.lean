import RobotBlocks.Catalog.Entry

/-!
# Failures

A failure has a cause and a list of contexts that say what was being done when it came up, the
outermost first.  Its wording is the contexts and the cause, joined by colons.
-/

namespace RobotBlocks

/-- What the system refuses to do with a file. -/
inductive FileError where
  | notFound
  | notDirectory
  | isDirectory
  | alreadyExists
  | nameTooLong
  | invalidPath
  | denied
  | notText
deriving DecidableEq, Inhabited

def FileError.word : FileError → String
  | .notFound => "NotFound"
  | .notDirectory => "NotADirectory"
  | .isDirectory => "IsADirectory"
  | .alreadyExists => "AlreadyExists"
  | .nameTooLong => "InvalidFilename"
  | .invalidPath => "InvalidInput"
  | .denied => "PermissionDenied"
  | .notText => "InvalidData"

/-- What is at the bottom of a failure. -/
inductive Cause where
  /-- A rule of this library, in its own words. -/
  | text (message : String)
  /-- A document that does not have the form it should have. -/
  | document
  /-- A catalog entry that is refused. -/
  | entry (error : Catalog.EntryError)
  /-- A binary document whose body is not valid. -/
  | binary
  /-- Bytes that end before they should. -/
  | cutShort
  /-- A configuration text that is not valid. -/
  | settings
  /-- A configuration that has no text. -/
  | settingsRange
  /-- A file that cannot be used. -/
  | file (error : FileError)

def Cause.message : Cause → String
  | .text message => message
  | .document => "InvalidJson"
  | .entry error => error.message
  | .binary => "InvalidBinary"
  | .cutShort => "Io:UnexpectedEof"
  | .settings => "InvalidToml"
  | .settingsRange => "TomlWrite"
  | .file error => "Io:" ++ error.word

/-- A cause with its contexts, the outermost first. -/
structure Failure where
  contexts : List String := []
  cause : Cause

namespace Failure

def ofCause (cause : Cause) : Failure :=
  { cause }

/-- A failure in the words of this library. -/
def ofText (message : String) : Failure :=
  { cause := .text message }

def ofFault : Json.Fault Catalog.EntryError → Failure
  | .malformed => { cause := .document }
  | .rejected error => { cause := .entry error }

def within (failure : Failure) (context : String) : Failure :=
  { failure with contexts := context :: failure.contexts }

/-- The failure of something that is done with the file or directory of the given name. -/
def ofFile (doing path : String) (problem : FileError) : Failure :=
  { contexts := [doing ++ " " ++ path], cause := .file problem }

/-- The contexts and the cause, joined by colons. -/
def message (failure : Failure) : String :=
  String.intercalate ": " (failure.contexts ++ [failure.cause.message])

/-- The outermost context, or the cause if there is none. -/
def headline (failure : Failure) : String :=
  failure.contexts.headD failure.cause.message

end Failure

def inContext {α : Type} (context : String) : Except Failure α → Except Failure α
  | .ok value => .ok value
  | .error failure => .error (failure.within context)

end RobotBlocks
