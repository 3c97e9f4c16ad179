import RobotBlocks.CommandLine.Arguments
import RobotBlocks.Config
import RobotBlocks.Program.Session

/-!
# Running a call

A call reads its files, does its task and prints the result.  Wrong usage ends it with the code
two before anything is read, and a failure ends it with the code one and prints nothing.
-/

namespace RobotBlocks.CommandLine

/-- What is at a path, or why it cannot be read. -/
abbrev Files := String → Except FileError (List UInt8)

structure Outcome where
  code : UInt32
  output : String
  failure : Option Failure

def loadRegistry (files : Files) (invocation : Invocation) : Except Failure Registry := do
  let text ← Config.fileText invocation.catalog (files invocation.catalog)
  let feed ← inContext ("Invalid catalog " ++ invocation.catalog) (Catalog.Feed.load text)
  return (({} : Registry).register invocation.model feed).2

def loadDiagram (files : Files) (path : String) : Except Failure Diagram := do
  let text ← Config.fileText path (files path)
  match Diagram.ofText? text with
  | some diagram => return diagram
  | none => inContext ("Invalid diagram " ++ path) (.error (.ofCause .document))

def loadProgram (files : Files) (invocation : Invocation) (path serial : String) :
    Except Failure Program := do
  let registry ← loadRegistry files invocation
  let diagram ← loadDiagram files path
  let session : Session := { model := some invocation.model, serial }
  match (session.compile registry diagram).1 with
  | .ok program => return program
  | .error error => .error (.ofText error.message)

def line (parts : List String) : String :=
  String.join parts ++ "\n"

/-- The palette, a line per category and per block. -/
def printPalette (registry : Registry) : String :=
  String.join (registry.palette.map fun category =>
    line [category.name, ":"] ++ String.join (category.definitions.map fun definition =>
      line ["  ", definition.blockType, "\t", definition.displayName]))

/-- The blocks that contain a query, a line each. -/
def printMatches (registry : Registry) (query : String) : String :=
  String.join ((registry.search query).map fun definition =>
    line [definition.category, "\t", definition.blockType, "\t", definition.displayName])

/-- The messages of a run and how long it takes. -/
def printReport (report : Report) : String :=
  String.join (report.log.map fun message => line ["log: ", message]) ++
    line ["estimated duration: ", String.ofList report.seconds.tenths, "s"]

def acceptAll : Sandbox.Hook Unit :=
  fun _ world => .reply .accepted world

def perform (files : Files) (invocation : Invocation) : Except Failure String := do
  let config ← Config.ofFile invocation.config (files invocation.config)
  match invocation.task with
  | .palette query =>
      let registry ← loadRegistry files invocation
      match query with
      | some query => return printMatches registry query
      | none => return printPalette registry
  | .compile diagram serial =>
      let program ← loadProgram files invocation diagram serial
      return program.code
  | .preview diagram serial =>
      let program ← loadProgram files invocation diagram serial
      match (Sandbox.run config.limits acceptAll program.code { world := () }).1 with
      | .ok report => return printReport report
      | .error error => .error (.ofText error.message)

/-- What a call ends with, where `none` stands for wrong usage. -/
def outcome (files : Files) : Option Invocation → Outcome
  | none => { code := 2, output := "", failure := none }
  | some invocation =>
      match perform files invocation with
      | .ok output => { code := 0, output, failure := none }
      | .error failure => { code := 1, output := "", failure := some failure }

def run (files : Files) (args : List String) : Outcome :=
  outcome files (Invocation.ofArguments? args)

end RobotBlocks.CommandLine
