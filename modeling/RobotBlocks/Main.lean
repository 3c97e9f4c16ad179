import RobotBlocks.CommandLine.Run

/-!
# The program

Reads the files that a call names, runs the call and prints what it ends with.
-/

namespace RobotBlocks.CommandLine

/-- The number by which the system says that what is read is a directory. -/
def isDirectoryCode : UInt32 := 21

/-- The bytes of a file, or why it cannot be read. -/
def readPath (path : String) : IO (Except FileError (List UInt8)) := do
  try
    let bytes ← IO.FS.readBinFile path
    return .ok bytes.toList
  catch
    | .permissionDenied .. => return .error .denied
    | .inappropriateType _ code _ =>
        return .error (if code = isDirectoryCode then .isDirectory else .notDirectory)
    | .invalidArgument .. => return .error .nameTooLong
    | _ => return .error .notFound

def readPaths : List String → IO (List (String × Except FileError (List UInt8)))
  | [] => return []
  | path :: rest => do
      let content ← readPath path
      let more ← readPaths rest
      return (path, content) :: more

def findFile (contents : List (String × Except FileError (List UInt8))) : Files := fun path =>
  match contents.find? fun file => file.1 == path with
  | some (_, content) => content
  | none => .error .notFound

end RobotBlocks.CommandLine

open RobotBlocks RobotBlocks.CommandLine in
def main (args : List String) : IO UInt32 := do
  let invocation? := Invocation.ofArguments? args
  let contents ← readPaths ((invocation?.map Invocation.paths).getD [])
  let result := outcome (findFile contents) invocation?
  IO.print result.output
  match result.failure with
  | some failure => IO.eprintln ("Error: " ++ failure.message)
  | none =>
      if result.code = 2 then
        IO.eprintln "usage: [--config FILE] palette | compile | preview [options]"
  return result.code
