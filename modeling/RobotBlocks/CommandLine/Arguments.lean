/-!
# Command line arguments

A call names a subcommand and its options.  Every option takes one value, given as the next
argument or after an equals sign.  Options of the program stand before the subcommand and options
of the subcommand after it; none may be given twice.
-/

namespace RobotBlocks.CommandLine

/-- What a call does with the catalog of a model. -/
inductive Task where
  /-- Lists the palette, or the blocks of it that contain a query. -/
  | palette (query : Option String)
  /-- Prints the script of a diagram for one robot. -/
  | compile (diagram serial : String)
  /-- Runs a diagram without a robot. -/
  | preview (diagram serial : String)
deriving DecidableEq, Inhabited

/-- A call: files by path, the model, and what to do. -/
structure Invocation where
  config : String
  catalog : String
  model : String
  task : Task
deriving DecidableEq, Inhabited

abbrev Options := List (String × String)

/-- The name of an option argument, and its value if one follows an equals sign. -/
def splitOption (arg : String) : String × Option String :=
  let chars := arg.toList
  let name := String.ofList (chars.takeWhile (· != '='))
  match chars.dropWhile (· != '=') with
  | [] => (name, none)
  | _ :: value => (name, some (String.ofList value))

/-- Whether an argument can only be an option. -/
def isOption (arg : String) : Bool :=
  match arg.toList with
  | ['-'] => false
  | first :: _ => first == '-'
  | [] => false

/--
The options at the start of a list of arguments, and the arguments from the first one on that is
no option.  A double dash ends the options and may have nothing after it.
-/
def scan (known : List String) : List String → Option (Options × List String)
  | [] => some ([], [])
  | arg :: rest =>
      if arg = "--" then
        if rest.isEmpty then some ([], []) else none
      else if !isOption arg then
        some ([], arg :: rest)
      else
        let (name, given) := splitOption arg
        if name ∉ known then none
        else
          match given, rest with
          | some value, rest => (scan known rest).map fun (more, rest) => ((name, value) :: more, rest)
          | none, value :: rest =>
              if isOption value then none
              else (scan known rest).map fun (more, rest) => ((name, value) :: more, rest)
          | none, [] => none

/-- The options of a list of arguments that holds nothing else, each given once. -/
def scanAll (known : List String) (args : List String) : Option Options :=
  match scan known args with
  | some (options, []) => if (options.map Prod.fst).Nodup then some options else none
  | _ => none

def Options.get? (options : Options) (name : String) : Option String :=
  (options.find? fun option => option.1 == name).map Prod.snd

def readTask (config command : String) (args : List String) : Option Invocation :=
  if command = "palette" then do
    let options ← scanAll ["--catalog", "--model", "--query"] args
    return {
      config
      catalog := ← options.get? "--catalog"
      model := ← options.get? "--model"
      task := .palette (options.get? "--query") }
  else do
    let options ← scanAll ["--catalog", "--model", "--diagram", "--serial"] args
    let diagram ← options.get? "--diagram"
    let serial := (options.get? "--serial").getD ""
    let task ←
      if command = "compile" then some (Task.compile diagram serial)
      else if command = "preview" then some (Task.preview diagram serial)
      else none
    return {
      config
      catalog := ← options.get? "--catalog"
      model := ← options.get? "--model"
      task }

def defaultConfig : String := "blocklink.toml"

/-- The call that arguments make, if they are used as they should be. -/
def Invocation.ofArguments? (args : List String) : Option Invocation :=
  match scan ["--config"] args with
  | some (options, command :: rest) =>
      if (options.map Prod.fst).Nodup then
        readTask ((options.get? "--config").getD defaultConfig) command rest
      else
        none
  | _ => none

def Invocation.paths (invocation : Invocation) : List String :=
  [invocation.config, invocation.catalog] ++
    match invocation.task with
    | .palette _ => []
    | .compile diagram _ | .preview diagram _ => [diagram]

end RobotBlocks.CommandLine
