import RobotBlocks.Toml.Scalar
import RobotBlocks.Toml.Table

/-!
# Reading a settings text

A settings text is read statement by statement: headers that open tables, and names with values.
A name is bare or quoted, and dots between names make a path.
-/

namespace RobotBlocks.Toml

/-! ## Names -/

def isBare (c : Char) : Bool :=
  c.isAlphanum || c == '-' || c == '_'

def readName : Reader String := fun text =>
  match text with
  | '"' :: _ => readInline '"' true text
  | '\'' :: _ => readInline '\'' false text
  | _ =>
      match text.takeWhile isBare with
      | [] => none
      | name => some (String.ofList name, text.dropWhile isBare)

/-- Names with dots between them, as the names before the last one and the last one. -/
def readPath : (fuel : Nat) → Reader (List String × String)
  | 0, _ => none
  | fuel + 1, text => do
      let (name, rest) ← readName (skipGaps text)
      match skipGaps rest with
      | '.' :: rest =>
          let ((path, last), rest) ← readPath fuel rest
          return ((name :: path, last), rest)
      | rest => return (([], name), rest)

/-- A path of names; no path may be too long. -/
def readDotted : Reader (List String × String) :=
  readPath longestPath

/-! ## Values -/

/-- Elements up to the closing bracket; `fuel` is at least the number of elements. -/
def readElements (element : Reader Value) : (fuel : Nat) → Reader (List Value)
  | 0, _ => none
  | fuel + 1, text =>
      match skipLines false text with
      | ']' :: rest => some ([], rest)
      | text => do
          let (first, rest) ← element text
          match skipLines false rest with
          | ',' :: rest =>
              let (more, rest) ← readElements element fuel rest
              return (first :: more, rest)
          | ']' :: rest => return ([first], rest)
          | _ => none

/-- Names with values up to the closing brace; `fuel` is at least the number of names. -/
def readMembers (value : Reader Value) : (fuel : Nat) → Nodes → Reader Nodes
  | 0, _, _ => none
  | fuel + 1, nodes, text => do
      let ((path, name), rest) ← readDotted text
      let (_, rest) ← readMark '=' rest
      let (member, rest) ← value (skipGaps rest)
      let nodes ← addValue path name member nodes
      match skipGaps rest with
      | ',' :: rest => readMembers value fuel nodes rest
      | '}' :: rest => return (nodes, rest)
      | _ => none

/-- A table on one line, after its opening brace. -/
def readInlineTable (value : Reader Value) : Reader Value := fun text =>
  match skipGaps text with
  | '}' :: rest => some (.table [], rest)
  | text =>
      (readMembers value text.length [] text).map fun (nodes, rest) =>
        (.table (entryValues nodes), rest)

/-- A value that opens at most `depth` arrays and tables at once. -/
def readValue : (depth : Nat) → Reader Value
  | 0, text => readScalar text
  | depth + 1, text =>
      match text with
      | '[' :: rest =>
          (readElements (readValue depth) (rest.length + 1) rest).map fun (elements, rest) =>
            (.array elements, rest)
      | '{' :: rest => readInlineTable (readValue depth) rest
      | _ => readScalar text

/-! ## Statements -/

inductive Statement where
  | header (path : List String) (name : String)
  | next (path : List String) (name : String)
  | entry (path : List String) (name : String) (value : Value)

/-- A header after its opening brackets, up to as many closing ones. -/
def readHeader (double : Bool) : Reader Statement := fun text => do
  let ((path, name), rest) ← readDotted text
  let (_, rest) ← readMark ']' rest
  if double then
    let (_, rest) ← readMark ']' rest
    return (.next path name, rest)
  else
    return (.header path name, rest)

def readStatement : Reader Statement
  | '[' :: '[' :: rest => readHeader true rest
  | '[' :: rest => readHeader false rest
  | text => do
      let ((path, name), rest) ← readDotted text
      let (_, rest) ← readMark '=' rest
      let (value, rest) ← readValue nestingLimit (skipGaps rest)
      return (.entry path name value, rest)

/-- The statements of a text; `fuel` is at least the number of its lines. -/
def readStatements : (fuel : Nat) → List Char → Option (List Statement)
  | 0, _ => none
  | fuel + 1, text =>
      match skipGaps text with
      | [] => some []
      | '#' :: rest => (finishLine ('#' :: rest)).bind (readStatements fuel)
      | '\n' :: rest => readStatements fuel rest
      | '\r' :: '\n' :: rest => readStatements fuel rest
      | text => do
          let (statement, rest) ← readStatement text
          let rest ← finishLine rest
          let more ← readStatements fuel rest
          return statement :: more

/-- A table that is built, and the header that values are put under. -/
structure Draft where
  nodes : Nodes := []
  header : List String := []

def Draft.addEntry (draft : Draft) (path : List String) (name : String) (value : Value) :
    Option Draft :=
  (updateAt false (fun _ nodes => addValue path name value nodes) draft.header .opened
    draft.nodes).map fun nodes => { draft with nodes }

def Draft.add (draft : Draft) : Statement → Option Draft
  | .header path name =>
      (openTable path name draft.nodes).map fun nodes => ⟨nodes, path ++ [name]⟩
  | .next path name =>
      (openNext path name draft.nodes).map fun nodes => ⟨nodes, path ++ [name]⟩
  | .entry path name value => draft.addEntry path name value

def build (statements : List Statement) : Option (List (String × Value)) :=
  (statements.foldlM Draft.add {}).map fun draft => entryValues draft.nodes

/-- The text without a byte order mark at its start. -/
def dropOrderMark : List Char → List Char
  | '\ufeff' :: rest => rest
  | text => text

def read (text : String) : Option (List (String × Value)) :=
  let chars := dropOrderMark text.toList
  (readStatements (chars.length + 1) chars).bind build

end RobotBlocks.Toml
