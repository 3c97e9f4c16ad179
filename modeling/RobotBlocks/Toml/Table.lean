import RobotBlocks.Toml.Value

/-!
# Building tables

Statements put values at paths.  How a table came into being decides what may still be added:
a table that was opened by a header of its own takes names only under that header, a table that
was made on the way to another one may be opened once, and a table that was made by a dotted name
takes more dotted names.
-/

namespace RobotBlocks.Toml

/-- How a table came into being. -/
inductive Origin where
  /-- By a header of its own. -/
  | opened
  /-- On the way to the table of a header. -/
  | passed
  /-- By a dotted name. -/
  | dotted
deriving DecidableEq, Inhabited

inductive Node where
  | value (value : Value)
  | table (origin : Origin) (entries : List (String × Node))
  /-- Tables that share a name, the ones before the last one first. -/
  | tables (earlier : List (List (String × Node))) (last : List (String × Node))
deriving Inhabited

abbrev Nodes := List (String × Node)

/-- Puts a node at a name, in the place of the one that was there. -/
def putNode (name : String) (node : Node) : Nodes → Nodes
  | [] => [(name, node)]
  | (other, old) :: rest =>
      if other = name then (name, node) :: rest else (other, old) :: putNode name node rest

/-- Changes the table at the end of a path; tables on the way are made where there are none. -/
def updateAt (dotted : Bool) (change : Origin → Nodes → Option Nodes) :
    List String → Origin → Nodes → Option Nodes
  | [], origin, nodes => change origin nodes
  | name :: path, _, nodes =>
      match lookup name nodes with
      | none =>
          let origin := if dotted then .dotted else .passed
          (updateAt dotted change path origin []).map fun inner =>
            nodes ++ [(name, .table origin inner)]
      | some (.value _) => none
      | some (.table origin inner) =>
          if dotted ∧ origin = .opened then none
          else
            (updateAt dotted change path origin inner).map fun inner =>
              putNode name (.table origin inner) nodes
      | some (.tables earlier last) =>
          (updateAt dotted change path .opened last).map fun last =>
            putNode name (.tables earlier last) nodes

/-- Adds a value under a dotted name: `path` before the last dot and `name` after it. -/
def addValue (path : List String) (name : String) (value : Value) (nodes : Nodes) :
    Option Nodes :=
  updateAt true (fun origin nodes =>
    if decide (origin = .dotted) = path.isEmpty then none
    else if (lookup name nodes).isSome then none
    else some (nodes ++ [(name, .value value)])) path .opened nodes

def openTable (path : List String) (name : String) (nodes : Nodes) : Option Nodes :=
  updateAt false (fun _ nodes =>
    match lookup name nodes with
    | none => some (nodes ++ [(name, .table .opened [])])
    | some (.table .passed inner) => some (putNode name (.table .opened inner) nodes)
    | some _ => none) path .opened nodes

/-- Opens one more of the tables that share a name. -/
def openNext (path : List String) (name : String) (nodes : Nodes) : Option Nodes :=
  updateAt false (fun _ nodes =>
    match lookup name nodes with
    | none => some (nodes ++ [(name, .tables [] [])])
    | some (.tables earlier last) => some (putNode name (.tables (earlier ++ [last]) []) nodes)
    | some _ => none) path .opened nodes

mutual

def Node.toValue : Node → Value
  | .value value => value
  | .table _ entries => .table (entryValues entries)
  | .tables earlier last => .array (tableValues earlier ++ [.table (entryValues last)])

def entryValues : List (String × Node) → List (String × Value)
  | [] => []
  | (name, node) :: rest => (name, node.toValue) :: entryValues rest

def tableValues : List (List (String × Node)) → List Value
  | [] => []
  | first :: rest => .table (entryValues first) :: tableValues rest

end

end RobotBlocks.Toml
