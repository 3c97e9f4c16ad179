import RobotBlocks.Block.Table

/-!
# Block registry

The registry keeps one block table per device model, models in the order of their names, and the
model that the palette shows.  A model is registered once: later registrations change nothing.
-/

namespace RobotBlocks

open Catalog (Feed)

/-- Block tables by model, and the model that the palette shows. -/
structure Registry where
  /-- Tables in the strict order of their models. -/
  tables : List (String × Table) := []
  active : Option String := none
deriving DecidableEq, Inhabited

namespace Registry

def table? (registry : Registry) (model : String) : Option Table :=
  (registry.tables.find? fun entry => entry.1 == model).map Prod.snd

def isRegistered (registry : Registry) (model : String) : Bool :=
  (registry.table? model).isSome

def models (registry : Registry) : List String :=
  registry.tables.map Prod.fst

/-- Adds a table where its model belongs. -/
def insertTable (model : String) (table : Table) : List (String × Table) → List (String × Table)
  | [] => [(model, table)]
  | (other, old) :: rest =>
      if model < other then (model, table) :: (other, old) :: rest
      else (other, old) :: insertTable model table rest

/--
Registers the blocks of a model's feed and shows the model in the palette.  Says `false` and
changes nothing if the model is registered already.
-/
def register (registry : Registry) (model : String) (feed : Feed) : Bool × Registry :=
  if registry.isRegistered model then
    (false, registry)
  else
    (true, { tables := insertTable model (Table.ofFeed feed) registry.tables, active := some model })

/-- Shows a registered model in the palette; says `false` for any other. -/
def setActive (registry : Registry) (model : String) : Bool × Registry :=
  if registry.isRegistered model then
    (true, { registry with active := some model })
  else
    (false, registry)

def definition? (registry : Registry) (model blockType : String) : Option Definition :=
  (registry.table? model).bind fun table => table.get? blockType

def activeDefinitions (registry : Registry) : List Definition :=
  match registry.active.bind registry.table? with
  | some table => table.definitions
  | none => []

structure Category where
  name : String
  definitions : List Definition
deriving DecidableEq, Inhabited

/-- Adds a definition to its category, or starts a category at the end. -/
def addToCategory (definition : Definition) : List Category → List Category
  | [] => [⟨definition.category, [definition]⟩]
  | first :: rest =>
      if first.name = definition.category then
        { first with definitions := first.definitions ++ [definition] } :: rest
      else
        first :: addToCategory definition rest

/-- The palette: the definitions that are shown, by category in the order of first appearance. -/
def palette (registry : Registry) : List Category :=
  registry.activeDefinitions.foldl (fun categories definition =>
    addToCategory definition categories) []

def search (registry : Registry) (query : String) : List Definition :=
  registry.activeDefinitions.filter fun definition => definition.contains query

end Registry

end RobotBlocks
