/-!
# Robot selection

One robot or several are selected, in the order in which they were selected.  Selecting several
has to be granted.
-/

namespace RobotBlocks

inductive SelectionMode where
  | single
  | multi
deriving DecidableEq, Inhabited

def SelectionMode.word : SelectionMode → String
  | .single => "Single"
  | .multi => "Multi"

/-- Whether selecting several robots is granted, and otherwise why not. -/
abbrev Entitlement := Except String Unit

def Entitlement.ofLicense (included : Bool) : Entitlement :=
  if included then .ok () else .error "license does not include multi-robot control"

inductive SelectionError where
  | multiDenied (reason : String)
deriving DecidableEq

def SelectionError.message : SelectionError → String
  | .multiDenied reason => "multi-select is not available: " ++ reason

/-- The mode and the selected robots in selection order. -/
structure Selection where
  mode : SelectionMode := .single
  targets : List String := []
  /-- No robot is selected twice. -/
  distinct : targets.Nodup := by first | exact List.nodup_nil | simp
deriving DecidableEq

instance : Inhabited Selection := ⟨{}⟩

namespace Selection

def isSelected (selection : Selection) (serial : String) : Bool :=
  selection.targets.contains serial

theorem distinct_append (selection : Selection) {serial : String}
    (absent : ¬selection.isSelected serial) : (selection.targets ++ [serial]).Nodup := by
  refine List.nodup_append.mpr ⟨selection.distinct, by simp, ?_⟩
  rintro selected mem _ same rfl
  rw [List.mem_singleton.mp same] at mem
  exact absent (List.contains_iff_mem.mpr mem)

/-- Selects a robot: alone in single mode; in multi mode a selected robot is taken out instead. -/
def select (selection : Selection) (serial : String) : Selection :=
  match selection.mode with
  | .single => { selection with targets := [serial], distinct := by simp }
  | .multi =>
      if selected : selection.isSelected serial then
        { selection with
          targets := selection.targets.filter (· != serial)
          distinct := selection.distinct.filter _ }
      else
        { selection with
          targets := selection.targets ++ [serial]
          distinct := selection.distinct_append selected }

/--
Changes the mode.  Multi mode has to be granted unless it is on already; single mode keeps the
robot that has been selected for longest.
-/
def setMode (selection : Selection) (mode : SelectionMode) (entitlement : Entitlement) :
    Except SelectionError Unit × Selection :=
  match mode with
  | .single =>
      (.ok (), {
        mode := .single
        targets := selection.targets.take 1
        distinct := selection.distinct.sublist (List.take_sublist 1 _) })
  | .multi =>
      match selection.mode, entitlement with
      | .multi, _ => (.ok (), selection)
      | .single, .ok () => (.ok (), { selection with mode := .multi })
      | .single, .error reason => (.error (.multiDenied reason), selection)

def clear (selection : Selection) : Selection :=
  { selection with targets := [], distinct := by simp }

def retainKnown (selection : Selection) (known : List String) : Selection :=
  { selection with
    targets := selection.targets.filter fun serial => known.contains serial
    distinct := selection.distinct.filter _ }

def count (selection : Selection) : Nat :=
  selection.targets.length

def isEmpty (selection : Selection) : Bool :=
  selection.targets.isEmpty

/-- For each robot of a list, whether it is selected. -/
def flags (selection : Selection) (serials : List String) : List (String × Bool) :=
  serials.map fun serial => (serial, selection.isSelected serial)

end Selection

end RobotBlocks
