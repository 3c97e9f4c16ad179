import RobotBlocks.Config
import RobotBlocks.Program.Session
import RobotBlocks.Robots.Dispatcher

/-!
# Studio

A studio holds everything that belongs to one user: the block registry, the compile session, the
robot selection, the dispatcher, the stored diagrams and the diagram that is being edited.  While
a model is edited, the palette shows its blocks.
-/

namespace RobotBlocks

inductive PreviewError where
  | compile (error : CompileError)
  | run (error : RunError)
deriving DecidableEq

def PreviewError.message : PreviewError → String
  | .compile error => error.message
  | .run error => error.message

/-- The state of one user; stored diagrams are kept in `kept`. -/
structure Studio (σ : Type) where
  config : Config
  /-- The namespace of the stored diagrams. -/
  space : String
  store : Store σ
  kept : σ
  registry : Registry := {}
  session : Session := {}
  selection : Selection := {}
  dispatcher : Dispatch.Dispatcher := {}
  diagram : Diagram := {}

namespace Studio

variable {σ τ : Type}

def activeModel (studio : Studio σ) : Option String :=
  studio.session.model

/-- Saves the diagram for the model that is being edited, if there is one. -/
def saveDiagram (studio : Studio σ) : Except Failure Unit × Studio σ :=
  match studio.session.model with
  | none => (.ok (), studio)
  | some model =>
      let (result, kept) := studio.store.save studio.space model studio.diagram studio.kept
      (result, { studio with kept })

/-- Opens the stored diagram of a model; if it cannot be loaded, nothing changes. -/
def openModel (studio : Studio σ) (model : String) : Except Failure Bool × Studio σ :=
  match studio.store.load studio.space model studio.kept with
  | .error failure => (.error failure, studio)
  | .ok diagram =>
      (.ok true, { studio with
        diagram
        registry := (studio.registry.setActive model).2
        session := (studio.session.setModel model).2 })

/--
Saves the diagram of the model that is being edited and opens that of another.  Says `false` for
a model that is not registered.  If saving or loading fails, the model stays the same.
-/
def switchModel (studio : Studio σ) (model : String) : Except Failure Bool × Studio σ :=
  if !studio.registry.isRegistered model then
    (.ok false, studio)
  else if studio.session.model = some model then
    (.ok true, { studio with registry := (studio.registry.setActive model).2 })
  else
    match studio.saveDiagram with
    | (.error failure, studio) => (.error failure, studio)
    | (.ok (), studio) => studio.openModel model

/--
Registers a model's feed; says whether the model is new.  The first model is opened, and later
ones leave the palette on the model that is being edited.
-/
def registerModel (studio : Studio σ) (model : String) (feed : Catalog.Feed) :
    Except Failure Bool × Studio σ :=
  let (added, registry) := studio.registry.register model feed
  let registered := { studio with registry }
  match studio.session.model with
  | some current =>
      (.ok added, { registered with registry := (registry.setActive current).2 })
  | none =>
      if added then
        match registered.switchModel model with
        | (.error failure, studio) => (.error failure, studio)
        | (.ok _, studio) => (.ok true, studio)
      else
        (.ok false, registered)

def setDiagram (studio : Studio σ) (diagram : Diagram) : Studio σ :=
  { studio with diagram }

def setSerial (studio : Studio σ) (serial : String) : Studio σ :=
  { studio with session := (studio.session.setSerial serial).2 }

def selectRobot (studio : Studio σ) (serial : String) : Studio σ :=
  { studio with selection := studio.selection.select serial }

/-- Changes the selection mode; a refusal gives a notice. -/
def setSelectionMode (studio : Studio σ) (mode : SelectionMode) (entitlement : Entitlement) :
    Except SelectionError Unit × Option Notice × Studio σ :=
  let (result, selection) := studio.selection.setMode mode entitlement
  let notice := match result with
    | .ok () => none
    | .error error => some (.warning error.message)
  (result, notice, { studio with selection })

def sendActionOn (schedule : Dispatch.Schedule) (studio : Studio σ) (code : String) (kind : Kind)
    (snapshot : Dispatch.Snapshot) (transport : Dispatch.Transport τ) (world : τ) :
    Dispatch.Answer × τ × Studio σ :=
  let request := { code, kind, selection := studio.selection, snapshot }
  let (answer, state) := Dispatch.dispatchOn schedule transport request ⟨studio.dispatcher, world⟩
  (answer, state.world, { studio with dispatcher := state.dispatcher })

def sendAction (studio : Studio σ) (code : String) (kind : Kind) (snapshot : Dispatch.Snapshot)
    (transport : Dispatch.Transport τ) (world : τ) : Dispatch.Answer × τ × Studio σ :=
  studio.sendActionOn .inOrder code kind snapshot transport world

def compile (studio : Studio σ) : Except CompileError Program × Studio σ :=
  let (result, session) := studio.session.compile studio.registry studio.diagram
  (result, { studio with session })

/--
Compiles the diagram and runs it in a sandbox with the given limits; one notice says what came of
it.
-/
def previewWithin (limits : Sandbox.Limits) (studio : Studio σ) (hook : Sandbox.Hook τ)
    (sandbox : Sandbox.State τ) :
    Except PreviewError Report × Notice × Sandbox.State τ × Studio σ :=
  match studio.compile with
  | (.error error, studio) =>
      (.error (.compile error), .error ("Program could not be built: " ++ error.message), sandbox,
        studio)
  | (.ok program, studio) =>
      let (result, sandbox) := Sandbox.run limits hook program.code sandbox
      (result.mapError .run, Sandbox.outcomeNotice result, sandbox, studio)

def preview (studio : Studio σ) (hook : Sandbox.Hook τ) (sandbox : Sandbox.State τ) :
    Except PreviewError Report × Notice × Sandbox.State τ × Studio σ :=
  studio.previewWithin studio.config.limits hook sandbox

end Studio

end RobotBlocks
