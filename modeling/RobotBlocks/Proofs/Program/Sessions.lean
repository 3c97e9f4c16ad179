import RobotBlocks.Program.Session
import RobotBlocks.Proofs.Block.Registry
import RobotBlocks.Proofs.Program.Listing

/-!
# Sessions over time

A session keeps the generator that it built last.  However its model and its robot are changed and
whatever is registered meanwhile, what it compiles is what a generator built anew would compile:
the kept generator is the one that the registry gives for its own model and robot, because the
blocks of a registered model never change, and it is used for that model and that robot only.
-/

namespace RobotBlocks

/-- The generator for a model that may not have been chosen. -/
def Registry.generatorFor (registry : Registry) (model : Option String) (serial : String) :
    Except CompileError Generator :=
  match model with
  | none => .error .noModel
  | some model => registry.generator model serial

/-- What a diagram is compiled to by a generator that is built for it. -/
def Registry.compile (registry : Registry) (model : Option String) (serial : String)
    (diagram : Diagram) : Except CompileError Program :=
  (registry.generatorFor model serial).bind fun generator => generator.compile diagram

/-- That no model has been chosen is said only when it is so. -/
theorem Registry.compile_noModel {registry : Registry} {model : Option String} {serial : String}
    {diagram : Diagram} :
    registry.compile model serial diagram = .error .noModel ↔ model = none := by
  constructor
  · intro refused
    cases model with
    | none => rfl
    | some model =>
        rcases bind_eq_error.mp refused with unbuilt | ⟨generator, _, uncompiled⟩
        · obtain ⟨_, other⟩ := generator_eq_error.mp unbuilt
          cases other
        · obtain ⟨block, _, blamed⟩ := Generator.compile_blames uncompiled
          cases blamed
  · rintro rfl
    rfl

namespace Session

/-! ## Single steps -/

/-- The kept generator is the one that the registry gives for its model and robot. -/
def Coherent (session : Session) (registry : Registry) : Prop :=
  ∀ generator, session.generator = some generator →
    registry.generator generator.model generator.serial = .ok generator

theorem coherent_of_none {session : Session} (nothing : session.generator = none)
    (registry : Registry) : session.Coherent registry := by
  intro generator kept
  cases nothing.symm.trans kept

theorem setModel_model (session : Session) (model : String) :
    (session.setModel model).2.model = some model := by
  unfold setModel
  split
  · assumption
  · rfl

theorem setSerial_serial (session : Session) (serial : String) :
    (session.setSerial serial).2.serial = serial := by
  unfold setSerial
  split
  · assumption
  · rfl

theorem setModel_serial (session : Session) (model : String) :
    (session.setModel model).2.serial = session.serial := by
  unfold setModel
  split <;> rfl

theorem setSerial_model (session : Session) (serial : String) :
    (session.setSerial serial).2.model = session.model := by
  unfold setSerial
  split <;> rfl

/-- A model is announced as changed exactly when it is, and then no generator is kept. -/
theorem setModel_changed (session : Session) (model : String) :
    ((session.setModel model).1 = true ↔ session.model ≠ some model) ∧
      ((session.setModel model).1 = true → (session.setModel model).2.hasGenerator = false) := by
  unfold setModel
  split
  · rename_i same
    simp [same]
  · rename_i different
    simp [different, hasGenerator]

theorem setSerial_changed (session : Session) (serial : String) :
    ((session.setSerial serial).1 = true ↔ session.serial ≠ serial) ∧
      ((session.setSerial serial).1 = true →
        (session.setSerial serial).2.hasGenerator = false) := by
  unfold setSerial
  split
  · rename_i same
    simp [same]
  · rename_i different
    simp [different, hasGenerator]

theorem Coherent.setModel {session : Session} {registry : Registry}
    (coherent : session.Coherent registry) (model : String) :
    (session.setModel model).2.Coherent registry := by
  unfold Session.setModel
  split
  · exact coherent
  · exact coherent_of_none rfl registry

theorem Coherent.setSerial {session : Session} {registry : Registry}
    (coherent : session.Coherent registry) (serial : String) :
    (session.setSerial serial).2.Coherent registry := by
  unfold Session.setSerial
  split
  · exact coherent
  · exact coherent_of_none rfl registry

/-- A generator that was built once is built again after whatever is done to the registry. -/
theorem Coherent.perform {session : Session} {registry : Registry}
    (coherent : session.Coherent registry) (operation : Registry.Operation) :
    session.Coherent (operation.perform registry) := by
  intro generator kept
  obtain ⟨table, found, built⟩ := Registry.generator_eq_ok.mp (coherent generator kept)
  exact Registry.generator_eq_ok.mpr ⟨table, Registry.table?_perform_some found operation, built⟩

theorem current?_eq_some {session : Session} {generator : Generator}
    (current : session.current? = some generator) :
    session.generator = some generator ∧ session.model = some generator.model ∧
      session.serial = generator.serial := by
  unfold current? at current
  obtain ⟨kept, own⟩ := Option.filter_eq_some_iff.mp current
  simp only [Bool.and_eq_true, beq_iff_eq] at own
  exact ⟨kept, own.1, own.2.symm⟩

/-- A session gives the generator that would be built anew, and keeps no other. -/
theorem Coherent.build {session : Session} {registry : Registry}
    (coherent : session.Coherent registry) :
    (session.build registry).1 = registry.generatorFor session.model session.serial ∧
      (session.build registry).2.Coherent registry := by
  unfold Session.build Registry.generatorFor
  cases chosen : session.model with
  | none => exact ⟨rfl, coherent⟩
  | some model =>
      simp only
      cases kept : session.current? with
      | some generator =>
          obtain ⟨own, ownModel, ownSerial⟩ := current?_eq_some kept
          obtain rfl := Option.some_inj.mp (chosen.symm.trans ownModel)
          have built := coherent generator own
          rw [← ownSerial] at built
          exact ⟨built.symm, coherent⟩
      | none =>
          simp only
          cases built : registry.generator model session.serial with
          | error problem => exact ⟨rfl, coherent⟩
          | ok generator =>
              refine ⟨rfl, ?_⟩
              rintro _ ⟨⟩
              obtain ⟨table, _, rfl⟩ := Registry.generator_eq_ok.mp built
              exact built

theorem Coherent.compile {session : Session} {registry : Registry}
    (coherent : session.Coherent registry) (diagram : Diagram) :
    (session.compile registry diagram).1 =
        registry.compile session.model session.serial diagram ∧
      (session.compile registry diagram).2.Coherent registry := by
  obtain ⟨built, kept⟩ := coherent.build
  exact ⟨congrArg (fun result => result.bind fun generator => generator.compile diagram) built,
    kept⟩

/-- Building a generator changes neither the model nor the robot. -/
theorem build_keeps (session : Session) (registry : Registry) :
    (session.build registry).2.model = session.model ∧
      (session.build registry).2.serial = session.serial := by
  unfold Session.build
  split
  · exact ⟨rfl, rfl⟩
  · split
    · exact ⟨rfl, rfl⟩
    · split <;> exact ⟨rfl, rfl⟩

/-! ## Runs -/

inductive Operation where
  | registry (operation : Registry.Operation)
  | setModel (model : String)
  | setSerial (serial : String)
  | build
  | compile (diagram : Diagram)

structure Pair where
  registry : Registry := {}
  session : Session

namespace Operation

def perform (pair : Pair) : Operation → Pair
  | registry operation => { pair with registry := operation.perform pair.registry }
  | setModel model => { pair with session := (pair.session.setModel model).2 }
  | setSerial serial => { pair with session := (pair.session.setSerial serial).2 }
  | build => { pair with session := (pair.session.build pair.registry).2 }
  | compile diagram => { pair with session := (pair.session.compile pair.registry diagram).2 }

def onRegistry? : Operation → Option Registry.Operation
  | registry operation => some operation
  | _ => none

def model? : Operation → Option String
  | setModel model => some model
  | _ => none

def serial? : Operation → Option String
  | setSerial serial => some serial
  | _ => none

end Operation

/-- A new registry and a new session after operations, the first operation first. -/
def after (model : Option String) (serial : String) (operations : List Operation) : Pair :=
  operations.foldl Operation.perform { session := { model, serial } }

def registryAfter (operations : List Operation) : Registry :=
  Registry.after (operations.filterMap Operation.onRegistry?)

/-- The model that was set last, or else the one of the start. -/
def modelAfter (model : Option String) (operations : List Operation) : Option String :=
  (operations.filterMap Operation.model?).getLast?.or model

/-- The robot that was set last, or else the one of the start. -/
def serialAfter (serial : String) (operations : List Operation) : String :=
  (operations.filterMap Operation.serial?).getLast?.getD serial

theorem after_concat (model : Option String) (serial : String) (operations : List Operation)
    (operation : Operation) :
    after model serial (operations ++ [operation]) =
      operation.perform (after model serial operations) :=
  List.foldl_append

theorem registryAfter_concat (operations : List Operation) (operation : Operation) :
    registryAfter (operations ++ [operation]) =
      (operation.onRegistry?.toList.foldl Registry.Operation.perform
        (registryAfter operations)) := by
  unfold registryAfter Registry.after
  rw [List.filterMap_append, List.foldl_append]
  cases operation <;> rfl

theorem modelAfter_concat (model : Option String) (operations : List Operation)
    (operation : Operation) :
    modelAfter model (operations ++ [operation]) =
      operation.model?.or (modelAfter model operations) := by
  unfold modelAfter
  rw [List.filterMap_append, List.getLast?_append, Option.or_assoc]
  cases operation <;> rfl

theorem serialAfter_concat (serial : String) (operations : List Operation)
    (operation : Operation) :
    serialAfter serial (operations ++ [operation]) =
      operation.serial?.getD (serialAfter serial operations) := by
  unfold serialAfter
  rw [List.filterMap_append, List.getLast?_append]
  cases operation <;> rfl

/-- A session after a run has what was set last, and what it keeps is up to date. -/
theorem after_spec (model : Option String) (serial : String) (operations : List Operation) :
    let pair := after model serial operations
    pair.registry = registryAfter operations ∧ pair.session.model = modelAfter model operations ∧
      pair.session.serial = serialAfter serial operations ∧
      pair.session.Coherent pair.registry := by
  induction operations using List.reverseRecOn with
  | nil => exact ⟨rfl, rfl, rfl, coherent_of_none rfl _⟩
  | append_singleton operations operation ih =>
      obtain ⟨sameRegistry, sameModel, sameSerial, coherent⟩ := ih
      rw [after_concat, registryAfter_concat, modelAfter_concat, serialAfter_concat]
      cases operation with
      | registry operation =>
          exact ⟨congrArg (Registry.Operation.perform · operation) sameRegistry, sameModel,
            sameSerial, coherent.perform operation⟩
      | setModel model =>
          exact ⟨sameRegistry, setModel_model _ model, (setModel_serial _ model).trans sameSerial,
            coherent.setModel model⟩
      | setSerial serial =>
          exact ⟨sameRegistry, (setSerial_model _ serial).trans sameModel,
            setSerial_serial _ serial, coherent.setSerial serial⟩
      | build | compile =>
          obtain ⟨keptModel, keptSerial⟩ := build_keeps _ _
          exact ⟨sameRegistry, keptModel.trans sameModel, keptSerial.trans sameSerial,
            coherent.build.2⟩

/--
However a session and its registry have been used, the session compiles as a generator would that
is built anew for the model and the robot that were set last, with the same program or the same
error; that no model has been chosen is said exactly when none has.  Setting a model or a robot says
whether it is another one, and if it is, no generator is left.
-/
theorem compile_after (model : Option String) (serial : String) (operations : List Operation)
    (diagram : Diagram) :
    let registry := registryAfter operations
    let current := modelAfter model operations
    let robot := serialAfter serial operations
    let session := (after model serial operations).session
    (session.compile registry diagram).1 = registry.compile current robot diagram ∧
      (session.build registry).1 = registry.generatorFor current robot ∧
      ((session.compile registry diagram).1 = .error .noModel ↔ current = none) ∧
      (∀ other, ((session.setModel other).1 = true ↔ current ≠ some other) ∧
        ((session.setModel other).1 = true → (session.setModel other).2.hasGenerator = false)) ∧
      ∀ other, ((session.setSerial other).1 = true ↔ robot ≠ other) ∧
        ((session.setSerial other).1 = true →
          (session.setSerial other).2.hasGenerator = false) := by
  intro registry current robot session
  obtain ⟨sameRegistry, chosen, addressed, coherent⟩ := after_spec model serial operations
  have sameModel : session.model = current := chosen
  have sameSerial : session.serial = robot := addressed
  rw [sameRegistry] at coherent
  have compiles : (session.compile registry diagram).1 =
      registry.compile current robot diagram := by
    rw [(coherent.compile diagram).1, sameModel, sameSerial]
  have builds : (session.build registry).1 = registry.generatorFor current robot := by
    rw [coherent.build.1, sameModel, sameSerial]
  refine ⟨compiles, builds, ?_, ?_, ?_⟩
  · rw [compiles]
    exact Registry.compile_noModel
  · intro other
    rw [← sameModel]
    exact setModel_changed session other
  · intro other
    rw [← sameSerial]
    exact setSerial_changed session other

end Session

end RobotBlocks
