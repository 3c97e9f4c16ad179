import RobotBlocks.Proofs.Program.Sessions
import RobotBlocks.Studio

/-!
# Operations on a studio

Whatever its store is like, a studio changes its model only by switching, and what a switch does is
one of five things.  All other operations leave the diagrams alone, except that a new diagram is
shown or the shown one is saved.
-/

namespace RobotBlocks

namespace Studio

variable {σ : Type}

/-! ## Single operations -/

/-- What saving the diagram answers, and what the store has kept afterwards. -/
def saved (studio : Studio σ) : Except Failure Unit × σ :=
  match studio.activeModel with
  | none => (.ok (), studio.kept)
  | some model => studio.store.save studio.space model studio.diagram studio.kept

/-- A save changes nothing but what the store has kept. -/
theorem saveDiagram_eq (studio : Studio σ) :
    studio.saveDiagram = (studio.saved.1, { studio with kept := studio.saved.2 }) := by
  unfold saveDiagram saved activeModel
  cases studio.session.model <;> rfl

/-- What a switch to a model answers, and the studio that it leaves. -/
inductive Switch (studio : Studio σ) (model : String) : Except Failure Bool × Studio σ → Prop where
  | unregistered (absent : studio.registry.isRegistered model = false) :
      Switch studio model (.ok false, studio)
  | edited (registered : studio.registry.isRegistered model = true)
      (current : studio.activeModel = some model) :
      Switch studio model
        (.ok true, { studio with registry := (studio.registry.setActive model).2 })
  | unsaved (registered : studio.registry.isRegistered model = true)
      (other : studio.activeModel ≠ some model) {failure : Failure}
      (failed : studio.saved.1 = .error failure) :
      Switch studio model (.error failure, { studio with kept := studio.saved.2 })
  | unloaded (registered : studio.registry.isRegistered model = true)
      (other : studio.activeModel ≠ some model) (done : studio.saved.1 = .ok ())
      {failure : Failure}
      (failed : studio.store.load studio.space model studio.saved.2 = .error failure) :
      Switch studio model (.error failure, { studio with kept := studio.saved.2 })
  | opened (registered : studio.registry.isRegistered model = true)
      (other : studio.activeModel ≠ some model) (done : studio.saved.1 = .ok ())
      {diagram : Diagram}
      (loaded : studio.store.load studio.space model studio.saved.2 = .ok diagram) :
      Switch studio model (.ok true, { studio with
        kept := studio.saved.2
        diagram
        registry := (studio.registry.setActive model).2
        session := (studio.session.setModel model).2 })

theorem switchModel_cases (studio : Studio σ) (model : String) :
    Switch studio model (studio.switchModel model) := by
  unfold switchModel
  rw [saveDiagram_eq]
  cases registered : studio.registry.isRegistered model with
  | false => exact .unregistered registered
  | true =>
      by_cases current : studio.session.model = some model
      · simpa [current] using Switch.edited registered current
      · cases done : studio.saved.1 with
        | error failure => simpa [current] using Switch.unsaved registered current done
        | ok =>
            cases loaded : studio.store.load studio.space model studio.saved.2 with
            | error failure =>
                simpa [current, openModel, loaded] using
                  Switch.unloaded registered current done loaded
            | ok diagram =>
                simpa [current, openModel, loaded] using
                  Switch.opened registered current done loaded

/-- While a model is edited, a registration changes the registry only. -/
theorem registerModel_edited {studio : Studio σ} {current : String}
    (edited : studio.activeModel = some current) (model : String) (feed : Catalog.Feed) :
    let (added, registry) := studio.registry.register model feed
    studio.registerModel model feed =
      (.ok added, { studio with registry := (registry.setActive current).2 }) := by
  have chosen : studio.session.model = some current := edited
  unfold registerModel
  simp only [chosen]

/-- While no model is edited, a model that is registered already changes nothing. -/
theorem registerModel_known {studio : Studio σ} (idle : studio.activeModel = none)
    {model : String} (known : studio.registry.isRegistered model = true) (feed : Catalog.Feed) :
    studio.registerModel model feed = (.ok false, studio) := by
  have unchosen : studio.session.model = none := idle
  have old : (studio.registry.register model feed).1 = false := by
    rw [Registry.register_fst, known]
    rfl
  unfold registerModel
  simp only [unchosen, old, Registry.register_registered old]
  rfl

/-- While no model is edited, a new model is switched to. -/
theorem registerModel_new {studio : Studio σ} (idle : studio.activeModel = none)
    {model : String} (new : studio.registry.isRegistered model = false) (feed : Catalog.Feed) :
    let registered := { studio with registry := (studio.registry.register model feed).2 }
    studio.registerModel model feed = registered.switchModel model := by
  intro registered
  have unchosen : studio.session.model = none := idle
  have added : (studio.registry.register model feed).1 = true := by
    rw [Registry.register_fst, new]
    rfl
  have known : registered.registry.isRegistered model = true :=
    studio.registry.isRegistered_register_self model feed
  have switch := registered.switchModel_cases model
  have named : { studio with registry := (studio.registry.register model feed).2 } = registered :=
    rfl
  unfold registerModel
  simp only [unchosen, added]
  rw [named]
  generalize registered.switchModel model = outcome at switch ⊢
  cases switch with
  | unregistered absent => cases known.symm.trans absent
  | edited | unsaved | unloaded | opened => rfl

/-- A preview changes the studio as the compilation does. -/
theorem previewWithin_studio {τ : Type} (limits : Sandbox.Limits) (studio : Studio σ)
    (hook : Sandbox.Hook τ) (sandbox : Sandbox.State τ) :
    (studio.previewWithin limits hook sandbox).2.2.2 = studio.compile.2 := by
  unfold previewWithin
  cases studio.compile with
  | mk result next => cases result <;> rfl

/-! ## Runs -/

inductive Operation : Type 1 where
  | registerModel (model : String) (feed : Catalog.Feed)
  | switchModel (model : String)
  | setDiagram (diagram : Diagram)
  | saveDiagram
  | setSerial (serial : String)
  | selectRobot (serial : String)
  | setSelectionMode (mode : SelectionMode) (entitlement : Entitlement)
  | sendAction {τ : Type} (schedule : Dispatch.Schedule) (code : String) (kind : Kind)
      (snapshot : Dispatch.Snapshot) (transport : Dispatch.Transport τ) (world : τ)
  | compile
  | preview {τ : Type} (limits : Sandbox.Limits) (hook : Sandbox.Hook τ)
      (sandbox : Sandbox.State τ)

namespace Operation

def perform (studio : Studio σ) : Operation → Studio σ
  | registerModel model feed => (studio.registerModel model feed).2
  | switchModel model => (studio.switchModel model).2
  | setDiagram diagram => studio.setDiagram diagram
  | saveDiagram => studio.saveDiagram.2
  | setSerial serial => studio.setSerial serial
  | selectRobot serial => studio.selectRobot serial
  | setSelectionMode mode entitlement => (studio.setSelectionMode mode entitlement).2.2
  | sendAction schedule code kind snapshot transport world =>
      (studio.sendActionOn schedule code kind snapshot transport world).2.2
  | compile => studio.compile.2
  | preview limits hook sandbox => (studio.previewWithin limits hook sandbox).2.2.2

end Operation

def new (config : Config) (space : String) (store : Store σ) (kept : σ) : Studio σ :=
  { config, space, store, kept }

def after (start : Studio σ) (operations : List Operation) : Studio σ :=
  operations.foldl Operation.perform start

theorem after_concat (start : Studio σ) (operations : List Operation) (operation : Operation) :
    start.after (operations ++ [operation]) = operation.perform (start.after operations) :=
  List.foldl_append

/-! ## Diagrams -/

/-- The same diagrams are on screen and in store, and the same model is edited. -/
structure SameDiagrams (studio other : Studio σ) : Prop where
  space : other.space = studio.space
  store : other.store = studio.store
  kept : other.kept = studio.kept
  model : other.activeModel = studio.activeModel
  diagram : other.diagram = studio.diagram

theorem SameDiagrams.refl (studio : Studio σ) : SameDiagrams studio studio :=
  ⟨rfl, rfl, rfl, rfl, rfl⟩

theorem SameDiagrams.saved {studio other : Studio σ} (same : SameDiagrams studio other) :
    other.saved = studio.saved := by
  unfold Studio.saved
  rw [same.space, same.store, same.kept, same.model, same.diagram]

theorem compile_sameDiagrams (studio : Studio σ) : SameDiagrams studio studio.compile.2 where
  space := rfl
  store := rfl
  kept := rfl
  model := (Session.build_keeps studio.session studio.registry).1
  diagram := rfl

/-- What an operation can do to the diagrams. -/
inductive Change (studio : Studio σ) : Operation → Studio σ → Prop where
  | nothing {operation : Operation} {next : Studio σ} (same : SameDiagrams studio next) :
      Change studio operation next
  | shown (diagram : Diagram) : Change studio (.setDiagram diagram) { studio with diagram }
  | saved {operation : Operation} {next : Studio σ}
      (same : SameDiagrams { studio with kept := studio.saved.2 } next) :
      Change studio operation next
  | opened {operation : Operation} {next : Studio σ} {model : String} {diagram : Diagram}
      (other : studio.activeModel ≠ some model) (done : studio.saved.1 = .ok ())
      (loaded : studio.store.load studio.space model studio.saved.2 = .ok diagram)
      (same : SameDiagrams { studio with
        kept := studio.saved.2
        diagram
        session := (studio.session.setModel model).2 } next) :
      Change studio operation next

/-- A switch changes the diagrams in the same way whatever else is registered. -/
theorem Switch.change {studio : Studio σ} {registry : Registry} {model : String}
    {outcome : Except Failure Bool × Studio σ}
    (switch : Switch { studio with registry } model outcome) (operation : Operation) :
    Change studio operation outcome.2 := by
  cases switch with
  | unregistered | edited => exact .nothing ⟨rfl, rfl, rfl, rfl, rfl⟩
  | unsaved | unloaded => exact .saved ⟨rfl, rfl, rfl, rfl, rfl⟩
  | opened registered other done loaded =>
      exact .opened other done loaded ⟨rfl, rfl, rfl, rfl, rfl⟩

theorem registerModel_change (studio : Studio σ) (model : String) (feed : Catalog.Feed) :
    Change studio (.registerModel model feed) (studio.registerModel model feed).2 := by
  cases current : studio.activeModel with
  | some edited =>
      rw [registerModel_edited current]
      exact .nothing ⟨rfl, rfl, rfl, rfl, rfl⟩
  | none =>
      cases known : studio.registry.isRegistered model with
      | true =>
          rw [registerModel_known current known]
          exact .nothing (.refl studio)
      | false =>
          rw [registerModel_new current known]
          have switch := switchModel_cases
            { studio with registry := (studio.registry.register model feed).2 } model
          exact Switch.change switch (.registerModel model feed)

/-- Every operation changes the diagrams in one of these ways. -/
theorem perform_change (studio : Studio σ) (operation : Operation) :
    Change studio operation (operation.perform studio) := by
  cases operation with
  | registerModel model feed => exact studio.registerModel_change model feed
  | switchModel model => exact (studio.switchModel_cases model).change (.switchModel model)
  | setDiagram diagram => exact .shown diagram
  | saveDiagram =>
      rw [Operation.perform, saveDiagram_eq]
      exact .saved (.refl _)
  | setSerial serial =>
      exact .nothing ⟨rfl, rfl, rfl, Session.setSerial_model studio.session serial, rfl⟩
  | selectRobot serial => exact .nothing ⟨rfl, rfl, rfl, rfl, rfl⟩
  | setSelectionMode mode entitlement => exact .nothing ⟨rfl, rfl, rfl, rfl, rfl⟩
  | sendAction schedule code kind snapshot transport world =>
      exact .nothing ⟨rfl, rfl, rfl, rfl, rfl⟩
  | compile => exact .nothing studio.compile_sameDiagrams
  | preview limits hook sandbox =>
      rw [Operation.perform, previewWithin_studio]
      exact .nothing studio.compile_sameDiagrams

/-! ## Registered models -/

def Operation.registers (model : String) : Operation → Bool
  | registerModel other _ => other == model
  | _ => false

theorem any_registers {operations : List Operation} {model : String} :
    operations.any (Operation.registers model) = true ↔
      ∃ feed, .registerModel model feed ∈ operations := by
  rw [List.any_eq_true]
  constructor
  · rintro ⟨operation, mem, registers⟩
    cases operation with
    | registerModel other feed =>
        obtain rfl : other = model := beq_iff_eq.mp registers
        exact ⟨feed, mem⟩
    | _ => cases registers
  · rintro ⟨feed, mem⟩
    exact ⟨_, mem, beq_self_eq_true model⟩

theorem Switch.isRegistered {studio : Studio σ} {model : String}
    {outcome : Except Failure Bool × Studio σ} (switch : Switch studio model outcome)
    (other : String) :
    outcome.2.registry.isRegistered other = studio.registry.isRegistered other := by
  cases switch with
  | unregistered | unsaved | unloaded => rfl
  | edited | opened => exact Registry.isRegistered_setActive _ _ _

/-- A model is registered exactly when it was registered before, or is now. -/
theorem isRegistered_perform (studio : Studio σ) (operation : Operation) (model : String) :
    (operation.perform studio).registry.isRegistered model =
      (studio.registry.isRegistered model || operation.registers model) := by
  cases operation with
  | registerModel other feed =>
      have registered := Registry.isRegistered_register studio.registry other feed model
      rw [Operation.perform, Operation.registers, ← registered]
      cases current : studio.activeModel with
      | some edited =>
          rw [registerModel_edited current]
          exact Registry.isRegistered_setActive _ _ _
      | none =>
          cases known : studio.registry.isRegistered other with
          | true =>
              have old := Registry.register_fst studio.registry other feed
              rw [known] at old
              rw [registerModel_known current known, Registry.register_registered old]
          | false =>
              rw [registerModel_new current known]
              exact (switchModel_cases _ other).isRegistered model
  | switchModel other =>
      exact ((studio.switchModel_cases other).isRegistered model).trans (Bool.or_false _).symm
  | saveDiagram =>
      rw [Operation.perform, saveDiagram_eq]
      exact (Bool.or_false _).symm
  | preview limits hook sandbox =>
      rw [Operation.perform, previewWithin_studio]
      exact (Bool.or_false _).symm
  | setDiagram | setSerial | selectRobot | setSelectionMode | sendAction | compile =>
      exact (Bool.or_false _).symm

/-- The registered models are those that the operations have registered. -/
theorem isRegistered_after (start : Studio σ) (operations : List Operation) (model : String) :
    (start.after operations).registry.isRegistered model =
      (start.registry.isRegistered model || operations.any (Operation.registers model)) := by
  induction operations using List.reverseRecOn with
  | nil => exact (Bool.or_false _).symm
  | append_singleton operations operation ih =>
      rw [after_concat, isRegistered_perform, ih, List.any_append, List.any_cons, List.any_nil,
        Bool.or_false, Bool.or_assoc]

end Studio

end RobotBlocks
