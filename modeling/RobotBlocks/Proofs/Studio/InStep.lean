import RobotBlocks.Proofs.Studio.Operations

/-!
# Registry and session in step

A studio keeps its edited model in the session, and the registry keeps the models that there are and
the one that the palette shows.  Every registration moves the palette, and any operation can fail on
the store; still a model that is edited is always a registered one, the palette shows it, and it can
be compiled for.  Only a switch that succeeds edits another model.
-/

namespace RobotBlocks

open Store (Slots memory slotKey)

/-- A generator is there for a registered model. -/
theorem Session.build_registered {session : Session} {registry : Registry} {model : String}
    (chosen : session.model = some model) (registered : registry.isRegistered model = true) :
    ∃ generator, (session.build registry).1 = .ok generator := by
  obtain ⟨table, found⟩ := Option.isSome_iff_exists.mp registered
  have built : registry.generator model session.serial = .ok ⟨model, session.serial, table⟩ :=
    Registry.generator_eq_ok.mpr ⟨table, found, rfl⟩
  unfold build
  rw [chosen]
  simp only [built]
  cases session.current? with
  | none => exact ⟨_, rfl⟩
  | some generator => exact ⟨generator, rfl⟩

namespace Studio

variable {σ : Type}

/-! ## Events -/

/-- What happens to a studio: an operation on it, or a change of its store from outside. -/
inductive Event (σ : Type) : Type 1 where
  | performed (operation : Operation)
  | stored (kept : σ)

def Event.occur (studio : Studio σ) : Event σ → Studio σ
  | performed operation => operation.perform studio
  | stored kept => { studio with kept }

def following (start : Studio σ) (events : List (Event σ)) : Studio σ :=
  events.foldl Event.occur start

/-- What an operation does to the registry and to the edited model. -/
inductive Move (studio : Studio σ) : Operation → Studio σ → Prop where
  | stays {operation : Operation} {next : Studio σ} (registry : next.registry = studio.registry)
      (model : next.activeModel = studio.activeModel) : Move studio operation next
  | registers (model : String) (feed : Catalog.Feed) :
      Move studio (.registerModel model feed) (studio.registerModel model feed).2
  | switches (model : String) : Move studio (.switchModel model) (studio.switchModel model).2

theorem perform_move (studio : Studio σ) (operation : Operation) :
    Move studio operation (operation.perform studio) := by
  cases operation with
  | registerModel model feed => exact .registers model feed
  | switchModel model => exact .switches model
  | saveDiagram =>
      rw [Operation.perform, saveDiagram_eq]
      exact .stays rfl rfl
  | setSerial serial => exact .stays rfl (Session.setSerial_model studio.session serial)
  | compile => exact .stays rfl studio.compile_sameDiagrams.model
  | preview limits hook sandbox =>
      rw [Operation.perform, previewWithin_studio]
      exact .stays rfl studio.compile_sameDiagrams.model
  | setDiagram | selectRobot | setSelectionMode | sendAction => exact .stays rfl rfl

/-! ## Steps -/

/-- The model that is edited is registered, and the palette shows it. -/
def InStep (studio : Studio σ) : Prop :=
  ∀ model, studio.activeModel = some model →
    studio.registry.isRegistered model = true ∧ studio.registry.active = some model

theorem inStep_idle {studio : Studio σ} (idle : studio.activeModel = none) : studio.InStep := by
  intro model edited
  cases idle.symm.trans edited

theorem InStep.stays {studio next : Studio σ} (inStep : studio.InStep)
    (registry : next.registry = studio.registry) (model : next.activeModel = studio.activeModel) :
    next.InStep := by
  intro edited active
  rw [registry]
  exact inStep edited (model.symm.trans active)

theorem InStep.switch {studio : Studio σ} (inStep : studio.InStep) {model : String}
    {outcome : Except Failure Bool × Studio σ} (switch : Switch studio model outcome) :
    outcome.2.InStep := by
  cases switch with
  | unregistered | unsaved | unloaded => exact inStep.stays rfl rfl
  | edited registered current =>
      intro other active
      obtain rfl := Option.some_inj.mp (current.symm.trans active)
      exact ⟨(Registry.isRegistered_setActive ..).trans registered,
        Registry.active_setActive registered⟩
  | opened registered =>
      intro other active
      obtain rfl := Option.some_inj.mp
        ((Session.setModel_model studio.session model).symm.trans active)
      exact ⟨(Registry.isRegistered_setActive ..).trans registered,
        Registry.active_setActive registered⟩

/-- The edited model stays the edited one, unless the switch succeeds. -/
theorem Switch.moved {studio : Studio σ} {model : String}
    {outcome : Except Failure Bool × Studio σ} (switch : Switch studio model outcome)
    {current : String} (edited : studio.activeModel = some current) :
    outcome.2.activeModel = some current ∨
      outcome.1 = .ok true ∧ outcome.2.activeModel = some model := by
  cases switch with
  | unregistered | edited | unsaved | unloaded => exact .inl edited
  | opened => exact .inr ⟨rfl, Session.setModel_model studio.session model⟩

/-- While a model is edited, a registration succeeds and the palette stays on that model. -/
theorem InStep.register {studio : Studio σ} (inStep : studio.InStep) {current : String}
    (edited : studio.activeModel = some current) (model : String) (feed : Catalog.Feed) :
    ∃ registry, studio.registerModel model feed =
        (.ok !studio.registry.isRegistered model, { studio with registry }) ∧
      registry.isRegistered current = true ∧ registry.active = some current := by
  obtain ⟨registered, _⟩ := inStep current edited
  have still : (studio.registry.register model feed).2.isRegistered current = true := by
    rw [Registry.isRegistered_register, registered, Bool.true_or]
  have registers : studio.registerModel model feed =
      (.ok (studio.registry.register model feed).1, { studio with
        registry := ((studio.registry.register model feed).2.setActive current).2 }) :=
    registerModel_edited edited model feed
  rw [Registry.register_fst] at registers
  exact ⟨_, registers, (Registry.isRegistered_setActive ..).trans still,
    Registry.active_setActive still⟩

theorem InStep.registerModel {studio : Studio σ} (inStep : studio.InStep) (model : String)
    (feed : Catalog.Feed) : (studio.registerModel model feed).2.InStep := by
  cases current : studio.activeModel with
  | some edited =>
      obtain ⟨registry, registers, registered, shown⟩ := inStep.register current model feed
      rw [registers]
      intro other active
      obtain rfl := Option.some_inj.mp (current.symm.trans active)
      exact ⟨registered, shown⟩
  | none =>
      cases known : studio.registry.isRegistered model with
      | true =>
          rw [registerModel_known current known]
          exact inStep
      | false =>
          rw [registerModel_new current known]
          have idle : InStep { studio with registry := (studio.registry.register model feed).2 } :=
            inStep_idle current
          exact idle.switch (switchModel_cases _ model)

/-- Whatever happens, a studio stays in step. -/
theorem InStep.occur {studio : Studio σ} (inStep : studio.InStep) (event : Event σ) :
    (event.occur studio).InStep := by
  cases event with
  | stored kept => exact inStep.stays rfl rfl
  | performed operation =>
      have move := studio.perform_move operation
      rw [Event.occur]
      generalize operation.perform studio = next at move ⊢
      cases move with
      | stays registry model => exact inStep.stays registry model
      | registers model feed => exact inStep.registerModel model feed
      | switches model => exact inStep.switch (studio.switchModel_cases model)

/-- An edited model stays the edited one, unless a switch to another one succeeds. -/
theorem InStep.edited_occur {studio : Studio σ} (inStep : studio.InStep) {model : String}
    (edited : studio.activeModel = some model) (event : Event σ) :
    (event.occur studio).activeModel = some model ∨
      ∃ other, event = .performed (.switchModel other) ∧
        (studio.switchModel other).1 = .ok true ∧
        (event.occur studio).activeModel = some other := by
  cases event with
  | stored kept => exact .inl edited
  | performed operation =>
      have move := studio.perform_move operation
      rw [Event.occur]
      generalize operation.perform studio = next at move ⊢
      cases move with
      | stays _ same => exact .inl (same.trans edited)
      | registers other feed =>
          obtain ⟨registry, registers, _⟩ := inStep.register edited other feed
          rw [registers]
          exact .inl edited
      | switches other =>
          rcases (studio.switchModel_cases other).moved edited with same | ⟨done, opened⟩
          · exact .inl same
          · exact .inr ⟨other, rfl, done, opened⟩

/-- While a model is edited, nothing but a block of the diagram keeps it from being compiled. -/
theorem InStep.compile_blames {studio : Studio σ} (inStep : studio.InStep) {model : String}
    (edited : studio.activeModel = some model) {error : CompileError}
    (failed : studio.compile.1 = .error error) :
    ∃ block ∈ Block.listing studio.diagram.blocks, error.block? = some block.id := by
  obtain ⟨generator, built⟩ := Session.build_registered edited (inStep model edited).1
  have refused : ((studio.session.build studio.registry).1.bind fun generator =>
      generator.compile studio.diagram) = .error error := failed
  rw [built] at refused
  exact Generator.compile_blames refused

/-! ## Runs -/

theorem InStep.following {studio : Studio σ} (inStep : studio.InStep) (events : List (Event σ)) :
    (studio.following events).InStep := by
  induction events generalizing studio with
  | nil => exact inStep
  | cons event events ih => exact ih (inStep.occur event)

/-- Once a model is edited, there always is one that is. -/
theorem InStep.edited_following {studio : Studio σ} (inStep : studio.InStep) {model : String}
    (edited : studio.activeModel = some model) (events : List (Event σ)) :
    ∃ other, (studio.following events).activeModel = some other := by
  induction events generalizing studio model with
  | nil => exact ⟨model, edited⟩
  | cons event events ih =>
      rcases inStep.edited_occur edited event with same | ⟨other, _, _, opened⟩
      · exact ih (inStep.occur event) same
      · exact ih (inStep.occur event) opened

/--
Whatever has been done with a studio, and however its store has failed or changed meanwhile, a model
that is edited is registered and shown in the palette, and a compilation does not say that there is
no model or that the model is not registered.  From then on some model is always edited.  Another
one is edited only after a switch to it that says that it has succeeded; in particular a
registration leaves the edited model, the diagram and the model of the palette as they are.
-/
theorem edited_in_step (config : Config) (space : String) (store : Store σ) (kept : σ)
    (events : List (Event σ)) {model : String}
    (edited : ((new config space store kept).following events).activeModel = some model) :
    let studio := (new config space store kept).following events
    (studio.registry.isRegistered model = true ∧ studio.registry.active = some model ∧
      ∀ error, studio.compile.1 = .error error →
        error ≠ .noModel ∧ ∀ other, error ≠ .modelNotRegistered other) ∧
    (∀ later, ∃ other, (studio.following later).activeModel = some other) ∧
    (∀ event : Event σ, (event.occur studio).activeModel ≠ some model →
      ∃ other, event = .performed (.switchModel other) ∧
        (studio.switchModel other).1 = .ok true ∧
        (event.occur studio).activeModel = some other) ∧
    ∀ other feed, let next := (studio.registerModel other feed).2
      next.activeModel = some model ∧ next.diagram = studio.diagram ∧
        next.registry.active = studio.registry.active := by
  intro studio
  have inStep : studio.InStep := (inStep_idle rfl).following events
  obtain ⟨registered, shown⟩ := inStep model edited
  refine ⟨⟨registered, shown, ?_⟩, inStep.edited_following edited, ?_, ?_⟩
  · intro error failed
    obtain ⟨block, _, blamed⟩ := inStep.compile_blames edited failed
    constructor
    · rintro rfl
      cases blamed
    · rintro other rfl
      cases blamed
  · intro event changed
    exact (inStep.edited_occur edited event).resolve_left changed
  · intro other feed
    obtain ⟨registry, registers, _, active⟩ := inStep.register edited other feed
    rw [registers]
    exact ⟨edited, rfl, active.trans shown.symm⟩

/-- Two models are registered, and then the slot of the second one is spoilt. -/
def spoilt : List (Event Slots) := [
  .performed (.registerModel "alpha" {}),
  .performed (.registerModel "beta" {}),
  .stored ((∅ : Slots).insert (slotKey .json "u" "beta") [0]),
  .performed (.switchModel "beta")]

theorem edited_in_step_spoilt :
    let studio := (new {} "u" ⟨memory, .json⟩ ∅).following spoilt
    studio.activeModel = some "alpha" ∧ studio.registry.active = some "alpha" ∧
      ∀ error, studio.compile.1 = .error error → error ≠ .noModel := by
  intro studio
  have edited : studio.activeModel = some "alpha" := by decide +kernel
  obtain ⟨⟨_, shown, compiles⟩, _⟩ := edited_in_step {} "u" ⟨memory, .json⟩ ∅ spoilt edited
  exact ⟨edited, shown, fun error failed => (compiles error failed).1⟩

end Studio

end RobotBlocks
