import RobotBlocks.Proofs.Store.Listing
import RobotBlocks.Proofs.Studio.Operations

/-!
# Studios over a store that fails

A switch saves, then loads, and changes what is on screen only when both have succeeded.  So a
switch that fails leaves everything but the store as it was, and in the store it has at most saved
the diagram of the edited model.  A registration adds its model before it opens it, and does not
take it back: after a failure the model is registered but not edited, and registering it again does
not open it.
-/

namespace RobotBlocks

namespace Studio

open Store (Slots memory memory_hasSlots slotKey)

variable {σ : Type}

/-! ## Switches -/

/-- Saving what is on screen changes no slot but that of the edited model. -/
theorem saved_slots {studio : Studio σ} {slots : σ → Store.SlotKey → Option (List UInt8)}
    (hasSlots : studio.store.backend.HasSlots slots) {key : Store.SlotKey}
    (changed : slots studio.saved.2 key ≠ slots studio.kept key) :
    ∃ current, studio.activeModel = some current ∧
      key = slotKey studio.store.format studio.space current ∧
      slots studio.saved.2 key =
        some (studio.store.format.encode ⟨studio.space, current, studio.diagram⟩) := by
  unfold saved at changed ⊢
  cases edited : studio.activeModel with
  | none =>
      rw [edited] at changed
      exact absurd rfl changed
  | some current =>
      rw [edited] at changed
      simp only at changed ⊢
      rcases hasSlots.save studio.space current studio.diagram studio.kept with same | updated
      · rw [same] at changed
        exact absurd rfl changed
      · rw [updated] at changed ⊢
        by_cases own : key = slotKey studio.store.format studio.space current
        · subst own
          exact ⟨current, rfl, rfl, Function.update_self ..⟩
        · exact absurd (Function.update_of_ne own ..) changed

/-- A switch that does not succeed has saved what is on screen at most. -/
theorem Switch.failed {studio : Studio σ} {model : String}
    {outcome : Except Failure Bool × Studio σ} (switch : Switch studio model outcome)
    (failed : outcome.1 ≠ .ok true) :
    outcome.2 = { studio with kept := outcome.2.kept } ∧
      (outcome.2.kept = studio.kept ∨ outcome.2.kept = studio.saved.2) := by
  cases switch with
  | unregistered => exact ⟨rfl, .inl rfl⟩
  | unsaved | unloaded => exact ⟨rfl, .inr rfl⟩
  | edited | opened => exact absurd rfl failed

/-- A switch that succeeds edits its model and shows it in the palette. -/
theorem Switch.succeeded {studio : Studio σ} {model : String}
    {outcome : Except Failure Bool × Studio σ} (switch : Switch studio model outcome)
    (succeeded : outcome.1 = .ok true) :
    outcome.2.activeModel = some model ∧ outcome.2.registry.active = some model ∧
      (studio.activeModel ≠ some model →
        studio.store.load studio.space model outcome.2.kept = .ok outcome.2.diagram) := by
  cases switch with
  | unregistered | unsaved | unloaded => cases succeeded
  | edited registered current =>
      exact ⟨current, Registry.active_setActive registered, fun other => absurd current other⟩
  | opened registered _ _ loaded =>
      exact ⟨Session.setModel_model studio.session model, Registry.active_setActive registered,
        fun _ => loaded⟩

/--
Whatever the store does, a switch that fails or is refused changes nothing in a studio but what its
store has kept: diagram, edited model, robot, generator, registry and selection are as before.  Of
all slots only that of the edited model can be another one, and then it holds the document of the
diagram on screen, which is what a load gives if the format can give it back.  After a switch that
succeeds the model is edited and shown in the palette, with the diagram that is stored for it.
-/
theorem switchModel_atomic {studio : Studio σ}
    {slots : σ → Store.SlotKey → Option (List UInt8)}
    (hasSlots : studio.store.backend.HasSlots slots) (model : String) :
    let next := (studio.switchModel model).2
    ((studio.switchModel model).1 ≠ .ok true →
      next = { studio with kept := next.kept } ∧
      ∀ key, slots next.kept key ≠ slots studio.kept key →
        ∃ current, studio.activeModel = some current ∧
          key = slotKey studio.store.format studio.space current ∧
          slots next.kept key =
            some (studio.store.format.encode ⟨studio.space, current, studio.diagram⟩) ∧
          (studio.store.format.Holds ⟨studio.space, current, studio.diagram⟩ → ∀ found,
            studio.store.load studio.space current next.kept = .ok found →
              found = studio.diagram)) ∧
    ((studio.switchModel model).1 = .ok true →
      next.activeModel = some model ∧ next.registry.active = some model ∧
        (studio.activeModel ≠ some model →
          studio.store.load studio.space model next.kept = .ok next.diagram)) := by
  intro next
  have switch := studio.switchModel_cases model
  refine ⟨?_, switch.succeeded⟩
  intro failed
  obtain ⟨same, kept⟩ := switch.failed failed
  refine ⟨same, ?_⟩
  intro key changed
  have saved : next.kept = studio.saved.2 := by
    rcases kept with unsaved | saved
    · exact absurd (congrFun (congrArg slots unsaved) key) changed
    · exact saved
  rw [saved] at changed ⊢
  obtain ⟨current, edited, rfl, held⟩ := saved_slots hasSlots changed
  exact ⟨current, edited, rfl, held, fun holds _ loaded => hasSlots.load held holds loaded⟩

/-- While "alpha" is edited with a pause on screen, the slot of "beta" holds no document. -/
def besideJunk : Studio Slots where
  config := {}
  space := "u"
  store := ⟨memory, .json⟩
  kept := (∅ : Slots).insert (slotKey .json "u" "beta") [0]
  registry := Registry.after [.register "beta" {}, .register "alpha" {}]
  session := { model := some "alpha" }
  diagram := Store.pause ⟨0x3FE0000000000000⟩

theorem switchModel_atomic_besideJunk :
    memory.HasSlots (fun slots key => slots[key]?) ∧
      (besideJunk.switchModel "beta").1 ≠ .ok true ∧
      (besideJunk.switchModel "beta").2.activeModel = some "alpha" ∧
      (besideJunk.switchModel "beta").2.kept[slotKey .json "u" "alpha"]? =
        some (Format.json.encode ⟨"u", "alpha", Store.pause ⟨0x3FE0000000000000⟩⟩) := by
  have failed : (besideJunk.switchModel "beta").1 ≠ .ok true := by
    intro succeeded
    have answer := congrArg Except.toOption succeeded
    revert answer
    decide +kernel
  have changed : (besideJunk.switchModel "beta").2.kept[slotKey .json "u" "alpha"]? ≠
      besideJunk.kept[slotKey .json "u" "alpha"]? := by decide +kernel
  obtain ⟨same, slots⟩ := (@switchModel_atomic Slots besideJunk _ memory_hasSlots "beta").1 failed
  obtain ⟨current, active, -, held, -⟩ := slots _ changed
  obtain rfl : "alpha" = current := Option.some_inj.mp active
  exact ⟨memory_hasSlots, failed, congrArg activeModel same, held⟩

/-! ## Registrations -/

theorem openModel_eq_error {studio next : Studio σ} {model : String} {failure : Failure} :
    studio.openModel model = (.error failure, next) ↔
      studio.store.load studio.space model studio.kept = .error failure ∧ next = studio := by
  unfold openModel
  cases studio.store.load studio.space model studio.kept with
  | error other => simp [eq_comm]
  | ok diagram => simp

theorem openModel_loaded {studio : Studio σ} {model : String} {diagram : Diagram}
    (loaded : studio.store.load studio.space model studio.kept = .ok diagram) :
    studio.openModel model = (.ok true, { studio with
      diagram
      registry := (studio.registry.setActive model).2
      session := (studio.session.setModel model).2 }) := by
  unfold openModel
  rw [loaded]

/-- While no model is edited, a switch saves nothing and opens its model. -/
theorem switchModel_idle {studio : Studio σ} (idle : studio.activeModel = none) {model : String}
    (registered : studio.registry.isRegistered model = true) :
    studio.switchModel model = studio.openModel model := by
  have unchosen : studio.session.model = none := idle
  unfold switchModel saveDiagram
  simp [registered, unchosen]

/-- A registration fails when its model is the first to be edited and cannot be loaded. -/
theorem registerModel_eq_error {studio next : Studio σ} {model : String} {feed : Catalog.Feed}
    {failure : Failure} :
    studio.registerModel model feed = (.error failure, next) ↔
      studio.activeModel = none ∧ studio.registry.isRegistered model = false ∧
        studio.store.load studio.space model studio.kept = .error failure ∧
        next = { studio with registry := (studio.registry.register model feed).2 } := by
  cases idle : studio.activeModel with
  | some current =>
      rw [registerModel_edited idle]
      exact ⟨nofun, nofun⟩
  | none =>
      cases new : studio.registry.isRegistered model with
      | true =>
          rw [registerModel_known idle new]
          exact ⟨nofun, nofun⟩
      | false =>
          let added : Studio σ :=
            { studio with registry := (studio.registry.register model feed).2 }
          have registered : added.registry.isRegistered model = true :=
            studio.registry.isRegistered_register_self model feed
          rw [registerModel_new idle new, @switchModel_idle σ added idle model registered,
            openModel_eq_error]
          exact ⟨fun ⟨failed, same⟩ => ⟨rfl, rfl, failed, same⟩,
            fun ⟨_, _, failed, same⟩ => ⟨failed, same⟩⟩

/--
A registration fails exactly when no model is edited, its model is new, and the diagram of the model
cannot be loaded.  Diagram, edited model and selection are then as before, but the registration is
not undone: the registry has the model and shows it in the palette.  However the store may have
changed by then, registering the model again says that it is not new and opens nothing; only a
switch opens it, as soon as it can be loaded.
-/
theorem failed_registration_stays (studio next : Studio σ) (model : String) (feed : Catalog.Feed)
    (failure : Failure) :
    (studio.registerModel model feed = (.error failure, next) ↔
      studio.activeModel = none ∧ studio.registry.isRegistered model = false ∧
        studio.store.load studio.space model studio.kept = .error failure ∧
        next = { studio with registry := (studio.registry.register model feed).2 }) ∧
    (studio.registerModel model feed = (.error failure, next) →
      next.registry.isRegistered model = true ∧ next.registry.active = some model ∧
      ∀ kept, let later : Studio σ := { next with kept }
        (∀ again, later.registerModel model again = (.ok false, later)) ∧
        ∀ diagram, studio.store.load studio.space model kept = .ok diagram →
          ∃ opened, later.switchModel model = (.ok true, opened) ∧
            opened.activeModel = some model ∧ opened.diagram = diagram) := by
  refine ⟨registerModel_eq_error, ?_⟩
  intro failed
  obtain ⟨idle, new, -, rfl⟩ := registerModel_eq_error.mp failed
  have registered := studio.registry.isRegistered_register_self model feed
  refine ⟨registered, Registry.active_register new feed, ?_⟩
  intro kept later
  refine ⟨@registerModel_known σ later idle model registered, ?_⟩
  intro diagram loaded
  have opens := @openModel_loaded σ later model diagram loaded
  rw [@switchModel_idle σ later idle model registered, opens]
  exact ⟨_, rfl, Session.setModel_model _ model, rfl⟩

/-- A new studio whose store has bytes that are no document in the slot of "alpha". -/
def overJunk : Studio Slots :=
  new {} "u" ⟨memory, .json⟩ ((∅ : Slots).insert (slotKey .json "u" "alpha") [0])

theorem overJunk_fails :
    ∃ failure next, overJunk.registerModel "alpha" {} = (.error failure, next) := by
  have refused : (overJunk.registerModel "alpha" {}).1.toOption = none := by decide +kernel
  cases outcome : overJunk.registerModel "alpha" {} with
  | mk result next =>
      rw [outcome] at refused
      cases result with
      | error failure => exact ⟨failure, next, rfl⟩
      | ok added => cases refused

/-- Once the bytes are gone, the model is opened by a switch, and by no registration. -/
theorem failed_registration_stays_overJunk :
    ∃ failure next, overJunk.registerModel "alpha" {} = (.error failure, next) ∧
      next.registry.active = some "alpha" ∧
      ({ next with kept := (∅ : Slots) }.registerModel "alpha" {}).1 = .ok false ∧
      ∃ opened, { next with kept := (∅ : Slots) }.switchModel "alpha" = (.ok true, opened) := by
  obtain ⟨failure, next, failed⟩ := overJunk_fails
  obtain ⟨-, shown, later⟩ := (failed_registration_stays overJunk next "alpha" {} failure).2 failed
  obtain ⟨again, opens⟩ := later ∅
  obtain ⟨opened, switched, -⟩ := opens {} (Store.load_empty .json "u" "alpha")
  exact ⟨failure, next, failed, shown, congrArg Prod.fst (again {}), opened, switched⟩

/--
A failed registration is not undone: the registry need not be as before, and a model that can be
loaded by now need not be opened by registering it again.
-/
theorem failed_registration_not_undone :
    (¬∀ (σ : Type) (config : Config) (space : String) (store : Store σ) (kept : σ)
      (operations : List Operation) (model : String) (feed : Catalog.Feed) (failure : Failure)
      (next : Studio σ),
        let studio := (new config space store kept).after operations
        studio.registerModel model feed = (.error failure, next) →
          next.registry = studio.registry) ∧
    ¬∀ (σ : Type) (config : Config) (space : String) (store : Store σ) (kept : σ)
      (operations : List Operation) (model : String) (feed : Catalog.Feed) (failure : Failure)
      (next : Studio σ),
        let studio := (new config space store kept).after operations
        studio.registerModel model feed = (.error failure, next) →
          ∀ later diagram, store.load space model later = .ok diagram →
            ∃ added opened,
              { next with kept := later }.registerModel model feed = (.ok added, opened) ∧
                (studio.activeModel = none → opened.activeModel = some model) := by
  obtain ⟨failure, next, failed⟩ := overJunk_fails
  obtain ⟨-, -, -, left⟩ := registerModel_eq_error.mp failed
  have registered : next.registry.isRegistered "alpha" = true := by
    rw [left]
    decide +kernel
  constructor
  · intro undone
    have same := undone Slots {} "u" ⟨memory, .json⟩ _ [] "alpha" {} failure next failed
    rw [same] at registered
    cases registered
  · intro opens
    obtain ⟨added, opened, again, edited⟩ := opens Slots {} "u" ⟨memory, .json⟩ _ [] "alpha" {}
      failure next failed ∅ {} (Store.load_empty .json "u" "alpha")
    have idle : { next with kept := (∅ : Slots) }.activeModel = none := by
      rw [left]
      rfl
    rw [registerModel_known idle registered] at again
    obtain ⟨-, rfl⟩ := Prod.mk.inj again
    cases idle.symm.trans (edited rfl)

end Studio

end RobotBlocks
