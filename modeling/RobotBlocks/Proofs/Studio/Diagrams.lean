import RobotBlocks.Proofs.Store.Calls
import RobotBlocks.Proofs.Studio.Failures

/-!
# The diagrams of a studio

A studio shows the diagram of one model and keeps those of the others in its store.  Over a memory
no diagram is lost: whatever is done with a studio, each model comes back with the diagram that was
on screen when it was last edited.
-/

namespace RobotBlocks.Studio

open Store (Agrees Call Slot Slots memory memory_hasSlots slotKey)

variable {σ : Type}

/-! ## Diagrams on screen -/

/-- The diagram of a model, while it is on screen. -/
def shown? (studio : Studio σ) (model : String) : Option Diagram :=
  if studio.activeModel = some model then some studio.diagram else none

/-- The diagram of a model: the one on screen while the model is edited, or else the stored one. -/
def diagramOf (studio : Studio σ) (model : String) : Except Failure Diagram :=
  match studio.shown? model with
  | some diagram => .ok diagram
  | none => studio.store.load studio.space model studio.kept

/-- The store can give back the diagram that is on screen. -/
def Storable (studio : Studio σ) : Prop :=
  ∀ model ∈ studio.activeModel, studio.store.format.Holds ⟨studio.space, model, studio.diagram⟩

instance (studio : Studio σ) : Decidable studio.Storable :=
  inferInstanceAs (Decidable (∀ model ∈ studio.activeModel, _))

/-- The diagram that was on screen when a model was last edited; the search goes back in time. -/
def lastShown (start : Studio σ) (operations : List Operation) (model : String) :
    Option Diagram :=
  operations.inits.reverse.findSome? fun before => (start.after before).shown? model

/-- What was shown last for every model, once another studio is on screen. -/
def revised (next : Studio σ) (shown : String → Option Diagram) (model : String) :
    Option Diagram :=
  (next.shown? model).or (shown model)

theorem shown?_edited {studio : Studio σ} {model : String}
    (edited : studio.activeModel = some model) : studio.shown? model = some studio.diagram :=
  if_pos edited

theorem shown?_other {studio : Studio σ} {model : String}
    (other : studio.activeModel ≠ some model) : studio.shown? model = none :=
  if_neg other

theorem revised_edited {next : Studio σ} {model : String} (edited : next.activeModel = some model)
    (shown : String → Option Diagram) : next.revised shown model = some next.diagram := by
  unfold revised
  rw [shown?_edited edited, Option.some_or]

theorem revised_other {next : Studio σ} {model : String} (other : next.activeModel ≠ some model)
    (shown : String → Option Diagram) : next.revised shown model = shown model := by
  unfold revised
  rw [shown?_other other, Option.none_or]

theorem lastShown_concat (start : Studio σ) (operations : List Operation)
    (operation : Operation) :
    lastShown start (operations ++ [operation]) =
      revised (operation.perform (start.after operations)) (lastShown start operations) := by
  funext model
  have last : (operations ++ [operation]).inits = operations.inits ++ [operations ++ [operation]] :=
    List.inits_append operations [operation]
  unfold lastShown revised
  rw [last, List.reverse_append, List.reverse_singleton, List.singleton_append,
    List.findSome?_cons, after_concat]
  cases (operation.perform (start.after operations)).shown? model <;> rfl

/-! ## Studios over a memory -/

def fresh (config : Config) (space : String) (format : Format) : Studio Slots :=
  { config, space, store := ⟨memory, format⟩, kept := ∅ }

/-- The memory holds what was shown last for every model but the one that is edited. -/
structure Remembers (format : Format) (studio : Studio Slots)
    (shown : String → Option Diagram) : Prop where
  store : studio.store = ⟨memory, format⟩
  current : ∀ {model}, studio.activeModel = some model → shown model = some studio.diagram
  stored : ∃ kept, Agrees studio.kept kept ∧
    ∀ model, studio.activeModel ≠ some model → kept ⟨format, studio.space, model⟩ = shown model

section

variable {format : Format} {studio next : Studio Slots} {shown : String → Option Diagram}

theorem Remembers.same (remembers : Remembers format studio shown)
    (same : SameDiagrams studio next) : Remembers format next shown where
  store := same.store.trans remembers.store
  current := by
    intro model edited
    rw [same.diagram]
    exact remembers.current (same.model.symm.trans edited)
  stored := by
    rw [same.kept, same.space, same.model]
    exact remembers.stored

/-- What is on screen was shown last. -/
theorem Remembers.revised (remembers : Remembers format studio shown) :
    studio.revised shown = shown := by
  funext model
  by_cases edited : studio.activeModel = some model
  · rw [revised_edited edited, remembers.current edited]
  · rw [revised_other edited]

theorem Remembers.stays (remembers : Remembers format studio shown) :
    Remembers format studio (studio.revised shown) ∧
      ∀ model, (studio.revised shown model).getD {} = (shown model).getD {} := by
  rw [remembers.revised]
  exact ⟨remembers, fun _ => rfl⟩

/-- Every model has the diagram that was shown last for it. -/
theorem Remembers.diagramOf (remembers : Remembers format studio shown) (model : String) :
    studio.diagramOf model = .ok ((shown model).getD {}) := by
  unfold Studio.diagramOf
  by_cases edited : studio.activeModel = some model
  · rw [shown?_edited edited, remembers.current edited]
    rfl
  · obtain ⟨kept, agrees, stored⟩ := remembers.stored
    rw [shown?_other edited, remembers.store, ← stored model edited]
    exact agrees.load format studio.space model

/-- A save succeeds, and then the memory holds what was shown last for every model. -/
theorem Remembers.saved (remembers : Remembers format studio shown)
    (storable : studio.Storable) :
    studio.saved.1 = .ok () ∧ ∃ kept, Agrees studio.saved.2 kept ∧
      ∀ model, kept ⟨format, studio.space, model⟩ = shown model := by
  obtain ⟨kept, agrees, stored⟩ := remembers.stored
  unfold Studio.saved
  cases current : studio.activeModel with
  | none =>
      refine ⟨rfl, kept, agrees, ?_⟩
      intro model
      exact stored model (by simp [current])
  | some edited =>
      have holds := storable edited current
      rw [remembers.store] at holds ⊢
      let slot : Slot := ⟨format, studio.space, edited⟩
      have saved := @Agrees.save studio.kept kept agrees slot studio.diagram holds
      refine ⟨rfl, _, saved, ?_⟩
      intro model
      by_cases own : edited = model
      · subst own
        exact (if_pos rfl).trans (remembers.current current).symm
      · have elsewhere : slot ≠ ⟨format, studio.space, model⟩ := fun same =>
          own (Slot.mk.inj same).2.2
        have other : studio.activeModel ≠ some model := by simp [current, own]
        exact (if_neg elsewhere).trans (stored model other)

theorem Remembers.loaded (remembers : Remembers format studio shown)
    (storable : studio.Storable) (model : String) :
    studio.store.load studio.space model studio.saved.2 = .ok ((shown model).getD {}) := by
  obtain ⟨_, kept, agrees, stored⟩ := remembers.saved storable
  rw [remembers.store, ← stored model]
  exact agrees.load format studio.space model

theorem Remembers.save (remembers : Remembers format studio shown) (storable : studio.Storable) :
    Remembers format { studio with kept := studio.saved.2 } shown where
  store := remembers.store
  current := remembers.current
  stored := by
    obtain ⟨_, kept, agrees, stored⟩ := remembers.saved storable
    exact ⟨kept, agrees, fun model _ => stored model⟩

theorem Remembers.setDiagram (remembers : Remembers format studio shown) (diagram : Diagram) :
    Remembers format { studio with diagram } (Studio.revised { studio with diagram } shown) where
  store := remembers.store
  current := fun edited => revised_edited edited shown
  stored := by
    obtain ⟨kept, agrees, stored⟩ := remembers.stored
    refine ⟨kept, agrees, ?_⟩
    intro model other
    exact (stored model other).trans (revised_other other shown).symm

/-- Opening a model shows nothing new: its diagram is the one that was shown last for it. -/
theorem Remembers.opened (remembers : Remembers format studio shown)
    (storable : studio.Storable) {model : String} (opened : next.activeModel = some model)
    (store : next.store = studio.store) (space : next.space = studio.space)
    (kept : next.kept = studio.saved.2) (diagram : next.diagram = (shown model).getD {}) :
    Remembers format next (next.revised shown) ∧
      ∀ other, (next.revised shown other).getD {} = (shown other).getD {} := by
  obtain ⟨_, held, agrees, stored⟩ := remembers.saved storable
  constructor
  · refine ⟨store.trans remembers.store, fun active => revised_edited active shown, held,
      kept ▸ agrees, ?_⟩
    intro other elsewhere
    rw [revised_other elsewhere, space, stored]
  · intro other
    by_cases own : model = other
    · subst own
      rw [revised_edited opened, diagram]
      rfl
    · rw [revised_other (by simp [opened, own])]

/--
After any change the memory still holds what was shown last, and what was shown last for a model is
another diagram only if that diagram was set.
-/
theorem Remembers.change (remembers : Remembers format studio shown)
    (storable : studio.Storable) {operation : Operation}
    (change : Change studio operation next) :
    Remembers format next (next.revised shown) ∧ ∀ model,
      (∀ diagram, operation = .setDiagram diagram → studio.activeModel ≠ some model) →
        (next.revised shown model).getD {} = (shown model).getD {} := by
  cases change with
  | nothing same =>
      obtain ⟨after, others⟩ := (remembers.same same).stays
      exact ⟨after, fun model _ => others model⟩
  | saved same =>
      obtain ⟨after, others⟩ := ((remembers.save storable).same same).stays
      exact ⟨after, fun model _ => others model⟩
  | shown diagram =>
      refine ⟨remembers.setDiagram diagram, ?_⟩
      intro model another
      have other : ({ studio with diagram } : Studio Slots).activeModel ≠ some model :=
        another diagram rfl
      rw [revised_other other]
  | @opened _ _ model diagram _ _ loaded same =>
      obtain rfl := Except.ok.inj ((remembers.loaded storable model).symm.trans loaded)
      have edited := same.model.trans (Session.setModel_model studio.session model)
      obtain ⟨after, others⟩ :=
        remembers.opened storable edited same.store same.space same.kept same.diagram
      exact ⟨after, fun other _ => others other⟩

/-- A switch to a registered model shows what was shown last for it. -/
theorem Remembers.switch (remembers : Remembers format studio shown)
    (storable : studio.Storable) {model : String}
    (registered : studio.registry.isRegistered model = true) :
    ∃ next, studio.switchModel model = (.ok true, next) ∧ next.activeModel = some model ∧
      next.diagram = (shown model).getD {} := by
  obtain ⟨done, _⟩ := remembers.saved storable
  have found := remembers.loaded storable model
  have switch := studio.switchModel_cases model
  generalize studio.switchModel model = outcome at switch ⊢
  cases switch with
  | unregistered absent => cases absent.symm.trans registered
  | edited _ current =>
      refine ⟨_, rfl, current, ?_⟩
      rw [remembers.current current]
      rfl
  | unsaved _ _ failed => cases failed.symm.trans done
  | unloaded _ _ _ failed => cases failed.symm.trans found
  | opened _ _ _ loaded =>
      exact ⟨_, rfl, Session.setModel_model studio.session model,
        Except.ok.inj (loaded.symm.trans found)⟩

end

/-- What the store keeps changes by saves only. -/
theorem Change.kept {studio next : Studio σ} {operation : Operation}
    (change : Change studio operation next) :
    next.kept = studio.kept ∨ next.kept = studio.saved.2 := by
  cases change with
  | nothing same => exact .inl same.kept
  | shown => exact .inl rfl
  | saved same => exact .inr same.kept
  | opened _ _ _ same => exact .inr same.kept

/-- A save into a memory changes the slot of the edited model only. -/
theorem saved_elsewhere {format : Format} {studio : Studio Slots}
    (store : studio.store = ⟨memory, format⟩) {key : Store.SlotKey}
    (elsewhere : ∀ model ∈ studio.activeModel, key ≠ slotKey format studio.space model) :
    studio.saved.2[key]? = studio.kept[key]? := by
  by_contra changed
  have hasSlots : studio.store.backend.HasSlots fun slots key => slots[key]? := by
    rw [store]
    exact memory_hasSlots
  obtain ⟨current, edited, own, -⟩ := saved_slots hasSlots changed
  rw [store] at own
  exact elsewhere current edited own

/-! ## Runs -/

theorem space_perform (studio : Studio σ) (operation : Operation) :
    (operation.perform studio).space = studio.space := by
  cases studio.perform_change operation with
  | nothing same => exact same.space
  | shown => rfl
  | saved same => exact same.space
  | opened _ _ _ same => exact same.space

theorem space_after (start : Studio σ) (operations : List Operation) :
    (start.after operations).space = start.space := by
  induction operations using List.reverseRecOn with
  | nil => rfl
  | append_singleton operations operation ih => rw [after_concat, space_perform, ih]

/-- As long as all diagrams on screen can be stored, the memory holds what was shown last. -/
theorem remembers_after (config : Config) (space : String) (format : Format)
    {operations : List Operation}
    (storable : ∀ before ∈ operations.inits, ((fresh config space format).after before).Storable) :
    Remembers format ((fresh config space format).after operations)
      (lastShown (fresh config space format) operations) := by
  induction operations using List.reverseRecOn with
  | nil => exact ⟨rfl, nofun, _, Store.agrees_empty, fun _ _ => rfl⟩
  | append_singleton operations operation ih =>
      have earlier : ∀ before ∈ operations.inits,
          ((fresh config space format).after before).Storable := by
        intro before beginning
        apply storable before
        rw [List.mem_inits] at beginning ⊢
        exact beginning.trans (List.prefix_append operations [operation])
      have now := earlier operations ((List.mem_inits _ _).mpr List.prefix_rfl)
      rw [after_concat, lastShown_concat]
      exact ((ih earlier).change now (perform_change _ operation)).1

/--
Over a memory of binary documents no diagram is lost.  Whatever was done with a studio, a switch to
any registered model succeeds and shows the diagram that was on screen when that model was last
edited, or the empty one if it never was; on the edited model it keeps the diagram.  An operation
changes no model's diagram, except that the edited model can be shown another one, and no slot but
that of the edited model.  All that is assumed is that the documents of the diagrams on screen fit
into memory.
-/
theorem diagrams_kept (config : Config) (space : String) {operations : List Operation}
    (storable : ∀ before ∈ operations.inits, ((fresh config space .binary).after before).Storable) :
    let start := fresh config space .binary
    let studio := start.after operations
    (∀ model, studio.registry.isRegistered model = true ↔
      ∃ feed, .registerModel model feed ∈ operations) ∧
    (∀ model, studio.registry.isRegistered model = true →
      ∃ next, studio.switchModel model = (.ok true, next) ∧ next.activeModel = some model ∧
        next.diagram = (lastShown start operations model).getD {} ∧
        (studio.activeModel = some model → next.diagram = studio.diagram)) ∧
    (∀ model, studio.diagramOf model = .ok ((lastShown start operations model).getD {})) ∧
    (∀ (operation : Operation) model,
      (∀ diagram, operation = .setDiagram diagram → studio.activeModel ≠ some model) →
        (operation.perform studio).diagramOf model = studio.diagramOf model) ∧
    ∀ (operation : Operation) (key : Store.SlotKey),
      (∀ model ∈ studio.activeModel, key ≠ slotKey .binary space model) →
        (operation.perform studio).kept[key]? = studio.kept[key]? := by
  intro start studio
  have remembers : Remembers .binary studio (lastShown start operations) :=
    remembers_after config space .binary storable
  have now : studio.Storable := storable operations ((List.mem_inits _ _).mpr List.prefix_rfl)
  refine ⟨?_, ?_, remembers.diagramOf, ?_, ?_⟩
  · intro model
    rw [isRegistered_after, Bool.or_eq_true, any_registers]
    exact or_iff_right nofun
  · intro model registered
    obtain ⟨next, switched, opened, shown⟩ := remembers.switch now registered
    refine ⟨next, switched, opened, shown, ?_⟩
    intro edited
    rw [shown, remembers.current edited]
    rfl
  · intro operation model another
    obtain ⟨after, others⟩ := remembers.change now (perform_change studio operation)
    rw [after.diagramOf, remembers.diagramOf, others model another]
  · intro operation key elsewhere
    rcases (perform_change studio operation).kept with same | saved
    · rw [same]
    · rw [saved]
      refine saved_elsewhere remembers.store ?_
      rw [space_after]
      exact elsewhere

/-- A wait that is no number is drawn for a model before another model is switched to. -/
def drawnAndLeft : List Operation := [
  .registerModel "alpha" {},
  .registerModel "beta" {},
  .setDiagram (Store.pause ⟨0x7FF8000000000000⟩),
  .switchModel "beta"]

theorem diagrams_kept_drawnAndLeft :
    ∃ next, ((fresh {} "u" .binary).after drawnAndLeft).switchModel "alpha" = (.ok true, next) ∧
      next.diagram = Store.pause ⟨0x7FF8000000000000⟩ := by
  have kept := @diagrams_kept {} "u" drawnAndLeft (by decide +kernel)
  have known := (kept.1 "alpha").mpr ⟨{}, List.mem_cons_self⟩
  obtain ⟨next, switched, _, shown, _⟩ := kept.2.1 "alpha" known
  exact ⟨next, switched, shown.trans (by with_unfolding_all rfl)⟩

end RobotBlocks.Studio
