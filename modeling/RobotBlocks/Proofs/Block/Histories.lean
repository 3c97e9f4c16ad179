import RobotBlocks.Proofs.Block.Registry

/-!
# What a registry has become

A registry answers every call with whether the call was granted.  A refused call changes nothing,
and the latest granted one has chosen the model of the palette.  The tables are kept in the order of
their models, so that they do not tell in which order the models were registered.
-/

namespace RobotBlocks.Registry

open Catalog (Feed)

/-! ## The order of tables -/

/-- The tables are in the strict order of their models. -/
def Ordered (tables : List (String × Table)) : Prop :=
  tables.Pairwise fun first second => first.1 < second.1

theorem mem_insertTable {model : String} {table : Table} {tables : List (String × Table)}
    {entry : String × Table} :
    entry ∈ insertTable model table tables ↔ entry = (model, table) ∨ entry ∈ tables := by
  induction tables with
  | nil => exact List.mem_cons
  | cons first rest ih =>
      rw [insertTable]
      split
      · exact List.mem_cons
      · rw [List.mem_cons, ih, List.mem_cons]
        exact or_left_comm

/-- A table for a model of its own keeps the order. -/
theorem Ordered.insertTable {tables : List (String × Table)} (ordered : Ordered tables)
    {model : String} (absent : ∀ entry ∈ tables, entry.1 ≠ model) (table : Table) :
    Ordered (insertTable model table tables) := by
  induction tables with
  | nil => exact List.pairwise_singleton _ _
  | cons first rest ih =>
      obtain ⟨key, old⟩ := first
      obtain ⟨lowest, orderedRest⟩ := List.pairwise_cons.mp ordered
      rw [Registry.insertTable]
      split
      · rename_i lower
        refine List.pairwise_cons.mpr ⟨?_, ordered⟩
        intro entry mem
        rcases List.mem_cons.mp mem with rfl | later
        · exact lower
        · exact String.lt_trans lower (lowest entry later)
      · rename_i notLower
        have above : key < model := by
          rcases Std.lt_trichotomy model key with lower | same | above
          · exact absurd lower notLower
          · exact absurd same.symm (absent _ List.mem_cons_self)
          · exact above
        refine List.pairwise_cons.mpr ⟨?_, ih orderedRest ?_⟩
        · intro entry mem
          rcases mem_insertTable.mp mem with rfl | later
          · exact above
          · exact lowest entry later
        · exact fun entry mem => absent entry (List.mem_cons_of_mem _ mem)

theorem Ordered.models {registry : Registry} (ordered : Ordered registry.tables) :
    registry.models.Pairwise (· < ·) :=
  List.pairwise_map.mpr ordered

/-- A registered model is one that a table is listed for. -/
theorem mem_models {registry : Registry} {model : String} :
    model ∈ registry.models ↔ registry.isRegistered model = true := by
  unfold models isRegistered table?
  rw [Option.isSome_map, List.find?_isSome, List.mem_map]
  simp only [beq_iff_eq]

/-- Tables that are in order are found under their models. -/
theorem Ordered.table?_eq_some {registry : Registry} (ordered : Ordered registry.tables)
    {model : String} {table : Table} :
    registry.table? model = some table ↔ (model, table) ∈ registry.tables := by
  have distinct : registry.models.Nodup := by
    refine List.nodup_iff_pairwise_ne.mpr (ordered.models.imp ?_)
    rintro model _ less rfl
    exact String.lt_irrefl model less
  unfold table?
  rw [Option.map_eq_some_iff]
  constructor
  · rintro ⟨⟨key, own⟩, found, rfl⟩
    obtain ⟨mem, rfl⟩ := (find?_key_eq_some distinct).mp found
    exact mem
  · intro mem
    exact ⟨_, (find?_key_eq_some distinct).mpr ⟨mem, rfl⟩, rfl⟩

/-- Tables that are in order are told by what is found under each model. -/
theorem Ordered.ext {registry other : Registry} (ordered : Ordered registry.tables)
    (otherOrdered : Ordered other.tables)
    (same : ∀ model, registry.table? model = other.table? model) :
    registry.tables = other.tables := by
  have apart {tables : List (String × Table)} (ordered : Ordered tables) : tables.Nodup := by
    refine List.nodup_iff_pairwise_ne.mpr (ordered.imp ?_)
    rintro entry _ less rfl
    exact String.lt_irrefl entry.1 less
  have members : ∀ entry, entry ∈ registry.tables ↔ entry ∈ other.tables := by
    intro entry
    rw [← ordered.table?_eq_some, same, otherOrdered.table?_eq_some]
  have perm := (List.perm_ext_iff_of_nodup (apart ordered) (apart otherOrdered)).mpr members
  exact perm.eq_of_pairwise (fun first second _ _ less more =>
    absurd less (String.lt_asymm more)) ordered otherOrdered

/-! ## Single calls -/

theorem Ordered.register {registry : Registry} (ordered : Ordered registry.tables)
    (model : String) (feed : Feed) : Ordered (registry.register model feed).2.tables := by
  unfold Registry.register
  split
  · exact ordered
  · rename_i unregistered
    refine ordered.insertTable (fun entry mem same => unregistered ?_) _
    exact mem_models.mp (same ▸ List.mem_map_of_mem mem)

/-- Showing a model leaves the tables as they are; a refusal leaves the shown model, too. -/
theorem setActive_cases (registry : Registry) (model : String) :
    (registry.isRegistered model = true ∧
      registry.setActive model = (true, { registry with active := some model })) ∨
    (registry.isRegistered model = false ∧ registry.setActive model = (false, registry)) := by
  unfold setActive
  cases registry.isRegistered model with
  | true => exact .inl ⟨rfl, rfl⟩
  | false => exact .inr ⟨rfl, rfl⟩

namespace Operation

def answer (registry : Registry) : Operation → Bool
  | register model feed => (registry.register model feed).1
  | setActive model => (registry.setActive model).1

def model : Operation → String
  | register model _ => model
  | setActive model => model

end Operation

/-- A refused operation changes nothing. -/
theorem perform_refused {registry : Registry} {operation : Operation}
    (refused : operation.answer registry = false) : operation.perform registry = registry := by
  cases operation with
  | register model feed => exact register_registered refused
  | setActive model =>
      change (registry.setActive model).1 = false at refused
      change (registry.setActive model).2 = registry
      rcases registry.setActive_cases model with ⟨_, shown⟩ | ⟨_, same⟩
      · rw [shown] at refused
        cases refused
      · rw [same]

/-- A granted operation shows its model, which is registered from then on. -/
theorem perform_granted {registry : Registry} {operation : Operation}
    (granted : operation.answer registry = true) :
    (operation.perform registry).active = some operation.model ∧
      (operation.perform registry).isRegistered operation.model = true := by
  cases operation with
  | register model feed =>
      change (registry.register model feed).1 = true at granted
      rw [register_fst, Bool.not_eq_true'] at granted
      exact ⟨active_register granted feed, isRegistered_register_self registry model feed⟩
  | setActive model =>
      change (registry.setActive model).1 = true at granted
      rcases registry.setActive_cases model with ⟨registered, _⟩ | ⟨_, same⟩
      · exact ⟨active_setActive registered,
          (isRegistered_setActive registry model model).trans registered⟩
      · rw [same] at granted
        cases granted

theorem Ordered.perform {registry : Registry} (ordered : Ordered registry.tables)
    (operation : Operation) : Ordered (operation.perform registry).tables := by
  cases operation with
  | register model feed => exact ordered.register model feed
  | setActive model =>
      change Ordered (registry.setActive model).2.tables
      rcases registry.setActive_cases model with ⟨_, shown⟩ | ⟨_, same⟩
      · rw [shown]
        exact ordered
      · rw [same]
        exact ordered

/-! ## Histories -/

theorem ordered_after (operations : List Operation) : Ordered (after operations).tables := by
  induction operations using List.reverseRecOn with
  | nil => exact List.Pairwise.nil
  | append_singleton operations operation ih =>
      rw [after_concat]
      exact ih.perform operation

theorem firstFeed?_eq_none {operations : List Operation} {model : String} :
    firstFeed? operations model = none ↔ ∀ feed, .register model feed ∉ operations := by
  unfold firstFeed?
  rw [List.findSome?_eq_none_iff]
  constructor
  · intro none feed mem
    have given := none _ mem
    simp [Operation.feed?] at given
  · intro absent operation mem
    cases operation with
    | register other feed =>
        have different : other ≠ model := by
          rintro rfl
          exact absent feed mem
        simp [Operation.feed?, different]
    | setActive other => rfl

/-- The registered models are those that were registered some time. -/
theorem isRegistered_after {operations : List Operation} {model : String} :
    (after operations).isRegistered model = true ↔ ∃ feed, .register model feed ∈ operations := by
  unfold isRegistered
  rw [table?_after, Option.isSome_map, ← not_iff_not, Bool.not_eq_true, Option.isSome_eq_false_iff,
    Option.isNone_iff_eq_none, firstFeed?_eq_none, not_exists]

/-! ## The shown model -/

/-- The model of the palette is registered, and there is one as soon as any model is. -/
structure ShowsRegistered (registry : Registry) : Prop where
  registered : ∀ {model}, registry.active = some model → registry.isRegistered model = true
  none : registry.active = none → ∀ model, registry.isRegistered model = false

theorem showsRegistered_after (operations : List Operation) :
    ShowsRegistered (after operations) := by
  induction operations using List.reverseRecOn with
  | nil => exact ⟨nofun, fun _ _ => rfl⟩
  | append_singleton operations operation ih =>
      rw [after_concat]
      cases answered : operation.answer (after operations) with
      | true =>
          obtain ⟨shown, registered⟩ := perform_granted answered
          constructor
          · intro model active
            cases shown.symm.trans active
            exact registered
          · intro hidden
            cases shown.symm.trans hidden
      | false =>
          rw [perform_refused answered]
          exact ih

/-- The latest operation that was granted is about the model. -/
def LastGranted (operations : List Operation) (model : String) : Prop :=
  ∃ before operation later, operations = before ++ operation :: later ∧
    operation.answer (after before) = true ∧ operation.model = model ∧
    ∀ front other back, later = front ++ other :: back →
      other.answer (after (before ++ operation :: front)) = false

theorem LastGranted.refused {operations : List Operation} {model : String}
    (last : LastGranted operations model) {operation : Operation}
    (refused : operation.answer (after operations) = false) :
    LastGranted (operations ++ [operation]) model := by
  obtain ⟨before, granted, later, rfl, yes, same, no⟩ := last
  refine ⟨before, granted, later ++ [operation], ?_, yes, same, ?_⟩
  · rw [List.append_assoc, List.cons_append]
  · intro front other back split
    rcases List.eq_nil_or_concat' back with rfl | ⟨back, final, rfl⟩
    · obtain ⟨rfl, ends⟩ := List.append_inj' split rfl
      cases ends
      exact refused
    · rw [← List.cons_append, ← List.append_assoc] at split
      exact no front other back (List.append_inj' split rfl).1

/-- Refused operations leave a registry as it was before all of them. -/
theorem after_refused {before later : List Operation}
    (refused : ∀ front other back, later = front ++ other :: back →
      other.answer (after (before ++ front)) = false) :
    after (before ++ later) = after before := by
  induction later using List.reverseRecOn with
  | nil => rw [List.append_nil]
  | append_singleton later final ih =>
      have same : after (before ++ later) = after before := by
        apply ih
        rintro front other back rfl
        exact refused front other (back ++ [final]) (List.append_assoc _ _ _)
      rw [← List.append_assoc, after_concat, perform_refused (refused later final [] rfl), same]

/-- The palette shows the model of the latest operation that was granted. -/
theorem active_after {operations : List Operation} {model : String} :
    (after operations).active = some model ↔ LastGranted operations model := by
  constructor
  · intro shown
    induction operations using List.reverseRecOn with
    | nil => cases shown
    | append_singleton operations operation ih =>
        rw [after_concat] at shown
        cases answered : operation.answer (after operations) with
        | true =>
            cases (perform_granted answered).1.symm.trans shown
            exact ⟨operations, operation, [], rfl, answered, rfl, by simp⟩
        | false =>
            rw [perform_refused answered] at shown
            exact (ih shown).refused answered
  · rintro ⟨before, operation, later, rfl, granted, rfl, refused⟩
    have settled : after (before ++ [operation] ++ later) = after (before ++ [operation]) := by
      apply after_refused
      intro front other back split
      rw [← List.append_cons]
      exact refused front other back split
    rw [List.append_cons, settled, after_concat]
    exact (perform_granted granted).1

/-! ## Everything a history decides -/

/--
A registration is granted exactly if it is the first one of its model, and it settles the table of
the model for good.  A refused call changes nothing.  The palette shows the model of the latest call
that was granted, and none if nothing was registered.  The models are listed in strict order, and
histories in which every model has the same first feed lead to the same tables, whatever the order.
-/
theorem state_by_history (operations : List Operation) :
    (∀ before model feed later, operations = before ++ .register model feed :: later →
      ((Operation.register model feed).answer (after before) = true ↔
        ∀ earlier, .register model earlier ∉ before) ∧
      ((Operation.register model feed).answer (after before) = true →
        (after operations).table? model = some (.ofFeed feed) ∧
        ∀ blockType, (after operations).definition? model blockType =
          (Table.ofFeed feed).get? blockType)) ∧
    (∀ operation : Operation, operation.answer (after operations) = false →
      operation.perform (after operations) = after operations) ∧
    ((after operations).active = none ↔ ∀ model feed, .register model feed ∉ operations) ∧
    (∀ model, (after operations).active = some model ↔ LastGranted operations model) ∧
    (∀ model, (after operations).active = some model →
      (after operations).isRegistered model = true) ∧
    (after operations).models.Pairwise (· < ·) ∧
    (∀ model, model ∈ (after operations).models ↔ ∃ feed, .register model feed ∈ operations) ∧
    ∀ others, (∀ model, firstFeed? operations model = firstFeed? others model) →
      (after operations).tables = (after others).tables := by
  have shows := showsRegistered_after operations
  refine ⟨fun before model feed later split => ?_, fun _ => perform_refused, ?_,
    fun _ => active_after, fun _ => shows.registered, (ordered_after operations).models,
    fun model => mem_models.trans isRegistered_after, fun others same => ?_⟩
  · have granted : (Operation.register model feed).answer (after before) = true ↔
        ∀ earlier, .register model earlier ∉ before := by
      change ((after before).register model feed).1 = true ↔ _
      rw [register_fst, Bool.not_eq_true', ← Bool.not_eq_true, isRegistered_after, not_exists]
    refine ⟨granted, fun yes => ?_⟩
    have found : (after operations).table? model = some (.ofFeed feed) := by
      have first : firstFeed? before model = none := firstFeed?_eq_none.mpr (granted.mp yes)
      unfold firstFeed? at first
      rw [table?_after, split, firstFeed?, List.findSome?_append, first]
      simp [Operation.feed?]
    refine ⟨found, fun blockType => ?_⟩
    rw [definition?, found, Option.bind_some]
  · constructor
    · intro hidden model feed mem
      have registered := isRegistered_after.mpr ⟨feed, mem⟩
      rw [shows.none hidden model] at registered
      cases registered
    · intro absent
      cases shown : (after operations).active with
      | none => rfl
      | some model =>
          obtain ⟨feed, mem⟩ := isRegistered_after.mp (shows.registered shown)
          exact absurd mem (absent model feed)
  · refine (ordered_after operations).ext (ordered_after others) fun model => ?_
    rw [table?_after, table?_after, same]

/-- Two models, a call for an unknown one, and a second feed for a model that is registered. -/
def mixedHistory : List Operation := [
  .register "b" {},
  .register "a" { dances := [⟨"x", "Waltz", 30, true, none⟩] },
  .setActive "c",
  .setActive "b",
  .register "a" { skills := [⟨"y", "Juggle", 5, true, none⟩] }]

theorem state_by_history_mixed :
    (after mixedHistory).table? "a" =
        some (.ofFeed { dances := [⟨"x", "Waltz", 30, true, none⟩] }) ∧
      (Operation.register "a" {}).perform (after mixedHistory) = after mixedHistory ∧
      (after mixedHistory).active = some "b" ∧
      (after mixedHistory).isRegistered "b" = true ∧
      (after mixedHistory).tables = (after [.register "a"
        { dances := [⟨"x", "Waltz", 30, true, none⟩] }, .register "b" {}]).tables := by
  obtain ⟨registrations, refusals, _, shown, registered, _, _, sameTables⟩ :=
    state_by_history mixedHistory
  have last : LastGranted mixedHistory "b" := by
    refine ⟨mixedHistory.take 3, .setActive "b", mixedHistory.drop 4, rfl, by decide, rfl, ?_⟩
    intro front other back split
    cases front with
    | nil =>
        cases split
        decide
    | cons first front =>
        have lengths := congrArg List.length (List.cons.inj split).2
        simp at lengths
  have active := (shown "b").mpr last
  refine ⟨?_, refusals _ (by decide), active, registered "b" active, sameTables _ ?_⟩
  · refine ((registrations [.register "b" {}] _ _ _ rfl).2 ?_).1
    decide
  · intro model
    by_cases first : "b" = model
    · subst first
      decide
    · by_cases second : "a" = model
      · subst second
        decide
      · simp [firstFeed?, mixedHistory, Operation.feed?, first, second]

end RobotBlocks.Registry
