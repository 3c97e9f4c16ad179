import RobotBlocks.Proofs.Store.Saving

/-!
# Listing and loading

A load goes from a model to the slot of that model; a listing goes from the slots to the models that
their documents name.  Both look at who owns a document, and they agree on it whatever a memory has
come to hold: torn documents, slots that were copied to another name, keys of no store at all.
-/

namespace RobotBlocks.Store

/-! ## Loads -/

theorem load_memory (format : Format) (space model : String) (slots : Slots) :
    Store.load ⟨memory, format⟩ space model slots =
      match slots[slotKey format space model]? with
      | none => .ok {}
      | some bytes => open? format space model bytes := by
  have read : memory.read (slotKey format space model) slots =
      .ok slots[slotKey format space model]? := rfl
  unfold Store.load
  simp only
  rw [read]
  cases slots[slotKey format space model]? <;> rfl

theorem load_empty (format : Format) (space model : String) :
    Store.load ⟨memory, format⟩ space model ∅ = .ok {} := by
  rw [load_memory, Std.TreeMap.getElem?_emptyc]

/-- A slot that is there is loaded when its bytes can be opened. -/
theorem load_memory_eq_ok {format : Format} {space model : String} {slots : Slots} :
    (slotKey format space model ∈ slots ∧
        ∃ diagram, load ⟨memory, format⟩ space model slots = .ok diagram) ↔
      ∃ bytes, slots[slotKey format space model]? = some bytes ∧
        ∃ diagram, open? format space model bytes = .ok diagram := by
  rw [load_memory, ← Std.TreeMap.contains_iff_mem, Std.TreeMap.contains_eq_isSome_getElem?]
  cases slots[slotKey format space model]? with
  | none => exact ⟨nofun, nofun⟩
  | some bytes =>
      constructor
      · rintro ⟨_, opened⟩
        exact ⟨bytes, rfl, opened⟩
      · rintro ⟨_, ⟨⟩, opened⟩
        exact ⟨rfl, opened⟩

/-! ## Owners -/

/-- A slot has an owner when it is the owner's own slot and is opened for it. -/
theorem owner?_eq_some {format : Format} {space model : String} {key : SlotKey}
    {bytes : List UInt8} :
    owner? format space key bytes = some model ↔
      key = slotKey format space model ∧
        ∃ diagram, open? format space model bytes = .ok diagram := by
  simp only [open?_eq_ok]
  unfold owner?
  cases decoded : format.decode bytes with
  | error failure =>
      constructor
      · exact nofun
      · rintro ⟨_, _, ⟨⟩⟩
  | ok document =>
      obtain ⟨otherSpace, otherModel, diagram⟩ := document
      simp only
      constructor
      · intro owned
        split at owned
        · rename_i own
          obtain ⟨rfl, placed⟩ := own
          obtain rfl := Option.some_inj.mp owned
          exact ⟨placed, diagram, rfl⟩
        · cases owned
      · rintro ⟨placed, _, ⟨⟩⟩
        exact if_pos ⟨rfl, placed⟩

def listed? (format : Format) (space : String) (slots : Slots) (key : SlotKey) : Option String :=
  if format.ending.toList.isSuffixOf key.name.toList then
    slots[key]?.bind (owner? format space key)
  else
    none

/-- A model is shown for its own key only, and only if the slot can be opened. -/
theorem listed?_eq_some {format : Format} {space model : String} {slots : Slots} {key : SlotKey} :
    listed? format space slots key = some model ↔
      key = slotKey format space model ∧ ∃ bytes, slots[key]? = some bytes ∧
        ∃ diagram, open? format space model bytes = .ok diagram := by
  constructor
  · intro shown
    unfold listed? at shown
    split at shown
    · obtain ⟨bytes, found, owned⟩ := Option.bind_eq_some_iff.mp shown
      obtain ⟨placed, opened⟩ := owner?_eq_some.mp owned
      exact ⟨placed, bytes, found, opened⟩
    · cases shown
  · rintro ⟨rfl, bytes, found, opened⟩
    have ending := isSuffixOf_slotKey format format space model
    rw [decide_eq_true rfl] at ending
    rw [listed?, if_pos ending, found]
    exact owner?_eq_some.mpr ⟨rfl, opened⟩

theorem owners_memory (format : Format) (space : String) (slots : Slots) (keys : List SlotKey) :
    owners ⟨memory, format⟩ space slots keys =
      .ok (keys.filterMap (listed? format space slots)) := by
  induction keys with
  | nil => rfl
  | cons key keys ih =>
      rw [owners, List.filterMap_cons, listed?]
      split
      · rw [ih]
        change Except.ok ((slots[key]?.bind (owner? format space key)).toList ++ _) = _
        cases slots[key]?.bind (owner? format space key) <;> rfl
      · exact ih

/-- The keys of the models that are shown are among the keys that were looked at, in their order. -/
theorem slotKey_listed_sublist (format : Format) (space : String) (slots : Slots)
    (keys : List SlotKey) :
    ((keys.filterMap (listed? format space slots)).map (slotKey format space)).Sublist keys := by
  induction keys with
  | nil => exact .slnil
  | cons key keys ih =>
      rw [List.filterMap_cons]
      cases shown : listed? format space slots key with
      | none => exact ih.cons key
      | some model =>
          obtain ⟨rfl, _⟩ := listed?_eq_some.mp shown
          exact ih.cons_cons _

/-! ## Listings -/

def listedModels (format : Format) (space : String) (slots : Slots) : List String :=
  (slots.keys.filter fun key => key.space == encodeName space).filterMap
    (listed? format space slots)

theorem list_memory (format : Format) (space : String) (slots : Slots) :
    Store.list ⟨memory, format⟩ space slots = .ok (listedModels format space slots) :=
  owners_memory format space slots _

/-- A listing shows a model when its slot is there and can be loaded. -/
theorem mem_listedModels {format : Format} {space model : String} {slots : Slots} :
    model ∈ listedModels format space slots ↔
      slotKey format space model ∈ slots ∧
        ∃ diagram, load ⟨memory, format⟩ space model slots = .ok diagram := by
  constructor
  · intro mem
    obtain ⟨key, _, shown⟩ := List.mem_filterMap.mp mem
    obtain ⟨rfl, opened⟩ := listed?_eq_some.mp shown
    exact load_memory_eq_ok.mpr opened
  · rintro ⟨present, loaded⟩
    have inside : slotKey format space model ∈
        slots.keys.filter fun key => key.space == encodeName space :=
      List.mem_filter.mpr ⟨Std.TreeMap.mem_keys.mpr present, beq_self_eq_true _⟩
    have opened := load_memory_eq_ok.mp ⟨present, loaded⟩
    exact List.mem_filterMap.mpr ⟨_, inside, listed?_eq_some.mpr ⟨rfl, opened⟩⟩

/-- A listing is in the order of the bytes of the slot names. -/
theorem listedModels_sorted (format : Format) (space : String) (slots : Slots) :
    (listedModels format space slots).Pairwise fun model other =>
      (slotKey format space model).name.toUTF8.toList <
        (slotKey format space other).name.toUTF8.toList := by
  have inside := slotKey_listed_sublist format space slots
    (slots.keys.filter fun key => key.space == encodeName space)
  have keys := Std.TreeMap.ordered_keys.sublist (inside.trans List.filter_sublist)
  exact (List.pairwise_map.mp keys).imp bytes_lt_of_order

/-- No model is listed twice. -/
theorem listedModels_nodup (format : Format) (space : String) (slots : Slots) :
    (listedModels format space slots).Nodup := by
  refine (listedModels_sorted format space slots).imp ?_
  rintro model other less rfl
  exact List.lt_irrefl _ less

/--
Whatever a memory holds, a listing succeeds and shows exactly the models whose slots are there and
can be loaded: each of them once, in the order of the keys of the memory, which is that of the bytes
of the slot names.
-/
theorem list_agrees_load (format : Format) (space : String) (slots : Slots) :
    ∃ models, list ⟨memory, format⟩ space slots = .ok models ∧
      (∀ model, model ∈ models ↔
        slotKey format space model ∈ slots ∧
          ∃ diagram, load ⟨memory, format⟩ space model slots = .ok diagram) ∧
      models.Nodup ∧
      (models.map (slotKey format space)).Sublist slots.keys ∧
      models.Pairwise fun model other =>
        (slotKey format space model).name.toUTF8.toList <
          (slotKey format space other).name.toUTF8.toList :=
  ⟨listedModels format space slots, list_memory format space slots, fun _ => mem_listedModels,
    listedModels_nodup format space slots,
    (slotKey_listed_sublist format space slots _).trans List.filter_sublist,
    listedModels_sorted format space slots⟩

end RobotBlocks.Store
