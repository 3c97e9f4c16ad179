import Mathlib.Data.List.Induction
import Mathlib.Data.List.Nodup
import RobotBlocks.Block.Registry

/-!
# Histories of registrations

A model is given its blocks by its first registration, whatever is registered afterwards.  In a
table every block type of a catalog entry leads back to one entry: the kind can be read off the
type, and of several entries of that kind with one code the first one counts.
-/

namespace RobotBlocks

open Catalog (Entry Feed)

/-! ## Block types -/

theorem Kind.colon_notMem_word (kind : Kind) : ':' ∉ kind.word.toList := by
  cases kind <;> decide

theorem Kind.word_injective {kind other : Kind} (same : kind.word = other.word) :
    kind = other := by
  have read := congrArg ofWord? same
  rw [ofWord?_word, ofWord?_word] at read
  exact Option.some_inj.mp read

/-- Lists are told apart at the first separator. -/
theorem append_separator_inj {α : Type} {separator : α} {front other rest otherRest : List α}
    (absent : separator ∉ front) (otherAbsent : separator ∉ other)
    (same : front ++ separator :: rest = other ++ separator :: otherRest) :
    front = other ∧ rest = otherRest := by
  induction front generalizing other with
  | nil =>
      cases other with
      | nil => exact ⟨rfl, (List.cons.inj same).2⟩
      | cons first more => exact absurd ((List.cons.inj same).1 ▸ List.mem_cons_self) otherAbsent
  | cons head tail ih =>
      cases other with
      | nil => exact absurd ((List.cons.inj same).1 ▸ List.mem_cons_self) absent
      | cons first more =>
          obtain ⟨rfl, later⟩ := List.cons.inj same
          obtain ⟨rfl, rests⟩ := ih (fun mem => absent (List.mem_cons_of_mem _ mem))
            (fun mem => otherAbsent (List.mem_cons_of_mem _ mem)) later
          exact ⟨rfl, rests⟩

theorem Definition.toList_catalogType (kind : Kind) (code : String) :
    (catalogType kind code).toList = kind.word.toList ++ ':' :: code.toList := by
  simp [catalogType]

/-- The first colon of a block type ends the kind, also when there are more in the code. -/
theorem Definition.catalogType_inj {kind other : Kind} {code otherCode : String} :
    catalogType kind code = catalogType other otherCode ↔ kind = other ∧ code = otherCode := by
  constructor
  · intro same
    have letters := congrArg String.toList same
    rw [toList_catalogType, toList_catalogType] at letters
    obtain ⟨words, codes⟩ :=
      append_separator_inj kind.colon_notMem_word other.colon_notMem_word letters
    exact ⟨Kind.word_injective (String.toList_inj.mp words), String.toList_inj.mp codes⟩
  · rintro ⟨rfl, rfl⟩
    rfl

/-! ## Keys -/

/-- Where no key is used twice, looking for a key finds what has it. -/
theorem find?_key_eq_some {α : Type} {key : α → String} {items : List α}
    (distinct : (items.map key).Nodup) {name : String} {item : α} :
    items.find? (fun other => key other == name) = some item ↔ item ∈ items ∧ key item = name := by
  constructor
  · intro found
    have own := List.find?_some found
    exact ⟨List.mem_of_find?_eq_some found, beq_iff_eq.mp own⟩
  · rintro ⟨mem, rfl⟩
    cases held : items.find? fun other => key other == key item with
    | none => exact absurd (beq_self_eq_true _) (List.find?_eq_none.mp held item mem)
    | some other =>
        have own := List.find?_some held
        rw [List.inj_on_of_nodup_map distinct (List.mem_of_find?_eq_some held) mem
          (beq_iff_eq.mp own)]

/-! ## Tables -/

namespace Table

theorem get?_add (table : Table) (definition : Definition) (blockType : String) :
    (table.add definition).get? blockType =
      (table.get? blockType).or
        (if definition.blockType == blockType then some definition else none) := by
  unfold add
  split
  · rename_i taken
    by_cases same : definition.blockType = blockType
    · subst same
      obtain ⟨other, found⟩ := Option.isSome_iff_exists.mp taken
      simp [found]
    · simp [same]
  · simp only [get?, List.find?_append, List.find?_singleton]

/-- Of the definitions that are added for a block type only the first one counts. -/
theorem get?_foldl_add (definitions : List Definition) (table : Table) (blockType : String) :
    (definitions.foldl add table).get? blockType =
      (table.get? blockType).or
        (definitions.find? fun definition => definition.blockType == blockType) := by
  induction definitions generalizing table with
  | nil => simp
  | cons first rest ih =>
      rw [List.foldl_cons, ih, get?_add, List.find?_cons, Option.or_assoc]
      cases first.blockType == blockType <;> rfl

theorem blockType_ofEntry (kind other : Kind) (code : String) (entry : Entry) :
    ((Definition.ofEntry other entry).blockType == Definition.catalogType kind code) =
      (other == kind && entry.code == code) := by
  rw [Bool.eq_iff_iff]
  simp [Definition.ofEntry, Definition.catalogType_inj]

/-- A block type leads to the first entry of its kind with its code. -/
theorem find?_feedDefinitions (feed : Feed) (kind : Kind) (code : String) :
    ((feedDefinitions feed).find? fun definition =>
        definition.blockType == Definition.catalogType kind code) =
      ((feed.entries kind).find? fun entry => entry.code == code).map
        (Definition.ofEntry kind) := by
  have each : ∀ other, (((feed.entries other).map (Definition.ofEntry other)).find?
      fun definition => definition.blockType == Definition.catalogType kind code) =
      if other = kind then ((feed.entries kind).find? fun entry => entry.code == code).map
        (Definition.ofEntry kind) else none := by
    intro other
    rw [List.find?_map]
    simp only [Function.comp_def, blockType_ofEntry]
    split
    · rename_i same
      subst same
      simp
    · rename_i different
      simp [different]
  unfold feedDefinitions
  rw [List.find?_flatMap]
  simp only [each]
  generalize ((feed.entries kind).find? _).map _ = found
  cases kind <;> cases found <;> rfl

/-- The built-in blocks have no colons in their types, and none of them is a command. -/
theorem builtins_plain {definition : Definition} (mem : definition ∈ Block.builtins) :
    ':' ∉ definition.blockType.toList ∧
      ∀ kind code duration interruptible,
        definition.emit ≠ .command kind code duration interruptible := by
  simp only [Block.builtins, List.mem_cons, List.not_mem_nil, or_false] at mem
  constructor
  · rcases mem with rfl | rfl | rfl | rfl | rfl <;> decide
  · intro kind code duration interruptible rule
    rcases mem with rfl | rfl | rfl | rfl | rfl <;> cases rule

theorem get?_builtins (kind : Kind) (code : String) :
    Table.get? ⟨Block.builtins⟩ (Definition.catalogType kind code) = none := by
  apply List.find?_eq_none.mpr
  intro definition mem same
  apply (builtins_plain mem).1
  rw [beq_iff_eq.mp same, Definition.toList_catalogType]
  simp

/-- The table of a feed has a catalog block exactly for the first entry of its kind and code. -/
theorem get?_ofFeed (feed : Feed) (kind : Kind) (code : String) :
    (ofFeed feed).get? (Definition.catalogType kind code) =
      ((feed.entries kind).find? fun entry => entry.code == code).map
        (Definition.ofEntry kind) := by
  unfold ofFeed
  rw [get?_foldl_add, get?_builtins, Option.none_or, find?_feedDefinitions]

/-- A block that emits a command has the type of the command's kind and code. -/
theorem get?_ofFeed_command {feed : Feed} {blockType : String} {definition : Definition}
    (found : (ofFeed feed).get? blockType = some definition) {kind : Kind} {code : String}
    {duration : UInt32} {interruptible : Bool}
    (rule : definition.emit = .command kind code duration interruptible) :
    blockType = Definition.catalogType kind code := by
  unfold ofFeed at found
  rw [get?_foldl_add, Option.or_eq_some_iff] at found
  rcases found with builtin | ⟨_, catalog⟩
  · have mem := List.mem_of_find?_eq_some builtin
    exact absurd rule ((builtins_plain mem).2 kind code duration interruptible)
  · have own := List.find?_some catalog
    obtain ⟨other, _, mem⟩ := List.mem_flatMap.mp (List.mem_of_find?_eq_some catalog)
    obtain ⟨entry, _, rfl⟩ := List.mem_map.mp mem
    cases rule
    exact (beq_iff_eq.mp own).symm

end Table

/-! ## Registries -/

namespace Registry

/-- A table that is added is found under its model, and it hides no other table. -/
theorem find?_insertTable {model : String} {tables : List (String × Table)}
    (absent : tables.find? (fun entry => entry.1 == model) = none) (table : Table)
    (other : String) :
    (insertTable model table tables).find? (fun entry => entry.1 == other) =
      (tables.find? fun entry => entry.1 == other).or
        (if model == other then some (model, table) else none) := by
  induction tables with
  | nil =>
      simp only [insertTable, List.find?_nil, Option.none_or, List.find?_singleton]
  | cons first rest ih =>
      obtain ⟨key, old⟩ := first
      have different : ¬(key == model) = true := List.find?_eq_none.mp absent _ List.mem_cons_self
      have later : rest.find? (fun entry => entry.1 == model) = none :=
        List.find?_eq_none.mpr fun entry mem =>
          List.find?_eq_none.mp absent entry (List.mem_cons_of_mem _ mem)
      unfold insertTable
      split
      · by_cases own : model = other
        · subst own
          simp [different, later]
        · simp [own]
      · rw [List.find?_cons, List.find?_cons, ih later]
        cases key == other <;> rfl

theorem table?_register (registry : Registry) (model : String) (feed : Feed) (other : String) :
    (registry.register model feed).2.table? other =
      (registry.table? other).or (if model == other then some (.ofFeed feed) else none) := by
  unfold register
  split
  · rename_i registered
    by_cases own : model = other
    · subst own
      obtain ⟨table, found⟩ := Option.isSome_iff_exists.mp registered
      simp [found]
    · simp [own]
  · rename_i unregistered
    have absent : registry.tables.find? (fun entry => entry.1 == model) = none := by
      rw [isRegistered, Option.not_isSome_iff_eq_none] at unregistered
      exact Option.map_eq_none_iff.mp unregistered
    simp only [table?]
    rw [find?_insertTable absent]
    cases registry.tables.find? fun entry => entry.1 == other with
    | some entry => rfl
    | none => cases model == other <;> rfl

theorem table?_setActive (registry : Registry) (model other : String) :
    (registry.setActive model).2.table? other = registry.table? other := by
  unfold setActive
  split <;> rfl

theorem isRegistered_setActive (registry : Registry) (model other : String) :
    (registry.setActive model).2.isRegistered other = registry.isRegistered other :=
  congrArg Option.isSome (table?_setActive registry model other)

theorem active_setActive {registry : Registry} {model : String}
    (registered : registry.isRegistered model = true) :
    (registry.setActive model).2.active = some model := by
  unfold setActive
  rw [if_pos registered]

theorem isRegistered_register (registry : Registry) (model : String) (feed : Feed)
    (other : String) :
    (registry.register model feed).2.isRegistered other =
      (registry.isRegistered other || model == other) := by
  unfold isRegistered
  rw [table?_register, Option.isSome_or]
  cases model == other <;> rfl

theorem isRegistered_register_self (registry : Registry) (model : String)
    (feed : Feed) : (registry.register model feed).2.isRegistered model = true := by
  rw [isRegistered_register, beq_self_eq_true, Bool.or_true]

/-- A model is new to a registry exactly when it was not registered. -/
theorem register_fst (registry : Registry) (model : String) (feed : Feed) :
    (registry.register model feed).1 = !registry.isRegistered model := by
  unfold register
  split
  · rename_i registered
    rw [registered]
    rfl
  · rename_i unregistered
    rw [Bool.not_eq_true _ |>.mp unregistered]
    rfl

/-- The palette shows a model that is new. -/
theorem active_register {registry : Registry} {model : String}
    (new : registry.isRegistered model = false) (feed : Feed) :
    (registry.register model feed).2.active = some model := by
  unfold register
  rw [if_neg (Bool.not_eq_true _ |>.mpr new)]

/-- A model that is registered already changes nothing. -/
theorem register_registered {registry : Registry} {model : String} {feed : Feed}
    (known : (registry.register model feed).1 = false) :
    (registry.register model feed).2 = registry := by
  unfold register at known ⊢
  split
  · rfl
  · rename_i unregistered
    rw [if_neg unregistered] at known
    cases known

inductive Operation where
  | register (model : String) (feed : Feed)
  | setActive (model : String)

namespace Operation

def perform (registry : Registry) : Operation → Registry
  | register model feed => (registry.register model feed).2
  | setActive model => (registry.setActive model).2

def feed? (model : String) : Operation → Option Feed
  | register other feed => if other == model then some feed else none
  | setActive _ => none

end Operation

/-- A new registry after operations, the first operation first. -/
def after (operations : List Operation) : Registry :=
  operations.foldl Operation.perform {}

/-- The feed that a model is registered with first. -/
def firstFeed? (operations : List Operation) (model : String) : Option Feed :=
  operations.findSome? (Operation.feed? model)

theorem after_concat (operations : List Operation) (operation : Operation) :
    after (operations ++ [operation]) = operation.perform (after operations) :=
  List.foldl_append

theorem table?_perform (registry : Registry) (operation : Operation) (model : String) :
    (operation.perform registry).table? model =
      (registry.table? model).or ((operation.feed? model).map .ofFeed) := by
  cases operation with
  | register other feed =>
      rw [Operation.perform, table?_register, Operation.feed?]
      cases other == model <;> rfl
  | setActive other =>
      rw [Operation.perform, table?_setActive, Operation.feed?, Option.map_none, Option.or_none]

/-- The blocks of a model are those of its first registration. -/
theorem table?_after (operations : List Operation) (model : String) :
    (after operations).table? model = (firstFeed? operations model).map .ofFeed := by
  induction operations using List.reverseRecOn with
  | nil => rfl
  | append_singleton operations operation ih =>
      rw [after_concat, table?_perform, ih, firstFeed?, firstFeed?, List.findSome?_append]
      cases operations.findSome? (Operation.feed? model) with
      | some feed => rfl
      | none => cases found : operation.feed? model <;> simp [found]

/-- A table stays what it is, whatever is done to the registry. -/
theorem table?_perform_some {registry : Registry} {model : String} {table : Table}
    (found : registry.table? model = some table) (operation : Operation) :
    (operation.perform registry).table? model = some table := by
  rw [table?_perform, found, Option.some_or]

end Registry

end RobotBlocks
