import RobotBlocks.Proofs.Block.Registry

/-!
# What is in a table

The table of a feed lists the built-in blocks and then, kind by kind, the blocks of the entries that
come first among those with their code.  Its block types are all different, so that no block hides
another one: neither a built-in block nor the block of an entry of another kind.
-/

namespace RobotBlocks

open Catalog (Entry Feed)

/-- The entries that come first among those with their code, in their order. -/
def Catalog.firstOfCodes (entries : List Entry) : List Entry :=
  entries.eraseDupsBy fun entry earlier => entry.code == earlier.code

theorem Catalog.firstOfCodes_cons (first : Entry) (rest : List Entry) :
    firstOfCodes (first :: rest) =
      first :: firstOfCodes (rest.filter fun entry => entry.code != first.code) := by
  unfold firstOfCodes
  rw [List.eraseDupsBy_cons]
  simp only [bne, Bool.decide_eq_false]

namespace Table

open Catalog (firstOfCodes firstOfCodes_cons)

/-! ## Adding blocks -/

theorem add_of_none {table : Table} {definition : Definition}
    (free : table.get? definition.blockType = none) :
    table.add definition = ⟨table.definitions ++ [definition]⟩ := by
  unfold add
  rw [free]
  rfl

theorem add_of_some {table : Table} {definition other : Definition}
    (taken : table.get? definition.blockType = some other) : table.add definition = table := by
  unfold add
  rw [taken]
  rfl

def isFree (table : Table) (kind : Kind) (entry : Entry) : Bool :=
  (table.get? (Definition.catalogType kind entry.code)).isNone

theorem isFree_add {table : Table} {kind : Kind} {first : Entry}
    (free : table.get? (Definition.catalogType kind first.code) = none) (entry : Entry) :
    (table.add (Definition.ofEntry kind first)).isFree kind entry =
      (entry.code != first.code && table.isFree kind entry) := by
  unfold isFree
  rw [get?_add, blockType_ofEntry, beq_self_eq_true, Bool.true_and]
  by_cases same : first.code = entry.code
  · simp [← same, free]
  · have other : entry.code ≠ first.code := fun h => same h.symm
    simp [same, other]

/-- Of the entries of one kind each code is added once, unless the table has a block for it. -/
theorem foldl_add_entries (kind : Kind) (entries : List Entry) (table : Table) :
    ((entries.map (Definition.ofEntry kind)).foldl add table).definitions =
      table.definitions ++
        (firstOfCodes (entries.filter (table.isFree kind))).map (Definition.ofEntry kind) := by
  induction entries generalizing table with
  | nil => exact (List.append_nil _).symm
  | cons first rest ih =>
      rw [List.map_cons, List.foldl_cons, ih]
      cases held : table.get? (Definition.catalogType kind first.code) with
      | some other =>
          have taken : ¬table.isFree kind first = true := by
            simp [isFree, held]
          rw [add_of_some held, List.filter_cons_of_neg taken]
      | none =>
          have free : table.isFree kind first = true := by
            simp [isFree, held]
          have later : rest.filter ((table.add (Definition.ofEntry kind first)).isFree kind) =
              (rest.filter (table.isFree kind)).filter fun entry => entry.code != first.code := by
            rw [List.filter_filter]
            exact List.filter_congr fun entry _ => isFree_add held entry
          rw [later, add_of_none held, List.filter_cons_of_pos free, firstOfCodes_cons,
            List.map_cons, List.append_assoc]
          rfl

/-- Entries of one kind take no place of those of another kind. -/
theorem isFree_foldl_add {kind other : Kind} (different : kind ≠ other) (entries : List Entry)
    (table : Table) (entry : Entry) :
    ((entries.map (Definition.ofEntry kind)).foldl add table).isFree other entry =
      table.isFree other entry := by
  have none : (entries.map (Definition.ofEntry kind)).find? (fun definition =>
      definition.blockType == Definition.catalogType other entry.code) = none := by
    apply List.find?_eq_none.mpr
    intro definition mem same
    obtain ⟨added, _, rfl⟩ := List.mem_map.mp mem
    rw [blockType_ofEntry] at same
    simp [different] at same
  unfold isFree
  rw [get?_foldl_add, none, Option.or_none]

/-- The entries of different kinds are added kind by kind, all to a table that has none of them. -/
theorem foldl_add_kinds (feed : Feed) {kinds : List Kind} (distinct : kinds.Nodup) {table : Table}
    (free : ∀ kind ∈ kinds, ∀ entry, table.isFree kind entry = true) :
    ((kinds.flatMap fun kind => (feed.entries kind).map (Definition.ofEntry kind)).foldl add
        table).definitions =
      table.definitions ++ kinds.flatMap fun kind =>
        (firstOfCodes (feed.entries kind)).map (Definition.ofEntry kind) := by
  induction kinds generalizing table with
  | nil => exact (List.append_nil _).symm
  | cons first rest ih =>
      obtain ⟨absent, distinct⟩ := List.nodup_cons.mp distinct
      have all : (feed.entries first).filter (table.isFree first) = feed.entries first :=
        List.filter_eq_self.mpr fun entry _ => free first List.mem_cons_self entry
      have still : ∀ kind ∈ rest, ∀ entry,
          (((feed.entries first).map (Definition.ofEntry first)).foldl add table).isFree kind
            entry = true := by
        intro kind mem entry
        have different : first ≠ kind := fun same => absent (same ▸ mem)
        rw [isFree_foldl_add different]
        exact free kind (List.mem_cons_of_mem _ mem) entry
      rw [List.flatMap_cons, List.flatMap_cons, List.foldl_append, ih distinct still,
        foldl_add_entries, all, List.append_assoc]

/-- The built-in blocks take no place of catalog entries. -/
theorem isFree_builtins (kind : Kind) (entry : Entry) :
    Table.isFree ⟨Block.builtins⟩ kind entry = true :=
  Option.isNone_iff_eq_none.mpr (get?_builtins kind entry.code)

/-- A table has the built-in blocks first and then the first entry of each code, kind by kind. -/
theorem definitions_ofFeed (feed : Feed) :
    (ofFeed feed).definitions =
      Block.builtins ++ Kind.all.flatMap fun kind =>
        (firstOfCodes (feed.entries kind)).map (Definition.ofEntry kind) :=
  foldl_add_kinds feed (by decide) fun kind _ entry => isFree_builtins kind entry

/-! ## Block types as keys -/

/-- No two blocks of a table have one type. -/
def Keyed (table : Table) : Prop :=
  (table.definitions.map Definition.blockType).Nodup

theorem Keyed.add {table : Table} (keyed : table.Keyed) (definition : Definition) :
    (table.add definition).Keyed := by
  cases held : table.get? definition.blockType with
  | some other =>
      rw [add_of_some held]
      exact keyed
  | none =>
      rw [add_of_none held]
      unfold Keyed
      rw [List.map_append, List.map_singleton, ← List.concat_eq_append]
      refine List.Nodup.concat ?_ keyed
      intro mem
      obtain ⟨other, inside, same⟩ := List.mem_map.mp mem
      exact List.find?_eq_none.mp held other inside (beq_iff_eq.mpr same)

theorem Keyed.foldl_add {table : Table} (keyed : table.Keyed) (definitions : List Definition) :
    (definitions.foldl Table.add table).Keyed := by
  induction definitions generalizing table with
  | nil => exact keyed
  | cons first rest ih => exact ih (keyed.add first)

theorem keyed_ofFeed (feed : Feed) : (ofFeed feed).Keyed := by
  have builtins : Table.Keyed ⟨Block.builtins⟩ := by
    unfold Keyed
    decide
  exact builtins.foldl_add (feedDefinitions feed)

/-- Every block is found under its type, and nothing else is found. -/
theorem Keyed.get?_eq_some {table : Table} (keyed : table.Keyed) {blockType : String}
    {definition : Definition} :
    table.get? blockType = some definition ↔
      definition ∈ table.definitions ∧ definition.blockType = blockType :=
  find?_key_eq_some keyed

/-- A catalog block is found exactly for the codes in the catalog of its kind. -/
theorem isSome_get?_ofFeed (feed : Feed) (kind : Kind) (code : String) :
    ((ofFeed feed).get? (Definition.catalogType kind code)).isSome = true ↔
      ∃ entry ∈ feed.entries kind, entry.code = code := by
  rw [get?_ofFeed, Option.isSome_map, List.find?_isSome]
  simp only [beq_iff_eq]

end Table

/--
The table of a new model has, in this order, the built-in blocks and one block for each kind and
code, that of the first entry with them.  Each block is found under its own type and nothing else is
found, so no entry hides a built-in block or an entry of another kind.
-/
theorem Registry.register_tabulates (registry : Registry) (model : String) (feed : Feed)
    (fresh : registry.isRegistered model = false) :
    ∃ table, (registry.register model feed).2.table? model = some table ∧
      table.definitions = (Block.builtins ++ Kind.all.flatMap fun kind =>
        (Catalog.firstOfCodes (feed.entries kind)).map (Definition.ofEntry kind)) ∧
      (table.definitions.map Definition.blockType).Nodup ∧
      (∀ blockType definition, table.get? blockType = some definition ↔
        definition ∈ table.definitions ∧ definition.blockType = blockType) ∧
      (∀ definition ∈ Block.builtins, table.get? definition.blockType = some definition) ∧
      ∀ kind code,
        table.get? (kind.word ++ ":" ++ code) =
            ((feed.entries kind).find? fun entry => entry.code == code).map
              (Definition.ofEntry kind) ∧
          ((table.get? (kind.word ++ ":" ++ code)).isSome = true ↔
            ∃ entry ∈ feed.entries kind, entry.code = code) := by
  have unknown : registry.table? model = none := by
    rw [← Option.not_isSome_iff_eq_none]
    exact Bool.eq_false_iff.mp fresh
  have keyed := Table.keyed_ofFeed feed
  refine ⟨Table.ofFeed feed, ?_, Table.definitions_ofFeed feed, keyed,
    fun _ _ => keyed.get?_eq_some, fun definition mem => ?_, fun kind code => ?_⟩
  · rw [table?_register, unknown, beq_self_eq_true, Option.none_or, if_pos rfl]
  · refine keyed.get?_eq_some.mpr ⟨?_, rfl⟩
    rw [Table.definitions_ofFeed]
    exact List.mem_append_left _ mem
  · exact ⟨Table.get?_ofFeed feed kind code, Table.isSome_get?_ofFeed feed kind code⟩

/-- A feed with codes that look like block types, and one code in two kinds and twice in one. -/
def lookalikeFeed : Feed where
  actions := [⟨"x", "First", 1, true, none⟩, ⟨"start", "Start", 1, true, none⟩,
    ⟨"x", "Second", 2, true, none⟩]
  dances := [⟨"x", "Dance", 5, true, none⟩, ⟨"action:x", "Odd", 5, true, none⟩]

theorem Registry.register_tabulates_lookalikes :
    ∃ table, (Registry.register {} "m" lookalikeFeed).2.table? "m" = some table ∧
      table.definitions.map Definition.displayName = ["When program starts", "Repeat", "Wait",
        "Log message", "Stop with error", "First", "Start", "Dance", "Odd"] ∧
      (table.get? "start").map Definition.emit = some .begin ∧
      (table.get? "action:x").map Definition.displayName = some "First" ∧
      (table.get? "dance:action:x").isSome = true := by
  obtain ⟨table, found, listed, _, _, builtin, catalog⟩ :=
    Registry.register_tabulates {} "m" lookalikeFeed rfl
  refine ⟨table, found, ?_, ?_, ?_, ?_⟩
  · rw [listed]
    decide
  · exact congrArg (Option.map Definition.emit) (builtin _ List.mem_cons_self)
  · have spelled : Kind.action.word ++ ":" ++ "x" = "action:x" := by decide
    rw [← spelled, (catalog .action "x").1]
    decide
  · exact (catalog .dance "action:x").2.mpr ⟨_, List.mem_cons_of_mem _ List.mem_cons_self, rfl⟩

end RobotBlocks
