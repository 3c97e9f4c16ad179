import RobotBlocks.Proofs.Block.Histories
import RobotBlocks.Proofs.Block.Tables

/-!
# The palette of a table

The palette starts a category wherever one appears first, which would move blocks if a category came
back after another one.  It does not: a table lists the built-in blocks and then the blocks of one
kind after the other, and these are the categories, so that the palette only cuts the table.
-/

namespace RobotBlocks.Registry

open Catalog (Feed firstOfCodes)

/-! ## Stretches of one category -/

/-- All definitions of a category belong to it. -/
def Category.IsUniform (category : Category) : Prop :=
  ∀ definition ∈ category.definitions, definition.category = category.name

theorem addToCategory_new {categories : List Category} {definition : Definition}
    (new : definition.category ∉ categories.map Category.name) :
    addToCategory definition categories =
      categories ++ [⟨definition.category, [definition]⟩] := by
  induction categories with
  | nil => rfl
  | cons first rest ih =>
      rw [List.map_cons, List.mem_cons, not_or] at new
      rw [addToCategory, if_neg fun same => new.1 same.symm, ih new.2, List.cons_append]

theorem addToCategory_last {categories : List Category} {name : String}
    (new : name ∉ categories.map Category.name) {definition : Definition}
    (own : definition.category = name) (definitions : List Definition) :
    addToCategory definition (categories ++ [⟨name, definitions⟩]) =
      categories ++ [⟨name, definitions ++ [definition]⟩] := by
  induction categories with
  | nil =>
      rw [List.nil_append, List.nil_append, addToCategory, if_pos own.symm]
  | cons first rest ih =>
      rw [List.map_cons, List.mem_cons, not_or] at new
      have different : first.name ≠ definition.category := fun same => new.1 (own ▸ same.symm)
      rw [List.cons_append, addToCategory, if_neg different, ih new.2, List.cons_append]

/-- Further definitions of the last category stay together with it. -/
theorem foldl_addToCategory_last {categories : List Category} {name : String}
    (new : name ∉ categories.map Category.name) {more : List Definition}
    (own : ∀ definition ∈ more, definition.category = name) (definitions : List Definition) :
    more.foldl (fun categories definition => addToCategory definition categories)
      (categories ++ [⟨name, definitions⟩]) = categories ++ [⟨name, definitions ++ more⟩] := by
  induction more generalizing definitions with
  | nil => rw [List.foldl_nil, List.append_nil]
  | cons first rest ih =>
      obtain ⟨here, later⟩ := List.forall_mem_cons.mp own
      rw [List.foldl_cons, addToCategory_last new here, ih later, List.append_assoc,
        List.singleton_append]

def nonempty (categories : List Category) : List Category :=
  categories.filter fun category => !category.definitions.isEmpty

/-- Definitions of one new category become the last category, unless there are none. -/
theorem foldl_addToCategory_new {categories : List Category} {category : Category}
    (new : category.name ∉ categories.map Category.name) (uniform : category.IsUniform) :
    category.definitions.foldl (fun categories definition => addToCategory definition categories)
      categories = categories ++ nonempty [category] := by
  obtain ⟨name, definitions⟩ := category
  cases definitions with
  | nil => exact (List.append_nil categories).symm
  | cons first rest =>
      obtain ⟨here, later⟩ := List.forall_mem_cons.mp uniform
      change first.category = name at here
      have started : addToCategory first categories = categories ++ [⟨name, [first]⟩] := by
        rw [addToCategory_new (here ▸ new), here]
      change (first :: rest).foldl _ categories = categories ++ [⟨name, first :: rest⟩]
      rw [List.foldl_cons, started]
      exact foldl_addToCategory_last new later [first]

/-- Stretches of different categories become the categories, as far as they are not empty. -/
theorem foldl_addToCategory {stretches categories : List Category}
    (distinct : ((categories ++ stretches).map Category.name).Nodup)
    (uniform : ∀ stretch ∈ stretches, stretch.IsUniform) :
    (stretches.flatMap Category.definitions).foldl
        (fun categories definition => addToCategory definition categories) categories =
      categories ++ nonempty stretches := by
  induction stretches generalizing categories with
  | nil => exact (List.append_nil categories).symm
  | cons first rest ih =>
      obtain ⟨here, later⟩ := List.forall_mem_cons.mp uniform
      have new : first.name ∉ categories.map Category.name := by
        rw [List.map_append, List.nodup_append] at distinct
        exact fun mem => distinct.2.2 _ mem _ List.mem_cons_self rfl
      have split : nonempty (first :: rest) = nonempty [first] ++ nonempty rest :=
        List.filter_append [first] rest
      have still : ((categories ++ nonempty [first] ++ rest).map Category.name).Nodup := by
        refine distinct.sublist (List.Sublist.map _ ?_)
        rw [List.append_assoc]
        exact (List.filter_sublist.append_right rest).append_left categories
      rw [List.flatMap_cons, List.foldl_append, foldl_addToCategory_new new here, ih still later,
        split, List.append_assoc]

theorem flatMap_nonempty (categories : List Category) :
    (nonempty categories).flatMap Category.definitions =
      categories.flatMap Category.definitions := by
  induction categories with
  | nil => rfl
  | cons first rest ih =>
      unfold nonempty at ih ⊢
      rw [List.filter_cons, List.flatMap_cons, ← ih]
      split
      · rw [List.flatMap_cons]
      · rename_i empty
        have none : first.definitions = [] := by simpa using empty
        rw [none, List.nil_append]

/-! ## The categories of a table -/

/-- The built-in blocks and the blocks of each kind. -/
def stretches (feed : Feed) : List Category :=
  ⟨Block.controlCategory, Block.builtins⟩ :: Kind.all.map fun kind =>
    ⟨kind.category, (firstOfCodes (feed.entries kind)).map (Definition.ofEntry kind)⟩

theorem flatMap_stretches (feed : Feed) :
    (stretches feed).flatMap Category.definitions = (Table.ofFeed feed).definitions := by
  rw [Table.definitions_ofFeed, stretches, List.flatMap_cons, List.flatMap_map]

theorem names_stretches (feed : Feed) : ((stretches feed).map Category.name).Nodup := by
  have names : (stretches feed).map Category.name =
      Block.controlCategory :: Kind.all.map Kind.category := by
    rw [stretches, List.map_cons, List.map_map]
    rfl
  rw [names]
  decide

theorem uniform_stretches (feed : Feed) : ∀ stretch ∈ stretches feed, stretch.IsUniform := by
  refine List.forall_mem_cons.mpr ⟨?_, ?_⟩
  · unfold Category.IsUniform Block.builtins
    simp only [List.forall_mem_cons]
    exact ⟨rfl, rfl, rfl, rfl, rfl, List.forall_mem_nil _⟩
  · intro stretch mem definition inside
    obtain ⟨kind, _, rfl⟩ := List.mem_map.mp mem
    obtain ⟨entry, _, rfl⟩ := List.mem_map.mp inside
    rfl

theorem activeDefinitions_of_shown {registry : Registry} {table : Table}
    (shown : registry.active.bind registry.table? = some table) :
    registry.activeDefinitions = table.definitions := by
  unfold activeDefinitions
  rw [shown]

/-- The palette cuts the shown table into its stretches. -/
theorem palette_of_shown {registry : Registry} {feed : Feed}
    (shown : registry.active.bind registry.table? = some (.ofFeed feed)) :
    registry.palette = nonempty (stretches feed) := by
  unfold palette
  rw [activeDefinitions_of_shown shown, ← flatMap_stretches]
  exact @foldl_addToCategory (stretches feed) [] (names_stretches feed) (uniform_stretches feed)

/-! ## What the palette shows -/

theorem search_empty (registry : Registry) : registry.search "" = registry.activeDefinitions :=
  List.filter_eq_self.mpr fun _ _ => rfl

/--
The categories of the palette, one after the other, are the table of the shown model: every block
stands in it once, in the order of the table.  No category comes twice or is empty, every block is
in its own one, and the built-in blocks are the first.  A search keeps the order of the table, and
the empty query finds all of it.
-/
theorem palette_cuts_table (operations : List Operation) {model : String}
    (shown : (after operations).active = some model) :
    ∃ table, (after operations).table? model = some table ∧
      (after operations).palette.flatMap Category.definitions = table.definitions ∧
      (table.definitions.map Definition.blockType).Nodup ∧
      (after operations).search "" = table.definitions ∧
      ((after operations).palette.map Category.name).Nodup ∧
      (∀ category ∈ (after operations).palette, category.definitions ≠ [] ∧
        ∀ definition ∈ category.definitions, definition.category = category.name) ∧
      (after operations).palette.head? = some ⟨Block.controlCategory, Block.builtins⟩ ∧
      ∀ query, ((after operations).search query).Sublist table.definitions := by
  have registered := (showsRegistered_after operations).registered shown
  obtain ⟨table, found⟩ := Option.isSome_iff_exists.mp registered
  have made := found
  rw [table?_after] at made
  obtain ⟨feed, _, rfl⟩ := Option.map_eq_some_iff.mp made
  have active : (after operations).active.bind (after operations).table? =
      some (.ofFeed feed) := by
    rw [shown, Option.bind_some, found]
  have listed := activeDefinitions_of_shown active
  have palette := palette_of_shown active
  refine ⟨.ofFeed feed, found, ?_, Table.keyed_ofFeed feed, ?_, ?_, ?_, ?_, ?_⟩
  · rw [palette, flatMap_nonempty, flatMap_stretches]
  · rw [search_empty, listed]
  · rw [palette]
    exact (names_stretches feed).sublist (List.filter_sublist.map _)
  · rw [palette]
    intro category mem
    obtain ⟨inside, filled⟩ := List.mem_filter.mp mem
    refine ⟨fun empty => ?_, uniform_stretches feed category inside⟩
    rw [empty] at filled
    cases filled
  · rw [palette]
    rfl
  · intro query
    rw [← listed]
    exact List.filter_sublist

/-- One code twice among the actions, nothing between them and the dances, and another model. -/
def dancingHistory : List Operation := [
  .register "m" {
    actions := [⟨"x", "Nod", 1, true, none⟩, ⟨"x", "Bow", 2, true, none⟩]
    dances := [⟨"x", "Waltz", 30, true, none⟩] },
  .register "n" {},
  .setActive "m"]

theorem palette_cuts_table_dancing :
    ∃ table, (after dancingHistory).table? "m" = some table ∧
      (after dancingHistory).palette.flatMap Category.definitions = table.definitions ∧
      table.definitions.map Definition.displayName = ["When program starts", "Repeat", "Wait",
        "Log message", "Stop with error", "Nod", "Waltz"] ∧
      (after dancingHistory).palette.map Category.name = ["Control", "Actions", "Dances"] ∧
      ((after dancingHistory).search "wal").Sublist table.definitions := by
  obtain ⟨table, found, whole, _, _, _, _, _, searches⟩ :=
    @palette_cuts_table dancingHistory "m" (by decide)
  have names : (after dancingHistory).palette.map Category.name =
      ["Control", "Actions", "Dances"] := by decide
  refine ⟨table, found, whole, ?_, names, searches "wal"⟩
  rw [← whole]
  decide

end RobotBlocks.Registry
