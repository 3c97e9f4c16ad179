import RobotBlocks.Proofs.Block.Tables
import RobotBlocks.Proofs.Text.LowerCase

/-!
# Searching the palette

A search compares lower case: that of the query with that of the type, the name and the category of
a block.  Each is that of the whole text, so a query that cuts a word beside a capital sigma can
miss the word that it is cut from.
-/

namespace RobotBlocks

open Catalog (Feed)
open Text (lowercase lowercaseBetween SigmasAlike)

namespace Definition

/-- The texts of a block that a search looks into. -/
def texts (definition : Definition) : List String :=
  [definition.blockType, definition.displayName, definition.category]

theorem contains_iff {definition : Definition} {query : String} :
    definition.contains query = true ↔
      ∃ text ∈ definition.texts, lowercase query <:+: lowercase text := by
  unfold contains texts
  by_cases empty : query.isEmpty
  · rw [if_pos empty]
    have query_eq := String.isEmpty_iff.mp empty
    subst query_eq
    exact iff_of_true rfl ⟨_, List.mem_cons_self, List.nil_infix⟩
  · rw [if_neg empty]
    simp only [Bool.or_eq_true, Text.occursIn_iff, List.mem_cons, List.not_mem_nil, or_false,
      exists_eq_or_imp, exists_eq_left, or_assoc]

end Definition

namespace Registry

theorem mem_search {registry : Registry} {query : String} {definition : Definition} :
    definition ∈ registry.search query ↔ definition ∈ registry.activeDefinitions ∧
      ∃ text ∈ definition.texts, lowercase query <:+: lowercase text := by
  rw [search, List.mem_filter, Definition.contains_iff]

/-- A query without a capital sigma finds every block that it stands in. -/
theorem mem_search_of_plain {registry : Registry} {definition : Definition}
    (shown : definition ∈ registry.activeDefinitions) {query : String}
    (plain : 'Σ' ∉ query.toList)
    (stands : ∃ text ∈ definition.texts, query.toList <:+: text.toList) :
    definition ∈ registry.search query := by
  obtain ⟨text, mem, front, back, whole⟩ := stands
  exact mem_search.mpr ⟨shown, text, mem,
    Text.lowercase_infix whole.symm (Text.sigmasAlike_of_notMem plain)⟩

/--
A block is found by whatever stands in its type, its name or its category if every capital sigma
ends a word there exactly if it ends one in the query.  Nothing less makes the lower case of the
query that of the place where it stands.
-/
theorem search_finds {registry : Registry} {definition : Definition}
    (shown : definition ∈ registry.activeDefinitions) (query : String) :
    (definition ∈ registry.search query ↔
      ∃ text ∈ definition.texts, lowercase query <:+: lowercase text) ∧
    ∀ text ∈ definition.texts, ∀ front back, text.toList = front ++ query.toList ++ back →
      (SigmasAlike front.reverse back [] [] query.toList →
        definition ∈ registry.search query) ∧
      (SigmasAlike front.reverse back [] [] query.toList ↔
        lowercaseBetween front.reverse query.toList back = lowercase query) := by
  refine ⟨mem_search.trans (and_iff_right shown), fun text mem front back stands => ⟨?_, ?_⟩⟩
  · intro alike
    exact mem_search.mpr ⟨shown, text, mem, Text.lowercase_infix stands alike⟩
  · rw [Text.lowercase_eq_between, Text.lowercaseBetween_eq_iff]

/-- A feed with a sigma that ends a word, and one inside a word. -/
def greekFeed : Feed where
  actions := [⟨"a", "ΟΔΟΣ", 1, true, none⟩, ⟨"b", "ΑΣΑ", 1, true, none⟩]

theorem search_finds_wordEnd :
    Definition.ofEntry .action ⟨"a", "ΟΔΟΣ", 1, true, none⟩ ∈
      (register {} "m" greekFeed).2.search "ΔΟΣ" := by
  have shown : Definition.ofEntry .action ⟨"a", "ΟΔΟΣ", 1, true, none⟩ ∈
      (register {} "m" greekFeed).2.activeDefinitions := by decide +kernel
  obtain ⟨found, alike⟩ := (search_finds shown "ΔΟΣ").2 "ΟΔΟΣ"
    (List.mem_cons_of_mem _ List.mem_cons_self) ['Ο'] [] (by decide)
  exact found (alike.mpr (by decide +kernel))

/-- The sigma that ends the query is inside a word in the name, so its lower case is another. -/
theorem search_misses_insideWord :
    Definition.ofEntry .action ⟨"b", "ΑΣΑ", 1, true, none⟩ ∈
      (register {} "m" greekFeed).2.activeDefinitions ∧
    "ΑΣ".toList <:+: "ΑΣΑ".toList ∧
    Definition.ofEntry .action ⟨"b", "ΑΣΑ", 1, true, none⟩ ∉
      (register {} "m" greekFeed).2.search "ΑΣ" := by
  refine ⟨by decide +kernel, ⟨[], ['Α'], by decide⟩, by decide +kernel⟩

end Registry

end RobotBlocks
