import RobotBlocks.Catalog.Feed
import RobotBlocks.Proofs.Catalog.Entries
import RobotBlocks.Proofs.Json.Compact

/-!
# Feeds and their records

A feed is written with every entry as a record, whatever forms it was read from.  A feed that was
read is one whose codes are not blank, and these are the feeds that are read back from their own
text.
-/

namespace RobotBlocks.Catalog.Feed

open Json (Value Reader Takes Decides)
open Json.Reader (decides_array decides_record takes_array takes_record takes_slot Fills)
open Text (isBlank isAllBlank)

/-- No code of the feed is blank. -/
def IsCoded (feed : Feed) : Prop :=
  ∀ kind, ∀ entry ∈ feed.entries kind, isAllBlank entry.code = false

theorem isCoded_iff {feed : Feed} :
    feed.IsCoded ↔
      ∀ kind, ∀ entry ∈ feed.entries kind, ∃ c ∈ entry.code.toList, isBlank c = false :=
  forall_congr' fun _ => forall₂_congr fun _ _ => isAllBlank_eq_false

/-! ## What is read -/

structure Draft.IsCoded (draft : Draft) : Prop where
  actions : ∀ entry ∈ draft.actions.getD [], isAllBlank entry.code = false
  extendedActions : ∀ entry ∈ draft.extendedActions.getD [], isAllBlank entry.code = false
  expressions : ∀ entry ∈ draft.expressions.getD [], isAllBlank entry.code = false
  dances : ∀ entry ∈ draft.dances.getD [], isAllBlank entry.code = false
  skills : ∀ entry ∈ draft.skills.getD [], isAllBlank entry.code = false

theorem isCoded_ofDraft {draft : Draft} (coded : draft.IsCoded) : (ofDraft draft).IsCoded := by
  intro kind
  cases kind with
  | action => exact coded.actions
  | extendedAction => exact coded.extendedActions
  | expression => exact coded.expressions
  | dance => exact coded.dances
  | skill => exact coded.skills

theorem takes_slots {catalog : Reader EntryError (List Entry)}
    (takes : Takes catalog fun list => ∀ entry ∈ list, isAllBlank entry.code = false) :
    ∀ slot ∈ slots catalog, slot.Takes Draft.IsCoded := by
  unfold slots
  simp only [List.forall_mem_cons]
  refine ⟨takes_slot takes ?_, takes_slot takes ?_, takes_slot takes ?_, takes_slot takes ?_,
    takes_slot takes ?_, List.forall_mem_nil _⟩
  · exact fun coded fine => { coded with actions := fine }
  · exact fun coded fine => { coded with extendedActions := fine }
  · exact fun coded fine => { coded with expressions := fine }
  · exact fun coded fine => { coded with dances := fine }
  · exact fun coded fine => { coded with skills := fine }

theorem takes_reader : Takes reader IsCoded := by
  have empty : ({} : Draft).IsCoded := ⟨nofun, nofun, nofun, nofun, nofun⟩
  exact (takes_record (takes_slots (takes_array (Entry.takes_reader _))) empty).map isCoded_ofDraft

/-! ## What is read back -/

/-- A catalog whose codes are not blank is read back from its records. -/
theorem decides_catalog {list : List Entry}
    (coded : ∀ entry ∈ list, isAllBlank entry.code = false) (depth : ℕ) :
    Decides (Reader.array (Entry.reader (depth + 1))) (.array (list.map Entry.toJson))
      (some list) := by
  have each : ∀ entry ∈ list, Decides (Entry.reader (depth + 1)) entry.toJson (some entry) :=
    fun entry mem => Entry.decides_reader (coded entry mem) depth
  have all := decides_array each
  rwa [Json.Reader.mapM_some] at all

theorem decides_reader {feed : Feed} (coded : feed.IsCoded) :
    Decides reader feed.toJson (some feed) := by
  have catalog (kind : Kind) := decides_catalog (coded kind) (Json.nestingLimit - 3)
  have fills : Fills (slots (Reader.array (Entry.reader (Json.nestingLimit - 2)))) {}
      [("actions", .array (feed.actions.map Entry.toJson)),
        ("extended_actions", .array (feed.extendedActions.map Entry.toJson)),
        ("expressions", .array (feed.expressions.map Entry.toJson)),
        ("dances", .array (feed.dances.map Entry.toJson)),
        ("skills", .array (feed.skills.map Entry.toJson))]
      ((some feed.actions).bind fun actions =>
        (some feed.extendedActions).bind fun extendedActions =>
          (some feed.expressions).bind fun expressions =>
            (some feed.dances).bind fun dances =>
              (some feed.skills).bind fun skills =>
                some ⟨actions, extendedActions, expressions, dances, skills⟩) := by
    refine .slot (·.actions) (fun draft list => { draft with actions := some list }) rfl rfl
      (catalog .action) fun actions => ?_
    refine .slot (·.extendedActions) (fun draft list => { draft with extendedActions := some list })
      rfl rfl (catalog .extendedAction) fun extendedActions => ?_
    refine .slot (·.expressions) (fun draft list => { draft with expressions := some list })
      rfl rfl (catalog .expression) fun expressions => ?_
    refine .slot (·.dances) (fun draft list => { draft with dances := some list }) rfl rfl
      (catalog .dance) fun dances => ?_
    refine .slot (·.skills) (fun draft list => { draft with skills := some list }) rfl rfl
      (catalog .skill) fun skills => ?_
    exact .done _
  exact (decides_record fills).map ofDraft

/-! ## Texts -/

theorem load_eq_ok {text : String} {feed : Feed} :
    load text = .ok feed ↔ reader.run text.toUTF8.toList = .ok feed := by
  unfold load ofText
  cases reader.run text.toUTF8.toList with
  | ok found =>
      change Except.ok found = Except.ok feed ↔ _
      rw [Except.ok.injEq, Except.ok.injEq]
  | error fault => exact ⟨nofun, nofun⟩

/-- A feed that is read has no code that is blank. -/
theorem isCoded_of_load {text : String} {feed : Feed} (loaded : load text = .ok feed) :
    feed.IsCoded :=
  (Json.Reader.takes_run takes_reader (load_eq_ok.mp loaded)).1

/--
A feed is read back from its own text, as it is, exactly when none of its codes is blank.  Every
feed that is read from any text, whatever forms its entries have there, is of this kind.
-/
theorem load_toText_stable :
    (∀ feed : Feed, load feed.toJson.toText = .ok feed ↔
      ∀ kind, ∀ entry ∈ feed.entries kind, ∃ c ∈ entry.code.toList, isBlank c = false) ∧
    ∀ text feed, load text = .ok feed →
      (∀ kind, ∀ entry ∈ feed.entries kind, ∃ c ∈ entry.code.toList, isBlank c = false) ∧
      load feed.toJson.toText = .ok feed := by
  have back (feed : Feed) (coded : feed.IsCoded) : load feed.toJson.toText = .ok feed :=
    load_eq_ok.mpr (Reader.run_toText (decides_reader coded))
  refine ⟨fun feed => ⟨fun loaded => isCoded_iff.mp (isCoded_of_load loaded),
    fun coded => back feed (isCoded_iff.mpr coded)⟩, ?_⟩
  intro text feed loaded
  have coded := isCoded_of_load loaded
  exact ⟨isCoded_iff.mp coded, back feed coded⟩

/-! ### A text with both forms -/

/--
The code of a tuple is a number, its duration a text and its flag a number; another has a duration
that is rounded and an element too many; a record leaves out what it may.
-/
def mixedText : String :=
  "\x7b\"skills\":[[3.0,null,\" 7\",0,\"\"],\x7b\"name\":\"n\",\"code\":\" s\",\"z\":[[]]\x7d]," ++
    "\"actions\":[[\"wave\",\"Wave\",2.5,\"false\",\"w.png\",\x7b\x7d]]\x7d"

def mixedFeed : Feed where
  actions := [⟨"wave", "Wave", 3, false, some "w.png"⟩]
  skills := [⟨"3.0", "3.0", 7, false, none⟩, ⟨" s", "n", 0, true, none⟩]

def wordToken (letters : String) : Json.Token :=
  .text (letters.toUTF8.toList.map .byte)

def mixedTokens : List Json.Token := [
  .objectOpen, wordToken "skills", .colon, .arrayOpen,
  .arrayOpen, .number ⟨false, 30, -1, false⟩, .comma, .null, .comma, wordToken " 7", .comma,
  .number ⟨false, 0, 0, true⟩, .comma, wordToken "", .arrayClose, .comma,
  .objectOpen, wordToken "name", .colon, wordToken "n", .comma,
  wordToken "code", .colon, wordToken " s", .comma,
  wordToken "z", .colon, .arrayOpen, .arrayOpen, .arrayClose, .arrayClose, .objectClose,
  .arrayClose, .comma, wordToken "actions", .colon, .arrayOpen,
  .arrayOpen, wordToken "wave", .comma, wordToken "Wave", .comma, .number ⟨false, 25, -1, false⟩,
  .comma, wordToken "false", .comma, wordToken "w.png", .comma, .objectOpen, .objectClose,
  .arrayClose, .arrayClose, .objectClose]

theorem load_mixedText : load mixedText = .ok mixedFeed := by
  have scanned : Json.tokens mixedText.toUTF8.toList = mixedTokens := by
    decide +kernel
  have read : reader mixedTokens = .ok (mixedFeed, []) := by
    with_unfolding_all rfl
  rw [load_eq_ok, Reader.run, scanned, read]
  rfl

theorem load_toText_stable_mixed :
    (∀ kind, ∀ entry ∈ mixedFeed.entries kind, ∃ c ∈ entry.code.toList, isBlank c = false) ∧
      load mixedFeed.toJson.toText = .ok mixedFeed :=
  load_toText_stable.2 mixedText mixedFeed load_mixedText

end RobotBlocks.Catalog.Feed
