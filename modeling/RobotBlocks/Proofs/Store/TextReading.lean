import RobotBlocks.Proofs.Block.Accepted
import RobotBlocks.Proofs.Block.Levels
import RobotBlocks.Proofs.Json.Balance
import RobotBlocks.Proofs.Store.Saving

/-!
# Documents from any text

A document may be written in many ways: as arrays, with components left out, with names that nobody
asks for, with a field named twice.  Whatever the text, a document that is found in one has finite
numbers only and blocks that are not too deep inside each other, and so its own text gives it back.
-/

namespace RobotBlocks

open Json (Reader Takes Token)
open Json.Reader (takes_record takes_run takes_slot takes_text)

namespace Document

theorem isReadable_iff (document : Document) :
    document.isReadable = true ↔
      document.diagram.isFinite = true ∧ document.toJson.nesting ≤ 127 := by
  unfold isReadable
  rw [Bool.and_eq_true, decide_eq_true_eq]
  rfl

/-- All numbers are finite, and nowhere in the text are more than 127 arrays and objects open. -/
def Restorable (document : Document) : Prop :=
  document.diagram.isFinite = true ∧ Json.Within 127 (Json.tokens document.toText)

theorem isReadable_iff_restorable (document : Document) :
    document.isReadable = true ↔ document.Restorable := by
  unfold Restorable toText
  rw [isReadable_iff, Json.Value.tokens_toPrettyBytes, Json.Value.within_tokens]
  exact and_congr_right fun _ => Nat.cast_le.symm

/-- The document, the diagram and the array of its blocks leave 124 levels to the blocks. -/
theorem isReadable_iff_fitsAt (document : Document) :
    document.isReadable = true ↔
      ∀ level block, Block.Occurs document.diagram.blocks level block → block.FitsAt level := by
  rw [isReadable_iff, Block.fitsAt_all_iff, nesting_toJson, Diagram.nesting_toJson]
  unfold Diagram.isFinite
  exact and_congr_right fun _ => ⟨fun shallow => by omega, fun shallow => by omega⟩

/-! ## Reading -/

def Draft.IsReadable (draft : Draft) : Prop :=
  ∀ diagram ∈ draft.diagram, diagram.isFinite = true ∧ diagram.toJson.nesting ≤ 126

theorem takes_slots {diagram : Reader Empty Diagram}
    (takes : Takes diagram fun diagram =>
      diagram.isFinite = true ∧ diagram.toJson.nesting ≤ 126) :
    ∀ slot ∈ slots diagram, slot.Takes Draft.IsReadable := by
  unfold slots
  simp only [List.forall_mem_cons]
  refine ⟨takes_slot takes_text ?_, takes_slot takes_text ?_, takes_slot takes ?_,
    List.forall_mem_nil _⟩
  · exact fun readable _ => readable
  · exact fun readable _ => readable
  · intro draft diagram readable fine
    rintro _ ⟨⟩
    exact fine

theorem isReadable_of_draft {draft : Draft} (readable : draft.IsReadable) {document : Document}
    (made : ofDraft? draft = some document) : document.isReadable = true := by
  obtain ⟨space, model, diagram⟩ := draft
  obtain ⟨space, rfl, made⟩ := Option.bind_eq_some_iff.mp made
  obtain ⟨model, rfl, made⟩ := Option.bind_eq_some_iff.mp made
  obtain ⟨diagram, rfl, made⟩ := Option.bind_eq_some_iff.mp made
  cases made
  obtain ⟨finite, shallow⟩ := readable diagram rfl
  rw [isReadable_iff, nesting_toJson]
  exact ⟨finite, Nat.succ_le_succ shallow⟩

/-- Whatever document is read, its own text can be read. -/
theorem takes_reader : Takes reader fun document => document.isReadable = true := by
  have empty : ({} : Draft).IsReadable := nofun
  refine (takes_record (takes_slots (Diagram.takes_reader 63)) empty).filterMap ?_
  intro draft document readable made
  exact isReadable_of_draft readable made

end Document

namespace Format

theorem decode_json_eq_ok {bytes : List UInt8} {document : Document} :
    json.decode bytes = .ok document ↔ Document.reader.run bytes = .ok document := by
  unfold decode Document.ofText?
  simp only
  cases Document.reader.run bytes with
  | error fault =>
      constructor
      · rintro ⟨⟩
      · rintro ⟨⟩
  | ok found =>
      constructor
      · rintro ⟨⟩
        rfl
      · rintro ⟨⟩
        rfl

/-- What a text gives is given back by its own text. -/
theorem isReadable_of_decode {bytes : List UInt8} {document : Document}
    (decoded : json.decode bytes = .ok document) : document.isReadable = true :=
  (takes_run Document.takes_reader (decode_json_eq_ok.mp decoded)).1

end Format

namespace Store

variable {σ : Type}

/-- A diagram that a slot of texts gives can be given by one, also if the slot was never saved. -/
theorem isReadable_of_load {store : Store σ} (json : store.format = .json) {space model : String}
    {diagram : Diagram} {kept : σ} (loaded : store.load space model kept = .ok diagram) :
    Document.isReadable ⟨space, model, diagram⟩ = true := by
  obtain ⟨found, read, opened⟩ := bind_eq_ok.mp loaded
  cases found with
  | none =>
      cases opened
      rw [Document.isReadable_iff_fitsAt]
      intro level block occurs
      cases occurs with
      | top mem => cases mem
      | inside mem inner => cases mem
  | some bytes =>
      rw [json] at opened
      exact Format.isReadable_of_decode (open?_eq_ok.mp opened)

theorem save_eq_ok {store : Store σ} {space model : String} {diagram : Diagram} {kept after : σ}
    (written : store.backend.write (slotKey store.format space model)
      (store.format.encode ⟨space, model, diagram⟩) kept = (.ok (), after)) :
    store.save space model diagram kept = (.ok (), after) := by
  have parts : store.save space model diagram kept =
      (inContext ("Failed to save diagram " ++ label space model)
        (store.backend.write (slotKey store.format space model)
          (store.format.encode ⟨space, model, diagram⟩) kept).1,
        (store.backend.write (slotKey store.format space model)
          (store.format.encode ⟨space, model, diagram⟩) kept).2) := rfl
  rw [parts, written]
  rfl

/--
The text of a document gives the document back when all its numbers are finite and it nests at most
127 levels deep, which is said of its blocks by the level that each stands at; any other document
has a text that is refused.  Whatever text a document is found in, the document is such a one.  A
diagram that a store of texts loads is therefore loaded again after it was saved.
-/
theorem text_round_trip {store : Store σ} (json : store.format = .json)
    (works : store.backend.Works) :
    (∀ document : Document,
      (document.Restorable ↔
        ∀ level block, Block.Occurs document.diagram.blocks level block → block.FitsAt level) ∧
      (document.Restorable →
        Format.json.decode (Format.json.encode document) = .ok document) ∧
      (¬document.Restorable →
        Format.json.decode (Format.json.encode document) = .error (.ofCause .document))) ∧
    (∀ (bytes : List UInt8) (document : Document), Format.json.decode bytes = .ok document →
      document.Restorable ∧ Format.json.decode (Format.json.encode document) = .ok document) ∧
    ∀ (space model : String) (diagram : Diagram) (kept after : σ),
      store.load space model kept = .ok diagram →
      store.backend.write (slotKey store.format space model)
        (store.format.encode ⟨space, model, diagram⟩) kept = (.ok (), after) →
      store.save space model diagram kept = (.ok (), after) ∧
        store.load space model after = .ok diagram := by
  refine ⟨fun document => ?_, ?_, ?_⟩
  · rw [← Document.isReadable_iff_restorable]
    refine ⟨document.isReadable_iff_fitsAt, ?_, ?_⟩
    · intro readable
      rw [Format.decode_encode_json, if_pos readable]
    · intro unreadable
      rw [Format.decode_encode_json, if_neg unreadable]
  · intro bytes document decoded
    have readable := Format.isReadable_of_decode decoded
    refine ⟨document.isReadable_iff_restorable.mp readable, ?_⟩
    rw [Format.decode_encode_json, if_pos readable]
  · intro space model diagram kept after loaded written
    have saved := save_eq_ok written
    refine ⟨saved, ?_⟩
    rw [load_saved works saved, json]
    exact open?_encode (isReadable_of_load json loaded)

/-! ## A text that nobody prints -/

/--
The document and the diagram are arrays, the children are left out, one component is not known, and
the seconds are given twice.
-/
def spelledSlot : List UInt8 :=
  String.toUTF8 ("[\"u\",\"m\",[[\x7b\"type\":\"wait\",\"id\":\"b\",\"note\":[1,\x7b\x7d]," ++
    "\"fields\":\x7b\"seconds\":\x7b\"number\":7\x7d," ++
    "\"seconds\":\x7b\"number\":5e-1\x7d\x7d\x7d]]]") |>.toList

def wordToken (letters : String) : Token :=
  .text (letters.toUTF8.toList.map .byte)

def spelledTokens : List Token := [
  .arrayOpen, wordToken "u", .comma, wordToken "m", .comma, .arrayOpen, .arrayOpen,
  .objectOpen, wordToken "type", .colon, wordToken "wait", .comma,
  wordToken "id", .colon, wordToken "b", .comma,
  wordToken "note", .colon, .arrayOpen, .number ⟨false, 1, 0, true⟩, .comma,
  .objectOpen, .objectClose, .arrayClose, .comma,
  wordToken "fields", .colon, .objectOpen,
  wordToken "seconds", .colon,
  .objectOpen, wordToken "number", .colon, .number ⟨false, 7, 0, true⟩, .objectClose, .comma,
  wordToken "seconds", .colon,
  .objectOpen, wordToken "number", .colon, .number ⟨false, 5, -1, false⟩, .objectClose,
  .objectClose, .objectClose, .arrayClose, .arrayClose, .arrayClose]

theorem tokens_spelledSlot : Json.tokens spelledSlot = spelledTokens := by
  decide +kernel

theorem decode_spelledSlot :
    Format.json.decode spelledSlot = .ok ⟨"u", "m", pause ⟨0x3FE0000000000000⟩⟩ := by
  have read : Document.reader spelledTokens =
      .ok (⟨"u", "m", pause ⟨0x3FE0000000000000⟩⟩, []) := by
    with_unfolding_all rfl
  rw [Format.decode_json_eq_ok, Reader.run, tokens_spelledSlot, read]
  rfl

theorem load_spelledSlot :
    load ⟨memory, .json⟩ "u" "m" ((∅ : Slots).insert (slotKey .json "u" "m") spelledSlot) =
      .ok (pause ⟨0x3FE0000000000000⟩) := by
  have found : memory.read (slotKey .json "u" "m")
      ((∅ : Slots).insert (slotKey .json "u" "m") spelledSlot) = .ok (some spelledSlot) :=
    memory_works rfl
  unfold load
  simp only
  rw [found]
  change open? .json "u" "m" spelledSlot = _
  unfold open?
  rw [decode_spelledSlot]
  rfl

/--
Half a second is given back by its own text, and loaded again after it was loaded from the spelled
slot and saved; the text of a wait that is no number is refused.
-/
theorem text_round_trip_spelledSlot :
    Format.json.decode (Format.json.encode ⟨"u", "m", pause ⟨0x3FE0000000000000⟩⟩) =
        .ok ⟨"u", "m", pause ⟨0x3FE0000000000000⟩⟩ ∧
      Format.json.decode (Format.json.encode ⟨"u", "m", pause ⟨0x7FF8000000000000⟩⟩) =
        .error (.ofCause .document) ∧
      load ⟨memory, .json⟩ "u" "m" (save ⟨memory, .json⟩ "u" "m" (pause ⟨0x3FE0000000000000⟩)
        ((∅ : Slots).insert (slotKey .json "u" "m") spelledSlot)).2 =
        .ok (pause ⟨0x3FE0000000000000⟩) := by
  obtain ⟨written, spelled, reloaded⟩ := @text_round_trip Slots ⟨memory, .json⟩ rfl memory_works
  refine ⟨(spelled spelledSlot _ decode_spelledSlot).2, ?_, ?_⟩
  · refine (written ⟨"u", "m", pause ⟨0x7FF8000000000000⟩⟩).2.2 ?_
    rintro ⟨finite, -⟩
    exact absurd finite (by decide)
  · exact (reloaded "u" "m" _ _ _ load_spelledSlot rfl).2

end Store

end RobotBlocks
