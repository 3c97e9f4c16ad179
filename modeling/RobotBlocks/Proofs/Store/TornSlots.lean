import RobotBlocks.Proofs.Json.Balance
import RobotBlocks.Proofs.Store.BinaryReading
import RobotBlocks.Proofs.Store.TextReading

/-!
# Torn slots

Slots are written in place, so a write that is interrupted leaves the front of a document behind.
Neither format takes the front of a document for a document: a text that is cut off leaves brackets
open, and a binary document that is cut off would be the same document with and without the rest.
-/

namespace RobotBlocks

/-- The text of a document is not read when its end is missing. -/
theorem Document.run_torn (document : Document) {torn lost : List UInt8} (cut : lost ≠ [])
    (whole : torn ++ lost = document.toText) (other : Document) :
    Document.reader.run torn ≠ .ok other := by
  cases torn with
  | nil => exact nofun
  | cons b torn =>
      exact Json.Reader.run_torn Document.takes_reader cut (List.cons_ne_nil b torn) whole other

namespace Store

variable {σ : Type}

/-- A binary document is not read when its end is missing. -/
theorem readDocument_torn {document : Document} (fits : DocumentFits document)
    {torn lost : List UInt8} (cut : lost ≠ []) (whole : torn ++ lost = writeDocument document)
    (other : Document) : readDocument torn ≠ .ok other := by
  intro read
  obtain ⟨body, rest, rfl, bodied⟩ := readDocument_eq_ok.mp read
  have parts : writeDocument document = preamble ++ writeBody document := rfl
  rw [parts, List.append_assoc, List.append_cancel_left_eq] at whole
  -- The same body is read as the other document with the rest left, and as this one with nothing.
  have more := (takes_body _ _ _ bodied).2 lost
  have all := reads_body fits []
  rw [List.append_nil, ← whole, more] at all
  obtain ⟨-, left⟩ := Prod.mk.inj (Option.some.inj all)
  exact cut (List.append_eq_nil_iff.mp left).2

/-- No format takes the front of a document for a document. -/
theorem decode_torn {format : Format} {document : Document}
    (fits : format = .binary → DocumentFits document) {torn lost : List UInt8}
    (cut : lost ≠ []) (whole : torn ++ lost = format.encode document) :
    ∃ failure, format.decode torn = .error failure := by
  cases result : format.decode torn with
  | error failure => exact ⟨failure, rfl⟩
  | ok other =>
      cases format with
      | json =>
          have read := Format.decode_json_eq_ok.mp result
          exact absurd read (document.run_torn cut whole other)
      | binary => exact absurd result (readDocument_torn (fits rfl) cut whole other)

/-! ## Slots that are refused -/

theorem load_refused {store : Store σ} {space model : String} {kept : σ} {bytes : List UInt8}
    {failure : Failure}
    (read : store.backend.read (slotKey store.format space model) kept = .ok (some bytes))
    (refused : store.format.decode bytes = .error failure) :
    store.load space model kept =
      .error (failure.within ("Corrupt diagram slot " ++ label space model)) := by
  unfold load
  rw [read]
  change open? store.format space model bytes = _
  unfold open?
  rw [refused]
  rfl

/-- A slot that is refused has no owner, so that it makes no difference whether it is there. -/
theorem owners_refused {store : Store σ} {space : String} {kept : σ} {key : SlotKey}
    {bytes : List UInt8} {failure : Failure}
    (read : store.backend.read key kept = .ok (some bytes))
    (refused : store.format.decode bytes = .error failure) (keys : List SlotKey) :
    store.owners space kept keys = store.owners space kept (keys.filter (· ≠ key)) := by
  induction keys with
  | nil => rfl
  | cons first rest ih =>
      by_cases same : first = key
      · have none : owner? store.format space key bytes = none := by
          unfold owner?
          rw [refused]
        rw [List.filter_cons_of_neg (by simpa using same), ← ih, same, owners, read]
        split
        · change (store.owners space kept rest >>= fun models =>
            pure ((owner? store.format space key bytes).toList ++ models)) = _
          rw [none]
          exact bind_pure _
        · rfl
      · rw [List.filter_cons_of_pos (by simpa using same), owners, owners, ih]

/--
The front of an encoded document, also the empty one, is refused by its format.  A load of a slot
that holds one fails and says that the slot is corrupt, and a listing is what it would be without
the slot.  Texts and lists of a binary document are as long as memory can hold, which 64 bits count.
-/
theorem torn_slot_rejected {format : Format} {document : Document}
    (fits : format = .binary → DocumentFits document) {torn lost : List UInt8} (cut : lost ≠ [])
    (whole : torn ++ lost = format.encode document) :
    ∃ failure, format.decode torn = .error failure ∧
      ∀ (σ : Type) (backend : Backend σ) (kept : σ) (space : String),
        (∀ model, backend.read (slotKey format space model) kept = .ok (some torn) →
          load ⟨backend, format⟩ space model kept =
            .error (failure.within ("Corrupt diagram slot " ++ label space model))) ∧
        ∀ key, backend.read key kept = .ok (some torn) →
          list ⟨backend, format⟩ space kept =
            backend.keys space kept >>= fun keys =>
              owners ⟨backend, format⟩ space kept (keys.filter (· ≠ key)) := by
  obtain ⟨failure, refused⟩ := decode_torn fits cut whole
  refine ⟨failure, refused, fun σ backend kept space => ⟨fun model read => ?_, ?_⟩⟩
  · exact @load_refused σ ⟨backend, format⟩ space model kept torn failure read refused
  · intro key read
    unfold list
    simp only
    cases backend.keys space kept with
    | error problem => rfl
    | ok keys =>
        exact @owners_refused σ ⟨backend, format⟩ space kept key torn failure read refused keys

/-- A slot with half a second, of which only the first forty bytes were written. -/
def tornSlot (format : Format) : List UInt8 :=
  (format.encode ⟨"u", "m", pause ⟨0x3FE0000000000000⟩⟩).take 40

def tornSlots (format : Format) : Slots :=
  (∅ : Slots).insert (slotKey format "u" "m") (tornSlot format)

/-- The torn slot of texts is not loaded, and the binary one is not listed. -/
theorem torn_slot_rejected_pause :
    (∃ failure, load ⟨memory, .json⟩ "u" "m" (tornSlots .json) = .error failure) ∧
      list ⟨memory, .binary⟩ "u" (tornSlots .binary) = .ok [] := by
  constructor
  · obtain ⟨failure, -, slots⟩ := @torn_slot_rejected .json _ nofun (tornSlot .json) _
      (by decide +kernel) (List.take_append_drop 40 _)
    exact ⟨_, (slots Slots memory (tornSlots .json) "u").1 "m" (memory_works rfl)⟩
  · have fits : DocumentFits ⟨"u", "m", pause ⟨0x3FE0000000000000⟩⟩ :=
      documentFits_of_length (by decide +kernel)
    obtain ⟨failure, -, slots⟩ := @torn_slot_rejected .binary _ (fun _ => fits)
      (tornSlot .binary) _ (by decide +kernel) (List.take_append_drop 40 _)
    have listed := (slots Slots memory (tornSlots .binary) "u").2 (slotKey .binary "u" "m")
      (memory_works rfl)
    have alone : ((tornSlots .binary).keys.filter fun key => key.space == encodeName "u").filter
        (· ≠ slotKey .binary "u" "m") = [] := by
      decide +kernel
    rw [listed]
    exact congrArg (owners ⟨memory, .binary⟩ "u" (tornSlots .binary)) alone

end Store

end RobotBlocks
