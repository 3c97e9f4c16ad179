import RobotBlocks.Proofs.Results
import RobotBlocks.Proofs.Store.BinaryDocuments
import RobotBlocks.Proofs.Store.SlotKeys
import RobotBlocks.Proofs.Store.TextDocuments

/-!
# Loading what was saved

Over a backend that gives back what was written, a load right after a save decodes the document
that the save encoded.  Binary documents always come back.  Texts come back exactly when all their
numbers are finite and they nest no deeper than a reader goes; a save does not look at either, so it
can fill a slot that no load accepts.  Whether it succeeds or fails, a save changes no slot but its
own.
-/

namespace RobotBlocks

namespace Format

/--
A document that a format gives back.  A binary document has to fit into memory, where 64 bits count
its bytes.
-/
def Holds : Format → Document → Prop
  | .json, document => document.isReadable = true
  | .binary, document => (Store.writeDocument document).length < 2 ^ 64

instance (format : Format) (document : Document) : Decidable (format.Holds document) :=
  match format with
  | .json => inferInstanceAs (Decidable (document.isReadable = true))
  | .binary => inferInstanceAs (Decidable (_ < _))

theorem decode_encode_json (document : Document) :
    json.decode (json.encode document) =
      if document.isReadable then .ok document else .error (.ofCause .document) := by
  unfold decode encode
  simp only
  rw [Document.ofText?_toText]
  cases document.isReadable <;> rfl

theorem decode_encode {format : Format} {document : Document} (holds : format.Holds document) :
    format.decode (format.encode document) = .ok document := by
  cases format with
  | json => exact (decode_encode_json document).trans (if_pos holds)
  | binary => exact Store.readDocument_writeDocument holds

end Format

namespace Store

variable {σ : Type}

/-- Whatever a backend says it has written is read back. -/
def Backend.Works (backend : Backend σ) : Prop :=
  ∀ {key bytes kept after}, backend.write key bytes kept = (.ok (), after) →
    backend.read key after = .ok (some bytes)

theorem memory_works : memory.Works := by
  intro key bytes kept after written
  have slots : kept.insert key bytes = after := congrArg Prod.snd written
  have found : (kept.insert key bytes)[key]? = some bytes := Std.TreeMap.getElem?_insert_self
  exact congrArg Except.ok (slots ▸ found)

/--
What a backend keeps, slot by slot.  A write that succeeds fills its own slot and no other, a write
that fails leaves all slots as they were, and what is read is what the slot holds.  Any read and any
write may fail.
-/
structure Backend.HasSlots (backend : Backend σ) (slots : σ → SlotKey → Option (List UInt8)) :
    Prop where
  read : ∀ {key kept found}, backend.read key kept = .ok found → found = slots kept key
  written : ∀ {key bytes kept after}, backend.write key bytes kept = (.ok (), after) →
    slots after = Function.update (slots kept) key (some bytes)
  refused : ∀ {key bytes kept failure after},
    backend.write key bytes kept = (.error failure, after) → slots after = slots kept

theorem memory_hasSlots : memory.HasSlots fun slots key => slots[key]? where
  read read := (Except.ok.inj read).symm
  written {key bytes kept after} written := by
    obtain ⟨-, rfl⟩ := Prod.mk.inj written
    funext other
    change (kept.insert key bytes)[other]? = _
    rw [Std.TreeMap.getElem?_insert, Function.update_apply]
    exact if_congr (Std.LawfulEqCmp.compare_eq_iff_eq.trans eq_comm) rfl rfl
  refused refused := nomatch (Prod.mk.inj refused).1

/-- A save changes the slot of its model only, and that slot holds the document if it changes. -/
theorem Backend.HasSlots.save {store : Store σ} {slots : σ → SlotKey → Option (List UInt8)}
    (hasSlots : store.backend.HasSlots slots) (space model : String) (diagram : Diagram)
    (kept : σ) :
    slots (store.save space model diagram kept).2 = slots kept ∨
      slots (store.save space model diagram kept).2 =
        Function.update (slots kept) (slotKey store.format space model)
          (some (store.format.encode ⟨space, model, diagram⟩)) := by
  have left : (store.save space model diagram kept).2 =
      (store.backend.write (slotKey store.format space model)
        (store.format.encode ⟨space, model, diagram⟩) kept).2 := rfl
  rw [left]
  cases written : store.backend.write (slotKey store.format space model)
      (store.format.encode ⟨space, model, diagram⟩) kept with
  | mk result after =>
      cases result with
      | error failure => exact .inl (hasSlots.refused written)
      | ok => exact .inr (hasSlots.written written)

/-- A slot that was just saved is opened from the bytes of its document. -/
theorem load_saved {store : Store σ} (works : store.backend.Works) {space model : String}
    {diagram : Diagram} {kept after : σ}
    (saved : store.save space model diagram kept = (.ok (), after)) :
    store.load space model after =
      open? store.format space model (store.format.encode ⟨space, model, diagram⟩) := by
  have written : store.backend.write (slotKey store.format space model)
      (store.format.encode ⟨space, model, diagram⟩) kept = (.ok (), after) := by
    unfold save at saved
    simp only at saved
    obtain ⟨result, left⟩ := Prod.mk.inj saved
    refine Prod.ext ?_ left
    revert result
    cases (store.backend.write (slotKey store.format space model)
      (store.format.encode ⟨space, model, diagram⟩) kept).1 with
    | ok done => exact fun _ => rfl
    | error failure => exact nofun
  unfold load
  rw [works written]
  rfl

/-- The bytes of a slot are opened when they are a document of its namespace and its model. -/
theorem open?_eq_ok {format : Format} {space model : String} {bytes : List UInt8}
    {diagram : Diagram} :
    open? format space model bytes = .ok diagram ↔
      format.decode bytes = .ok ⟨space, model, diagram⟩ := by
  unfold open?
  cases decoded : format.decode bytes with
  | error failure => exact ⟨nofun, nofun⟩
  | ok document =>
      obtain ⟨otherSpace, otherModel, found⟩ := document
      change (if otherSpace = space ∧ otherModel = model then .ok found else .error _) =
        Except.ok diagram ↔ _
      split
      · rename_i own
        obtain ⟨rfl, rfl⟩ := own
        simp
      · rename_i foreign
        constructor
        · exact nofun
        · rintro ⟨⟩
          exact absurd ⟨rfl, rfl⟩ foreign

theorem open?_encode {format : Format} {space model : String} {diagram : Diagram}
    (holds : format.Holds ⟨space, model, diagram⟩) :
    open? format space model (format.encode ⟨space, model, diagram⟩) = .ok diagram :=
  open?_eq_ok.mpr (Format.decode_encode holds)

/-- A load that succeeds opens what the slot holds. -/
theorem Backend.HasSlots.load {store : Store σ} {slots : σ → SlotKey → Option (List UInt8)}
    (hasSlots : store.backend.HasSlots slots) {space model : String} {diagram found : Diagram}
    {kept : σ}
    (held : slots kept (slotKey store.format space model) =
      some (store.format.encode ⟨space, model, diagram⟩))
    (holds : store.format.Holds ⟨space, model, diagram⟩)
    (loaded : store.load space model kept = .ok found) : found = diagram := by
  obtain ⟨bytes, read, opened⟩ := bind_eq_ok.mp loaded
  rw [hasSlots.read read, held] at opened
  exact Except.ok.inj (opened.symm.trans (open?_encode holds))

theorem open?_unreadable {space model : String} {diagram : Diagram}
    (unreadable : Document.isReadable ⟨space, model, diagram⟩ = false) :
    open? .json space model (Format.json.encode ⟨space, model, diagram⟩) =
      .error ((Failure.ofCause .document).within
        ("Corrupt diagram slot " ++ label space model)) := by
  unfold open?
  rw [Format.decode_encode_json, unreadable]
  rfl

/-- What was saved in the binary format is loaded again. -/
theorem load_saved_binary {store : Store σ} (binary : store.format = .binary)
    (works : store.backend.Works) {space model : String} {diagram : Diagram} {kept after : σ}
    (fits : (writeDocument ⟨space, model, diagram⟩).length < 2 ^ 64)
    (saved : store.save space model diagram kept = (.ok (), after)) :
    store.load space model after = .ok diagram := by
  rw [load_saved works saved, binary]
  exact open?_encode fits

/--
What was saved as a text is loaded again exactly when all its numbers are finite and no more than
127 arrays and objects of it are open at once.  Otherwise the load says that the slot is corrupt.
-/
theorem load_saved_json {store : Store σ} (json : store.format = .json)
    (works : store.backend.Works) {space model : String} {diagram : Diagram} {kept after : σ}
    (saved : store.save space model diagram kept = (.ok (), after)) :
    (store.load space model after = .ok diagram ↔
      diagram.isFinite = true ∧ (Document.toJson ⟨space, model, diagram⟩).nesting ≤ 127) ∧
    (¬(diagram.isFinite = true ∧ (Document.toJson ⟨space, model, diagram⟩).nesting ≤ 127) →
      store.load space model after = .error ((Failure.ofCause .document).within
        ("Corrupt diagram slot " ++ label space model))) := by
  have condition : Document.isReadable ⟨space, model, diagram⟩ = true ↔
      diagram.isFinite = true ∧ (Document.toJson ⟨space, model, diagram⟩).nesting ≤ 127 := by
    unfold Document.isReadable
    rw [Bool.and_eq_true, decide_eq_true_eq]
    rfl
  rw [load_saved works saved, json, ← condition, Bool.not_eq_true]
  cases readable : Document.isReadable ⟨space, model, diagram⟩ with
  | true => exact ⟨⟨fun _ => rfl, fun _ => open?_encode readable⟩, nofun⟩
  | false =>
      rw [open?_unreadable readable]
      exact ⟨⟨nofun, nofun⟩, fun _ => rfl⟩

def pause (seconds : Binary64) : Diagram where
  blocks := [⟨"b", "wait", .ofList [("seconds", .number seconds)], []⟩]

/-- Half a second can be loaded again. -/
theorem load_saved_half :
    load ⟨memory, .json⟩ "u" "m" (save ⟨memory, .json⟩ "u" "m" (pause ⟨0x3FE0000000000000⟩) ∅).2 =
      .ok (pause ⟨0x3FE0000000000000⟩) :=
  (@load_saved_json Slots ⟨memory, .json⟩ rfl memory_works "u" "m"
    (pause ⟨0x3FE0000000000000⟩) ∅ _ rfl).1.mpr (by decide)

/-- A wait that is no number is saved, but never loaded again. -/
theorem saved_nan_not_loaded :
    ¬∀ (σ : Type) (store : Store σ), store.format = .json → store.backend.Works →
      ∀ (space model : String) (diagram : Diagram) (kept after : σ),
        store.save space model diagram kept = (.ok (), after) →
          store.load space model after = .ok diagram := by
  intro always
  have loaded := always Slots ⟨memory, .json⟩ rfl memory_works "u" "m"
    (pause ⟨0x7FF8000000000000⟩) ∅ _ rfl
  rw [load_saved memory_works rfl, open?_unreadable (by decide)] at loaded
  cases loaded

end Store

end RobotBlocks
