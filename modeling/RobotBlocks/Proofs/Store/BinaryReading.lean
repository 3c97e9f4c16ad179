import RobotBlocks.Proofs.Store.BinaryDocuments

/-!
# What binary decoders take

A decoder that takes a value from the front of some bytes takes the same value when more bytes come
after them, and leaves these as well.  What it takes has only lengths that 64 bits can count, as
wide as a length may have been written.
-/

namespace RobotBlocks.Store

open Text (bytesOf toList_toUTF8)

/--
Whatever the decoder takes is good, and the wider one takes it as well, also when more bytes follow.
-/
def TakenBy {α : Type} (decoder wider : Decoder α) (good : α → Prop) : Prop :=
  ∀ bytes value rest, decoder bytes = some (value, rest) →
    good value ∧ ∀ more, wider (bytes ++ more) = some (value, rest ++ more)

/-- Whatever the decoder takes is good, and it takes the same when more bytes follow. -/
def Takes {α : Type} (decoder : Decoder α) (good : α → Prop) : Prop :=
  TakenBy decoder decoder good

/-- A decoder that goes on with another one for what it found. -/
theorem TakenBy.bind {α β : Type} {decoder wider : Decoder α} {good : α → Prop}
    {next nextWider : α × List UInt8 → Option (β × List UInt8)} {fine : β → Prop}
    (taken : TakenBy decoder wider good)
    (later : ∀ value, good value →
      TakenBy (fun rest => next (value, rest)) (fun rest => nextWider (value, rest)) fine) :
    TakenBy (fun bytes => decoder bytes >>= next) (fun bytes => wider bytes >>= nextWider)
      fine := by
  intro bytes result rest read
  obtain ⟨⟨value, left⟩, first, second⟩ := Option.bind_eq_some_iff.mp read
  obtain ⟨holds, again⟩ := taken bytes value left first
  obtain ⟨resultHolds, last⟩ := later value holds left result rest second
  refine ⟨resultHolds, fun more => ?_⟩
  simp only [again more]
  exact last more

theorem takes_return {α : Type} {good : α → Prop} {value : α} (holds : good value) :
    Takes (fun bytes => some (value, bytes)) good := by
  intro bytes result rest read
  cases read
  exact ⟨holds, fun more => rfl⟩

theorem takes_found {α : Type} {good : α → Prop} {found : Option α}
    (holds : ∀ value, found = some value → good value) :
    Takes (fun bytes => found >>= fun value => some (value, bytes)) good := by
  cases found with
  | none =>
      intro bytes value rest read
      cases read
  | some value => exact takes_return (holds value rfl)

/-! ## Numbers -/

theorem ofLittleEndian_lt (bytes : List UInt8) : ofLittleEndian bytes < 256 ^ bytes.length := by
  induction bytes with
  | nil => exact Nat.one_pos
  | cons first rest ih =>
      have small := first.toNat_lt
      rw [ofLittleEndian, List.length_cons, Nat.pow_succ]
      omega

/-- Bytes are the only ones of their width that spell their number. -/
theorem littleEndian_ofLittleEndian (bytes : List UInt8) :
    littleEndian bytes.length (ofLittleEndian bytes) = bytes := by
  induction bytes with
  | nil => rfl
  | cons first rest ih =>
      have small := first.toNat_lt
      have low : (first.toNat + 256 * ofLittleEndian rest) % 256 = first.toNat := by omega
      have high : (first.toNat + 256 * ofLittleEndian rest) / 256 = ofLittleEndian rest := by omega
      rw [List.length_cons, ofLittleEndian, littleEndian, low, high, ih, UInt8.ofNat_toNat]

theorem readBytes_eq_some {count : ℕ} {bytes content rest : List UInt8} :
    readBytes count bytes = some (content, rest) ↔
      bytes = content ++ rest ∧ content.length = count := by
  constructor
  · intro read
    unfold readBytes at read
    split at read
    · rename_i enough
      cases read
      exact ⟨(List.take_append_drop count bytes).symm, List.length_take_of_le enough⟩
    · cases read
  · rintro ⟨rfl, rfl⟩
    exact readBytes_append content rest

theorem takes_bytes (count : ℕ) :
    Takes (readBytes count) fun content => content.length = count := by
  intro bytes content rest read
  obtain ⟨rfl, sized⟩ := readBytes_eq_some.mp read
  refine ⟨sized, ?_⟩
  intro more
  exact readBytes_eq_some.mpr ⟨List.append_assoc content rest more, sized⟩

theorem takes_fixed (width : ℕ) : Takes (readFixed width) fun number => number < 256 ^ width := by
  refine (takes_bytes width).bind fun content sized => takes_return ?_
  rw [← sized]
  exact ofLittleEndian_lt content

theorem takes_length (widest : ℕ) : Takes (readLength widest) fun number => number < 2 ^ 64 := by
  have wide {width : ℕ} (narrow : width ≤ 8) {bytes : List UInt8} {number : ℕ} {rest : List UInt8}
      (read : readFixed width bytes = some (number, rest)) :
      number < 2 ^ 64 ∧ ∀ more, readFixed width (bytes ++ more) = some (number, rest ++ more) := by
    obtain ⟨bound, again⟩ := takes_fixed width _ _ _ read
    have largest : 256 ^ width ≤ 256 ^ 8 := Nat.pow_le_pow_right (by decide) narrow
    exact ⟨Nat.lt_of_lt_of_le bound largest, again⟩
  intro bytes number rest read
  cases bytes with
  | nil => cases read
  | cons first bytes =>
      rw [readLength] at read
      simp only [List.cons_append, readLength]
      split_ifs at read ⊢ with small two four eight
      · cases read
        have bound := first.toNat_lt
        exact ⟨by omega, fun more => rfl⟩
      · exact wide (by decide) read
      · exact wide (by decide) read
      · exact wide (by decide) read

/-! ## Texts and values -/

theorem textFits_of_bytes {content : List UInt8} {text : String} (short : content.length < 2 ^ 64)
    (decoded : String.fromUTF8? content.toByteArray = some text) : TextFits text := by
  have bytes : text.toUTF8 = content.toByteArray := by
    unfold String.fromUTF8? at decoded
    split at decoded
    · cases decoded
      rfl
    · cases decoded
  unfold TextFits
  rw [bytes, Text.toList_byteArray, List.toList_data_toByteArray]
  exact short

theorem takes_text : Takes readText TextFits := by
  refine (takes_length 8).bind fun length bound => ?_
  refine (takes_bytes length).bind fun content sized => takes_found ?_
  intro text decoded
  exact textFits_of_bytes (sized ▸ bound) decoded

theorem takes_flag : Takes readFlag fun _ => True := by
  intro bytes value rest read
  cases bytes with
  | nil => cases read
  | cons first bytes =>
      rw [readFlag] at read
      simp only [List.cons_append, readFlag]
      split_ifs at read ⊢ <;> cases read <;> exact ⟨trivial, fun more => rfl⟩

theorem takes_value : Takes readValue ValueFits := by
  refine (takes_length 4).bind fun kind _ => ?_
  match kind with
  | 0 => exact takes_flag.bind fun flag _ => takes_return trivial
  | 1 => exact (takes_fixed 8).bind fun bits _ => takes_return trivial
  | 2 => exact takes_text.bind fun text fits => takes_return fits
  | _ + 3 =>
      intro bytes value rest read
      cases read

/-! ## Fields and blocks -/

theorem takes_entries (count : ℕ) :
    Takes (readEntries count) fun entries =>
      entries.length = count ∧ ∀ entry ∈ entries, FieldFits entry := by
  induction count with
  | zero => exact takes_return ⟨rfl, List.forall_mem_nil _⟩
  | succ count ih =>
      refine takes_text.bind fun name nameFits => ?_
      refine takes_value.bind fun value valueFits => ?_
      refine ih.bind fun others othersFit => takes_return ?_
      exact ⟨congrArg Nat.succ othersFit.1,
        List.forall_mem_cons.mpr ⟨⟨nameFits, valueFits⟩, othersFit.2⟩⟩

theorem takes_fields : Takes readFields FieldsFit := by
  refine (takes_length 8).bind fun count bound => ?_
  refine (takes_entries count).bind fun entries fit => takes_return ?_
  obtain ⟨members, shorter⟩ := Fields.entries_ofList entries
  refine ⟨?_, fun entry mem => fit.2 entry (members entry mem)⟩
  exact Nat.lt_of_le_of_lt shorter (fit.1 ▸ bound)

/-- Blocks are taken the same with more fuel. -/
theorem takenBy_blocks {fuel larger : ℕ} (enough : fuel ≤ larger) (count : ℕ) :
    TakenBy (readBlocks fuel count) (readBlocks larger count) fun blocks =>
      blocks.length = count ∧ BlocksFit blocks := by
  have none_left (fuel larger : ℕ) : TakenBy (readBlocks fuel 0) (readBlocks larger 0)
      fun blocks => blocks.length = 0 ∧ BlocksFit blocks := by
    have nothing (fuel : ℕ) : readBlocks fuel 0 = fun bytes => some ([], bytes) := by
      funext bytes
      rw [readBlocks]
    rw [nothing, nothing]
    exact takes_return ⟨rfl, trivial⟩
  induction fuel generalizing larger count with
  | zero =>
      cases count with
      | zero => exact none_left 0 larger
      | succ count =>
          intro bytes value rest read
          cases read
  | succ fuel ih =>
      cases count with
      | zero => exact none_left (fuel + 1) larger
      | succ count =>
          obtain ⟨larger, rfl⟩ := Nat.exists_eq_add_of_lt (Nat.lt_of_succ_le enough)
          have still : fuel ≤ fuel + larger := Nat.le_add_right fuel larger
          refine takes_text.bind fun id idFits => ?_
          refine takes_text.bind fun blockType typeFits => ?_
          refine takes_fields.bind fun fields fieldsFit => ?_
          refine (takes_length 8).bind fun inner bound => ?_
          refine (ih still inner).bind fun children childrenFit => ?_
          refine (ih still count).bind fun others othersFit => takes_return ?_
          exact ⟨congrArg Nat.succ othersFit.1,
            ⟨idFits, typeFits, fieldsFit, childrenFit.1 ▸ bound, childrenFit.2⟩, othersFit.2⟩

/-- Blocks are taken with as much fuel as there are bytes. -/
theorem takes_blocks (count : ℕ) :
    Takes (fun bytes => readBlocks bytes.length count bytes) fun blocks =>
      blocks.length = count ∧ BlocksFit blocks := by
  intro bytes blocks rest read
  refine ⟨(takenBy_blocks (Nat.le_refl _) count bytes blocks rest read).1, fun more => ?_⟩
  have enough : bytes.length ≤ (bytes ++ more).length := by
    rw [List.length_append]
    exact Nat.le_add_right _ _
  exact (takenBy_blocks enough count bytes blocks rest read).2 more

/-! ## Documents -/

theorem takes_body : Takes readBody DocumentFits := by
  refine takes_text.bind fun space spaceFits => ?_
  refine takes_text.bind fun model modelFits => ?_
  refine (takes_length 8).bind fun count bound => ?_
  refine (takes_blocks count).bind fun blocks fit => takes_return ?_
  exact ⟨spaceFits, modelFits, fit.1 ▸ bound, fit.2⟩

def preamble : List UInt8 :=
  mark ++ littleEndian 4 version

/-- A binary document is read exactly from the preamble and a body that is read. -/
theorem readDocument_eq_ok {bytes : List UInt8} {document : Document} :
    readDocument bytes = .ok document ↔
      ∃ body rest, bytes = preamble ++ body ∧ readBody body = some (document, rest) := by
  constructor
  · intro read
    unfold readDocument at read
    split at read
    · cases read
    · rename_i found afterMark taken
      split at read
      · rename_i marked
        split at read
        · cases read
        · rename_i number body numbered
          split at read
          · rename_i current
            split at read
            · rename_i other rest bodied
              cases read
              obtain ⟨rfl, _⟩ := readBytes_eq_some.mp taken
              obtain ⟨⟨content, left⟩, four, same⟩ := Option.bind_eq_some_iff.mp numbered
              obtain ⟨rfl, sized⟩ := readBytes_eq_some.mp four
              cases same
              have spelled := littleEndian_ofLittleEndian content
              rw [sized, current] at spelled
              refine ⟨body, rest, ?_, bodied⟩
              rw [preamble, spelled, marked, List.append_assoc]
            · cases read
          · cases read
      · cases read
  · rintro ⟨body, rest, rfl, read⟩
    have readMark := readBytes_append mark (littleEndian 4 version ++ body)
    have readVersion := @reads_fixed 4 version (by decide) body
    unfold preamble readDocument
    rw [List.append_assoc, readMark]
    simp only [if_true, readVersion, read]

/-- A document that is read has only lengths that can be counted. -/
theorem documentFits_of_read {bytes : List UInt8} {document : Document}
    (read : readDocument bytes = .ok document) : DocumentFits document := by
  obtain ⟨body, rest, _, bodied⟩ := readDocument_eq_ok.mp read
  exact (takes_body _ _ _ bodied).1

/-- Documents that can be counted have encodings of their own. -/
theorem writeDocument_injective {document other : Document} (fits : DocumentFits document)
    (otherFits : DocumentFits other) (same : writeDocument document = writeDocument other) :
    document = other := by
  have read := readDocument_of_fits fits
  rw [same, readDocument_of_fits otherFits] at read
  exact (Except.ok.inj read).symm

/--
Every document is read back from its bytes, bit for bit and with its fields in their order, and no
other document has the same bytes.  Any bytes that are read at all give a document that is read
back.  Texts and lists are as long as memory can hold, which 64 bits count.
-/
theorem binary_round_trip :
    (∀ document, DocumentFits document →
      readDocument (writeDocument document) = .ok document) ∧
    (∀ document other, DocumentFits document → DocumentFits other →
      writeDocument document = writeDocument other → document = other) ∧
    ∀ bytes document, readDocument bytes = .ok document →
      DocumentFits document ∧ readDocument (writeDocument document) = .ok document := by
  refine ⟨fun document fits => readDocument_of_fits fits,
    fun document other fits otherFits same => writeDocument_injective fits otherFits same, ?_⟩
  intro bytes document read
  have fits := documentFits_of_read read
  exact ⟨fits, readDocument_of_fits fits⟩

def nestedDocument (entries : List (String × FieldValue)) : Document where
  space := "u"
  model := ""
  diagram.blocks := [⟨"b", "repeat", .ofList entries, [⟨"c", "action:bow", .empty, []⟩]⟩]

def oddEntries : List (String × FieldValue) :=
  [("times", .number ⟨0xFFF8000000000001⟩), ("note", .text "é")]

/-- An empty document with a wide length, and bytes after its end. -/
def looseBytes : List UInt8 :=
  preamble ++ [251, 1, 0, 117, 253, 0, 0, 0, 0, 0, 0, 0, 0, 0, 7, 7]

theorem binary_round_trip_odd :
    readDocument (writeDocument (nestedDocument oddEntries)) = .ok (nestedDocument oddEntries) ∧
    writeDocument (nestedDocument oddEntries) ≠
      writeDocument (nestedDocument oddEntries.reverse) ∧
    readDocument looseBytes = .ok ⟨"u", "", {}⟩ ∧
    readDocument (writeDocument ⟨"u", "", {}⟩) = .ok ⟨"u", "", {}⟩ := by
  have fits : DocumentFits (nestedDocument oddEntries) :=
    documentFits_of_length (by decide +kernel)
  have reversedFits : DocumentFits (nestedDocument oddEntries.reverse) :=
    documentFits_of_length (by decide +kernel)
  have loose : readDocument looseBytes = .ok ⟨"u", "", {}⟩ :=
    readDocument_eq_ok.mpr ⟨_, [7, 7], rfl, by with_unfolding_all rfl⟩
  refine ⟨binary_round_trip.1 _ fits, ?_, loose, (binary_round_trip.2.2 _ _ loose).2⟩
  intro same
  have equal := binary_round_trip.2.1 _ _ fits reversedFits same
  have orders := congrArg (fun document => document.diagram.blocks.map (·.fields)) equal
  revert orders
  decide

end RobotBlocks.Store
