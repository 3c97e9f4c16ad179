import RobotBlocks.Proofs.Block.Fields
import RobotBlocks.Proofs.Text.Bytes
import RobotBlocks.Store.Binary

/-!
# Binary documents are read back

Every component of a document is read back from its bytes, whatever comes after them.  Lengths are
written with at most 64 bits, so no text and no list of a document may be longer than they count.
-/

namespace RobotBlocks.Store

open Text (bytesOf fromUTF8_bytesOf toList_toUTF8)

/-! ## Lengths -/

/-- The bytes of the text can be counted in 64 bits. -/
def TextFits (text : String) : Prop :=
  text.toUTF8.toList.length < 2 ^ 64

def ValueFits : FieldValue → Prop
  | .flag _ => True
  | .number _ => True
  | .text value => TextFits value

def FieldFits (field : String × FieldValue) : Prop :=
  TextFits field.1 ∧ ValueFits field.2

def FieldsFit (fields : Fields) : Prop :=
  fields.entries.length < 2 ^ 64 ∧ ∀ entry ∈ fields.entries, FieldFits entry

mutual

def BlocksFit : List Block → Prop
  | [] => True
  | first :: rest => BlockFits first ∧ BlocksFit rest

def BlockFits : Block → Prop
  | ⟨id, blockType, fields, children⟩ =>
      TextFits id ∧ TextFits blockType ∧ FieldsFit fields ∧ children.length < 2 ^ 64 ∧
        BlocksFit children

end

/-- Every text and every list of the document has a length of at most 64 bits. -/
def DocumentFits (document : Document) : Prop :=
  TextFits document.space ∧ TextFits document.model ∧
    document.diagram.blocks.length < 2 ^ 64 ∧ BlocksFit document.diagram.blocks

/-- The decoder takes the bytes as a value and leaves whatever comes after them. -/
def Reads {α : Type} (decoder : Decoder α) (bytes : List UInt8) (value : α) : Prop :=
  ∀ rest, decoder (bytes ++ rest) = some (value, rest)

/-! ## Numbers -/

theorem readBytes_append (bytes rest : List UInt8) :
    readBytes bytes.length (bytes ++ rest) = some (bytes, rest) := by
  have enough : bytes.length ≤ (bytes ++ rest).length := by
    rw [List.length_append]
    exact Nat.le_add_right _ _
  rw [readBytes, if_pos enough, List.take_left, List.drop_left]

theorem length_littleEndian (width n : ℕ) : (littleEndian width n).length = width := by
  induction width generalizing n with
  | zero => rfl
  | succ width ih => rw [littleEndian, List.length_cons, ih]

theorem ofLittleEndian_littleEndian {width n : ℕ} (fits : n < 256 ^ width) :
    ofLittleEndian (littleEndian width n) = n := by
  induction width generalizing n with
  | zero =>
      have zero : n = 0 := Nat.lt_one_iff.mp fits
      exact zero.symm
  | succ width ih =>
      have smaller : n / 256 < 256 ^ width := by
        rw [Nat.pow_succ, Nat.mul_comm] at fits
        exact Nat.div_lt_of_lt_mul fits
      rw [littleEndian, ofLittleEndian, ih smaller, UInt8.toNat_ofNat']
      omega

theorem reads_fixed {width n : ℕ} (fits : n < 256 ^ width) :
    Reads (readFixed width) (littleEndian width n) n := by
  intro rest
  have taken := readBytes_append (littleEndian width n) rest
  rw [length_littleEndian] at taken
  unfold readFixed
  rw [taken]
  exact congrArg (fun number => some (number, rest)) (ofLittleEndian_littleEndian fits)

/-- A small length is read back at every width. -/
theorem reads_small {widest n : ℕ} (small : n < 251) :
    Reads (readLength widest) (writeLength n) n := by
  intro rest
  have code : (UInt8.ofNat n).toNat = n := by
    rw [UInt8.toNat_ofNat', Nat.mod_eq_of_lt (by omega)]
  have less : UInt8.ofNat n < 251 := UInt8.lt_iff_toNat_lt.mpr (code.symm ▸ small)
  rw [writeLength, if_pos small, List.singleton_append, readLength, if_pos less, code]

theorem reads_count {n : ℕ} (fits : n < 2 ^ 64) : Reads readCount (writeLength n) n := by
  by_cases small : n < 251
  · exact reads_small small
  · intro rest
    rw [writeLength, if_neg small]
    split
    · exact reads_fixed (by omega) rest
    · split
      · exact reads_fixed (by omega) rest
      · exact reads_fixed (by omega) rest

/-! ## Texts and values -/

theorem reads_text {text : String} (fits : TextFits text) :
    Reads readText (writeText text) text := by
  intro rest
  unfold TextFits at fits
  unfold writeText
  rw [toList_toUTF8] at fits ⊢
  have counted := reads_count fits (bytesOf text.toList ++ rest)
  have taken := readBytes_append (bytesOf text.toList) rest
  have decoded := fromUTF8_bytesOf text.toList
  rw [String.ofList_toList] at decoded
  unfold readText
  simp only [List.append_assoc]
  rw [counted]
  change (readBytes _ _ >>= _) = _
  rw [taken]
  change (String.fromUTF8? _ >>= _) = _
  rw [decoded]
  rfl

theorem reads_value {value : FieldValue} (fits : ValueFits value) :
    Reads readValue (writeValue value) value := by
  intro rest
  cases value with
  | flag value => cases value <;> rfl
  | number value =>
      obtain ⟨bits⟩ := value
      have bound : bits.toNat < 256 ^ 8 := bits.toNat_lt
      have read := reads_fixed bound rest
      have again : UInt64.ofNat bits.toNat = bits := UInt64.ofNat_toNat
      unfold writeValue readValue
      rw [List.append_assoc, reads_small (by decide)]
      simp only [Option.bind_eq_bind, Option.bind_some, read, again]
      rfl
  | text value =>
      have read := reads_text fits rest
      unfold writeValue readValue
      rw [List.append_assoc, reads_small (by decide)]
      change (readText _ >>= _) = _
      rw [read]
      rfl

/-! ## Fields -/

theorem reads_entries {entries : List (String × FieldValue)}
    (fits : ∀ entry ∈ entries, FieldFits entry) :
    Reads (readEntries entries.length) (entries.flatMap writeField) entries := by
  induction entries with
  | nil => exact fun rest => rfl
  | cons entry entries ih =>
      obtain ⟨name, value⟩ := entry
      intro rest
      obtain ⟨nameFits, valueFits⟩ := fits (name, value) List.mem_cons_self
      have readName := reads_text nameFits
      have readFirst := reads_value valueFits
      have readMore := ih fun entry mem => fits entry (List.mem_cons_of_mem _ mem)
      rw [List.flatMap_cons, writeField, List.length_cons, readEntries]
      simp only [List.append_assoc, readName _, readFirst _, readMore _, Option.bind_eq_bind,
        Option.bind_some]
      rfl

theorem reads_fields {fields : Fields} (fits : FieldsFit fields) :
    Reads readFields (writeFields fields) fields := by
  intro rest
  have readNumber := reads_count fits.1
  have readAll := reads_entries fits.2
  unfold writeFields readFields
  simp only [List.append_assoc, readNumber _, readAll _, Option.bind_eq_bind, Option.bind_some,
    Fields.ofList_entries]
  rfl

/-! ## Blocks -/

theorem writeLength_ne_nil (n : ℕ) : writeLength n ≠ [] := by
  unfold writeLength
  split
  · exact List.cons_ne_nil _ _
  · split
    · exact List.cons_ne_nil _ _
    · split <;> exact List.cons_ne_nil _ _

theorem writeText_ne_nil (text : String) : writeText text ≠ [] :=
  List.append_ne_nil_of_left_ne_nil (writeLength_ne_nil _) _

theorem writeBlock_eq (id blockType : String) (fields : Fields) (children : List Block) :
    writeBlock ⟨id, blockType, fields, children⟩ =
      writeText id ++ (writeText blockType ++ (writeFields fields ++
        (writeLength children.length ++ writeBlocks children))) := by
  simp only [writeBlock, List.append_assoc]

mutual

theorem countAll_le_length : ∀ blocks : List Block,
    Block.countAll blocks ≤ (writeBlocks blocks).length
  | [] => Nat.zero_le _
  | first :: rest => by
      have here := count_le_length first
      have later := countAll_le_length rest
      rw [Block.countAll, writeBlocks, List.length_append]
      omega

/-- A block has at least one byte for itself and each block inside it. -/
theorem count_le_length : ∀ block : Block, block.count ≤ (writeBlock block).length
  | ⟨id, blockType, fields, children⟩ => by
      have inside := countAll_le_length children
      have own := List.length_pos_of_ne_nil (writeText_ne_nil id)
      rw [Block.count, writeBlock_eq]
      simp only [List.length_append]
      omega

end

theorem length_le_countAll (blocks : List Block) : blocks.length ≤ Block.countAll blocks := by
  induction blocks with
  | nil => exact Nat.zero_le _
  | cons block blocks ih =>
      obtain ⟨id, blockType, fields, children⟩ := block
      rw [List.length_cons, Block.countAll, Block.count]
      omega

/-- Blocks are read back with fuel for each of them, at every depth. -/
theorem reads_blocks {fuel : ℕ} {blocks : List Block} (enough : Block.countAll blocks ≤ fuel)
    (fits : BlocksFit blocks) :
    Reads (readBlocks fuel blocks.length) (writeBlocks blocks) blocks := by
  induction fuel generalizing blocks with
  | zero =>
      have none_left := Nat.le_trans (length_le_countAll blocks) enough
      rw [List.eq_nil_of_length_eq_zero (Nat.le_zero.mp none_left)]
      exact fun rest => rfl
  | succ fuel ih =>
      cases blocks with
      | nil => exact fun rest => rfl
      | cons block blocks =>
          obtain ⟨id, blockType, fields, children⟩ := block
          intro rest
          rw [Block.countAll, Block.count] at enough
          obtain ⟨⟨idFits, typeFits, fieldsFit, numberFits, childrenFit⟩, moreFit⟩ := fits
          have readId := reads_text idFits
          have readType := reads_text typeFits
          have readOwn := reads_fields fieldsFit
          have readNumber := reads_count numberFits
          -- Children and later blocks get the same fuel, which is enough for all of them.
          have readChildren := @ih children (by omega) childrenFit
          have readMore := @ih blocks (by omega) moreFit
          rw [writeBlocks, writeBlock_eq, List.length_cons, readBlocks]
          simp only [List.append_assoc, readId _, readType _, readOwn _, readNumber _,
            readChildren _, readMore _, Option.bind_eq_bind, Option.bind_some]
          rfl

/-! ## Documents -/

theorem reads_body {document : Document} (fits : DocumentFits document) :
    Reads readBody (writeBody document) document := by
  obtain ⟨space, model, ⟨blocks⟩⟩ := document
  intro rest
  obtain ⟨spaceFits, modelFits, numberFits, blocksFit⟩ := fits
  have readSpace := reads_text spaceFits
  have readModel := reads_text modelFits
  have readNumber := reads_count numberFits
  have inside := countAll_le_length blocks
  have enough : Block.countAll blocks ≤ (writeBlocks blocks ++ rest).length := by
    rw [List.length_append]
    omega
  have readAll := reads_blocks enough blocksFit
  unfold writeBody readBody
  simp only [List.append_assoc, readSpace _, readModel _, readNumber _, readAll _,
    Option.bind_eq_bind, Option.bind_some]
  rfl

/-- A binary document whose lengths can be counted gives the document back. -/
theorem readDocument_of_fits {document : Document} (fits : DocumentFits document) :
    readDocument (writeDocument document) = .ok document := by
  have readMark := readBytes_append mark (littleEndian 4 version ++ writeBody document)
  have readVersion := @reads_fixed 4 version (by decide) (writeBody document)
  have read := reads_body fits []
  rw [List.append_nil] at read
  unfold writeDocument readDocument
  rw [List.append_assoc, readMark]
  simp only [if_true, readVersion, read]

/-! ## Documents in memory -/

theorem textFits_of_length {text : String} (short : (writeText text).length < 2 ^ 64) :
    TextFits text := by
  unfold writeText at short
  rw [List.length_append] at short
  unfold TextFits
  omega

theorem valueFits_of_length {value : FieldValue} (short : (writeValue value).length < 2 ^ 64) :
    ValueFits value := by
  cases value with
  | flag value => trivial
  | number value => trivial
  | text value =>
      rw [writeValue, List.length_append] at short
      apply textFits_of_length
      omega

theorem fieldFits_of_length {entries : List (String × FieldValue)}
    (short : (entries.flatMap writeField).length < 2 ^ 64) :
    entries.length < 2 ^ 64 ∧ ∀ entry ∈ entries, FieldFits entry := by
  have counted : entries.length ≤ (entries.flatMap writeField).length ∧
      ∀ entry ∈ entries, FieldFits entry := by
    induction entries with
    | nil => exact ⟨Nat.zero_le _, fun entry mem => nomatch mem⟩
    | cons entry entries ih =>
        obtain ⟨name, value⟩ := entry
        have own := List.length_pos_of_ne_nil (writeText_ne_nil name)
        rw [List.flatMap_cons, writeField] at short ⊢
        simp only [List.length_append, List.length_cons] at short ⊢
        obtain ⟨count, others⟩ := ih (by omega)
        have nameFits : TextFits name := textFits_of_length (by omega)
        have valueFits : ValueFits value := valueFits_of_length (by omega)
        exact ⟨by omega, List.forall_mem_cons.mpr ⟨⟨nameFits, valueFits⟩, others⟩⟩
  exact ⟨Nat.lt_of_le_of_lt counted.1 short, counted.2⟩

mutual

theorem blocksFit_of_length : ∀ blocks : List Block, (writeBlocks blocks).length < 2 ^ 64 →
    BlocksFit blocks
  | [], _ => trivial
  | first :: rest, short => by
      rw [writeBlocks, List.length_append] at short
      exact ⟨blockFits_of_length first (by omega), blocksFit_of_length rest (by omega)⟩

theorem blockFits_of_length : ∀ block : Block, (writeBlock block).length < 2 ^ 64 →
    BlockFits block
  | ⟨id, blockType, fields, children⟩, short => by
      rw [writeBlock_eq, writeFields] at short
      simp only [List.length_append] at short
      have shorter := length_le_countAll children
      have inside := countAll_le_length children
      refine ⟨textFits_of_length (by omega), textFits_of_length (by omega),
        fieldFits_of_length (by omega), by omega, blocksFit_of_length children (by omega)⟩

end

/-- A document of fewer than `2 ^ 64` bytes has no longer text or list. -/
theorem documentFits_of_length {document : Document}
    (short : (writeDocument document).length < 2 ^ 64) : DocumentFits document := by
  unfold writeDocument writeBody at short
  simp only [List.length_append] at short
  have shorter := length_le_countAll document.diagram.blocks
  have inside := countAll_le_length document.diagram.blocks
  exact ⟨textFits_of_length (by omega), textFits_of_length (by omega), by omega,
    blocksFit_of_length _ (by omega)⟩

/-- A binary document with fewer than `2 ^ 64` bytes gives the document back. -/
theorem readDocument_writeDocument {document : Document}
    (short : (writeDocument document).length < 2 ^ 64) :
    readDocument (writeDocument document) = .ok document :=
  readDocument_of_fits (documentFits_of_length short)

end RobotBlocks.Store
