/-!
# Bytes of texts

A text has the bytes of its characters one after the other.  Characters below 128 are one byte, and
every byte of any other character is at least 128.
-/

namespace RobotBlocks.Text

def bytesOf (text : List Char) : List UInt8 :=
  text.flatMap String.utf8EncodeChar

theorem bytesOf_append (first second : List Char) :
    bytesOf (first ++ second) = bytesOf first ++ bytesOf second :=
  List.flatMap_append

theorem bytesOf_cons (c : Char) (rest : List Char) :
    bytesOf (c :: rest) = String.utf8EncodeChar c ++ bytesOf rest :=
  List.flatMap_cons

/-! ## Byte arrays -/

theorem toList_loop_eq (bytes : ByteArray) (index : Nat) (reversed : List UInt8) :
    ByteArray.toList.loop bytes index reversed =
      reversed.reverse ++ bytes.data.toList.drop index := by
  fun_induction ByteArray.toList.loop bytes index reversed with
  | case1 index reversed inside ih =>
      have bound : index < bytes.data.toList.length := inside
      have here : bytes.get! index = bytes.data.toList[index] := by
        rw [Array.getElem_toList]
        exact getElem!_pos bytes.data index inside
      rw [ih, List.drop_eq_getElem_cons bound, here, List.reverse_cons, List.append_assoc,
        List.singleton_append]
  | case2 index reversed outside =>
      rw [List.drop_eq_nil_of_le (Nat.le_of_not_lt outside), List.append_nil]

theorem toList_byteArray (bytes : ByteArray) : bytes.toList = bytes.data.toList := by
  unfold ByteArray.toList
  rw [toList_loop_eq, List.reverse_nil, List.nil_append, List.drop_zero]

theorem utf8Encode_eq (text : List Char) : text.utf8Encode = (bytesOf text).toByteArray := rfl

/-- The bytes of a text are those of its characters. -/
theorem toList_toUTF8 (text : String) : text.toUTF8.toList = bytesOf text.toList := by
  have whole : text.toUTF8 = (bytesOf text.toList).toByteArray := by
    rw [← utf8Encode_eq, String.utf8Encode_toList]
    rfl
  rw [whole, toList_byteArray, List.toList_data_toByteArray]

/-- The bytes of a text are read back as the text. -/
theorem fromUTF8_bytesOf (text : List Char) :
    String.fromUTF8? (bytesOf text).toByteArray = some (String.ofList text) := by
  have valid : (bytesOf text).toByteArray.IsValidUTF8 := .intro text (utf8Encode_eq text).symm
  unfold String.fromUTF8?
  rw [dif_pos valid]
  refine congrArg some (String.toByteArray_inj.mp ?_)
  rw [String.toByteArray_ofList]
  rfl

/-- A text is read from its own bytes only. -/
theorem fromUTF8?_eq_some {bytes : List UInt8} {text : String} :
    String.fromUTF8? bytes.toByteArray = some text ↔ bytes = text.toUTF8.toList := by
  constructor
  · intro spelled
    unfold String.fromUTF8? at spelled
    split at spelled
    · obtain rfl := Option.some_inj.mp spelled
      have same : (String.fromUTF8 bytes.toByteArray ‹_›).toUTF8 = bytes.toByteArray := rfl
      rw [same, toList_byteArray, List.toList_data_toByteArray]
    · exact nomatch spelled
  · rintro rfl
    rw [toList_toUTF8, fromUTF8_bytesOf, String.ofList_toList]

/-- Different texts have different bytes. -/
theorem bytesOf_injective {first second : List Char} (same : bytesOf first = bytesOf second) :
    first = second := by
  have texts := fromUTF8_bytesOf first
  rw [same, fromUTF8_bytesOf second] at texts
  exact String.ofList_injective (Option.some_inj.mp texts.symm)

/-! ## Small characters -/

theorem small_of_all {text : List Char} (all : text.all (fun c => c.toNat < 128) = true) :
    ∀ c ∈ text, c.toNat < 128 :=
  fun c mem => of_decide_eq_true (List.all_eq_true.mp all c mem)

theorem utf8EncodeChar_small {c : Char} (small : c.toNat < 128) :
    String.utf8EncodeChar c = [UInt8.ofNat c.toNat] := by
  have bound : c.val.toNat ≤ 127 := Nat.le_of_lt_succ small
  unfold String.utf8EncodeChar
  exact if_pos bound

theorem bytesOf_cons_small {c : Char} (small : c.toNat < 128) (rest : List Char) :
    bytesOf (c :: rest) = UInt8.ofNat c.toNat :: bytesOf rest := by
  rw [bytesOf_cons, utf8EncodeChar_small small]
  rfl

/-- Every byte of a character from 128 on is itself at least 128. -/
theorem utf8EncodeChar_large {c : Char} (large : 128 ≤ c.toNat) :
    ∀ b ∈ String.utf8EncodeChar c, 128 ≤ b.toNat := by
  have bound : ¬c.val.toNat ≤ 127 := Nat.not_le.mpr large
  have high {n : Nat} (low : 128 ≤ n) (top : n < 256) : 128 ≤ (UInt8.ofNat n).toNat := by
    rw [UInt8.toNat_ofNat', Nat.mod_eq_of_lt top]
    exact low
  intro b mem
  unfold String.utf8EncodeChar at mem
  simp only [if_neg bound] at mem
  split at mem
  · simp only [List.mem_cons, List.not_mem_nil, or_false] at mem
    rcases mem with rfl | rfl <;> exact high (by omega) (by omega)
  · split at mem
    · simp only [List.mem_cons, List.not_mem_nil, or_false] at mem
      rcases mem with rfl | rfl | rfl <;> exact high (by omega) (by omega)
    · simp only [List.mem_cons, List.not_mem_nil, or_false] at mem
      rcases mem with rfl | rfl | rfl | rfl <;> exact high (by omega) (by omega)

end RobotBlocks.Text
