import RobotBlocks.Store.Path
import RobotBlocks.Proofs.Store.SlotKeys

/-!
# Slot names are file names

A slot name has only letters, digits and four other characters, and it does not begin with a dot.
So it is one name of a path, and it is neither of the names that lead to another directory.
-/

namespace RobotBlocks.Store

open Text (bytesOf bytesOf_cons_small bytesOf_injective toList_toUTF8 utf8EncodeChar_small)

/-! ## Characters -/

/-- The characters of slot names: letters, digits and four others. -/
def isPlain (c : Char) : Bool :=
  ('A' ≤ c && c ≤ 'Z') || ('a' ≤ c && c ≤ 'z') || ('0' ≤ c && c ≤ '9') ||
    c == '-' || c == '_' || c == '.' || c == '%'

def isUpperHex (c : Char) : Bool :=
  ('0' ≤ c && c ≤ '9') || ('A' ≤ c && c ≤ 'F')

/-- A plain character is one byte, which is neither a slash nor zero. -/
theorem isPlain_code {c : Char} (plain : isPlain c = true) :
    c.toNat < 128 ∧ c.toNat ≠ 47 ∧ c.toNat ≠ 0 := by
  simp only [isPlain, Bool.or_eq_true, Bool.and_eq_true, decide_eq_true_eq, beq_iff_eq,
    Char.le_def, UInt32.le_iff_toNat_le, Char.toNat_val, Char.reduceToNat] at plain
  rcases plain with (((letter | rfl) | rfl) | rfl) | rfl
  · omega
  all_goals decide

theorem isPlain_of_isUpperHex {c : Char} (digit : isUpperHex c = true) : isPlain c = true := by
  simp only [isUpperHex, isPlain, Bool.or_eq_true, Bool.and_eq_true, decide_eq_true_eq] at digit ⊢
  rcases digit with number | ⟨low, high⟩
  · simp only [number, and_self, true_or, or_true]
  · have inside : c ≤ 'Z' := Char.le_trans high (by decide)
    simp only [low, inside, and_self, true_or]

theorem ne_percent_of_isUpperHex {c : Char} (digit : isUpperHex c = true) : c ≠ '%' := by
  rintro rfl
  exact absurd digit (by decide)

theorem isUpperHex_upperHex {n : Nat} (small : n < 16) : isUpperHex (upperHex n) = true := by
  have digits : ∀ n : Fin 16, isUpperHex (upperHex n.val) = true := by decide
  exact digits ⟨n, small⟩

/-- A byte that is kept is a plain character, and not a dot where it is first. -/
theorem isPlain_kept {first : Bool} {b : UInt8} (kept : isKept first b = true) :
    isPlain (Char.ofNat b.toNat) = true ∧ Char.ofNat b.toNat ≠ '%' ∧
      (first = true → Char.ofNat b.toNat ≠ '.') := by
  have all : ∀ (first : Bool) (n : Fin 256), isKept first (UInt8.ofNat n) = true →
      isPlain (Char.ofNat n.val) = true ∧ Char.ofNat n.val ≠ '%' ∧
        (first = true → Char.ofNat n.val ≠ '.') := by
    decide +kernel
  have here := all first ⟨b.toNat, b.toNat_lt⟩
  rw [UInt8.ofNat_toNat] at here
  exact here kept

/-- An encoded byte is one plain character, or a percent sign and two digits. -/
theorem encodeByte_cases (first : Bool) (b : UInt8) :
    (∃ c, encodeByte first b = [c] ∧ isPlain c = true ∧ c ≠ '%' ∧ (first = true → c ≠ '.')) ∨
      ∃ high low, encodeByte first b = ['%', high, low] ∧ isUpperHex high = true ∧
        isUpperHex low = true := by
  have bound := b.toNat_lt
  cases kept : isKept first b with
  | true => exact .inl ⟨_, encodeByte_kept kept, isPlain_kept kept⟩
  | false =>
      exact .inr ⟨_, _, encodeByte_coded kept, isUpperHex_upperHex (by omega),
        isUpperHex_upperHex (by omega)⟩

theorem isPlain_encodeByte (first : Bool) (b : UInt8) :
    ∀ c ∈ encodeByte first b, isPlain c = true := by
  intro c mem
  rcases encodeByte_cases first b with ⟨kept, code, plain, _⟩ | ⟨high, low, code, digit, last⟩
  · rw [code, List.mem_singleton] at mem
    exact mem ▸ plain
  · rw [code] at mem
    simp only [List.mem_cons, List.not_mem_nil, or_false] at mem
    rcases mem with rfl | rfl | rfl
    · decide
    · exact isPlain_of_isUpperHex digit
    · exact isPlain_of_isUpperHex last

/-! ## Codes -/

/-- Every percent sign is followed by two digits. -/
def IsCoded (name : List Char) : Prop :=
  ∀ front back, name = front ++ '%' :: back →
    ∃ high low rest, back = high :: low :: rest ∧ isUpperHex high = true ∧ isUpperHex low = true

theorem isCoded_nil : IsCoded [] := by
  intro front back whole
  exact absurd (List.append_eq_nil_iff.mp whole.symm).2 (List.cons_ne_nil _ _)

theorem IsCoded.cons {rest : List Char} (coded : IsCoded rest) {c : Char} (other : c ≠ '%') :
    IsCoded (c :: rest) := by
  intro front back whole
  rcases List.cons_eq_append_iff.mp whole with ⟨rfl, here⟩ | ⟨front, rfl, later⟩
  · exact absurd (List.cons.inj here).1.symm other
  · exact coded front back later

theorem IsCoded.code {rest : List Char} (coded : IsCoded rest) {high low : Char}
    (digit : isUpperHex high = true) (last : isUpperHex low = true) :
    IsCoded ('%' :: high :: low :: rest) := by
  have digits : IsCoded (high :: low :: rest) :=
    (coded.cons (ne_percent_of_isUpperHex last)).cons (ne_percent_of_isUpperHex digit)
  intro front back whole
  rcases List.cons_eq_append_iff.mp whole with ⟨rfl, here⟩ | ⟨front, rfl, later⟩
  · exact ⟨high, low, rest, (List.cons.inj here).2, digit, last⟩
  · exact digits front back later

theorem IsCoded.encodeByte_append {rest : List Char} (coded : IsCoded rest) (first : Bool)
    (b : UInt8) : IsCoded (encodeByte first b ++ rest) := by
  rcases encodeByte_cases first b with ⟨kept, code, _, other, _⟩ | ⟨high, low, code, digit, last⟩
  · rw [code]
    exact coded.cons other
  · rw [code]
    exact coded.code digit last

theorem isCoded_encodeBytes (bytes : List UInt8) : IsCoded (encodeBytes bytes) := by
  have rest : ∀ bytes : List UInt8, IsCoded (bytes.flatMap (encodeByte false)) := by
    intro bytes
    induction bytes with
    | nil => exact isCoded_nil
    | cons b bytes ih =>
        rw [List.flatMap_cons]
        exact ih.encodeByte_append false b
  cases bytes with
  | nil => exact isCoded_nil
  | cons b bytes => exact (rest bytes).encodeByte_append true b

/-! ## Names of files -/

/-- A text that can be the name of a file as it is. -/
structure IsFileName (name : List Char) : Prop where
  nonempty : name ≠ []
  plain : ∀ c ∈ name, isPlain c = true
  noLeadingDot : name.head? ≠ some '.'

theorem IsFileName.append {name : List Char} (named : IsFileName name) {ending : List Char}
    (plain : ∀ c ∈ ending, isPlain c = true) : IsFileName (name ++ ending) where
  nonempty := List.append_ne_nil_of_left_ne_nil named.nonempty ending
  plain c mem := (List.mem_append.mp mem).elim (named.plain c) (plain c)
  noLeadingDot := by
    obtain ⟨nonempty, _, noDot⟩ := named
    cases name with
    | nil => exact absurd rfl nonempty
    | cons c rest => exact noDot

theorem isFileName_encodeByte (b : UInt8) : IsFileName (encodeByte true b) where
  nonempty := encodeByte_ne_nil true b
  plain := isPlain_encodeByte true b
  noLeadingDot := by
    rcases encodeByte_cases true b with ⟨kept, code, _, _, noDot⟩ | ⟨high, low, code, _⟩
    · rw [code, List.head?_cons]
      exact fun same => noDot rfl (Option.some.inj same)
    · rw [code, List.head?_cons]
      decide

theorem isFileName_encodeBytes {bytes : List UInt8} (nonempty : bytes ≠ []) :
    IsFileName (encodeBytes bytes) := by
  cases bytes with
  | nil => exact absurd rfl nonempty
  | cons b bytes =>
      refine (isFileName_encodeByte b).append fun c mem => ?_
      obtain ⟨other, _, inside⟩ := List.mem_flatMap.mp mem
      exact isPlain_encodeByte false other c inside

/-- The name of a text is a file name with codes, or a lone percent sign for the empty text. -/
theorem encodeName_cases (text : String) :
    (text = "" ∧ encodeName text = "%") ∨
      (text ≠ "" ∧ encodeName text ≠ "%" ∧ IsFileName (encodeName text).toList ∧
        IsCoded (encodeName text).toList) := by
  cases empty : text.isEmpty with
  | true =>
      refine .inl ⟨String.isEmpty_iff.mp empty, ?_⟩
      unfold encodeName
      rw [empty]
      rfl
  | false =>
      have named : (encodeName text).toList = encodeBytes (bytesOf text.toList) := by
        rw [toList_encodeName, empty]
        rfl
      have other : text ≠ "" := fun same => by
        rw [same] at empty
        exact absurd empty (by decide)
      have bytes : bytesOf text.toList ≠ [] := fun none =>
        other (String.toList_inj.mp (bytesOf_injective none))
      refine .inr ⟨other, fun same => ?_, ?_, ?_⟩
      · rw [same] at named
        exact encodeBytes_ne_percent _ (named.symm.trans (by decide))
      · rw [named]
        exact isFileName_encodeBytes bytes
      · rw [named]
        exact isCoded_encodeBytes _

theorem isFileName_encodeName (text : String) : IsFileName (encodeName text).toList := by
  rcases encodeName_cases text with ⟨_, percent⟩ | ⟨_, _, named, _⟩
  · have chars : "%".toList = ['%'] := by decide
    rw [percent, chars]
    refine ⟨List.cons_ne_nil _ _, fun c mem => ?_, by decide⟩
    rw [List.mem_singleton.mp mem]
    decide
  · exact named

theorem isFileName_slotKey (format : Format) (space model : String) :
    IsFileName (slotKey format space model).name.toList := by
  rw [toList_slotKey]
  refine (isFileName_encodeName model).append fun c mem => ?_
  rw [Format.toList_ending] at mem
  cases format <;> simp only [List.mem_cons, List.not_mem_nil, or_false] at mem
  · rcases mem with rfl | rfl | rfl | rfl | rfl <;> decide
  · rcases mem with rfl | rfl | rfl | rfl <;> decide

/-! ## Names in paths -/

def nameOf (text : String) : Name :=
  text.toUTF8.toList

theorem nameOf_injective {text other : String} (same : nameOf text = nameOf other) :
    text = other := by
  unfold nameOf at same
  rw [toList_toUTF8, toList_toUTF8] at same
  exact String.toList_inj.mp (bytesOf_injective same)

/-- A name that is looked up as it is, in whatever directory a path has come to. -/
structure Name.IsProper (name : Name) : Prop where
  leads : name.leadsNowhere = false
  inside : name ≠ Name.above
  noSlash : 47 ∉ name
  noZero : 0 ∉ name

theorem Name.IsProper.nonempty {name : Name} (proper : name.IsProper) : name ≠ [] := by
  rintro rfl
  exact absurd proper.leads (by decide)

theorem ofBytes_of_notMem {bytes : List UInt8} (noSlash : 47 ∉ bytes) :
    Path.ofBytes bytes = [bytes] := by
  induction bytes with
  | nil => rfl
  | cons b rest ih =>
      have here : b ≠ 47 := fun same => noSlash (same ▸ List.mem_cons_self)
      rw [Path.ofBytes, ih fun mem => noSlash (List.mem_cons_of_mem _ mem)]
      exact if_neg here

theorem ofNat_ne {n m : Nat} (small : n < 128) (bound : m < 128) (different : n ≠ m) :
    UInt8.ofNat n ≠ UInt8.ofNat m := by
  intro same
  have codes := congrArg UInt8.toNat same
  rw [UInt8.toNat_ofNat', UInt8.toNat_ofNat', Nat.mod_eq_of_lt (by omega),
    Nat.mod_eq_of_lt (by omega)] at codes
  exact different codes

theorem IsFileName.isProper {text : String} (named : IsFileName text.toList) :
    (nameOf text).IsProper := by
  unfold nameOf
  rw [toList_toUTF8]
  obtain ⟨nonempty, plain, noDot⟩ := named
  have codes : ∀ b ∈ bytesOf text.toList, b ≠ 47 ∧ b ≠ 0 := by
    intro b mem
    obtain ⟨c, inside, byte⟩ := List.mem_flatMap.mp mem
    obtain ⟨small, noSlash, noZero⟩ := isPlain_code (plain c inside)
    rw [utf8EncodeChar_small small, List.mem_singleton] at byte
    rw [byte]
    exact ⟨ofNat_ne small (by decide) noSlash, ofNat_ne small (by decide) noZero⟩
  -- The first byte is no dot, and all names that lead elsewhere begin with one.
  have start : ∃ b rest, bytesOf text.toList = b :: rest ∧ b ≠ 46 := by
    cases chars : text.toList with
    | nil => exact absurd chars nonempty
    | cons c rest =>
        rw [chars] at plain noDot
        have small := (isPlain_code (plain c List.mem_cons_self)).1
        refine ⟨_, _, bytesOf_cons_small small rest, ofNat_ne small (by decide) fun same => ?_⟩
        exact noDot (congrArg some (Char.toNat_inj.mp same))
  obtain ⟨b, rest, bytes, noDot⟩ := start
  refine ⟨?_, ?_, fun mem => (codes 47 mem).1 rfl, fun mem => (codes 0 mem).2 rfl⟩
  · rw [bytes]
    simp [Name.leadsNowhere, Name.here, noDot]
  · rw [bytes]
    exact fun same => noDot (List.cons.inj same).1

/-- A file name is all of the path that it spells. -/
theorem IsFileName.ofText {text : String} (named : IsFileName text.toList) :
    Path.ofText text = [nameOf text] :=
  ofBytes_of_notMem named.isProper.noSlash

end RobotBlocks.Store
