import Mathlib.Tactic.SplitIfs
import RobotBlocks.Json.Printer
import RobotBlocks.Proofs.Json.Numerals

/-!
# Tokens of texts

A printed text is one token.  Its pieces are the bytes of its characters, apart from the control
characters that have no short escape, and they mean the text again.
-/

namespace RobotBlocks.Json

open Text (bytesOf bytesOf_append bytesOf_cons bytesOf_cons_small utf8EncodeChar_small
  utf8EncodeChar_large fromUTF8_bytesOf)

/-! ## Pieces -/

/-- The control characters that are printed as their number. -/
def isNumbered (c : Char) : Bool :=
  c.toNat < 32 && c != '\n' && c != '\r' && c != '\t' && c.toNat != 8 && c.toNat != 12

def piecesOf (c : Char) : List Piece :=
  if isNumbered c then [.unit c.toNat] else (String.utf8EncodeChar c).map .byte

def textPieces (text : String) : List Piece :=
  text.toList.flatMap piecesOf

theorem joinPieces_bytes (bytes : List UInt8) (rest : List Piece) :
    joinPieces none (bytes.map .byte ++ rest) = (joinPieces none rest).map (bytes ++ ·) := by
  induction bytes with
  | nil =>
      rw [List.map_nil, List.nil_append]
      exact Option.map_id'.symm
  | cons b bytes ih =>
      rw [List.map_cons, List.cons_append, joinPieces, ih, Option.map_map]
      rfl

theorem joinPieces_piecesOf (c : Char) (rest : List Piece) :
    joinPieces none (piecesOf c ++ rest) =
      (joinPieces none rest).map (String.utf8EncodeChar c ++ ·) := by
  unfold piecesOf
  split
  · rename_i numbered
    have small : c.toNat < 32 := by
      simp only [isNumbered, Bool.and_eq_true, decide_eq_true_eq] at numbered
      omega
    have single : isHighUnit c.toNat = false ∧ isLowUnit c.toNat = false := by
      simp only [isHighUnit, isLowUnit, Bool.and_eq_false_iff, decide_eq_false_iff_not]
      omega
    have same : charBytes c.toNat = String.utf8EncodeChar c := by
      unfold charBytes
      rw [Char.ofNat_toNat]
    rw [List.singleton_append, joinPieces, single.1, single.2, same]
    rfl
  · exact joinPieces_bytes _ rest

theorem joinPieces_flatMap (text : List Char) :
    joinPieces none (text.flatMap piecesOf) = some (bytesOf text) := by
  induction text with
  | nil => rfl
  | cons c text ih =>
      rw [List.flatMap_cons, joinPieces_piecesOf, ih, bytesOf_cons]
      rfl

/-- The pieces of a printed text mean the text. -/
theorem textOf_textPieces (text : String) : textOf? (textPieces text) = some text := by
  unfold textOf? textPieces
  rw [joinPieces_flatMap, Option.bind_some, fromUTF8_bytesOf, String.ofList_toList]

/-! ## Scanning -/

/-- Bytes that stand for themselves are pieces of their own. -/
theorem scan_plainBytes {bytes : List UInt8}
    (plain : ∀ b ∈ bytes, 32 ≤ b.toNat ∧ b ≠ 34 ∧ b ≠ 92) (reversed : List Piece)
    (rest : List UInt8) :
    scan (.text reversed) (bytes ++ rest) =
      scan (.text ((bytes.map .byte).reverse ++ reversed)) rest := by
  induction bytes generalizing reversed with
  | nil => rfl
  | cons b bytes ih =>
      obtain ⟨large, noQuote, noEscape⟩ := plain b List.mem_cons_self
      have printable : ¬b < 32 := by
        rw [UInt8.lt_iff_toNat_lt]
        exact Nat.not_lt.mpr large
      have stepped : step (.text reversed) b = ([], .text (.byte b :: reversed)) := by
        simp only [step, if_neg noQuote, if_neg noEscape, if_neg printable]
      rw [List.cons_append, scan_silent stepped,
        ih fun other mem => plain other (List.mem_cons_of_mem _ mem), List.map_cons,
        List.reverse_cons, List.append_assoc, List.singleton_append]

theorem hexDigit?_digitChar {n : ℕ} (small : n < 16) :
    hexDigit? (UInt8.ofNat n.digitChar.toNat) = some n := by
  interval_cases n <;> rfl

theorem digitChar_small {n : ℕ} (small : n < 16) : n.digitChar.toNat < 128 := by
  interval_cases n <;> decide

/-- A character that is printed as its number is read as that unit. -/
theorem scan_numbered {code : ℕ} (small : code < 32) (reversed : List Piece)
    (rest : List UInt8) :
    scan (.text reversed) (bytesOf ['\\', 'u', '0', '0', Nat.digitChar (code / 16),
      Nat.digitChar (code % 16)] ++ rest) = scan (.text (.unit code :: reversed)) rest := by
  have high : step (.unit 2 0 reversed) (UInt8.ofNat (Nat.digitChar (code / 16)).toNat) =
      ([], .unit 1 (code / 16) reversed) := by
    simp only [step, @hexDigit?_digitChar (code / 16) (by omega)]
    simp
  have low : step (.unit 1 (code / 16) reversed) (UInt8.ofNat (Nat.digitChar (code % 16)).toNat) =
      ([], .text (.unit code :: reversed)) := by
    simp only [step, @hexDigit?_digitChar (code % 16) (by omega), Nat.le_refl, if_true,
      Nat.div_add_mod]
  rw [@scan_char (.text reversed) (.escape reversed) '\\' (by decide) rfl,
    @scan_char (.escape reversed) (.unit 4 0 reversed) 'u' (by decide) rfl,
    @scan_char (.unit 4 0 reversed) (.unit 3 0 reversed) '0' (by decide) rfl,
    @scan_char (.unit 3 0 reversed) (.unit 2 0 reversed) '0' (by decide) rfl,
    scan_char (digitChar_small (by omega)) high, scan_char (digitChar_small (by omega)) low]
  rfl

/-- A character that is printed as it is has bytes that stand for themselves. -/
theorem plain_utf8EncodeChar {c : Char} (printable : 32 ≤ c.toNat) (noQuote : c ≠ '"')
    (noEscape : c ≠ '\\') :
    ∀ b ∈ String.utf8EncodeChar c, 32 ≤ b.toNat ∧ b ≠ 34 ∧ b ≠ 92 := by
  intro b mem
  rcases Nat.lt_or_ge c.toNat 128 with small | large
  · rw [utf8EncodeChar_small small, List.mem_singleton] at mem
    have value : b.toNat = c.toNat := by
      rw [mem, UInt8.toNat_ofNat', Nat.mod_eq_of_lt (by omega)]
    have code {other : Char} (different : c ≠ other) : c.toNat ≠ other.toNat := fun same =>
      different (by rw [← Char.ofNat_toNat c, same, Char.ofNat_toNat])
    refine ⟨value ▸ printable, fun same => code noQuote ?_, fun same => code noEscape ?_⟩ <;>
      exact value.symm.trans (congrArg UInt8.toNat same)
  · have high := utf8EncodeChar_large large b mem
    refine ⟨by omega, ?_, ?_⟩ <;> rintro rfl <;> exact absurd high (by decide)

theorem scan_escapeChar (c : Char) (reversed : List Piece) (rest : List UInt8) :
    scan (.text reversed) (bytesOf (escapeChar c) ++ rest) =
      scan (.text ((piecesOf c).reverse ++ reversed)) rest := by
  have short (mark : Char) (small : mark.toNat < 128) {plain : UInt8}
      (meant : step (.escape reversed) (UInt8.ofNat mark.toNat) =
        ([], .text (.byte plain :: reversed)))
      (pieces : piecesOf c = [.byte plain]) :
      scan (.text reversed) (bytesOf ['\\', mark] ++ rest) =
        scan (.text ((piecesOf c).reverse ++ reversed)) rest := by
    rw [@scan_char (.text reversed) (.escape reversed) '\\' (by decide) rfl,
      scan_char small meant, pieces]
    rfl
  unfold escapeChar
  split_ifs with quotation backslash feed back tab bell form control
  · exact short '"' (by decide) rfl (by rw [quotation]; rfl)
  · exact short '\\' (by decide) rfl (by rw [backslash]; rfl)
  · exact short 'n' (by decide) rfl (by rw [feed]; rfl)
  · exact short 'r' (by decide) rfl (by rw [back]; rfl)
  · exact short 't' (by decide) rfl (by rw [tab]; rfl)
  · have same : c = Char.ofNat 8 := by rw [← bell, Char.ofNat_toNat]
    exact short 'b' (by decide) rfl (by rw [same]; rfl)
  · have same : c = Char.ofNat 12 := by rw [← form, Char.ofNat_toNat]
    exact short 'f' (by decide) rfl (by rw [same]; rfl)
  · have numbered : isNumbered c = true := by
      simp [isNumbered, feed, back, tab, bell, form, control]
    rw [scan_numbered control]
    unfold piecesOf
    rw [if_pos numbered]
    rfl
  · have unnumbered : isNumbered c = false := by simp [isNumbered, control]
    have single : bytesOf [c] = String.utf8EncodeChar c := List.append_nil _
    rw [single, scan_plainBytes
      (plain_utf8EncodeChar (Nat.le_of_not_lt control) quotation backslash)]
    unfold piecesOf
    rw [unnumbered]
    rfl

theorem scan_inText (text : List Char) (reversed : List Piece) (rest : List UInt8) :
    scan (.text reversed) (bytesOf (text.flatMap escapeChar) ++ rest) =
      scan (.text ((text.flatMap piecesOf).reverse ++ reversed)) rest := by
  induction text generalizing reversed with
  | nil => rfl
  | cons c text ih =>
      rw [List.flatMap_cons, bytesOf_append, List.append_assoc, scan_escapeChar, ih,
        List.flatMap_cons, List.reverse_append, List.append_assoc]

/-- A printed text is one token, whatever comes after it. -/
theorem scan_printText (text : String) (rest : List UInt8) :
    scan .between (bytesOf (printText text) ++ rest) =
      .text (textPieces text) :: scan .between rest := by
  have closes : scan (.text ((textPieces text).reverse ++ [])) (34 :: rest) =
      .text (textPieces text) :: scan .between rest := by
    rw [List.append_nil, scan_cons]
    simp only [step, if_true, List.reverse_reverse]
    rfl
  unfold printText
  rw [@scan_char .between (.text []) '"' (by decide) rfl, bytesOf_append, List.append_assoc,
    scan_inText]
  exact closes

end RobotBlocks.Json
