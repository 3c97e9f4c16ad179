import RobotBlocks.Store.SlotName
import RobotBlocks.Proofs.Text.Bytes

/-!
# Slot names are names

Different texts have different slot names, and a slot name has only characters below 128, so that
its order as a text is the order of its bytes.
-/

namespace RobotBlocks.Store

open Text (bytesOf bytesOf_cons_small bytesOf_injective small_of_all toList_toUTF8)

/-! ## Codes of bytes -/

theorem upperHex_injective {m n : Nat} (small : m < 16) (bound : n < 16)
    (same : upperHex m = upperHex n) : m = n := by
  have digits : ∀ m n : Fin 16, upperHex m.val = upperHex n.val → m = n := by decide
  exact congrArg Fin.val (digits ⟨m, small⟩ ⟨n, bound⟩ same)

theorem upperHex_small {n : Nat} (small : n < 16) : (upperHex n).toNat < 128 := by
  have digits : ∀ n : Fin 16, (upperHex n.val).toNat < 128 := by decide
  exact digits ⟨n, small⟩

/-- A byte that is kept is the code of its character, and never the percent sign. -/
theorem toNat_kept {first : Bool} {b : UInt8} (kept : isKept first b = true) :
    (Char.ofNat b.toNat).toNat = b.toNat ∧ b.toNat < 128 ∧ b.toNat ≠ '%'.toNat := by
  have all : ∀ (first : Bool) (n : Fin 256), isKept first (UInt8.ofNat n) = true →
      (Char.ofNat n.val).toNat = n.val ∧ n.val < 128 ∧ n.val ≠ '%'.toNat := by
    decide +kernel
  have here := all first ⟨b.toNat, b.toNat_lt⟩
  rw [UInt8.ofNat_toNat] at here
  exact here kept

theorem encodeByte_kept {first : Bool} {b : UInt8} (kept : isKept first b = true) :
    encodeByte first b = [Char.ofNat b.toNat] :=
  if_pos kept

theorem encodeByte_coded {first : Bool} {b : UInt8} (coded : isKept first b = false) :
    encodeByte first b = ['%', upperHex (b.toNat / 16), upperHex (b.toNat % 16)] :=
  if_neg (Bool.eq_false_iff.mp coded)

theorem encodeByte_small (first : Bool) (b : UInt8) : ∀ c ∈ encodeByte first b, c.toNat < 128 := by
  have bound := b.toNat_lt
  intro c mem
  cases kept : isKept first b with
  | true =>
      obtain ⟨code, small, _⟩ := toNat_kept kept
      rw [encodeByte_kept kept, List.mem_singleton] at mem
      rw [mem, code]
      exact small
  | false =>
      rw [encodeByte_coded kept] at mem
      simp only [List.mem_cons, List.not_mem_nil, or_false] at mem
      rcases mem with rfl | rfl | rfl
      · decide
      · exact upperHex_small (by omega)
      · exact upperHex_small (by omega)

/-- The first code of a text can be split off in one way only. -/
theorem encodeByte_append_inj {first : Bool} {a b : UInt8} {others more : List Char}
    (same : encodeByte first a ++ others = encodeByte first b ++ more) : a = b ∧ others = more := by
  have bound := a.toNat_lt
  have limit := b.toNat_lt
  -- A kept byte is no percent sign, so a kept and a coded byte never agree.
  cases left : isKept first a <;> cases right : isKept first b
  · rw [encodeByte_coded left, encodeByte_coded right] at same
    simp only [List.cons_append, List.nil_append, List.cons.injEq, true_and] at same
    have high := upperHex_injective (by omega) (by omega) same.1
    have low := upperHex_injective (by omega) (by omega) same.2.1
    exact ⟨UInt8.toNat_inj.mp (by omega), same.2.2⟩
  · obtain ⟨code, _, noPercent⟩ := toNat_kept right
    rw [encodeByte_coded left, encodeByte_kept right] at same
    have percent := (List.cons.inj same).1
    exact absurd (code.symm.trans (congrArg Char.toNat percent.symm)) noPercent
  · obtain ⟨code, _, noPercent⟩ := toNat_kept left
    rw [encodeByte_kept left, encodeByte_coded right] at same
    have percent := (List.cons.inj same).1
    exact absurd (code.symm.trans (congrArg Char.toNat percent)) noPercent
  · rw [encodeByte_kept left, encodeByte_kept right] at same
    obtain ⟨here, later⟩ := List.cons.inj same
    have codes := congrArg Char.toNat here
    rw [(toNat_kept left).1, (toNat_kept right).1] at codes
    exact ⟨UInt8.toNat_inj.mp codes, later⟩

theorem encodeByte_ne_nil (first : Bool) (b : UInt8) : encodeByte first b ≠ [] := by
  unfold encodeByte
  split <;> exact List.cons_ne_nil _ _

theorem flatMap_encodeByte_injective {bytes others : List UInt8}
    (same : bytes.flatMap (encodeByte false) = others.flatMap (encodeByte false)) :
    bytes = others := by
  induction bytes generalizing others with
  | nil =>
      cases others with
      | nil => rfl
      | cons b others =>
          rw [List.flatMap_cons] at same
          exact absurd (List.append_eq_nil_iff.mp same.symm).1 (encodeByte_ne_nil false b)
  | cons a bytes ih =>
      cases others with
      | nil =>
          rw [List.flatMap_cons] at same
          exact absurd (List.append_eq_nil_iff.mp same).1 (encodeByte_ne_nil false a)
      | cons b others =>
          rw [List.flatMap_cons, List.flatMap_cons] at same
          obtain ⟨here, later⟩ := encodeByte_append_inj same
          rw [here, ih later]

/-! ## Names -/

theorem encodeBytes_injective {bytes others : List UInt8}
    (same : encodeBytes bytes = encodeBytes others) : bytes = others := by
  cases bytes with
  | nil =>
      cases others with
      | nil => rfl
      | cons b others =>
          exact absurd (List.append_eq_nil_iff.mp same.symm).1 (encodeByte_ne_nil true b)
  | cons a bytes =>
      cases others with
      | nil => exact absurd (List.append_eq_nil_iff.mp same).1 (encodeByte_ne_nil true a)
      | cons b others =>
          obtain ⟨here, later⟩ := encodeByte_append_inj same
          rw [here, flatMap_encodeByte_injective later]

/-- Bytes are never encoded as a lone percent sign. -/
theorem encodeBytes_ne_percent (bytes : List UInt8) : encodeBytes bytes ≠ ['%'] := by
  intro same
  cases bytes with
  | nil => exact absurd same nofun
  | cons b bytes =>
      cases kept : isKept true b with
      | true =>
          obtain ⟨code, _, noPercent⟩ := toNat_kept kept
          rw [encodeBytes, encodeByte_kept kept] at same
          exact noPercent (code.symm.trans (congrArg Char.toNat (List.cons.inj same).1))
      | false =>
          rw [encodeBytes, encodeByte_coded kept] at same
          exact absurd (List.cons.inj same).2 nofun

theorem encodeBytes_small (bytes : List UInt8) : ∀ c ∈ encodeBytes bytes, c.toNat < 128 := by
  intro c mem
  cases bytes with
  | nil => exact absurd mem List.not_mem_nil
  | cons b bytes =>
      rcases List.mem_append.mp mem with head | tail
      · exact encodeByte_small true b c head
      · obtain ⟨other, _, inside⟩ := List.mem_flatMap.mp tail
        exact encodeByte_small false other c inside

theorem toList_encodeName (text : String) :
    (encodeName text).toList =
      if text.isEmpty then ['%'] else encodeBytes (bytesOf text.toList) := by
  unfold encodeName
  rw [toList_toUTF8]
  cases text.isEmpty with
  | true =>
      have percent : "%".toList = ['%'] := by decide
      exact percent
  | false => exact String.toList_ofList

theorem encodeName_small (text : String) : ∀ c ∈ (encodeName text).toList, c.toNat < 128 := by
  rw [toList_encodeName]
  split
  · exact small_of_all (by decide)
  · exact encodeBytes_small _

/-- Different texts have different names. -/
theorem encodeName_injective {text other : String} (same : encodeName text = encodeName other) :
    text = other := by
  have chars := congrArg String.toList same
  rw [toList_encodeName, toList_encodeName] at chars
  cases left : text.isEmpty <;> cases right : other.isEmpty <;>
    simp only [left, right, Bool.false_eq_true, if_true, if_false] at chars
  · exact String.toList_inj.mp (bytesOf_injective (encodeBytes_injective chars))
  · exact absurd chars (encodeBytes_ne_percent _)
  · exact absurd chars.symm (encodeBytes_ne_percent _)
  · rw [String.isEmpty_iff.mp left, String.isEmpty_iff.mp right]

/-! ## The order of names -/

/-- Texts of characters below 128 are in the order of their bytes. -/
theorem bytesOf_lt {first second : List Char} (small : ∀ c ∈ first, c.toNat < 128)
    (bound : ∀ c ∈ second, c.toNat < 128) (less : first < second) :
    bytesOf first < bytesOf second := by
  induction first generalizing second with
  | nil =>
      cases second with
      | nil => exact absurd less (List.not_lt_nil _)
      | cons d second =>
          rw [bytesOf_cons_small (bound d List.mem_cons_self)]
          exact List.nil_lt_cons _ _
  | cons c first ih =>
      cases second with
      | nil => exact absurd less (List.not_lt_nil _)
      | cons d second =>
          have here := small c List.mem_cons_self
          have there := bound d List.mem_cons_self
          rw [bytesOf_cons_small here, bytesOf_cons_small there]
          refine List.cons_lt_cons_iff.mpr ?_
          rcases List.cons_lt_cons_iff.mp less with lower | ⟨same, later⟩
          · refine Or.inl (UInt8.lt_iff_toNat_lt.mpr ?_)
            rw [UInt8.toNat_ofNat', UInt8.toNat_ofNat', Nat.mod_eq_of_lt (by omega),
              Nat.mod_eq_of_lt (by omega)]
            exact lower
          · refine Or.inr ⟨congrArg _ (congrArg _ same), ih ?_ ?_ later⟩
            · exact fun x mem => small x (List.mem_cons_of_mem _ mem)
            · exact fun x mem => bound x (List.mem_cons_of_mem _ mem)

end RobotBlocks.Store
