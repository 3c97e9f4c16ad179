import RobotBlocks.Store.Library
import RobotBlocks.Proofs.Store.SlotNames

/-!
# Keys of slots

A slot key tells the namespace, the model and the format of its slot.  Keys are ordered by the
bytes of their names.
-/

namespace RobotBlocks

open Text (bytesOf small_of_all toList_toUTF8)

namespace Store

/-! ## The order of keys -/

instance : Std.TransCmp SlotKey.order :=
  inferInstanceAs (Std.TransCmp (compareLex (compareOn SlotKey.space) (compareOn SlotKey.name)))

theorem order_eq_then (key other : SlotKey) :
    SlotKey.order key other = (compare key.space other.space).then (compare key.name other.name) :=
  rfl

instance : Std.LawfulEqCmp SlotKey.order where
  eq_of_compare := by
    intro key other equal
    rw [order_eq_then, Ordering.then_eq_eq] at equal
    obtain ⟨space, name⟩ := key
    obtain ⟨otherSpace, otherName⟩ := other
    have spaces : space = otherSpace := Std.LawfulEqOrd.eq_of_compare equal.1
    have names : name = otherName := Std.LawfulEqOrd.eq_of_compare equal.2
    rw [spaces, names]

end Store

namespace Format

theorem toList_ending (format : Format) :
    format.ending.toList = match format with
      | .json => ['.', 'j', 's', 'o', 'n']
      | .binary => ['.', 'b', 'i', 'n'] := by
  cases format <;> decide

/-- The ending of a name tells its format. -/
theorem ending_injective {format other : Format} {name : List Char}
    (same : format.ending.toList <:+ name ++ other.ending.toList) : format = other := by
  obtain ⟨start, whole⟩ := same
  have reversed := congrArg List.reverse whole
  rw [toList_ending, toList_ending] at reversed
  cases format <;> cases other
  · rfl
  · simp at reversed
  · simp at reversed
  · rfl

theorem ending_small (format : Format) : ∀ c ∈ format.ending.toList, c.toNat < 128 := by
  rw [toList_ending]
  cases format <;> exact small_of_all (by decide)

end Format

namespace Store

/-! ## Names of slots -/

theorem toList_slotKey (format : Format) (space model : String) :
    (slotKey format space model).name.toList =
      (encodeName model).toList ++ format.ending.toList :=
  String.toList_append

theorem slotKey_small (format : Format) (space model : String) :
    ∀ c ∈ (slotKey format space model).name.toList, c.toNat < 128 := by
  intro c mem
  rw [toList_slotKey] at mem
  rcases List.mem_append.mp mem with name | ending
  · exact encodeName_small model c name
  · exact format.ending_small c ending

/-- A slot name has the ending of its own format only. -/
theorem isSuffixOf_slotKey (format other : Format) (space model : String) :
    format.ending.toList.isSuffixOf (slotKey other space model).name.toList =
      decide (format = other) := by
  rw [toList_slotKey, Bool.eq_iff_iff, List.isSuffixOf_iff_suffix, decide_eq_true_eq]
  constructor
  · exact Format.ending_injective
  · rintro rfl
    exact List.suffix_append _ _

/-- Different namespaces, models and formats have different slots. -/
theorem slotKey_injective {format other : Format} {space model otherSpace otherModel : String}
    (same : slotKey format space model = slotKey other otherSpace otherModel) :
    format = other ∧ space = otherSpace ∧ model = otherModel := by
  have spaces : encodeName space = encodeName otherSpace := congrArg SlotKey.space same
  have names := congrArg (fun key => key.name.toList) same
  rw [toList_slotKey, toList_slotKey] at names
  have formats : format = other :=
    Format.ending_injective (names ▸ List.suffix_append _ _)
  subst formats
  have models := String.toList_inj.mp (List.append_cancel_right names)
  exact ⟨rfl, encodeName_injective spaces, encodeName_injective models⟩

/-- Keys of one namespace with small characters are in the order of the bytes of their names. -/
theorem bytes_lt_of_small {key other : SlotKey} (space : key.space = other.space)
    (small : ∀ c ∈ key.name.toList, c.toNat < 128) (bound : ∀ c ∈ other.name.toList, c.toNat < 128)
    (less : SlotKey.order key other = .lt) : key.name.toUTF8.toList < other.name.toUTF8.toList := by
  rw [order_eq_then] at less
  have spaces : compare key.space other.space = .eq := Std.LawfulEqCmp.compare_eq_iff_eq.mpr space
  rw [spaces] at less
  have names : key.name < other.name := compareOfLessAndEq_eq_lt.mp less
  rw [toList_toUTF8, toList_toUTF8]
  exact bytesOf_lt small bound names

/-- The slots of a namespace are in the order of the bytes of their names. -/
theorem bytes_lt_of_order {format : Format} {space model other : String}
    (less : SlotKey.order (slotKey format space model) (slotKey format space other) = .lt) :
    (slotKey format space model).name.toUTF8.toList <
      (slotKey format space other).name.toUTF8.toList :=
  bytes_lt_of_small rfl (slotKey_small format space model) (slotKey_small format space other) less

end Store

end RobotBlocks
