import RobotBlocks.Catalog.Entry
import RobotBlocks.Proofs.Json.Values

/-!
# Accepted entries

Whatever form an entry is read from, it has a code that is not blank; and an entry with such a code
is read back from its record.
-/

namespace RobotBlocks.Catalog

open Json (Value Number Reader Takes Decides)
open Text (isBlank isAllBlank)

/-! ## Codes -/

theorem isAllBlank_eq_false {text : String} :
    isAllBlank text = false ↔ ∃ c ∈ text.toList, isBlank c = false := by
  unfold isAllBlank
  rw [List.all_eq_false]
  simp only [Bool.not_eq_true]

theorem isBlank_of_isDigit {c : Char} (digit : c.isDigit = true) : isBlank c = false := by
  obtain ⟨n, small, rfl⟩ := Numeric.exists_digit digit
  interval_cases n <;> decide

theorem solid_digitChars (n : ℕ) : ∀ c ∈ Binary64.digitChars n, isBlank c = false :=
  fun c mem => isBlank_of_isDigit (Numeric.allDigits_digitChars n c mem)

/-- A printed number has a digit in it, or it is a word. -/
theorem solid_printNumber (number : Number) :
    ∃ c ∈ Json.printNumber number, isBlank c = false := by
  have digits (n : ℕ) : ∃ c ∈ Binary64.digitChars n, isBlank c = false := by
    obtain ⟨c, mem⟩ := List.exists_mem_of_ne_nil _ (Numeric.digitChars_ne_nil n)
    exact ⟨c, mem, solid_digitChars n c mem⟩
  cases number with
  | natural value => exact digits value
  | negative magnitude =>
      obtain ⟨c, mem, solid⟩ := digits magnitude
      exact ⟨c, List.mem_cons_of_mem _ mem, solid⟩
  | real x =>
      rw [Json.printNumber]
      split
      · rename_i finite
        obtain ⟨whole, places, power, text, _⟩ := Binary64.documentText_forms finite
        obtain ⟨c, mem, solid⟩ := digits whole
        refine ⟨c, ?_, solid⟩
        rw [text, Binary64.numeralChars]
        exact List.mem_append_right _ (List.mem_append_left _ mem)
      · exact ⟨'n', by decide, by decide⟩

/-- Whatever a tuple starts with, its code is not blank. -/
theorem isAllBlank_tupleCode {values : List Value} {code : String}
    (found : tupleCode values = .ok code) : isAllBlank code = false := by
  unfold tupleCode at found
  split at found
  · split at found
    · cases found
    · rename_i solid
      cases found
      exact Bool.not_eq_true _ |>.mp solid
  · rename_i number _
    cases found
    rw [isAllBlank_eq_false]
    have text : (Value.number number).toText.toList = Json.printNumber number := by
      rw [Value.toText, String.toList_ofList, Value.compact]
    rw [text]
    exact solid_printNumber number
  · cases found

namespace Entry

theorem isAllBlank_ofTuple {values : List Value} {entry : Entry}
    (found : ofTuple values = .ok entry) : isAllBlank entry.code = false := by
  obtain ⟨code, coded, found⟩ := bind_eq_ok.mp found
  obtain ⟨name, _, found⟩ := bind_eq_ok.mp found
  obtain ⟨duration, _, found⟩ := bind_eq_ok.mp found
  obtain ⟨interruptible, _, found⟩ := bind_eq_ok.mp found
  cases found
  exact isAllBlank_tupleCode coded

/-- An entry in either form that is not refused has a code. -/
theorem isAllBlank_ofValue {value : Value} {entry : Entry}
    (found : ofValue? value = some (.ok entry)) : isAllBlank entry.code = false := by
  cases value with
  | array values => exact isAllBlank_ofTuple (Option.some.inj found)
  | object members =>
      obtain ⟨made, _, checked⟩ := Option.map_eq_some_iff.mp found
      split at checked
      · cases checked
      · rename_i solid
        cases checked
        exact Bool.not_eq_true _ |>.mp solid
  | null => cases found
  | boolean value => cases found
  | number value => cases found
  | text value => cases found

/-- Every entry that is read has a code that is not blank. -/
theorem takes_reader (depth : ℕ) :
    Takes (reader depth) fun entry => isAllBlank entry.code = false := by
  have described : Takes ((Reader.value depth : Reader EntryError Value).filterMap ofValue?)
      fun described => ∀ entry, described = .ok entry → isAllBlank entry.code = false := by
    refine (Reader.takes_value depth).filterMap fun _ found entry same => ?_
    exact isAllBlank_ofValue (found.trans (congrArg some same))
  exact described.check fun holds passed => holds _ passed

/-! ## Records -/

/-- The values that members give to a name, in their order. -/
def valuesOf (name : String) (members : List (String × Value)) : List Value :=
  (members.filter fun member => member.1 == name).map Prod.snd

def iconValue : Option String → Value
  | some icon => .text icon
  | none => .null

/--
Members that make up the record of an entry: every name that is known is there once, or it is left
out and the entry has the default.  Their order and all other names do not matter.
-/
structure RecordSpells (entry : Entry) (members : List (String × Value)) : Prop where
  code : valuesOf "code" members = [.text entry.code]
  name : valuesOf "name" members = [.text entry.name]
  duration : valuesOf "duration_seconds" members = [.number (.natural entry.duration.toNat)] ∨
    valuesOf "duration_seconds" members = [] ∧ entry.duration = 0
  interruptible : valuesOf "can_interrupt" members = [.boolean entry.interruptible] ∨
    valuesOf "can_interrupt" members = [] ∧ entry.interruptible = true
  icon : valuesOf "icon" members = [iconValue entry.icon] ∨
    valuesOf "icon" members = [] ∧ entry.icon = none

theorem single_of_valuesOf {name : String} {members : List (String × Value)} {value : Value}
    (once : valuesOf name members = [value]) : single name members = some (some value) := by
  obtain ⟨member, found, same⟩ := List.map_eq_singleton_iff.mp once
  unfold single
  rw [found, ← same]

theorem single_of_valuesOf_nil {name : String} {members : List (String × Value)}
    (never : valuesOf name members = []) : single name members = some none := by
  unfold single
  rw [List.map_eq_nil_iff.mp never]

theorem required_of_valuesOf {α : Type} {get : Value → Option α} {name : String}
    {members : List (String × Value)} {value : Value} {found : α}
    (once : valuesOf name members = [value]) (got : get value = some found) :
    required get members name = some found := by
  rw [required, single_of_valuesOf once]
  exact got

theorem withDefault_of_valuesOf {α : Type} {default found : α} {get : Value → Option α}
    {name : String} {members : List (String × Value)} {value : Value}
    (spelled : valuesOf name members = [value] ∨ valuesOf name members = [] ∧ found = default)
    (got : get value = some found) : withDefault default get members name = some found := by
  rcases spelled with once | ⟨never, same⟩
  · rw [withDefault, single_of_valuesOf once]
    exact got
  · rw [withDefault, single_of_valuesOf_nil never, same]
    rfl

theorem countOf?_natural (count : UInt32) :
    countOf? (.number (.natural count.toNat)) = some count := by
  rw [countOf?, if_pos count.toNat_lt, UInt32.ofNat_toNat]

theorem iconOf?_iconValue (icon : Option String) : iconOf? (iconValue icon) = some icon := by
  cases icon <;> rfl

/-- Members that make up the record of an entry have the form of the entry. -/
theorem RecordSpells.ofMembers? {entry : Entry} {members : List (String × Value)}
    (record : RecordSpells entry members) : ofMembers? members = some entry := by
  have code : required textOf? members "code" = some entry.code :=
    required_of_valuesOf record.code rfl
  have name : required textOf? members "name" = some entry.name :=
    required_of_valuesOf record.name rfl
  have interruptible : withDefault true flagOf? members "can_interrupt" =
      some entry.interruptible := withDefault_of_valuesOf record.interruptible rfl
  unfold Entry.ofMembers?
  rw [code, name, withDefault_of_valuesOf record.duration (countOf?_natural _), interruptible,
    withDefault_of_valuesOf record.icon (iconOf?_iconValue _)]
  rfl

/-- A record gives its entry, unless the code of that is blank. -/
theorem RecordSpells.ofValue? {entry : Entry} {members : List (String × Value)}
    (record : RecordSpells entry members) :
    ofValue? (.object members) =
      some (if isAllBlank entry.code then .error .missingCode else .ok entry) := by
  rw [Entry.ofValue?, record.ofMembers?]
  rfl

theorem recordSpells_toJson (entry : Entry) :
    ∃ members, entry.toJson = .object members ∧ RecordSpells entry members := by
  obtain ⟨code, name, duration, interruptible, icon⟩ := entry
  refine ⟨_, rfl, rfl, rfl, .inl rfl, .inl rfl, .inl ?_⟩
  cases icon <;> rfl

/-- The record of an entry with a code describes the entry. -/
theorem ofValue_toJson {entry : Entry} (coded : isAllBlank entry.code = false) :
    ofValue? entry.toJson = some (.ok entry) := by
  obtain ⟨members, written, record⟩ := recordSpells_toJson entry
  rw [written, record.ofValue?, if_neg (Bool.eq_false_iff.mp coded)]

theorem isMeant_toJson (entry : Entry) : entry.toJson.isMeant = true := by
  have wide : (Number.natural entry.duration.toNat).isMeant = true :=
    decide_eq_true (entry.duration.toNat_lt.trans (by decide))
  cases shown : entry.icon <;>
    simp [toJson, Value.isMeant, Value.isMeantMembers, shown, wide]

theorem nesting_toJson (entry : Entry) : entry.toJson.nesting = 1 := by
  cases shown : entry.icon <;> simp [toJson, Value.nesting, Value.nestingMembers, shown]

/-- An entry with a code is read back from its record. -/
theorem decides_reader {entry : Entry} (coded : isAllBlank entry.code = false) (depth : ℕ) :
    Decides (reader (depth + 1)) entry.toJson (some entry) := by
  have shallow : entry.toJson.nesting ≤ depth + 1 := by
    rw [nesting_toJson]
    exact Nat.le_add_left 1 depth
  have found : Decides (Reader.value (depth + 1) : Reader EntryError Value) entry.toJson
      (some entry.toJson) := Reader.decides_value _ _ entry.isMeant_toJson shallow
  have described := found.filterMap ofValue?
  rw [Option.bind_some, ofValue_toJson coded] at described
  exact described.check rfl

end Entry

end RobotBlocks.Catalog
