import RobotBlocks.Proofs.Catalog.Entries
import RobotBlocks.Proofs.Json.Compact
import RobotBlocks.Proofs.Numeric.Naturals
import RobotBlocks.Proofs.Text.Lines

/-!
# The two forms of an entry

A tuple may spell a duration and a flag in several ways and leave out what follows from defaults.
However it is spelled, it is read as the same entry as the record with the same parts.
-/

namespace RobotBlocks.Catalog

open Json (Value Number Reader Token scan)
open Text (isBlank isAllBlank bytesOf)

/-! ## Spellings -/

/-- The spellings of a name in a tuple: a name that is the code may be null or left out. -/
inductive SpellsName (code : String) : String → Option Value → Prop where
  | text (name : String) : SpellsName code name (some (.text name))
  | null : SpellsName code code (some .null)
  | absent : SpellsName code code none

/--
The spellings of a duration in a tuple: a whole number, one with a point, a text with blank
characters around the digits; zero may be null or left out.
-/
inductive SpellsDuration : UInt32 → Option Value → Prop where
  | whole (duration : UInt32) :
      SpellsDuration duration (some (.number (.natural duration.toNat)))
  | pointed (duration : UInt32) :
      SpellsDuration duration (some (.number (.real (.ofNat duration.toNat))))
  | text (duration : UInt32) {before after : List Char}
      (blankBefore : ∀ c ∈ before, isBlank c = true) (blankAfter : ∀ c ∈ after, isBlank c = true) :
      SpellsDuration duration
        (some (.text (String.ofList (before ++ Binary64.digitChars duration.toNat ++ after))))
  | null : SpellsDuration 0 (some .null)
  | absent : SpellsDuration 0 none

def flagWords : Bool → List String
  | true => ["1", "true"]
  | false => ["0", "false"]

/--
The spellings of an interrupt flag in a tuple: the flag, one or zero, a text with blank characters
around a word; a flag that is set may be null or left out.
-/
inductive SpellsFlag : Bool → Option Value → Prop where
  | flag (flag : Bool) : SpellsFlag flag (some (.boolean flag))
  | number (flag : Bool) : SpellsFlag flag (some (.number (.natural flag.toNat)))
  | word {flag : Bool} {word : String} {before after : List Char} (known : word ∈ flagWords flag)
      (blankBefore : ∀ c ∈ before, isBlank c = true) (blankAfter : ∀ c ∈ after, isBlank c = true) :
      SpellsFlag flag (some (.text (String.ofList (before ++ word.toList ++ after))))
  | null : SpellsFlag true (some .null)
  | absent : SpellsFlag true none

/-- The spellings of an icon in a tuple: a text that is not empty; no icon is null or left out. -/
inductive SpellsIcon : Option String → Option Value → Prop where
  | text {icon : String} (filled : icon ≠ "") : SpellsIcon (some icon) (some (.text icon))
  | null : SpellsIcon none (some .null)
  | absent : SpellsIcon none none

/-- Values that make up the tuple of an entry; whatever comes after the icon does not matter. -/
structure TupleSpells (entry : Entry) (values : List Value) : Prop where
  code : values[0]? = some (.text entry.code)
  name : SpellsName entry.code entry.name values[1]?
  duration : SpellsDuration entry.duration values[2]?
  interruptible : SpellsFlag entry.interruptible values[3]?
  icon : SpellsIcon entry.icon values[4]?

theorem SpellsName.tupleName {code name : String} {spelling : Option Value}
    (spells : SpellsName code name spelling) : tupleName code spelling = .ok name := by
  cases spells <;> rfl

theorem SpellsDuration.tupleDuration {duration : UInt32} {spelling : Option Value}
    (spells : SpellsDuration duration spelling) (code : String) :
    tupleDuration code spelling = .ok duration := by
  cases spells with
  | whole => rw [Catalog.tupleDuration, Number.toReal, Binary64.roundToCount?_ofNat]
  | pointed => rw [Catalog.tupleDuration, Number.toReal, Binary64.roundToCount?_ofNat]
  | text _ blankBefore blankAfter =>
      rw [Catalog.tupleDuration, String.toList_ofList,
        Text.trim_surrounded blankBefore (solid_digitChars _) blankAfter,
        Numeric.readCount32_digitChars]
  | null => rfl
  | absent => rfl

theorem flagWords_cases {flag : Bool} {word : String} (known : word ∈ flagWords flag) :
    (flag = true ∧ (word = "1" ∨ word = "true")) ∨
      (flag = false ∧ (word = "0" ∨ word = "false")) := by
  cases flag <;> simpa [flagWords] using known

theorem solid_flagWords {flag : Bool} {word : String} (known : word ∈ flagWords flag) :
    ∀ c ∈ word.toList, isBlank c = false := by
  have noBlank : word.toList.any isBlank = false := by
    rcases flagWords_cases known with ⟨_, rfl | rfl⟩ | ⟨_, rfl | rfl⟩ <;> rfl
  intro c mem
  exact Bool.eq_false_iff.mpr (List.any_eq_false.mp noBlank c mem)

theorem SpellsFlag.tupleFlag {flag : Bool} {spelling : Option Value}
    (spells : SpellsFlag flag spelling) (code : String) : tupleFlag code spelling = .ok flag := by
  cases spells with
  | flag => rfl
  | number => cases flag <;> rfl
  | word known blankBefore blankAfter =>
      rw [Catalog.tupleFlag, String.toList_ofList,
        Text.trim_surrounded blankBefore (solid_flagWords known) blankAfter, String.ofList_toList]
      rcases flagWords_cases known with ⟨rfl, rfl | rfl⟩ | ⟨rfl, rfl | rfl⟩ <;> rfl
  | null => rfl
  | absent => rfl

theorem SpellsIcon.tupleIcon {icon : Option String} {spelling : Option Value}
    (spells : SpellsIcon icon spelling) : tupleIcon spelling = icon := by
  cases spells with
  | text filled => simp [Catalog.tupleIcon, filled]
  | null => rfl
  | absent => rfl

/-- A tuple gives its entry if the code of that is not blank. -/
theorem TupleSpells.ofTuple {entry : Entry} {values : List Value} (tuple : TupleSpells entry values)
    (coded : isAllBlank entry.code = false) : Entry.ofTuple values = .ok entry := by
  have code : tupleCode values = .ok entry.code := by
    cases values with
    | nil => cases tuple.code
    | cons first others =>
        cases tuple.code
        exact if_neg (Bool.eq_false_iff.mp coded)
  unfold Entry.ofTuple
  rw [bind_eq_ok]
  refine ⟨_, code, bind_eq_ok.mpr ⟨_, tuple.name.tupleName, bind_eq_ok.mpr ⟨_,
    tuple.duration.tupleDuration _, bind_eq_ok.mpr ⟨_, tuple.interruptible.tupleFlag _, ?_⟩⟩⟩⟩
  rw [tuple.icon.tupleIcon]
  rfl

/-! ## Reading -/

namespace Entry

/-- Wherever a document has the value, the reader for entries comes to the outcome there. -/
def ReadsAs (value : Value) (outcome : Except EntryError Entry) : Prop :=
  ∀ depth tokens rest, (Reader.value depth : Reader EntryError Value) tokens = .ok (value, rest) →
    reader depth tokens = (outcome.map fun entry => (entry, rest)).mapError .rejected

theorem readsAs_of_ofValue {value : Value} {outcome : Except EntryError Entry}
    (described : ofValue? value = some outcome) : ReadsAs value outcome := by
  intro depth tokens rest read
  have found : (Reader.value depth : Reader EntryError Value).filterMap ofValue? tokens =
      .ok (outcome, rest) := by
    refine bind_eq_ok.mpr ⟨(value, rest), read, ?_⟩
    simp only [described]
    rfl
  unfold reader Reader.check
  rw [found]
  cases outcome <;> rfl

theorem ReadsAs.run_toText {value : Value} {outcome : Except EntryError Entry}
    (reads : ReadsAs value outcome) (meant : value.isMeant = true) {depth : ℕ}
    (shallow : value.nesting ≤ depth) :
    (reader depth).run value.toText.toUTF8.toList = outcome.mapError .rejected := by
  have read : (Reader.value depth : Reader EntryError Value) value.tokens = .ok (value, []) := by
    have decided : Json.Decides (Reader.value depth : Reader EntryError Value) value
        (some value) := Reader.decides_value value depth meant shallow
    have whole := decided []
    rwa [List.append_nil] at whole
  rw [Reader.run, value.tokens_toText, reads depth _ _ read]
  cases outcome <;> rfl

/-- The digits of a natural with a point and a zero after them are read as a number with a point. -/
theorem value_pointed {n : ℕ} (small : n < 2 ^ 53) (depth : ℕ) {rest : List UInt8}
    (ends : Json.EndsNumber rest) :
    (Reader.value depth : Reader EntryError Value)
      (scan .between (bytesOf (Binary64.digitChars n ++ ['.', '0']) ++ rest)) =
        .ok (.number (.real (.ofNat n)), scan .between rest) := by
  have scanned : scan .between (bytesOf (Binary64.digitChars n ++ ['.', '0']) ++ rest) =
      .number ⟨false, 10 * n, -1, false⟩ :: scan .between rest :=
    @Json.scan_numeral false n ['0'] (Numeric.allDigits_zeros 1) none rest ends
  have means : (⟨false, 10 * n, -1, false⟩ : Json.Numeral).toNumber? =
      some (.real (.ofNat n)) := by
    unfold Json.Numeral.toNumber? Json.Numeral.toReal?
    simp [Binary64.ofDecimal_point_zero, (Binary64.isNatural_ofNat small).finite]
  have scalar : (Reader.scalar : Reader EntryError Value)
      (.number ⟨false, 10 * n, -1, false⟩ :: scan .between rest) =
        .ok (.number (.real (.ofNat n)), scan .between rest) := by
    rw [Reader.scalar, means]
  rw [scanned]
  cases depth <;> exact scalar

/--
An entry with a code is read from every spelling of its tuple and from every spelling of its record,
wherever they stand.  A code that is blank is missing in both forms.  Whatever a value is read as,
it is read as that from the text of the value, and a duration with a point and a zero after it is a
spelling of the duration.
-/
theorem forms_agree :
    (∀ entry values members, isAllBlank entry.code = false →
      TupleSpells entry values → RecordSpells entry members →
        ReadsAs (.array values) (.ok entry) ∧ ReadsAs (.object members) (.ok entry)) ∧
    (∀ code, isAllBlank code = true →
      (∀ others, ReadsAs (.array (.text code :: others)) (.error .missingCode)) ∧
      ∀ entry members, entry.code = code → RecordSpells entry members →
        ReadsAs (.object members) (.error .missingCode)) ∧
    (∀ value outcome depth, ReadsAs value outcome → value.isMeant = true → value.nesting ≤ depth →
      (reader depth).run value.toText.toUTF8.toList = outcome.mapError .rejected) ∧
    ∀ (duration : UInt32) depth rest, Json.EndsNumber rest →
      (Reader.value depth : Reader EntryError Value)
        (scan .between (bytesOf (Binary64.digitChars duration.toNat ++ ['.', '0']) ++ rest)) =
          .ok (.number (.real (.ofNat duration.toNat)), scan .between rest) := by
  refine ⟨?agree, ?blank, ?texts, ?pointed⟩
  case agree =>
    intro entry values members coded tuple record
    refine ⟨readsAs_of_ofValue (congrArg some (tuple.ofTuple coded)), readsAs_of_ofValue ?_⟩
    rw [record.ofValue?, if_neg (Bool.eq_false_iff.mp coded)]
  case blank =>
    intro code blank
    refine ⟨fun others => readsAs_of_ofValue ?_, ?_⟩
    · have missing : tupleCode (.text code :: others) = .error .missingCode := if_pos blank
      rw [ofValue?, ofTuple, missing]
      rfl
    · rintro entry members rfl record
      refine readsAs_of_ofValue ?_
      rw [record.ofValue?, if_pos blank]
  case texts =>
    intro value outcome depth reads meant shallow
    exact reads.run_toText meant shallow
  case pointed =>
    intro duration depth rest ends
    exact value_pointed (duration.toNat_lt.trans (by norm_num)) depth ends

/-! ### One entry in both forms -/

/-- An entry whose name is its code. -/
def wave : Entry :=
  ⟨"wave", "wave", 7, false, none⟩

/-- The tuple without an icon: the name is null, the duration has a point, the flag is a number. -/
def waveTuple : List Value :=
  [.text "wave", .null, .number (.real (.ofNat 7)), .number (.natural 0)]

/-- The record without an icon, in another order and with a name that is not known. -/
def waveMembers : List (String × Value) :=
  [("can_interrupt", .boolean false), ("speed", .array []),
    ("duration_seconds", .number (.natural 7)), ("name", .text "wave"), ("code", .text "wave")]

def blankMembers : List (String × Value) :=
  [("code", .text " "), ("name", .text "n")]

theorem forms_agree_wave :
    ReadsAs (.array waveTuple) (.ok wave) ∧ ReadsAs (.object waveMembers) (.ok wave) ∧
      ReadsAs (.array [.text " ", .boolean true]) (.error .missingCode) ∧
      ReadsAs (.object blankMembers) (.error .missingCode) ∧
      (reader 2).run (Value.array waveTuple).toText.toUTF8.toList = .ok wave ∧
      (reader 2).run (Value.object waveMembers).toText.toUTF8.toList = .ok wave ∧
      (Reader.value 0 : Reader EntryError Value)
        (scan .between (bytesOf (Binary64.digitChars (7 : UInt32).toNat ++ ['.', '0']) ++ [])) =
          .ok (.number (.real (.ofNat (7 : UInt32).toNat)), scan .between []) := by
  have tuple : TupleSpells wave waveTuple := ⟨rfl, .null, .pointed 7, .number false, .absent⟩
  have record : RecordSpells wave waveMembers := ⟨rfl, rfl, .inl rfl, .inl rfl, .inr ⟨rfl, rfl⟩⟩
  have blank : RecordSpells ⟨" ", "n", 0, true, none⟩ blankMembers :=
    ⟨rfl, rfl, .inr ⟨rfl, rfl⟩, .inr ⟨rfl, rfl⟩, .inr ⟨rfl, rfl⟩⟩
  obtain ⟨asTuple, asRecord⟩ := forms_agree.1 wave _ _ (by decide) tuple record
  obtain ⟨noTuple, noRecord⟩ := forms_agree.2.1 " " (by decide)
  have meantTuple : (Value.array waveTuple).isMeant = true := by decide +kernel
  exact ⟨asTuple, asRecord, noTuple _, noRecord _ _ rfl blank,
    forms_agree.2.2.1 _ _ 2 asTuple meantTuple (by decide),
    forms_agree.2.2.1 _ _ 2 asRecord (by decide) (by decide),
    forms_agree.2.2.2 7 0 [] (by rintro b ⟨⟩)⟩

end Entry

end RobotBlocks.Catalog
