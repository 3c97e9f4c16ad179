import RobotBlocks.Block.DefinitionJson
import RobotBlocks.Proofs.Block.Fields
import RobotBlocks.Proofs.Block.Tables
import RobotBlocks.Proofs.Json.Compact

/-!
# Definitions as texts

A definition is read back from its text, with all its components, exactly when the numbers among its
defaults are finite.  All definitions of a table are of this kind, so that a table can be written
out and read back.
-/

namespace RobotBlocks

open Json (Value Reader Decides)

/-! ## Readers of names and counts -/

namespace Json.Reader

variable {ε α : Type}

/-- A count is printed as a numeral that means it. -/
theorem decides_count (value : UInt32) :
    Decides (count : Reader ε UInt32) (.number (.natural value.toNat)) (some value) := by
  intro rest
  have token := (@scansAs_digits (.natural value.toNat) false value.toNat rfl).eq
  have tokens : (Value.number (.natural value.toNat)).tokens ++ rest =
      numberToken (.natural value.toNat) :: rest := rfl
  have means : (numeralOf false value.toNat [] none).toCount? = some value := by
    have small : (numeralOf false value.toNat [] none).digits = value.toNat := by
      simp [numeralOf, Numeric.digitsValue]
    unfold Numeral.toCount?
    rw [small]
    simp [numeralOf, value.toNat_lt]
  rw [tokens, token, count, means]
  rfl

/-- Of a name that is one of several, the name alone decides. -/
theorem decides_oneOf {choose : String → Option α} (name : String) :
    Decides (oneOf choose : Reader ε α) (.text name) (choose name) :=
  (decides_text name).filterMap choose

theorem decides_optional_null (reader : Reader ε α) :
    Decides (optional reader) .null (some none) :=
  fun _ => rfl

theorem decides_optional_text (content : String) :
    Decides (optional text : Reader ε (Option String)) (.text content) (some (some content)) :=
  (decides_text content).map some

end Json.Reader

open Json.Reader (decides_array decides_boolean decides_count decides_oneOf decides_optional_null
  decides_optional_text decides_record decides_tagged decides_text Fills)

/-! ## Words -/

theorem Shape.ofWord?_word (shape : Shape) : ofWord? shape.word = some shape := by
  cases shape <;> decide

theorem FieldKind.ofWord?_word (kind : FieldKind) : ofWord? kind.word = some kind := by
  cases kind <;> decide

/-! ## Fields of block types -/

namespace FieldSpec

/-- A field is read back if its default is no number, or a finite one. -/
theorem decides_reader (spec : FieldSpec) :
    Decides reader spec.toJson (if spec.default.isFinite then some spec else none) := by
  have fills : Fills (slots FieldValue.reader) {}
      [("name", .text spec.name), ("kind", .text spec.kind.word),
        ("default", spec.default.toJson)]
      ((some spec.name).bind fun name => (FieldKind.ofWord? spec.kind.word).bind fun kind =>
        (if spec.default.isFinite then some spec.default else none).bind fun value =>
          some ⟨name, kind, value⟩) := by
    refine .slot (·.name) (fun draft name => { draft with name := some name }) rfl rfl
      (decides_text _) fun name => ?_
    refine .slot (·.kind) (fun draft kind => { draft with kind := some kind }) rfl rfl
      (decides_oneOf _) fun kind => ?_
    refine .slot (·.default) (fun draft value => { draft with default := some value }) rfl rfl
      spec.default.decides_reader fun value => ?_
    exact .done _
  rw [FieldKind.ofWord?_word] at fills
  have decides := (decides_record fills).filterMap ofDraft?
  revert decides
  cases spec.default.isFinite <;> exact id

end FieldSpec

/-! ## Rules -/

namespace EmitRule

/-- The reader of what stands under the name of a rule. -/
def payload (name : String) : Reader Empty EmitRule :=
  if name = "Command" then (Reader.record slots {}).filterMap ofDraft?
  else (Reader.null.map fun _ => name).filterMap ofWord?

/-- A rule without data is told by its name. -/
theorem decides_word (rule : EmitRule) : Decides reader (.text rule.word) (ofWord? rule.word) :=
  (decides_text rule.word).filterMap ofWord?

/-- The rule of a command is read back with all the data of its catalog entry. -/
theorem decides_command (kind : Kind) (code : String) (duration : UInt32) (interruptible : Bool) :
    Decides reader (toJson (.command kind code duration interruptible))
      (some (.command kind code duration interruptible)) := by
  have fills : Fills slots {}
      [("kind", .text kind.word), ("code", .text code),
        ("duration_seconds", .number (.natural duration.toNat)),
        ("can_interrupt", .boolean interruptible)]
      ((Kind.ofWord? kind.word).bind fun kind => (some code).bind fun code =>
        (some duration).bind fun duration => (some interruptible).bind fun interruptible =>
          some ⟨some kind, some code, some duration, some interruptible⟩) := by
    refine .slot (·.kind) (fun draft kind => { draft with kind := some kind }) rfl rfl
      (decides_oneOf _) fun kind => ?_
    refine .slot (·.code) (fun draft code => { draft with code := some code }) rfl rfl
      (decides_text _) fun code => ?_
    refine .slot (·.duration) (fun draft duration => { draft with duration := some duration })
      rfl rfl (decides_count _) fun duration => ?_
    refine .slot (·.interruptible) (fun draft flag => { draft with interruptible := some flag })
      rfl rfl (decides_boolean _) fun interruptible => ?_
    exact .done _
  rw [Kind.ofWord?_word] at fills
  have found : Decides (payload "Command") _ _ := (decides_record fills).filterMap ofDraft?
  exact decides_tagged found

theorem decides_reader (rule : EmitRule) : Decides reader rule.toJson (some rule) := by
  cases rule with
  | command kind code duration interruptible =>
      exact decides_command kind code duration interruptible
  | begin => exact decides_word .begin
  | loop => exact decides_word .loop
  | wait => exact decides_word .wait
  | log => exact decides_word .log
  | fail => exact decides_word .fail

end EmitRule

/-! ## Definitions -/

namespace Definition

def isFinite (definition : Definition) : Bool :=
  definition.fields.all fun spec => spec.default.isFinite

theorem isFinite_iff {definition : Definition} :
    definition.isFinite = true ↔
      ∀ spec ∈ definition.fields, ∀ x, spec.default = .number x → x.isFinite = true := by
  unfold isFinite
  rw [List.all_eq_true]
  apply forall₂_congr
  intro spec _
  cases spec.default <;> simp [FieldValue.isFinite]

/-- The document form of an icon is read back. -/
theorem decides_icon (icon : Option String) :
    Decides (Reader.optional Reader.text : Reader Empty (Option String))
      (match icon with | some icon => .text icon | none => .null) (some icon) := by
  cases icon with
  | none => exact decides_optional_null _
  | some icon => exact decides_optional_text icon

/-- A definition is read back if its numbers are finite, and refused otherwise. -/
theorem decides_reader (definition : Definition) :
    Decides reader definition.toJson (if definition.isFinite then some definition else none) := by
  obtain ⟨blockType, displayName, category, shape, fields, icon, emit⟩ := definition
  have all := @decides_array _ _ _ _ FieldSpec.toJson _ fields
    fun spec _ => spec.decides_reader
  rw [mapM_keep] at all
  have fills : Fills slots {}
      [("block_type", .text blockType), ("display_name", .text displayName),
        ("category", .text category), ("shape", .text shape.word),
        ("fields", .array (fields.map FieldSpec.toJson)),
        ("icon", match icon with | some icon => .text icon | none => .null),
        ("emit", emit.toJson)]
      ((some blockType).bind fun blockType => (some displayName).bind fun displayName =>
        (some category).bind fun category => (Shape.ofWord? shape.word).bind fun shape =>
          (if fields.all fun spec => spec.default.isFinite then some fields else none).bind
            fun fields => (some icon).bind fun icon => (some emit).bind fun emit =>
              some ⟨some blockType, some displayName, some category, some shape, some fields,
                some icon, some emit⟩) := by
    refine .slot (·.blockType) (fun draft text => { draft with blockType := some text })
      rfl rfl (decides_text _) fun blockType => ?_
    refine .slot (·.displayName) (fun draft text => { draft with displayName := some text })
      rfl rfl (decides_text _) fun displayName => ?_
    refine .slot (·.category) (fun draft text => { draft with category := some text })
      rfl rfl (decides_text _) fun category => ?_
    refine .slot (·.shape) (fun draft shape => { draft with shape := some shape })
      rfl rfl (decides_oneOf _) fun shape => ?_
    refine .slot (·.fields) (fun draft fields => { draft with fields := some fields })
      rfl rfl all fun fields => ?_
    refine .slot (·.icon) (fun draft icon => { draft with icon := some icon })
      rfl rfl (decides_icon _) fun icon => ?_
    refine .slot (·.emit) (fun draft rule => { draft with emit := some rule })
      rfl rfl emit.decides_reader fun emit => ?_
    exact .done _
  rw [Shape.ofWord?_word] at fills
  have decides := (decides_record fills).filterMap ofDraft?
  have same : isFinite ⟨blockType, displayName, category, shape, fields, icon, emit⟩ =
      fields.all fun spec => spec.default.isFinite := rfl
  rw [same]
  revert decides
  cases fields.all fun spec => spec.default.isFinite <;> exact id

theorem ofText?_toText (definition : Definition) :
    ofText? definition.toJson.toText = if definition.isFinite then some definition else none := by
  unfold ofText?
  rw [Json.Reader.run_toText definition.decides_reader]
  cases definition.isFinite <;> rfl

/-! ## Tables -/

theorem isFinite_ofEntry (kind : Kind) (entry : Catalog.Entry) :
    (ofEntry kind entry).isFinite = true := rfl

theorem isFinite_builtins : ∀ definition ∈ Block.builtins, definition.isFinite = true := by
  decide +kernel

/-- Neither the built-in blocks nor catalog entries have a number that is not finite. -/
theorem isFinite_of_mem_ofFeed {feed : Catalog.Feed} {definition : Definition}
    (mem : definition ∈ (Table.ofFeed feed).definitions) : definition.isFinite = true := by
  rw [Table.definitions_ofFeed] at mem
  rcases List.mem_append.mp mem with builtin | catalog
  · exact isFinite_builtins definition builtin
  · obtain ⟨kind, _, inside⟩ := List.mem_flatMap.mp catalog
    obtain ⟨entry, _, rfl⟩ := List.mem_map.mp inside
    exact isFinite_ofEntry kind entry

/-- Definitions that are each read back are read back together. -/
theorem mapM_ofText?_toText {definitions : List Definition}
    (finite : ∀ definition ∈ definitions, definition.isFinite = true) :
    (definitions.map fun definition => definition.toJson.toText).mapM ofText? =
      some definitions := by
  have each : (definitions.map fun definition => definition.toJson.toText).mapM ofText? =
      definitions.mapM fun definition =>
        if definition.isFinite then some definition else none := by
    rw [List.mapM_map]
    exact congrArg definitions.mapM (funext ofText?_toText)
  rw [each, mapM_keep, if_pos (List.all_eq_true.mpr finite)]

/--
A definition is read back from its text, as it is, exactly when every number among its defaults is
finite.  Whatever was registered, all blocks of a model are read back from their texts, and so is
the table as a whole.
-/
theorem ofText?_toText_exact :
    (∀ definition : Definition, ofText? definition.toJson.toText = some definition ↔
      ∀ spec ∈ definition.fields, ∀ x, spec.default = .number x → x.isFinite = true) ∧
    ∀ operations model table, (Registry.after operations).table? model = some table →
      (∀ definition ∈ table.definitions,
        ofText? definition.toJson.toText = some definition) ∧
      ((table.definitions.map fun definition => definition.toJson.toText).mapM ofText?).map
        Table.mk = some table := by
  have back (definition : Definition) :
      ofText? definition.toJson.toText = some definition ↔ definition.isFinite = true := by
    rw [ofText?_toText]
    cases definition.isFinite <;> simp
  constructor
  · intro definition
    exact (back definition).trans isFinite_iff
  · intro operations model table found
    rw [Registry.table?_after] at found
    obtain ⟨feed, _, rfl⟩ := Option.map_eq_some_iff.mp found
    constructor
    · intro definition mem
      exact (back definition).mpr (isFinite_of_mem_ofFeed mem)
    · rw [mapM_ofText?_toText fun definition mem => isFinite_of_mem_ofFeed mem]
      rfl

def waltzFeed : Catalog.Feed where
  dances := [⟨"\"w\"", "Waltz\n♪", 4294967295, false, some ""⟩]

theorem ofText?_toText_waltz :
    (Registry.after [.register "m" waltzFeed]).table? "m" = some (Table.ofFeed waltzFeed) ∧
    (((Table.ofFeed waltzFeed).definitions.map fun definition =>
      definition.toJson.toText).mapM ofText?).map Table.mk = some (Table.ofFeed waltzFeed) := by
  have found : (Registry.after [.register "m" waltzFeed]).table? "m" =
      some (Table.ofFeed waltzFeed) := by decide
  exact ⟨found, (ofText?_toText_exact.2 [.register "m" waltzFeed] "m" _ found).2⟩

end Definition

end RobotBlocks
