import RobotBlocks.Proofs.Block.Registry
import RobotBlocks.Proofs.Numeric.Counts
import RobotBlocks.Proofs.Program.Listing

/-!
# Valid blocks

A block is valid when its type is in the table, its fields are fields of the definition with values
of the right kinds, and its count or duration is in range.  For a registered model the compiler finds
nothing wrong with a valid block, and it gives any other block the error of its first violation.
-/

namespace RobotBlocks

def Definition.Has (definition : Definition) (name : String) : Prop :=
  ∃ spec ∈ definition.fields, spec.name = name

namespace Block

/-- The value of a field of a block: as given, or else the default. -/
def fieldValue (block : Block) (spec : FieldSpec) : FieldValue :=
  (block.fields.get? spec.name).getD spec.default

def NamesFields (block : Block) (definition : Definition) : Prop :=
  ∀ name ∈ block.fields.names, definition.Has name

/-- Every field of the definition has a value of its kind. -/
def HasKinds (block : Block) (definition : Definition) : Prop :=
  ∀ spec ∈ definition.fields, (block.fieldValue spec).kind = spec.kind

/-- A block fits a definition: its fields do, and a repetition or a wait is in range. -/
structure Conforms (block : Block) (definition : Definition) : Prop where
  names : block.NamesFields definition
  kinds : block.HasKinds definition
  count : definition.emit = .loop → ∃ number,
    Deed.value? definition block.fields "times" = some (.number number) ∧ number.IsCount
  duration : definition.emit = .wait → ∃ seconds,
    Deed.value? definition block.fields "seconds" = some (.number seconds) ∧ IsDuration seconds

/-- The type of a block is in the table, and the block fits its definition. -/
def IsValid (table : Table) (block : Block) : Prop :=
  ∃ definition, table.get? block.blockType = some definition ∧ block.Conforms definition

/--
The first violation of a block and the error for it.  The type comes before the names of the fields
in the order of the block, these before the kinds in the order of the definition, and the range of a
number comes last.
-/
inductive Violates (model : String) (table : Table) (block : Block) : CompileError → Prop where
  | unknownType (absent : table.get? block.blockType = none) :
      Violates model table block (.unknownBlock block.id block.blockType model)
  | unknownField {definition : Definition} {before after : List String} {name : String}
      (found : table.get? block.blockType = some definition)
      (split : block.fields.names = before ++ name :: after)
      (known : ∀ other ∈ before, definition.Has other) (unknown : ¬definition.Has name) :
      Violates model table block (.invalidField block.id name (.unknown block.blockType))
  | wrongKind {definition : Definition} {before after : List FieldSpec} {spec : FieldSpec}
      (found : table.get? block.blockType = some definition) (names : block.NamesFields definition)
      (split : definition.fields = before ++ spec :: after)
      (right : ∀ other ∈ before, (block.fieldValue other).kind = other.kind)
      (wrong : (block.fieldValue spec).kind ≠ spec.kind) :
      Violates model table block
        (.invalidField block.id spec.name (.wrongKind spec.kind (block.fieldValue spec).kind))
  | badCount {definition : Definition} {number : Binary64}
      (found : table.get? block.blockType = some definition) (names : block.NamesFields definition)
      (kinds : block.HasKinds definition) (loop : definition.emit = .loop)
      (value : Deed.value? definition block.fields "times" = some (.number number))
      (wrong : ¬number.IsCount) :
      Violates model table block (.invalidField block.id "times" .notCount)
  | badDuration {definition : Definition} {seconds : Binary64}
      (found : table.get? block.blockType = some definition) (names : block.NamesFields definition)
      (kinds : block.HasKinds definition) (wait : definition.emit = .wait)
      (value : Deed.value? definition block.fields "seconds" = some (.number seconds))
      (wrong : ¬IsDuration seconds) :
      Violates model table block (.invalidField block.id "seconds" .notDuration)

theorem Violates.blames {model : String} {table : Table} {block : Block} {error : CompileError}
    (violates : block.Violates model table error) : error.block? = some block.id := by
  cases violates <;> rfl

/-- A list has the property throughout, or there is a first member without it. -/
theorem all_or_first {α : Type} (property : α → Prop) (list : List α) :
    (∀ item ∈ list, property item) ∨ ∃ before item after, list = before ++ item :: after ∧
      (∀ other ∈ before, property other) ∧ ¬property item := by
  induction list with
  | nil => exact .inl nofun
  | cons first rest ih =>
      by_cases here : property first
      · rcases ih with all | ⟨before, item, after, rfl, earlier, fails⟩
        · exact .inl (List.forall_mem_cons.mpr ⟨here, all⟩)
        · exact .inr ⟨first :: before, item, after, rfl,
            List.forall_mem_cons.mpr ⟨here, earlier⟩, fails⟩
      · exact .inr ⟨[], first, rest, rfl, nofun, here⟩

end Block

/-! ## Definitions of registered models -/

namespace Definition

def Offers (definition : Definition) (name : String) (kind : FieldKind) : Prop :=
  ∃ spec, definition.field? name = some spec ∧ spec.kind = kind

/-- The definition has the field that its rule reads, with the kind that the rule expects. -/
def Supplies (definition : Definition) : Prop :=
  match definition.emit with
  | .begin => True
  | .loop => definition.Offers "times" .number
  | .wait => definition.Offers "seconds" .number
  | .log => definition.Offers "message" .text
  | .fail => definition.Offers "message" .text
  | .command _ _ _ _ => definition.Offers "wait" .flag

theorem supplies_ofFeed {feed : Catalog.Feed} {blockType : String} {definition : Definition}
    (found : (Table.ofFeed feed).get? blockType = some definition) : definition.Supplies := by
  unfold Table.ofFeed at found
  rw [Table.get?_foldl_add, Option.or_eq_some_iff] at found
  rcases found with builtin | ⟨_, catalog⟩
  · have mem := List.mem_of_find?_eq_some builtin
    simp only [Block.builtins, List.mem_cons, List.not_mem_nil, or_false] at mem
    rcases mem with rfl | rfl | rfl | rfl | rfl
    · trivial
    all_goals exact ⟨_, rfl, rfl⟩
  · obtain ⟨kind, _, mem⟩ := List.mem_flatMap.mp (List.mem_of_find?_eq_some catalog)
    obtain ⟨entry, _, rfl⟩ := List.mem_map.mp mem
    exact ⟨_, rfl, rfl⟩

theorem has_iff (definition : Definition) (name : String) :
    definition.Has name ↔ (definition.field? name).isSome = true := by
  simp [Has, field?, List.find?_isSome]

/-- The value of a field has the kind that is offered. -/
theorem Offers.value {definition : Definition} {name : String} {kind : FieldKind}
    (offers : definition.Offers name kind) {block : Block} (kinds : block.HasKinds definition) :
    ∃ value, Deed.value? definition block.fields name = some value ∧ value.kind = kind := by
  obtain ⟨spec, found, rfl⟩ := offers
  have label := List.find?_some found
  have named : spec.name = name := beq_iff_eq.mp label
  refine ⟨block.fieldValue spec, ?_, kinds spec (List.mem_of_find?_eq_some found)⟩
  rw [Deed.value?, found, Option.map_some, Block.fieldValue, named]

end Definition

/-- A block that fits no definition, or whose type is not in the table, has a first violation. -/
theorem Block.isValid_or_violates (model : String) {table : Table}
    (supplied : ∀ blockType definition, table.get? blockType = some definition →
      definition.Supplies) (block : Block) :
    block.IsValid table ∨ ∃ error, block.Violates model table error := by
  cases found : table.get? block.blockType with
  | none => exact .inr ⟨_, .unknownType found⟩
  | some definition =>
      rcases all_or_first definition.Has block.fields.names with
        names | ⟨before, name, after, split, known, unknown⟩
      swap
      · exact .inr ⟨_, .unknownField found split known unknown⟩
      rcases all_or_first (fun spec => (block.fieldValue spec).kind = spec.kind) definition.fields
        with kinds | ⟨before, spec, after, split, right, wrong⟩
      swap
      · exact .inr ⟨_, .wrongKind found names split right wrong⟩
      have supplies := supplied block.blockType definition found
      unfold Definition.Supplies at supplies
      cases rule : definition.emit with
      | loop =>
          rw [rule] at supplies
          obtain ⟨value, has, kind⟩ := supplies.value kinds
          cases value with
          | flag | text => cases kind
          | number number =>
              by_cases count : number.IsCount
              · exact .inl ⟨definition, found, names, kinds, fun _ => ⟨number, has, count⟩,
                  (fun wait => nomatch rule.symm.trans wait)⟩
              · exact .inr ⟨_, .badCount found names kinds rule has count⟩
      | wait =>
          rw [rule] at supplies
          obtain ⟨value, has, kind⟩ := supplies.value kinds
          cases value with
          | flag | text => cases kind
          | number seconds =>
              by_cases duration : IsDuration seconds
              · exact .inl ⟨definition, found, names, kinds,
                  (fun loop => nomatch rule.symm.trans loop), fun _ => ⟨seconds, has, duration⟩⟩
              · exact .inr ⟨_, .badDuration found names kinds rule has duration⟩
      | begin | log | fail | command =>
          exact .inl ⟨definition, found, names, kinds,
            (fun loop => nomatch rule.symm.trans loop), (fun wait => nomatch rule.symm.trans wait)⟩

/-! ## What the compiler checks -/

namespace Generator

/-- What a block emits, its children left aside, or what is wrong with it. -/
def check (generator : Generator) (block : Block) : Except CompileError Emission :=
  generator.emitBlock block.id block.blockType block.fields

theorem unknownField?_eq_none {definition : Definition} {block : Block}
    (names : block.NamesFields definition) : unknownField? definition block.fields = none := by
  refine List.find?_eq_none.mpr fun name mem absent => ?_
  have known := (definition.has_iff name).mp (names name mem)
  rw [Option.isNone_iff_eq_none.mp absent] at known
  cases known

theorem unknownField?_eq_some {definition : Definition} {block : Block}
    {before after : List String} {name : String}
    (split : block.fields.names = before ++ name :: after)
    (known : ∀ other ∈ before, definition.Has other) (unknown : ¬definition.Has name) :
    unknownField? definition block.fields = some name := by
  rw [Definition.has_iff, Option.not_isSome_iff_eq_none] at unknown
  refine List.find?_eq_some_iff_append.mpr ⟨by rw [unknown]; rfl, before, after, split, ?_⟩
  intro other mem
  have named := (definition.has_iff other).mp (known other mem)
  rw [Option.isNone_eq_false_iff.mpr named]
  rfl

theorem resolveAll_of_kinds (block : Block) {specs : List FieldSpec}
    (kinds : ∀ spec ∈ specs, (block.fieldValue spec).kind = spec.kind) :
    ∃ values, resolveAll block.id block.fields specs = .ok values := by
  induction specs with
  | nil => exact ⟨[], rfl⟩
  | cons spec rest ih =>
      obtain ⟨here, later⟩ := List.forall_mem_cons.mp kinds
      obtain ⟨values, resolved⟩ := ih later
      refine ⟨(spec.name, block.fieldValue spec) :: values, ?_⟩
      rw [resolveAll]
      refine (if_pos here).trans ?_
      rw [resolved]
      rfl

theorem resolveAll_of_wrongKind (block : Block) {before after : List FieldSpec} {spec : FieldSpec}
    (right : ∀ other ∈ before, (block.fieldValue other).kind = other.kind)
    (wrong : (block.fieldValue spec).kind ≠ spec.kind) :
    resolveAll block.id block.fields (before ++ spec :: after) =
      .error (.invalidField block.id spec.name
        (.wrongKind spec.kind (block.fieldValue spec).kind)) := by
  induction before with
  | nil =>
      rw [List.nil_append, resolveAll]
      exact if_neg wrong
  | cons first rest ih =>
      obtain ⟨here, later⟩ := List.forall_mem_cons.mp right
      rw [List.cons_append, resolveAll]
      refine (if_pos here).trans ?_
      rw [ih later]
      rfl

/-- The fields of a block are resolved when their names and kinds are right. -/
theorem resolve_of_kinds {definition : Definition} {block : Block}
    (names : block.NamesFields definition) (kinds : block.HasKinds definition) :
    ∃ values, resolve definition block.id block.fields = .ok values := by
  unfold resolve
  rw [unknownField?_eq_none names]
  exact resolveAll_of_kinds block kinds

/-- A field is read from the value that was given or is the default. -/
theorem readField_of_value {α : Type} {definition : Definition} {block : Block}
    {values : List (String × FieldValue)}
    (resolved : resolve definition block.id block.fields = .ok values) {name : String}
    {value : FieldValue} (has : Deed.value? definition block.fields name = some value)
    (read : FieldValue → Except FieldProblem α) :
    readField block.id name read values =
      (read value).mapError fun problem => .invalidField block.id name problem := by
  have all : resolveAll block.id block.fields definition.fields = .ok values := by
    unfold resolve at resolved
    split at resolved
    · cases resolved
    · exact resolved
  have found := (find_resolveAll all name).trans has
  obtain ⟨⟨label, same⟩, entry, rfl⟩ := Option.map_eq_some_iff.mp found
  unfold readField
  rw [entry]
  simp only
  cases read same <;> rfl

theorem readCount_of_not {number : Binary64} (wrong : ¬number.IsCount) :
    readCount (.number number) = .error .notCount := by
  rw [Binary64.isCount_iff] at wrong
  unfold readCount
  cases found : number.toCount? with
  | none => simp only [found]
  | some count => exact absurd ⟨count, found⟩ wrong

theorem readDuration_of_not {seconds : Binary64} (wrong : ¬IsDuration seconds) :
    readDuration (.number seconds) = .error .notDuration := by
  unfold readDuration
  exact if_neg fun duration => wrong (Bool.and_eq_true_iff.mp duration)

/-- A block with a definition is checked against that definition. -/
theorem check_of_found {generator : Generator} {block : Block} {definition : Definition}
    (found : generator.table.get? block.blockType = some definition)
    {values : List (String × FieldValue)}
    (resolved : resolve definition block.id block.fields = .ok values) :
    generator.check block = Generator.emission generator.serial block.id values definition.emit := by
  unfold check emitBlock
  rw [found]
  simp only [resolved]
  rfl

theorem check_of_valid {generator : Generator} {block : Block} {definition : Definition}
    (found : generator.table.get? block.blockType = some definition)
    (supplies : definition.Supplies) (conforms : block.Conforms definition) :
    ∃ emission, generator.check block = .ok emission := by
  obtain ⟨names, kinds, count, duration⟩ := conforms
  obtain ⟨values, resolved⟩ := resolve_of_kinds names kinds
  rw [check_of_found found resolved]
  unfold Definition.Supplies at supplies
  cases rule : definition.emit with
  | begin => exact ⟨_, rfl⟩
  | loop =>
      obtain ⟨number, has, isCount⟩ := count rule
      obtain ⟨times, counted⟩ := Binary64.isCount_iff.mp isCount
      have read : readCount (.number number) = .ok times := by simp only [readCount, counted]
      rw [Generator.emission, readField_of_value resolved has, read]
      exact ⟨.loop times, rfl⟩
  | wait =>
      obtain ⟨seconds, has, isDuration⟩ := duration rule
      have read : readDuration (.number seconds) = .ok seconds :=
        if_pos (Bool.and_eq_true_iff.mpr isDuration)
      rw [Generator.emission, readField_of_value resolved has, read]
      exact ⟨.statement (.wait seconds), rfl⟩
  | log | fail =>
      rw [rule] at supplies
      obtain ⟨value, has, kind⟩ := supplies.value kinds
      cases value with
      | flag | number => cases kind
      | text message =>
          rw [Generator.emission, readField_of_value resolved has]
          exact ⟨_, rfl⟩
  | command =>
      rw [rule] at supplies
      obtain ⟨value, has, kind⟩ := supplies.value kinds
      cases value with
      | number | text => cases kind
      | flag awaited =>
          rw [Generator.emission, readField_of_value resolved has]
          exact ⟨_, rfl⟩

theorem check_of_violates {generator : Generator} {block : Block} {error : CompileError}
    (violates : block.Violates generator.model generator.table error) :
    generator.check block = .error error := by
  cases violates with
  | unknownType absent =>
      unfold check emitBlock
      rw [absent]
  | unknownField found split known unknown =>
      have label := List.find?_some found
      unfold check emitBlock resolve
      rw [found]
      simp only [unknownField?_eq_some split known unknown]
      rw [beq_iff_eq.mp label]
      rfl
  | wrongKind found names split right wrong =>
      unfold check emitBlock resolve
      rw [found]
      simp only [unknownField?_eq_none names, split]
      rw [resolveAll_of_wrongKind block right wrong]
      rfl
  | badCount found names kinds loop value wrong =>
      obtain ⟨values, resolved⟩ := resolve_of_kinds names kinds
      rw [check_of_found found resolved, loop, Generator.emission,
        readField_of_value resolved value, readCount_of_not wrong]
      rfl
  | badDuration found names kinds wait value wrong =>
      obtain ⟨values, resolved⟩ := resolve_of_kinds names kinds
      rw [check_of_found found resolved, wait, Generator.emission,
        readField_of_value resolved value, readDuration_of_not wrong]
      rfl

end Generator

end RobotBlocks
