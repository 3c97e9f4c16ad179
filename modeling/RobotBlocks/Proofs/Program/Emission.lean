import RobotBlocks.Proofs.Program.Nesting
import RobotBlocks.Proofs.Results
import RobotBlocks.Proofs.Sandbox.Walk

/-!
# What blocks emit

A block that is compiled emits what it does: a statement for its deed, or a loop around what its
children emit.  Its waits are for durations, and its loops nest as its repeat blocks do.
-/

namespace RobotBlocks

theorem Registry.generator_eq_ok {registry : Registry} {model serial : String}
    {generator : Generator} :
    registry.generator model serial = .ok generator ↔
      ∃ table, registry.table? model = some table ∧ generator = ⟨model, serial, table⟩ := by
  unfold Registry.generator
  cases registry.table? model with
  | none => simp
  | some table => simp [eq_comm]

theorem Registry.generator_eq_error {registry : Registry} {model serial : String}
    {error : CompileError} :
    registry.generator model serial = .error error ↔
      registry.table? model = none ∧ error = .modelNotRegistered model := by
  unfold Registry.generator
  cases registry.table? model with
  | none => simp [eq_comm]
  | some table => simp

namespace Generator

def emissionOf : Deed → Emission
  | .nothing => .statement .begin
  | .command command => .statement (.command command)
  | .wait seconds => .statement (.wait seconds)
  | .log message => .statement (.log message)
  | .fail message => .statement (.fail message)
  | .again times => .loop times

/-! ## Fields -/

theorem find_resolveAll {id : String} {fields : Fields} {specs : List FieldSpec}
    {values : List (String × FieldValue)} (resolved : resolveAll id fields specs = .ok values)
    (name : String) :
    (values.find? fun entry => entry.1 == name).map Prod.snd =
      (specs.find? fun spec => spec.name == name).map fun spec =>
        (fields.get? name).getD spec.default := by
  induction specs generalizing values with
  | nil =>
      cases resolved
      rfl
  | cons spec rest ih =>
      unfold resolveAll at resolved
      simp only at resolved
      split at resolved
      · obtain ⟨more, later, made⟩ := bind_eq_ok.mp resolved
        cases made
        by_cases same : spec.name = name
        · rw [List.find?_cons_of_pos (by simpa using same),
            List.find?_cons_of_pos (by simpa using same), same]
          rfl
        · rw [List.find?_cons_of_neg (by simpa using same),
            List.find?_cons_of_neg (by simpa using same), ih later]
      · cases resolved

/-- A field that is read has a value, and that value was read. -/
theorem readField_eq_ok {α : Type} {id : String} {definition : Definition} {fields : Fields}
    {values : List (String × FieldValue)} (resolved : resolve definition id fields = .ok values)
    {name : String} {read : FieldValue → Except FieldProblem α} {result : α}
    (found : readField id name read values = .ok result) :
    ∃ value, Deed.value? definition fields name = some value ∧ read value = .ok result := by
  have all : resolveAll id fields definition.fields = .ok values := by
    unfold resolve at resolved
    split at resolved
    · cases resolved
    · exact resolved
  have same := find_resolveAll all name
  unfold readField at found
  split at found
  · cases found
  · rename_i label value entry
    rw [entry] at same
    refine ⟨value, same.symm, ?_⟩
    split at found
    · rename_i read
      cases found
      exact read
    · cases found

theorem readCount_eq_ok {value : FieldValue} {times : UInt32}
    (read : readCount value = .ok times) :
    ∃ number, value = .number number ∧ number.toCount? = some times := by
  unfold readCount at read
  split at read
  · rename_i number
    split at read
    · rename_i count counted
      cases read
      exact ⟨number, rfl, counted⟩
    · cases read
  · cases read

theorem readDuration_eq_ok {value : FieldValue} {seconds : Binary64}
    (read : readDuration value = .ok seconds) :
    value = .number seconds ∧ IsDuration seconds := by
  unfold readDuration at read
  split at read
  · split at read
    · rename_i duration
      cases read
      exact ⟨rfl, Bool.and_eq_true_iff.mp duration⟩
    · cases read
  · cases read

theorem readText_eq_ok {value : FieldValue} {message : String}
    (read : readText value = .ok message) : value = .text message := by
  unfold readText at read
  split at read
  · cases read
    rfl
  · cases read

theorem readFlag_eq_ok {value : FieldValue} {flag : Bool}
    (read : readFlag value = .ok flag) : value = .flag flag := by
  unfold readFlag at read
  split at read
  · cases read
    rfl
  · cases read

/-! ## Blocks -/

/-- What a block emits is what it does, and it only waits for durations. -/
theorem emission_eq_ok {serial id : String} {definition : Definition} {fields : Fields}
    {values : List (String × FieldValue)} (resolved : resolve definition id fields = .ok values)
    {emission : Emission}
    (emitted : Generator.emission serial id values definition.emit = .ok emission) :
    ∃ deed, Deed.of? serial definition fields = some deed ∧ emission = emissionOf deed ∧
      (∀ seconds, deed = .wait seconds → IsDuration seconds) ∧
      (definition.emit = .loop ↔ ∃ times, deed = .again times) := by
  unfold Deed.of?
  cases rule : definition.emit with
  | begin =>
      rw [rule] at emitted
      cases emitted
      exact ⟨.nothing, rfl, rfl, nofun, nofun, fun ⟨_, same⟩ => nomatch same⟩
  | loop =>
      rw [rule] at emitted
      obtain ⟨times, read, made⟩ := bind_eq_ok.mp emitted
      obtain ⟨value, has, counted⟩ := readField_eq_ok resolved read
      obtain ⟨number, rfl, count⟩ := readCount_eq_ok counted
      cases made
      refine ⟨.again times, ?_, rfl, nofun, fun _ => ⟨times, rfl⟩, fun _ => rfl⟩
      simp only [has, count, Option.map_some]
  | wait =>
      rw [rule] at emitted
      obtain ⟨seconds, read, made⟩ := bind_eq_ok.mp emitted
      obtain ⟨value, has, waits⟩ := readField_eq_ok resolved read
      obtain ⟨rfl, duration⟩ := readDuration_eq_ok waits
      cases made
      refine ⟨.wait seconds, ?_, rfl, ?_, nofun, fun ⟨_, same⟩ => nomatch same⟩
      · simp only [has]
      · rintro _ ⟨⟩
        exact duration
  | log =>
      rw [rule] at emitted
      obtain ⟨message, read, made⟩ := bind_eq_ok.mp emitted
      obtain ⟨value, has, text⟩ := readField_eq_ok resolved read
      cases readText_eq_ok text
      cases made
      refine ⟨.log message, ?_, rfl, nofun, nofun, fun ⟨_, same⟩ => nomatch same⟩
      simp only [has]
  | fail =>
      rw [rule] at emitted
      obtain ⟨message, read, made⟩ := bind_eq_ok.mp emitted
      obtain ⟨value, has, text⟩ := readField_eq_ok resolved read
      cases readText_eq_ok text
      cases made
      refine ⟨.fail message, ?_, rfl, nofun, nofun, fun ⟨_, same⟩ => nomatch same⟩
      simp only [has]
  | command kind code duration interruptible =>
      rw [rule] at emitted
      obtain ⟨awaited, read, made⟩ := bind_eq_ok.mp emitted
      obtain ⟨value, has, flag⟩ := readField_eq_ok resolved read
      cases readFlag_eq_ok flag
      cases made
      refine ⟨.command { serial, kind, code, duration, interruptible, awaited }, ?_, rfl, nofun,
        nofun, fun ⟨_, same⟩ => nomatch same⟩
      simp only [has]

theorem emitBlock_eq_ok {generator : Generator} {id blockType : String} {fields : Fields}
    {emission : Emission}
    (emitted : generator.emitBlock id blockType fields = .ok emission) :
    emission = emissionOf
      (deedOf generator.table.get? generator.serial blockType fields) ∧
    (∀ seconds, deedOf generator.table.get? generator.serial blockType fields = .wait seconds →
      IsDuration seconds) ∧
    ((generator.table.get? blockType).map Definition.emit = some .loop ↔
      ∃ times, deedOf generator.table.get? generator.serial blockType fields = .again times) := by
  unfold emitBlock at emitted
  split at emitted
  · cases emitted
  · rename_i definition found
    obtain ⟨values, resolved, emitted⟩ := bind_eq_ok.mp emitted
    obtain ⟨deed, meaning, same, waits, loops⟩ := emission_eq_ok resolved emitted
    have here : deedOf generator.table.get? generator.serial blockType fields = deed := by
      unfold deedOf
      rw [found, Option.bind_some, meaning, Option.getD_some]
    rw [here, found, Option.map_some, Option.some_inj]
    exact ⟨same, waits, loops⟩

/-! ## Statements of a diagram -/

theorem emitAll_cons_eq_ok {generator : Generator} {first : Block} {rest : List Block}
    {statements : List Statement}
    (emitted : generator.emitAll (first :: rest) = .ok statements) :
    ∃ here more, generator.emit first = .ok here ∧ generator.emitAll rest = .ok more ∧
      statements = here ++ more := by
  unfold emitAll at emitted
  obtain ⟨here, one, emitted⟩ := bind_eq_ok.mp emitted
  obtain ⟨more, others, made⟩ := bind_eq_ok.mp emitted
  cases made
  exact ⟨here, more, one, others, rfl⟩

/-- The statements of a block that does the given deed, around or before those of its children. -/
def around (deed : Deed) (inner : List Statement) : List Statement :=
  match emissionOf deed with
  | .statement statement => statement :: inner
  | .loop times => [.loop times inner]

theorem emit_eq_ok {generator : Generator} {id blockType : String} {fields : Fields}
    {children : List Block} {statements : List Statement}
    (emitted : generator.emit ⟨id, blockType, fields, children⟩ = .ok statements) :
    ∃ inner, generator.emitAll children = .ok inner ∧
      statements = around (deedOf generator.table.get? generator.serial blockType fields) inner ∧
      (∀ seconds, deedOf generator.table.get? generator.serial blockType fields = .wait seconds →
        IsDuration seconds) ∧
      ((generator.table.get? blockType).map Definition.emit = some .loop ↔
        ∃ times, deedOf generator.table.get? generator.serial blockType fields =
          .again times) := by
  unfold emit at emitted
  obtain ⟨emission, one, emitted⟩ := bind_eq_ok.mp emitted
  obtain ⟨inner, others, made⟩ := bind_eq_ok.mp emitted
  obtain ⟨rfl, waits, loops⟩ := emitBlock_eq_ok one
  refine ⟨inner, others, ?_, waits, loops⟩
  unfold around
  cases shape : emissionOf (deedOf generator.table.get? generator.serial blockType fields) with
  | statement statement =>
      rw [shape] at made
      cases made
      rfl
  | loop times =>
      rw [shape] at made
      cases made
      rfl

open Statement (nesting nesting_append Waitable waitable_iff)

mutual

/-- A compiled diagram has durations for waits, and its loops nest as its repeat blocks do. -/
theorem emitAll_spec {generator : Generator} : (blocks : List Block) →
    ∀ statements, generator.emitAll blocks = .ok statements →
      Waitable statements ∧
        nesting statements = repeatNestingAll generator.table.get? blocks
  | [], statements, emitted => by
      cases emitted
      exact ⟨trivial, rfl⟩
  | first :: rest, statements, emitted => by
      obtain ⟨here, more, one, others, rfl⟩ := emitAll_cons_eq_ok emitted
      obtain ⟨hereWaitable, hereNesting⟩ := emit_spec first here one
      obtain ⟨moreWaitable, moreNesting⟩ := emitAll_spec rest more others
      refine ⟨waitable_iff.mpr fun statement mem => ?_, ?_⟩
      · exact (List.mem_append.mp mem).elim (waitable_iff.mp hereWaitable statement)
          (waitable_iff.mp moreWaitable statement)
      · rw [nesting_append, hereNesting, moreNesting, repeatNestingAll]

theorem emit_spec {generator : Generator} : (block : Block) →
    ∀ statements, generator.emit block = .ok statements →
      Waitable statements ∧ nesting statements = repeatNesting generator.table.get? block
  | ⟨id, blockType, fields, children⟩, statements, emitted => by
      obtain ⟨inner, others, rfl, waits, loops⟩ := emit_eq_ok emitted
      obtain ⟨innerWaitable, innerNesting⟩ := emitAll_spec children inner others
      rw [repeatNesting, ← innerNesting]
      cases deed : deedOf generator.table.get? generator.serial blockType fields with
      | again times =>
          rw [if_pos (loops.mpr ⟨times, deed⟩)]
          exact ⟨⟨innerWaitable, trivial⟩, Nat.max_zero _⟩
      | wait seconds =>
          rw [if_neg fun repeats =>
            (loops.mp repeats).elim fun _ same => nomatch deed.symm.trans same]
          exact ⟨⟨waits seconds deed, innerWaitable⟩, Nat.zero_max _⟩
      | nothing | command | log | fail =>
          rw [if_neg fun repeats =>
            (loops.mp repeats).elim fun _ same => nomatch deed.symm.trans same]
          exact ⟨⟨trivial, innerWaitable⟩, Nat.zero_max _⟩

end

end Generator

end RobotBlocks
