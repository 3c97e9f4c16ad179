import RobotBlocks.Proofs.Program.Emission
import RobotBlocks.Proofs.Script.RoundTrip

/-!
# Scripts mean what diagrams mean

Running the script of a compiled diagram is walking the diagram: the hook is called with the same
commands, and the run ends in the same way.
-/

namespace RobotBlocks

namespace Sandbox

section Execution

variable {σ : Type} (limits : Limits) (issue : Command → State σ → Reply × State σ)

theorem andThen_assoc (outcome : Outcome σ) (next last : Progress σ → Outcome σ) :
    (outcome.andThen next).andThen last =
      outcome.andThen fun progress => (next progress).andThen last := by
  obtain ⟨stopped, progress⟩ := outcome
  cases stopped <;> rfl

/-- One more step, if there is one left, and then the rest of a run. -/
def spend (next : Progress σ → Outcome σ) (progress : Progress σ) : Outcome σ :=
  let progress := { progress with steps := progress.steps + 1 }
  if limits.maxSteps < progress.steps then
    (some (.stepLimit limits.maxSteps), progress)
  else
    next progress

theorem spend_andThen (next last : Progress σ → Outcome σ) (progress : Progress σ) :
    (spend limits next progress).andThen last =
      spend limits (fun progress => (next progress).andThen last) progress := by
  unfold spend
  simp only
  split <;> rfl

theorem execAll_cons (first : Statement) (rest : List Statement) (progress : Progress σ) :
    execAll limits issue (first :: rest) progress =
      spend limits (fun progress =>
        (exec limits issue first progress).andThen (execAll limits issue rest)) progress := by
  rw [execAll]
  rfl

/-- Statements in two parts are executed one part after the other. -/
theorem execAll_append (front back : List Statement) (progress : Progress σ) :
    execAll limits issue (front ++ back) progress =
      (execAll limits issue front progress).andThen (execAll limits issue back) := by
  induction front generalizing progress with
  | nil => rfl
  | cons first rest ih =>
      have after : execAll limits issue (rest ++ back) = fun progress =>
          (execAll limits issue rest progress).andThen (execAll limits issue back) := funext ih
      rw [List.cons_append, execAll_cons, execAll_cons, spend_andThen, after]
      simp only [andThen_assoc]

theorem andThen_execAll_nil (outcome : Outcome σ) :
    outcome.andThen (execAll limits issue []) = outcome := by
  obtain ⟨stopped, progress⟩ := outcome
  cases stopped <;> rfl

/-- Repeating nothing does nothing. -/
theorem iterate_nothing (times : Nat) (progress : Progress σ) :
    iterate (execAll limits issue []) times progress = (none, progress) := by
  induction times with
  | zero => rfl
  | succ times ih => exact ih

/-- The shortcut for an empty body changes nothing. -/
theorem exec_loop (times : UInt32) (body : List Statement) (progress : Progress σ) :
    exec limits issue (.loop times body) progress =
      if limits.maxRepeat < times.toNat then
        (some (.repeatLimit times.toNat limits.maxRepeat), progress)
      else
        iterate (execAll limits issue body) times.toNat progress := by
  rw [exec]
  cases body with
  | nil =>
      rw [iterate_nothing]
      rfl
  | cons first rest => rfl

/-- A loop goes through copies of its body in turn. -/
theorem iterate_eq_inTurn (part : Progress σ → Outcome σ) (times : Nat) :
    iterate part times = inTurn (List.replicate times part) := by
  induction times with
  | zero => rfl
  | succ times ih =>
      funext progress
      rw [List.replicate_succ, inTurn, ← ih]
      rfl

theorem execCommand_eq_carryOut (command : Command) :
    execCommand issue command = carryOut issue command := by
  funext progress
  unfold execCommand carryOut
  rcases issue command progress.state with ⟨_ | reason | _, state⟩
  · simp only [Reply.failure?, Progress.sent, Progress.wait]
    split <;> rfl
  · rfl
  · rfl

open Generator (emitAll_cons_eq_ok emit_eq_ok around emissionOf)

variable {generator : Generator}

mutual

/-- Executing what blocks emit is walking the blocks. -/
theorem execAll_emitAll : (blocks : List Block) → ∀ statements,
    generator.emitAll blocks = .ok statements → ∀ progress : Progress σ,
      execAll limits issue statements progress =
        walkAll limits issue generator.table.get? generator.serial blocks progress
  | [], statements, emitted, progress => by
      cases emitted
      rfl
  | first :: rest, statements, emitted, progress => by
      obtain ⟨here, more, one, others, rfl⟩ := emitAll_cons_eq_ok emitted
      have after : execAll limits issue more =
          walkAll limits issue generator.table.get? generator.serial rest :=
        funext (execAll_emitAll rest more others)
      rw [execAll_append, execAll_emit first here one, after, walkAll]

theorem execAll_emit : (block : Block) → ∀ statements,
    generator.emit block = .ok statements → ∀ progress : Progress σ,
      execAll limits issue statements progress =
        walk limits issue generator.table.get? generator.serial block progress
  | ⟨id, blockType, fields, children⟩, statements, emitted, progress => by
      obtain ⟨inner, others, rfl, _, _⟩ := emit_eq_ok emitted
      have inside : execAll limits issue inner =
          walkAll limits issue generator.table.get? generator.serial children :=
        funext (execAll_emitAll children inner others)
      rw [walk, ← inside]
      cases deedOf generator.table.get? generator.serial blockType fields with
      | again times =>
          have single := execAll_cons limits issue (.loop times inner) [] progress
          simp only [andThen_execAll_nil, exec_loop, iterate_eq_inTurn] at single
          exact single
      | command command =>
          have single := execAll_cons limits issue (.command command) inner progress
          simp only [exec, execCommand_eq_carryOut] at single
          exact single
      | nothing | wait | log | fail => exact execAll_cons limits issue _ inner progress

end

end Execution

/-! ## Runs inside a run -/

/-- A run that is started from inside a run is refused, however deep runs may be nested. -/
theorem perform_busy {σ : Type} (limits : Limits) (hook : Hook σ) (levels : Nat)
    (action : Action σ) (world : σ) :
    action.perform (runNested limits hook levels) { busy := true, world } =
        action.perform refuseRun { busy := true, world } ∧
      (action.perform refuseRun { busy := true, world }).2.busy = true := by
  induction action generalizing world with
  | reply answer other => exact ⟨rfl, rfl⟩
  | run code other next ih =>
      have refused : runNested limits hook levels code { busy := true, world := other } =
          (.error .busy, { busy := true, world := other }) := by
        cases levels <;> rfl
      rw [Action.perform, Action.perform, refused]
      exact ih (.error .busy) other other
  | inspect next ih => exact ih true world

/-- Two ways to go on that are the same in a busy sandbox and leave it busy. -/
def SameWhenBusy {σ : Type} (part other : Progress σ → Outcome σ) : Prop :=
  ∀ progress, progress.state.busy = true →
    part progress = other progress ∧ (other progress).2.state.busy = true

section Congruence

variable {σ : Type} (limits : Limits)

theorem SameWhenBusy.andThen {part other next otherNext : Progress σ → Outcome σ}
    (same : SameWhenBusy part other) (sameNext : SameWhenBusy next otherNext) :
    SameWhenBusy (fun progress => (part progress).andThen next)
      (fun progress => (other progress).andThen otherNext) := by
  intro progress busy
  obtain ⟨equal, stillBusy⟩ := same progress busy
  simp only [equal]
  revert stillBusy
  rcases other progress with ⟨_ | error, last⟩
  · exact sameNext last
  · exact fun stillBusy => ⟨rfl, stillBusy⟩

theorem SameWhenBusy.spend {part other : Progress σ → Outcome σ}
    (same : SameWhenBusy part other) :
    SameWhenBusy (spend limits part) (spend limits other) := by
  intro progress busy
  unfold Sandbox.spend
  simp only
  split
  · exact ⟨rfl, busy⟩
  · exact same _ busy

theorem SameWhenBusy.iterate {part other : Progress σ → Outcome σ}
    (same : SameWhenBusy part other) (times : Nat) :
    SameWhenBusy (iterate part times) (iterate other times) := by
  induction times with
  | zero => exact fun progress busy => ⟨rfl, busy⟩
  | succ times ih => exact same.andThen ih

theorem sent_state (progress : Progress σ) (command : Command) :
    (progress.sent command).state = progress.state := by
  unfold Progress.sent
  simp only
  split <;> rfl

/-- Two ways to have commands carried out that agree in a busy sandbox and leave it busy. -/
def IssueAlike (issue other : Command → State σ → Reply × State σ) : Prop :=
  ∀ command world, issue command { busy := true, world } = other command { busy := true, world } ∧
    (other command { busy := true, world }).2.busy = true

variable {issue otherIssue : Command → State σ → Reply × State σ}

theorem execCommand_same (agree : IssueAlike issue otherIssue) (command : Command) :
    SameWhenBusy (execCommand issue command) (execCommand otherIssue command) := by
  rintro ⟨⟨_, world⟩, steps, commands, seconds, reversedLog⟩ ⟨⟩
  obtain ⟨equal, stillBusy⟩ := agree command world
  unfold execCommand
  simp only [equal, true_and]
  revert stillBusy
  rcases otherIssue command { busy := true, world } with ⟨reply, state⟩
  intro stillBusy
  cases reply.failure? with
  | some reason => exact stillBusy
  | none => exact (congrArg State.busy (sent_state _ command)).trans stillBusy

mutual

theorem execAll_same (agree : IssueAlike issue otherIssue) : (statements : List Statement) →
    SameWhenBusy (execAll limits issue statements) (execAll limits otherIssue statements)
  | [] => fun progress busy => ⟨rfl, busy⟩
  | first :: rest => by
      intro progress busy
      rw [execAll_cons, execAll_cons]
      exact ((exec_same agree first).andThen (execAll_same agree rest)).spend limits progress busy

/-- Statements are executed alike when commands are carried out alike. -/
theorem exec_same (agree : IssueAlike issue otherIssue) : (statement : Statement) →
    SameWhenBusy (exec limits issue statement) (exec limits otherIssue statement)
  | .loop times body => by
      intro progress busy
      rw [exec_loop, exec_loop]
      split
      · exact ⟨rfl, busy⟩
      · exact (execAll_same agree body).iterate times.toNat progress busy
  | .command command => by
      intro progress busy
      rw [exec, exec]
      exact execCommand_same agree command progress busy
  | .begin => fun progress busy => ⟨rfl, busy⟩
  | .wait seconds => fun progress busy => ⟨rfl, busy⟩
  | .log message => fun progress busy => ⟨rfl, busy⟩
  | .fail message => fun progress busy => ⟨rfl, busy⟩

end

end Congruence

/-! ## Compiled diagrams -/

/-- Runs the statements of a script that was parsed. -/
theorem run_of_parse {σ : Type} {limits : Limits} (hook : Hook σ) {code : String}
    {statements : List Statement} (parsed : Script.parse code limits.maxDepth = .ok statements)
    (world : σ) :
    run limits hook code { world } =
      let (stopped, progress) := execAll limits
        (fun command state => (hook command state.world).perform refuseRun state)
        statements { state := { busy := true, world } }
      let result := match stopped with
        | some error => .error error
        | none => .ok progress.report
      (result, { progress.state with busy := false }) := by
  have agree : IssueAlike
      (fun command state => (hook command state.world).perform (runNested limits hook 1) state)
      (fun command state => (hook command state.world).perform refuseRun state) :=
    fun command world => perform_busy limits hook 1 (hook command world) world
  have same := (execAll_same limits agree statements { state := { busy := true, world } } rfl).1
  rw [← same]
  unfold run
  rw [runNested, parsed]
  rfl

/-- A script that does not parse changes nothing. -/
theorem run_of_fault {σ : Type} {limits : Limits} (hook : Hook σ) {code : String}
    {fault : Script.Fault} (refused : Script.parse code limits.maxDepth = .error fault)
    (world : σ) : run limits hook code { world } = (.error (.ofFault fault), { world }) := by
  unfold run runNested
  rw [refused]
  rfl

section Compiled

variable {generator : Generator} {diagram : Diagram} {program : Program}

theorem compile_eq_ok (compiled : generator.compile diagram = .ok program) :
    generator.emitAll diagram.blocks = .ok program.statements ∧
      program.code = Script.render generator.model generator.serial program.statements := by
  obtain ⟨statements, emitted, made⟩ := bind_eq_ok.mp compiled
  cases made
  exact ⟨emitted, rfl⟩

theorem run_generated (compiled : generator.compile diagram = .ok program) {σ : Type}
    (limits : Limits) (hook : Hook σ) (world : σ)
    (fits : repeatNestingAll generator.table.get? diagram.blocks ≤ min limits.maxDepth 256) :
    run limits hook program.code { world } =
      walkDiagram limits hook generator.table.get? generator.serial diagram world := by
  obtain ⟨emitted, code⟩ := compile_eq_ok compiled
  obtain ⟨waitable, nesting⟩ := Generator.emitAll_spec diagram.blocks program.statements emitted
  have parsed := Script.parse_render_fits generator.model generator.serial waitable
    (nesting.trans_le fits)
  rw [← code] at parsed
  rw [run_of_parse hook parsed, execAll_emitAll limits _ diagram.blocks _ emitted]
  rfl

theorem run_generated_tooDeep (compiled : generator.compile diagram = .ok program) {σ : Type}
    (limits : Limits) (hook : Hook σ) (world : σ)
    (deep : min limits.maxDepth 256 < repeatNestingAll generator.table.get? diagram.blocks) :
    ∃ line message,
      run limits hook program.code { world } = (.error (.compile line message), { world }) := by
  obtain ⟨emitted, code⟩ := compile_eq_ok compiled
  obtain ⟨waitable, nesting⟩ := Generator.emitAll_spec diagram.blocks program.statements emitted
  obtain ⟨opening, _, refused⟩ := Script.parse_render_deep generator.model generator.serial
    waitable (deep.trans_eq nesting.symm)
  rw [← code] at refused
  exact ⟨_, _, run_of_fault hook refused world⟩

end Compiled

/--
Running the script of a compiled diagram is walking the diagram, with the same commands in the same
order and the same result, if the repeat blocks nest within the limit.  Otherwise the script is
refused and the hook is never called.
-/
theorem run_compiled (registry : Registry) (model serial : String) (diagram : Diagram)
    (program : Program)
    (compiled : ((registry.generator model serial).bind fun generator =>
      generator.compile diagram) = .ok program)
    {σ : Type} (limits : Limits) (hook : Hook σ) (world : σ) :
    (repeatNestingAll (registry.definition? model) diagram.blocks ≤ min limits.maxDepth 256 →
      run limits hook program.code { world } =
        walkDiagram limits hook (registry.definition? model) serial diagram world ∧
      (run limits hook.recorded program.code { world := ([], world) }).2.world.1 =
        (walkDiagram limits hook.recorded (registry.definition? model) serial diagram
          ([], world)).2.world.1) ∧
    (min limits.maxDepth 256 < repeatNestingAll (registry.definition? model) diagram.blocks →
      (∃ line message,
        run limits hook program.code { world } = (.error (.compile line message), { world })) ∧
      (run limits hook.recorded program.code { world := ([], world) }).2.world.1 = []) := by
  obtain ⟨generator, built, compiled⟩ := bind_eq_ok.mp compiled
  obtain ⟨table, found, rfl⟩ := Registry.generator_eq_ok.mp built
  have lookup : registry.definition? model = table.get? := by
    funext blockType
    unfold Registry.definition?
    rw [found, Option.bind_some]
  rw [lookup]
  refine ⟨fun fits => ⟨run_generated compiled limits hook world fits, ?_⟩,
    fun deep => ⟨run_generated_tooDeep compiled limits hook world deep, ?_⟩⟩
  · rw [run_generated compiled limits hook.recorded ([], world) fits]
  · obtain ⟨line, message, refused⟩ :=
      run_generated_tooDeep compiled limits hook.recorded ([], world) deep
    rw [refused]

def wavingRegistry : Registry where
  tables := [("m", ⟨Block.builtins ++ [{
    blockType := "action:wave", displayName := "Wave", category := "Actions", shape := .statement,
    fields := [⟨"wait", .flag, .flag true⟩], icon := none,
    emit := .command .action "wave" 2 false }]⟩)]

/-- Waves twice as often as the default of a loop says, and stops with an error. -/
def wavingDiagram : Diagram where
  blocks := [⟨"s", "start", .empty, [
    ⟨"r", "repeat", .empty, [⟨"w", "action:wave", .empty, [⟨"v", "action:wave", .empty, []⟩]⟩]⟩,
    ⟨"f", "fail", .empty, []⟩]⟩]

/-- Carries out three commands and then breaks down. -/
def tiringHook : Hook Nat := fun _ done =>
  .reply (if done < 3 then .accepted else .crashed) (done + 1)

theorem run_compiled_wavingDiagram :
    ∃ program, ((wavingRegistry.generator "m" "r\"1").bind fun generator =>
        generator.compile wavingDiagram) = .ok program ∧
      run {} tiringHook program.code { world := 0 } =
        walkDiagram {} tiringHook (wavingRegistry.definition? "m") "r\"1" wavingDiagram 0 ∧
      ∃ line message, run { maxDepth := 0 } tiringHook program.code { world := 0 } =
        (.error (.compile line message), { world := 0 }) := by
  refine ⟨_, rfl, ?_, ?_⟩
  · exact ((run_compiled wavingRegistry "m" "r\"1" wavingDiagram _ rfl {} tiringHook 0).1
      (by decide)).1
  · exact ((run_compiled wavingRegistry "m" "r\"1" wavingDiagram _ rfl { maxDepth := 0 }
      tiringHook 0).2 (by decide)).1

end Sandbox

end RobotBlocks
