import RobotBlocks.Proofs.Sandbox.Meaning

/-!
# Runs as sequences of events

The statements of a script, with every repetition written out, are a list of events.  A run is the
same as taking these events one after the other until the first one at which a run has to stop.
Loops inside each other, and the one count of steps that they share, are gone from this picture:
the number of an event is the number of the step that it costs.
-/

namespace RobotBlocks

namespace Sandbox

/-! ## Events -/

/-- What a run comes to: a statement, or the head of a loop. -/
inductive Event where
  | begin
  | command (command : Command)
  | wait (seconds : Binary64)
  | log (message : String)
  | fail (message : String)
  /-- The head of a loop, before the first repetition. -/
  | head (times : UInt32)
deriving DecidableEq

namespace Event

def command? : Event → Option Command
  | .command sent => some sent
  | _ => none

def message? : Event → Option String
  | .log message => some message
  | _ => none

def seconds? : Event → Option Binary64
  | .wait seconds => some seconds
  | .command sent => if sent.awaited then some (.ofNat sent.duration.toNat) else none
  | _ => none

end Event

mutual

def unrollAll : List Statement → List Event
  | [] => []
  | first :: rest => unroll first ++ unrollAll rest

/-- The events of a statement: a loop is its head and then its body as often as it says. -/
def unroll : Statement → List Event
  | .begin => [.begin]
  | .command command => [.command command]
  | .wait seconds => [.wait seconds]
  | .log message => [.log message]
  | .fail message => [.fail message]
  | .loop times body => .head times :: (List.replicate times.toNat (unrollAll body)).flatten

end

/-- The report of a run that met the given events, all of them. -/
def reportOf (events : List Event) : Report where
  commands := (events.filterMap Event.command?).length
  seconds := (events.filterMap Event.seconds?).foldl Binary64.add .zero
  log := events.filterMap Event.message?

/-! ## Following events -/

structure Ending (κ : Type) where
  stopped : Option RunError
  /-- The number of events that were met; one without a step left for it is not. -/
  met : Nat
  world : κ

def Ending.result {κ : Type} (ending : Ending κ) (events : List Event) : Except RunError Report :=
  match ending.stopped with
  | some error => .error error
  | none => .ok (reportOf events)

section Follow

variable {κ κ' : Type} (limits : Limits) (issue : Command → κ → Reply × κ)
  (other : Command → κ' → Reply × κ')

/-- What an event does to the world, and the error if a run has to stop at it. -/
def Event.meet : Event → κ → Option RunError × κ
  | .command sent, world =>
      let (reply, world) := issue sent world
      (reply.failure?.map (.commandFailed sent), world)
  | .fail message, world => (some (.explicitFailure message), world)
  | .head times, world =>
      (if limits.maxRepeat < times.toNat then some (.repeatLimit times.toNat limits.maxRepeat)
        else none, world)
  | .begin, world | .wait _, world | .log _, world => (none, world)

/-- Takes events in their order until one stops the run; the first has the given number. -/
def follow : (number : Nat) → List Event → κ → Ending κ
  | _, [], world => ⟨none, 0, world⟩
  | number, first :: rest, world =>
      if limits.maxSteps < number then
        ⟨some (.stepLimit limits.maxSteps), 0, world⟩
      else
        match first.meet limits issue world with
        | (some error, world) => ⟨some error, 1, world⟩
        | (none, world) =>
            let ending := follow (number + 1) rest world
            { ending with met := ending.met + 1 }

/-- Events end alike in worlds that stay related, if commands are answered alike there. -/
theorem follow_related {R : κ → κ' → Prop}
    (alike : ∀ command world image, R world image →
      (issue command world).1 = (other command image).1 ∧
        R (issue command world).2 (other command image).2)
    (events : List Event) (number : Nat) (world : κ) (image : κ') (related : R world image) :
    (follow limits issue number events world).stopped =
        (follow limits other number events image).stopped ∧
      (follow limits issue number events world).met =
        (follow limits other number events image).met ∧
      R (follow limits issue number events world).world
        (follow limits other number events image).world := by
  induction events generalizing number world image with
  | nil => exact ⟨rfl, rfl, related⟩
  | cons first rest ih =>
      have same : (first.meet limits issue world).1 = (first.meet limits other image).1 ∧
          R (first.meet limits issue world).2 (first.meet limits other image).2 := by
        cases first with
        | command command =>
            obtain ⟨reply, after⟩ := alike command world image related
            refine ⟨?_, after⟩
            exact congrArg (fun reply => reply.failure?.map (RunError.commandFailed command)) reply
        | begin | wait | log | fail | head => exact ⟨rfl, related⟩
      rw [follow, follow]
      by_cases spent : limits.maxSteps < number
      · rw [if_pos spent, if_pos spent]
        exact ⟨rfl, rfl, related⟩
      · rw [if_neg spent, if_neg spent]
        revert same
        rcases first.meet limits issue world with ⟨_ | error, world⟩ <;>
          rcases first.meet limits other image with ⟨_ | _, image⟩ <;>
          rintro ⟨⟨⟩, after⟩
        · obtain ⟨stopped, met, last⟩ := ih (number + 1) world image after
          exact ⟨stopped, congrArg (· + 1) met, last⟩
        · exact ⟨rfl, rfl, after⟩

end Follow

/-! ## Progress through events -/

section Progress

variable {σ : Type} (limits : Limits) (issue : Command → State σ → Reply × State σ)

def Progress.note (progress : Progress σ) : Event → Progress σ
  | .command command => progress.sent command
  | .wait seconds => progress.wait seconds
  | .log message => { progress with reversedLog := message :: progress.reversedLog }
  | .begin | .fail _ | .head _ => progress

/-- An event whose step has been counted. -/
def occur (event : Event) (progress : Progress σ) : Outcome σ :=
  match event.meet limits issue progress.state with
  | (some error, state) => (some error, { progress with state })
  | (none, state) => (none, { progress with state }.note event)

/-- Lets events occur one after the other, each for one step. -/
def occurAll : List Event → Progress σ → Outcome σ
  | [], progress => (none, progress)
  | first :: rest, progress =>
      spend limits (fun progress =>
        (occur limits issue first progress).andThen (occurAll rest)) progress

theorem occurAll_append (front back : List Event) (progress : Progress σ) :
    occurAll limits issue (front ++ back) progress =
      (occurAll limits issue front progress).andThen (occurAll limits issue back) := by
  induction front generalizing progress with
  | nil => rfl
  | cons first rest ih =>
      have after : occurAll limits issue (rest ++ back) = fun progress =>
          (occurAll limits issue rest progress).andThen (occurAll limits issue back) := funext ih
      rw [List.cons_append, occurAll, occurAll, spend_andThen, after]
      simp only [andThen_assoc]

theorem andThen_nil (outcome : Outcome σ) :
    outcome.andThen (occurAll limits issue []) = outcome := by
  obtain ⟨stopped, progress⟩ := outcome
  cases stopped <;> rfl

theorem occurAll_singleton (event : Event) (progress : Progress σ) :
    occurAll limits issue [event] progress =
      spend limits (occur limits issue event) progress := by
  rw [occurAll]
  simp only [andThen_nil]

/-- Repeating a list of events is letting its copies occur. -/
theorem iterate_occurAll (events : List Event) (times : Nat) (progress : Progress σ) :
    iterate (occurAll limits issue events) times progress =
      occurAll limits issue (List.replicate times events).flatten progress := by
  induction times generalizing progress with
  | zero => rfl
  | succ times ih =>
      have after : iterate (occurAll limits issue events) times =
          occurAll limits issue (List.replicate times events).flatten := funext ih
      rw [List.replicate_succ, List.flatten_cons, occurAll_append, ← after]
      rfl

theorem occur_command (command : Command) (progress : Progress σ) :
    occur limits issue (.command command) progress = execCommand issue command progress := by
  unfold occur execCommand Event.meet
  simp only
  cases (issue command progress.state).1.failure? <;> rfl

theorem occur_head (times : UInt32) (progress : Progress σ) :
    occur limits issue (.head times) progress =
      if limits.maxRepeat < times.toNat then
        (some (.repeatLimit times.toNat limits.maxRepeat), progress)
      else
        (none, progress) := by
  have met : Event.meet limits issue (.head times) progress.state =
      (if limits.maxRepeat < times.toNat then
          some (.repeatLimit times.toNat limits.maxRepeat) else none, progress.state) := rfl
  rw [occur, met]
  by_cases tooMany : limits.maxRepeat < times.toNat
  · rw [if_pos tooMany, if_pos tooMany]
  · rw [if_neg tooMany, if_neg tooMany]
    rfl

mutual

/-- Executing statements is letting their events occur. -/
theorem execAll_eq_occurAll : (statements : List Statement) → ∀ progress : Progress σ,
    execAll limits issue statements progress =
      occurAll limits issue (unrollAll statements) progress
  | [], progress => rfl
  | first :: rest, progress => by
      have after : execAll limits issue rest = occurAll limits issue (unrollAll rest) :=
        funext (execAll_eq_occurAll rest)
      rw [execAll_cons, unrollAll, occurAll_append, ← exec_eq_occurAll first, spend_andThen, after]

theorem exec_eq_occurAll : (statement : Statement) → ∀ progress : Progress σ,
    spend limits (exec limits issue statement) progress =
      occurAll limits issue (unroll statement) progress
  | .loop times body, progress => by
      have inside : execAll limits issue body = occurAll limits issue (unrollAll body) :=
        funext (execAll_eq_occurAll body)
      rw [unroll, occurAll]
      congr 1
      funext progress
      rw [exec_loop, occur_head, inside]
      split
      · rfl
      · exact iterate_occurAll limits issue (unrollAll body) times.toNat progress
  | .command command, progress => by
      rw [unroll, occurAll_singleton]
      congr 1
      funext progress
      rw [exec, occur_command]
  | .begin, progress => by
      rw [unroll, occurAll_singleton]
      rfl
  | .wait seconds, progress => by
      rw [unroll, occurAll_singleton]
      rfl
  | .log message, progress => by
      rw [unroll, occurAll_singleton]
      rfl
  | .fail message, progress => by
      rw [unroll, occurAll_singleton]
      rfl

end

def Progress.reportWith (progress : Progress σ) (events : List Event) : Report where
  commands := progress.commands + (events.filterMap Event.command?).length
  seconds := (events.filterMap Event.seconds?).foldl Binary64.add progress.seconds
  log := progress.reversedLog.reverse ++ events.filterMap Event.message?

theorem reportWith_nil (progress : Progress σ) : progress.reportWith [] = progress.report := by
  unfold Progress.reportWith Progress.report
  simp only [List.filterMap_nil, List.length_nil, Nat.add_zero, List.foldl_nil, List.append_nil]

theorem reportWith_note (progress : Progress σ) (event : Event) (rest : List Event) :
    (progress.note event).reportWith rest = progress.reportWith (event :: rest) := by
  unfold Progress.reportWith
  simp only [List.filterMap_cons]
  cases event with
  | command command =>
      cases awaited : command.awaited <;>
        simp [Progress.note, Progress.sent, Progress.wait, Event.command?, Event.seconds?,
          Event.message?, awaited, Nat.add_right_comm, Nat.add_assoc]
  | log message =>
      simp [Progress.note, Event.command?, Event.seconds?, Event.message?]
  | begin | wait | fail | head => rfl

theorem note_state (progress : Progress σ) (event : Event) :
    (progress.note event).state = progress.state := by
  cases event with
  | command command => exact sent_state progress command
  | begin | wait | log | fail | head => rfl

theorem note_steps (progress : Progress σ) (event : Event) :
    (progress.note event).steps = progress.steps := by
  cases event with
  | command command =>
      unfold Progress.note Progress.sent
      simp only
      split <;> rfl
  | begin | wait | log | fail | head => rfl

/-- Events that occur end as they do when they are followed, with the report that belongs to them. -/
theorem occurAll_follow (events : List Event) (progress : Progress σ) :
    (occurAll limits issue events progress).1 =
        (follow limits issue (progress.steps + 1) events progress.state).stopped ∧
      (occurAll limits issue events progress).2.state =
        (follow limits issue (progress.steps + 1) events progress.state).world ∧
      ((follow limits issue (progress.steps + 1) events progress.state).stopped = none →
        (occurAll limits issue events progress).2.report = progress.reportWith events) := by
  induction events generalizing progress with
  | nil => exact ⟨rfl, rfl, fun _ => (reportWith_nil progress).symm⟩
  | cons first rest ih =>
      rw [occurAll, follow, spend]
      simp only
      by_cases spent : limits.maxSteps < progress.steps + 1
      · rw [if_pos spent, if_pos spent]
        exact ⟨rfl, rfl, nofun⟩
      · rw [if_neg spent, if_neg spent, occur]
        simp only
        rcases first.meet limits issue progress.state with ⟨_ | error, state⟩
        · have next := ih ({ progress with steps := progress.steps + 1, state }.note first)
          rw [note_steps, note_state, reportWith_note] at next
          exact next
        · exact ⟨rfl, rfl, nofun⟩

end Progress

/-! ## Runs -/

section Runs

variable {σ : Type}

/-- What comes of an action in a busy sandbox, where every run that it starts is refused. -/
def Action.whileBusy : Action σ → Reply × σ
  | .reply answer world => (answer, world)
  | .run _ world next => (next (.error .busy) world).whileBusy
  | .inspect next => (next true).whileBusy

def Hook.answer (hook : Hook σ) (command : Command) (world : σ) : Reply × σ :=
  (hook command world).whileBusy

theorem perform_whileBusy (action : Action σ) (world : σ) :
    action.perform refuseRun { busy := true, world } =
      (action.whileBusy.1, { busy := true, world := action.whileBusy.2 }) := by
  induction action generalizing world with
  | reply answer other => rfl
  | run code other next ih => exact ih (.error .busy) other other
  | inspect next ih => exact ih true world

theorem reportWith_start (state : State σ) (events : List Event) :
    Progress.reportWith { state } events = reportOf events := by
  unfold Progress.reportWith reportOf
  rw [Nat.zero_add]
  rfl

/-- A run of given events, the first of which has number one. -/
def followAll (limits : Limits) (hook : Hook σ) (events : List Event) (world : σ) : Ending σ :=
  follow limits hook.answer 1 events world

/-- How a hook has a command carried out in a busy sandbox. -/
def Hook.issue (hook : Hook σ) (command : Command) (state : State σ) : Reply × State σ :=
  (hook command state.world).perform refuseRun state

/-- A busy sandbox is no more than its world. -/
theorem follow_busy (limits : Limits) (hook : Hook σ) (events : List Event) (world : σ) :
    (follow limits hook.issue 1 events { busy := true, world }).stopped =
        (followAll limits hook events world).stopped ∧
      (follow limits hook.issue 1 events { busy := true, world }).world =
        { busy := true, world := (followAll limits hook events world).world } := by
  have alike : ∀ command state world, state = { busy := true, world } →
      (hook.issue command state).1 = (hook.answer command world).1 ∧
        (hook.issue command state).2 = { busy := true, world := (hook.answer command world).2 } := by
    rintro command _ world rfl
    have answered := perform_whileBusy (hook command world) world
    exact ⟨congrArg Prod.fst answered, congrArg Prod.snd answered⟩
  obtain ⟨stopped, _, state⟩ := follow_related limits hook.issue hook.answer alike events 1
    { busy := true, world } world rfl
  exact ⟨stopped, state⟩

/-- Running a script that parses is following its events. -/
theorem run_eq_followAll {limits : Limits} (hook : Hook σ) {code : String}
    {statements : List Statement} (parsed : Script.parse code limits.maxDepth = .ok statements)
    (world : σ) :
    run limits hook code { world } =
      let ending := followAll limits hook (unrollAll statements) world
      (ending.result (unrollAll statements), { world := ending.world }) := by
  have refusing : (fun command state => (hook command state.world).perform refuseRun state) =
      hook.issue := rfl
  obtain ⟨stopped, state⟩ := follow_busy limits hook (unrollAll statements) world
  have occurred := occurAll_follow limits hook.issue (unrollAll statements)
    { state := { busy := true, world } }
  simp only [Nat.zero_add, reportWith_start, stopped, state] at occurred
  obtain ⟨ended, left, report⟩ := occurred
  have world_left : (occurAll limits hook.issue (unrollAll statements) _).2.state.world =
      (followAll limits hook (unrollAll statements) world).world := congrArg State.world left
  rw [run_of_parse hook parsed, refusing, execAll_eq_occurAll]
  unfold Ending.result
  rcases occurred : occurAll limits hook.issue (unrollAll statements) _ with ⟨_ | error, progress⟩
  · rw [occurred] at ended world_left report
    simp only [← ended, ← world_left, report ended.symm]
  · rw [occurred] at ended world_left
    simp only [← ended, ← world_left]

/-! ## The commands of a run -/

theorem whileBusy_beside (commands : List Command) (action : Action σ) :
    (action.beside commands).whileBusy = (action.whileBusy.1, commands, action.whileBusy.2) := by
  induction action with
  | reply answer world => rfl
  | run code world next ih => exact ih (.error .busy) world
  | inspect next ih => exact ih true

theorem answer_recorded (hook : Hook σ) (command : Command) (commands : List Command) (world : σ) :
    hook.recorded.answer command (commands, world) =
      ((hook.answer command world).1, commands ++ [command], (hook.answer command world).2) :=
  whileBusy_beside (commands ++ [command]) (hook command world)

theorem meet_recorded (limits : Limits) (hook : Hook σ) (event : Event) (commands : List Command)
    (world : σ) :
    event.meet limits hook.recorded.answer (commands, world) =
      ((event.meet limits hook.answer world).1, commands ++ event.command?.toList,
        (event.meet limits hook.answer world).2) := by
  cases event with
  | command command =>
      simp only [Event.meet, answer_recorded]
      rfl
  | begin | wait | log | fail | head =>
      simp only [Event.meet, Event.command?, Option.toList_none, List.append_nil]

/-- The hook is called with the commands of the events that are met, in their order. -/
theorem follow_recorded (limits : Limits) (hook : Hook σ) (events : List Event) (number : Nat)
    (commands : List Command) (world : σ) :
    (follow limits hook.recorded.answer number events (commands, world)).world.1 =
      commands ++ (events.take (follow limits hook.answer number events world).met).filterMap
        Event.command? := by
  induction events generalizing number commands world with
  | nil => simp only [follow, List.take_nil, List.filterMap_nil, List.append_nil]
  | cons first rest ih =>
      rw [follow, follow, meet_recorded]
      by_cases spent : limits.maxSteps < number
      · simp only [if_pos spent, List.take_zero, List.filterMap_nil, List.append_nil]
      · rw [if_neg spent, if_neg spent]
        rcases first.meet limits hook.answer world with ⟨_ | error, world⟩
        · simp only [ih, List.take_succ_cons]
          cases met : first.command? <;> simp [met]
        · simp only [List.take_succ_cons, List.take_zero]
          cases met : first.command? <;> simp [met]

/--
A run of a script that parses is the run of its events.  Its hook is called once for each command
among the events that are met, in their order.
-/
theorem run_unrolled (limits : Limits) (hook : Hook σ) {code : String}
    {statements : List Statement} (parsed : Script.parse code limits.maxDepth = .ok statements)
    (world : σ) :
    let events := unrollAll statements
    let ending := follow limits hook.answer 1 events world
    run limits hook code { world } = (ending.result events, { world := ending.world }) ∧
      (run limits hook.recorded code { world := ([], world) }).2.world.1 =
        (events.take ending.met).filterMap Event.command? := by
  refine ⟨run_eq_followAll hook parsed world, ?_⟩
  rw [run_eq_followAll hook.recorded parsed ([], world)]
  exact follow_recorded limits hook (unrollAll statements) 1 [] world

end Runs

def wavingTwice : List Statement := [
  .begin,
  .loop 2 [
    .command {
      serial := "r", kind := .action, code := "wave", duration := 2, interruptible := false,
      awaited := true },
    .log "waved"],
  .wait ⟨0x3FE0000000000000⟩]

theorem run_unrolled_wavingTwice :
    let code := Script.render "m" "r" wavingTwice
    (run {} tiringHook code { world := 0 }).1 =
        .ok { commands := 2, seconds := ⟨0x4012000000000000⟩, log := ["waved", "waved"] } ∧
      (run { maxSteps := 4 } tiringHook code { world := 0 }).1 = .error (.stepLimit 4) ∧
      ((run { maxSteps := 4 } tiringHook.recorded code { world := ([], 0) }).2.world.1).length = 1 ∧
      (run {} tiringHook code { world := 2 }).1 =
        .error (.runtime "action `wave` on r failed: command hook panicked") := by
  have waitable : Statement.Waitable wavingTwice :=
    ⟨trivial, ⟨trivial, trivial, trivial⟩, ⟨by decide, by decide⟩, trivial⟩
  have parsed : ∀ limits : Limits, limits.maxDepth = 32 →
      Script.parse (Script.render "m" "r" wavingTwice) limits.maxDepth = .ok wavingTwice := by
    intro limits depth
    exact Script.parse_render_fits "m" "r" waitable (by rw [depth]; decide)
  have whole := run_unrolled {} tiringHook (parsed {} rfl) 0
  have short := run_unrolled { maxSteps := 4 } tiringHook (parsed { maxSteps := 4 } rfl) 0
  have tired := run_unrolled {} tiringHook (parsed {} rfl) 2
  refine ⟨?_, ?_, ?_, ?_⟩
  · rw [whole.1]
    decide +kernel
  · rw [short.1]
    decide +kernel
  · rw [short.2]
    decide +kernel
  · rw [tired.1]
    decide +kernel

end Sandbox

end RobotBlocks
