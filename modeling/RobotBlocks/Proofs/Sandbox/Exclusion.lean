import RobotBlocks.Proofs.Sandbox.Unrolled

/-!
# One run at a time

A hook may try to start runs on the sandbox that it works for.  All of them are refused and leave
nothing behind, and the run itself goes as if they had not been tried.  However a run ends, the
sandbox is free afterwards.
-/

namespace RobotBlocks

namespace Sandbox

section Exclusion

variable {σ : Type} (limits : Limits) (hook : Hook σ)

/-! ## Runs inside runs inside runs -/

/-- Runs are refused inside a run, so how deep they may be nested makes no difference. -/
theorem runNested_eq_run (levels : Nat) : runNested limits hook (levels + 1) = run limits hook := by
  funext code state
  have agree : IssueAlike
      (fun command state => (hook command state.world).perform (runNested limits hook levels) state)
      (fun command state => (hook command state.world).perform (runNested limits hook 1) state) := by
    intro command world
    have refused := (perform_busy limits hook levels (hook command world) world).1
    obtain ⟨once, busy⟩ := perform_busy limits hook 1 (hook command world) world
    exact ⟨refused.trans once.symm, (congrArg (fun answered => answered.2.busy) once).trans busy⟩
  unfold run
  rw [runNested, runNested]
  cases state.busy with
  | true => rfl
  | false =>
      cases Script.parse code limits.maxDepth with
      | error fault => rfl
      | ok statements =>
          have same := execAll_same limits agree statements
            { state := { state with busy := true } } rfl
          simp only [same.1]

/-- The runs that a hook starts are served by the sandbox like all others. -/
theorem run_eq (code : String) (state : State σ) :
    run limits hook code state =
      if state.busy then
        (.error .busy, state)
      else
        match Script.parse code limits.maxDepth with
        | .error fault => (.error (.ofFault fault), state)
        | .ok statements =>
            let issue := fun command state =>
              (hook command state.world).perform (run limits hook) state
            let (stopped, progress) :=
              execAll limits issue statements { state := { state with busy := true } }
            let result := match stopped with
              | some error => .error error
              | none => .ok progress.report
            (result, { progress.state with busy := false }) := by
  have outer : run limits hook code state = runNested limits hook 3 code state := by
    rw [runNested_eq_run limits hook 2]
  rw [outer, ← runNested_eq_run limits hook 1]
  rfl

/-! ## What a hook sees of the runs that it starts -/

/-- A run that a hook starts, with what the hook sees of it. -/
structure InnerRun where
  code : String
  busyBefore : Bool
  result : Except RunError Report
  /-- The commands that the hook is called with meanwhile. -/
  issued : List Command
  busyAfter : Bool

/-- A run that is refused and leaves nothing behind. -/
def InnerRun.refused (code : String) : InnerRun where
  code := code
  busyBefore := true
  result := .error .busy
  issued := []
  busyAfter := true

structure Record where
  calls : List Command := []
  inner : List InnerRun := []

/-- The same action on a world that also keeps a record of the runs that are started. -/
def Action.watched (record : Record) : Action σ → Action (Record × σ)
  | .reply answer world => .reply answer (record, world)
  | .run code world next =>
      .inspect fun before => .run code (record, world) fun result kept =>
        .inspect fun after =>
          let issued := kept.1.calls.drop record.calls.length
          let inner := kept.1.inner ++ [⟨code, before, result, issued, after⟩]
          (next result kept.2).watched { kept.1 with inner }
  | .inspect next => .inspect fun busy => (next busy).watched record

def Hook.watched : Hook (Record × σ) := fun command kept =>
  (hook command kept.2).watched { kept.1 with calls := kept.1.calls ++ [command] }

/-- A hook that decides like another one but starts no runs. -/
def Hook.alone : Hook σ := fun command world =>
  let (reply, world) := hook.answer command world
  .reply reply world

/-- The scripts that an action tries to run in a busy sandbox. -/
def Action.attempts : Action σ → List String
  | .reply _ _ => []
  | .run code world next => code :: (next (.error .busy) world).attempts
  | .inspect next => (next true).attempts

theorem whileBusy_watched (record : Record) (action : Action σ) :
    (action.watched record).whileBusy =
      (action.whileBusy.1,
        { record with inner := record.inner ++ action.attempts.map InnerRun.refused },
        action.whileBusy.2) := by
  induction action generalizing record with
  | reply answer world =>
      simp only [Action.watched, Action.whileBusy, Action.attempts, List.map_nil, List.append_nil]
  | run code world next ih =>
      have refused : (⟨code, true, .error .busy, record.calls.drop record.calls.length, true⟩ :
          InnerRun) = .refused code := by
        rw [List.drop_length]
        rfl
      have later := ih (.error .busy) world
        { record with inner := record.inner ++ [InnerRun.refused code] }
      simp only [Action.watched, Action.whileBusy, Action.attempts, List.map_cons, refused, later,
        List.append_assoc, List.singleton_append]
  | inspect next ih => exact ih true record

/-- A watched hook answers as before, and all runs that it starts are refused. -/
theorem answer_watched (command : Command) (record : Record) (world : σ) :
    hook.watched.answer command (record, world) =
      ((hook.answer command world).1,
        { calls := record.calls ++ [command]
          inner := record.inner ++ (hook command world).attempts.map InnerRun.refused },
        (hook.answer command world).2) :=
  whileBusy_watched _ (hook command world)

theorem answer_alone : hook.alone.answer = hook.answer := rfl

/-! ## Single runs -/

/-- No event stops a run as busy. -/
theorem follow_ne_busy (issue : Command → σ → Reply × σ) (events : List Event) (number : Nat)
    (world : σ) : (follow limits issue number events world).stopped ≠ some .busy := by
  induction events generalizing number world with
  | nil => rintro ⟨⟩
  | cons first rest ih =>
      have other : (first.meet limits issue world).1 ≠ some .busy := by
        cases first with
        | command command =>
            intro stopped
            obtain ⟨reason, _, failed⟩ := Option.map_eq_some_iff.mp stopped
            cases failed
        | head times =>
            simp only [Event.meet]
            split <;> rintro ⟨⟩
        | begin | wait | log | fail => rintro ⟨⟩
      rw [follow]
      split
      · rintro ⟨⟩
      · revert other
        rcases first.meet limits issue world with ⟨_ | error, world⟩
        · exact fun _ => ih (number + 1) world
        · exact id

/-- A free sandbox takes a run and is free again afterwards. -/
theorem run_released (code : String) (world : σ) :
    (run limits hook code { world }).2.busy = false ∧
      (run limits hook code { world }).1 ≠ .error .busy := by
  cases parsed : Script.parse code limits.maxDepth with
  | error fault =>
      rw [run_of_fault hook parsed world]
      exact ⟨rfl, nofun⟩
  | ok statements =>
      rw [run_eq_followAll hook parsed world]
      refine ⟨rfl, ?_⟩
      have other := follow_ne_busy limits hook.answer (unrollAll statements) 1 world
      simp only [Ending.result]
      split
      · rename_i error stopped
        rintro ⟨⟩
        exact other stopped
      · nofun

/-- A run is the same when its hook starts no runs. -/
theorem run_alone (code : String) (world : σ) :
    run limits hook.alone code { world } = run limits hook code { world } := by
  cases parsed : Script.parse code limits.maxDepth with
  | error fault => rw [run_of_fault hook parsed, run_of_fault hook.alone parsed]
  | ok statements =>
      rw [run_eq_followAll hook parsed, run_eq_followAll hook.alone parsed]
      rfl

/-- Watching changes nothing about a run, and every run inside it is refused. -/
theorem run_watched (code : String) (world : σ) :
    (run limits hook.watched code { world := ({}, world) }).1 =
        (run limits hook code { world }).1 ∧
      (run limits hook.watched code { world := ({}, world) }).2.world.2 =
        (run limits hook code { world }).2.world ∧
      ∀ inner ∈ (run limits hook.watched code { world := ({}, world) }).2.world.1.inner,
        inner = .refused inner.code := by
  cases parsed : Script.parse code limits.maxDepth with
  | error fault =>
      rw [run_of_fault hook parsed, run_of_fault hook.watched parsed]
      exact ⟨rfl, rfl, nofun⟩
  | ok statements =>
      rw [run_eq_followAll hook parsed, run_eq_followAll hook.watched parsed]
      obtain ⟨stopped, _, world_eq, refused⟩ := follow_related limits hook.watched.answer hook.answer
        (R := fun kept world => kept.2 = world ∧
          ∀ inner ∈ kept.1.inner, inner = .refused inner.code)
        (by
          rintro command ⟨record, world⟩ _ ⟨rfl, refused⟩
          rw [answer_watched]
          refine ⟨rfl, rfl, fun inner mem => ?_⟩
          rcases List.mem_append.mp mem with earlier | here
          · exact refused inner earlier
          · obtain ⟨code, _, rfl⟩ := List.mem_map.mp here
            rfl)
        (unrollAll statements) 1 ({}, world) world ⟨rfl, nofun⟩
      exact ⟨congrArg (fun stopped => Ending.result ⟨stopped, 0, ()⟩ _) stopped, world_eq, refused⟩

/-- The calls of a watched hook are those of a hook that starts no runs. -/
theorem run_watched_calls (code : String) (world : σ) :
    (run limits hook.watched code { world := ({}, world) }).2.world.1.calls =
      (run limits hook.alone.recorded code { world := ([], world) }).2.world.1 := by
  cases parsed : Script.parse code limits.maxDepth with
  | error fault =>
      rw [run_of_fault hook.watched parsed, run_of_fault hook.alone.recorded parsed]
  | ok statements =>
      rw [run_eq_followAll hook.watched parsed, run_eq_followAll hook.alone.recorded parsed]
      exact (follow_related limits hook.watched.answer hook.alone.recorded.answer
        (R := fun kept listed => kept.1.calls = listed.1 ∧ kept.2 = listed.2)
        (by
          rintro command ⟨record, world⟩ ⟨_, _⟩ ⟨rfl, rfl⟩
          rw [answer_watched, answer_recorded, answer_alone]
          exact ⟨rfl, rfl, rfl⟩)
        (unrollAll statements) 1 ({}, world) ([], world) ⟨rfl, rfl⟩).2.2.1

/-! ## Runs one after the other -/

/-- The sandbox after runs of scripts, the first script first. -/
def stateAfter (codes : List String) (world : σ) : State σ :=
  codes.foldl (fun state code => (run limits hook code state).2) { world }

theorem stateAfter_free (codes : List String) (world : σ) :
    (stateAfter limits hook codes world).busy = false := by
  induction codes using List.reverseRecOn with
  | nil => rfl
  | append_singleton codes code ih =>
      have free : stateAfter limits hook codes world =
          { world := (stateAfter limits hook codes world).world } := by
        rw [← ih]
      have last : stateAfter limits hook (codes ++ [code]) world =
          (run limits hook code (stateAfter limits hook codes world)).2 := List.foldl_append
      rw [last, free]
      exact (run_released limits hook code _).1

end Exclusion

/--
However many scripts have been run, the sandbox takes the next one and is free again afterwards.
Every run that the hook starts meanwhile is refused, with no command and with the sandbox still
busy.  The calls of the hook and the outcome are those of a hook that decides alike and starts no
runs.
-/
theorem runs_exclusive {σ : Type} (limits : Limits) (hook : Hook σ) (earlier : List String)
    (code : String) (world : σ) :
    let free := stateAfter limits hook earlier world
    let outcome := run limits hook code free
    let watched := run limits hook.watched code { free with world := ({}, free.world) }
    let alone := run limits hook.alone.recorded code { free with world := ([], free.world) }
    (outcome.1 ≠ .error .busy ∧ outcome.2.busy = false) ∧
      (∀ inner ∈ watched.2.world.1.inner, inner = .refused inner.code) ∧
      (watched.1 = outcome.1 ∧ watched.2.world.2 = outcome.2.world) ∧
      run limits hook.alone code free = outcome ∧
      watched.2.world.1.calls = alone.2.world.1 := by
  have free := stateAfter_free limits hook earlier world
  revert free
  rcases stateAfter limits hook earlier world with ⟨_, start⟩
  rintro ⟨⟩
  obtain ⟨released, taken⟩ := run_released limits hook code start
  obtain ⟨result, world_eq, refused⟩ := run_watched limits hook code start
  exact ⟨⟨taken, released⟩, refused, ⟨result, world_eq⟩, run_alone limits hook code start,
    run_watched_calls limits hook code start⟩

/-- A hook that starts a run for each command and passes its error on. -/
def meddlingHook : Hook Unit := fun _ world =>
  .run "begin" world fun result world =>
    match result with
    | .ok _ => .reply .accepted world
    | .error error => .reply (.refused error.message) world

example :
    let code := "command serial=\"r\" kind=action code=\"wave\" duration=2 interrupt=false wait=true"
    let outcome := run {} meddlingHook.watched code { world := ({}, ()) }
    outcome.2.world.1.inner.map (·.code) = ["begin"] ∧
      outcome.1 = .error (.runtime "action `wave` on r failed: a program is already running") := by
  decide +kernel

end Sandbox

end RobotBlocks
