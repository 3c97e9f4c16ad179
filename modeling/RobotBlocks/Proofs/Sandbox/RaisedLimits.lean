import RobotBlocks.Proofs.Sandbox.Exclusion
import RobotBlocks.Proofs.Script.Assembled

/-!
# Raising limits

Limits only cut a run short.  A script that parses under a nesting limit parses to the same program
under a higher one, and the events of a program are met in the same order under all limits.  So the
commands under lower limits are the first commands under higher ones, and a run that comes to an end
of its own ends alike under both.
-/

namespace RobotBlocks

namespace Script

variable {limit wider number : Nat} {assembly next last : Assembly}

theorem Assembly.add_raised (raised : limit ≤ wider) {meaning : Line}
    (added : assembly.add limit number meaning = .ok next) :
    assembly.add wider number meaning = .ok next := by
  cases meaning with
  | blank | statement | closing => exact added
  | opening times =>
      rw [add] at added ⊢
      by_cases full : limit ≤ assembly.frames.length
      · rw [if_pos full] at added
        cases added
      · rw [if_neg full] at added
        rw [if_neg fun deeper => full (raised.trans deeper)]
        exact added

theorem Assembly.addLines_raised (raised : limit ≤ wider) {lines : List (List Char)}
    (added : assembly.addLines limit number lines = .ok last) :
    assembly.addLines wider number lines = .ok last := by
  induction lines generalizing number assembly with
  | nil => exact added
  | cons line rest ih =>
      obtain ⟨next, first, later⟩ := addLines_cons_eq_ok.mp added
      obtain ⟨meaning, read, here⟩ := bind_eq_ok.mp first
      have still := bind_eq_ok.mpr ⟨meaning, read, add_raised raised here⟩
      exact addLines_cons_eq_ok.mpr ⟨next, still, ih later⟩

/-- A higher nesting limit refuses no script that a lower one lets pass. -/
theorem parse_raised {maxDepth deeper : Nat} (raised : maxDepth ≤ deeper) {code : String}
    {statements : List Statement} (parsed : parse code maxDepth = .ok statements) :
    parse code deeper = .ok statements := by
  obtain ⟨last, added, complete⟩ := bind_eq_ok.mp parsed
  have limits : min maxDepth nestingCeiling ≤ min deeper nestingCeiling :=
    min_le_min_right nestingCeiling raised
  exact bind_eq_ok.mpr ⟨last, Assembly.addLines_raised limits added, complete⟩

end Script

namespace Sandbox

/-! ## How runs end -/

/-- The errors of limits. -/
inductive CutOff : RunError → Prop where
  | steps (limit : Nat) : CutOff (.stepLimit limit)
  | repetitions (times limit : Nat) : CutOff (.repeatLimit times limit)

/-- The results of runs that came to an end of their own: all statements were executed, one of them
reported failure, or a command was not carried out. -/
inductive Concluded : Except RunError Report → Prop where
  | completed (report : Report) : Concluded (.ok report)
  | reported (message : String) : Concluded (.error (.explicitFailure message))
  | refused (command : Command) (reason : String) :
      Concluded (.error (.commandFailed command reason))

/-- The message of a command starts with its kind, those of limits do not. -/
theorem CutOff.ne_commandFailed {error : RunError} (cut : CutOff error) (command : Command)
    (reason : String) : error ≠ .commandFailed command reason := by
  intro same
  cases cut with
  | steps limit =>
      have texts := congrArg String.toList (RunError.runtime.inj same)
      cases kind : command.kind <;> simp [kind, Kind.word] at texts
  | repetitions times limit =>
      have texts := congrArg String.toList (RunError.runtime.inj same)
      cases kind : command.kind <;> simp [kind, Kind.word] at texts

theorem Concluded.not_cutOff {error : RunError} (concluded : Concluded (.error error)) :
    ¬CutOff error := by
  intro cut
  cases concluded with
  | reported message => cases cut
  | refused command reason => exact cut.ne_commandFailed command reason rfl

/-! ## Events under two limits -/

/-- No limit of a run is higher than that of another. -/
instance : LE Limits where
  le limits wider := limits.maxSteps ≤ wider.maxSteps ∧ limits.maxRepeat ≤ wider.maxRepeat ∧
    limits.maxDepth ≤ wider.maxDepth

instance (limits wider : Limits) : Decidable (limits ≤ wider) :=
  inferInstanceAs (Decidable (_ ∧ _ ∧ _))

section Follow

variable {κ : Type} {limits wider : Limits} (issue : Command → κ → Reply × κ)

/-- Limits differ about an event only where the lower one stops a loop at its head. -/
theorem meet_raised (raised : limits ≤ wider) (event : Event) (world : κ) :
    event.meet limits issue world = event.meet wider issue world ∨
      ∃ error, CutOff error ∧ event.meet limits issue world = (some error, world) := by
  cases event with
  | head times =>
      simp only [Event.meet]
      by_cases tooMany : limits.maxRepeat < times.toNat
      · rw [if_pos tooMany]
        exact .inr ⟨_, .repetitions times.toNat limits.maxRepeat, rfl⟩
      · have still : ¬wider.maxRepeat < times.toNat := by
          have repetitions := raised.2.1
          omega
        rw [if_neg tooMany, if_neg still]
        exact .inl rfl
  | begin | command | wait | log | fail => exact .inl rfl

/-- An event that there is a step for is met, whatever comes of it. -/
theorem met_pos {number : Nat} (event : Event) (rest : List Event) (world : κ)
    (left : ¬limits.maxSteps < number) :
    1 ≤ (follow limits issue number (event :: rest) world).met := by
  rw [follow, if_neg left]
  rcases event.meet limits issue world with ⟨_ | error, world⟩
  · exact Nat.le_add_left 1 _
  · exact Nat.le_refl 1

/-- Under higher limits no fewer events are met, and all is the same unless a limit stops the run. -/
theorem follow_raised (raised : limits ≤ wider) (events : List Event) (number : Nat) (world : κ) :
    (follow limits issue number events world).met ≤
        (follow wider issue number events world).met ∧
      ((∃ error, CutOff error ∧ (follow limits issue number events world).stopped = some error) ∨
        follow wider issue number events world = follow limits issue number events world) := by
  induction events generalizing number world with
  | nil => exact ⟨Nat.le_refl 0, .inr rfl⟩
  | cons first rest ih =>
      by_cases spent : limits.maxSteps < number
      · rw [follow, if_pos spent]
        exact ⟨Nat.zero_le _, .inl ⟨_, .steps limits.maxSteps, rfl⟩⟩
      · have left : ¬wider.maxSteps < number := by
          have steps := raised.1
          omega
        rcases meet_raised issue raised first world with same | ⟨error, cut, stopped⟩
        · rw [follow, follow, if_neg spent, if_neg left, same]
          rcases first.meet wider issue world with ⟨_ | error, world⟩
          · obtain ⟨further, ending⟩ := ih (number + 1) world
            refine ⟨Nat.add_le_add_right further 1, ending.imp id fun alike => ?_⟩
            simp only [alike]
          · exact ⟨Nat.le_refl 1, .inr rfl⟩
        · have further := met_pos issue first rest world left
          rw [follow, if_neg spent, stopped]
          exact ⟨further, .inl ⟨error, cut, rfl⟩⟩

end Follow

/-! ## Runs under two limits -/

section Runs

variable {σ : Type} {limits wider : Limits}

/-- The commands that a hook is called with in a run, in their order. -/
def calls (limits : Limits) (hook : Hook σ) (code : String) (state : State σ) : List Command :=
  (run limits hook.recorded code { state with world := ([], state.world) }).2.world.1

theorem run_of_busy (limits : Limits) (hook : Hook σ) (code : String) {state : State σ}
    (busy : state.busy = true) : run limits hook code state = (.error .busy, state) := by
  rw [run_eq, if_pos busy]

/-- The calls of a run are the commands among the events that it meets. -/
theorem calls_eq_followAll (hook : Hook σ) {code : String} {statements : List Statement}
    (parsed : Script.parse code limits.maxDepth = .ok statements) (world : σ) :
    calls limits hook code { world } =
      ((unrollAll statements).take (followAll limits hook (unrollAll statements) world).met).filterMap
        Event.command? := by
  unfold calls
  rw [run_eq_followAll hook.recorded parsed ([], world)]
  exact follow_recorded limits hook (unrollAll statements) 1 [] world

/--
Raising limits adds commands at the end of those that a run has carried out, and it changes nothing
about a run that came to an end of its own.
-/
theorem run_raised (raised : limits ≤ wider) (hook : Hook σ) (code : String) (state : State σ) :
    calls limits hook code state <+: calls wider hook code state ∧
      (Concluded (run limits hook code state).1 →
        calls wider hook code state = calls limits hook code state ∧
          run wider hook code state = run limits hook code state) := by
  obtain ⟨busy, world⟩ := state
  cases busy with
  | true =>
      unfold calls
      simp only [run_of_busy]
      exact ⟨List.prefix_rfl, fun _ => ⟨trivial, trivial⟩⟩
  | false =>
      cases parsed : Script.parse code limits.maxDepth with
      | error fault =>
          have none : calls limits hook code { world } = [] := by
            unfold calls
            rw [run_of_fault hook.recorded parsed]
          rw [none, run_of_fault hook parsed]
          exact ⟨List.nil_prefix, nofun⟩
      | ok statements =>
          have still := Script.parse_raised raised.2.2 parsed
          obtain ⟨further, ending⟩ := follow_raised hook.answer raised (unrollAll statements) 1 world
          rw [calls_eq_followAll hook parsed, calls_eq_followAll hook still,
            run_eq_followAll hook parsed, run_eq_followAll hook still]
          refine ⟨(List.take_prefix_take_left further).filterMap _, fun concluded => ?_⟩
          rcases ending with ⟨error, cut, stopped⟩ | same
          · have failed : (followAll limits hook (unrollAll statements) world).result
                (unrollAll statements) = .error error := by
              unfold Ending.result followAll
              rw [stopped]
            exact absurd cut (Concluded.not_cutOff (failed ▸ concluded))
          · unfold followAll
            rw [same]
            exact ⟨rfl, rfl⟩

end Runs

/-- Seven steps are enough for waving twice, also when the second wave fails; after four of them
only one wave has been sent. -/
theorem run_raised_wavingTwice :
    let code := Script.render "m" "r" wavingTwice
    let tight : Limits := { maxSteps := 4, maxRepeat := 2, maxDepth := 1 }
    let enough : Limits := { maxSteps := 7, maxRepeat := 2, maxDepth := 1 }
    (tight ≤ enough ∧ enough ≤ {}) ∧
      (calls tight tiringHook code { world := 2 } <+: calls enough tiringHook code { world := 2 } ∧
        (calls tight tiringHook code { world := 2 }).length = 1) ∧
      (run enough tiringHook code { world := 2 }).1 =
        .error (.runtime "action `wave` on r failed: command hook panicked") ∧
      calls {} tiringHook code { world := 2 } = calls enough tiringHook code { world := 2 } ∧
      run {} tiringHook code { world := 2 } = run enough tiringHook code { world := 2 } := by
  intro code tight enough
  have waitable : Statement.Waitable wavingTwice :=
    ⟨trivial, ⟨trivial, trivial, trivial⟩, ⟨by decide, by decide⟩, trivial⟩
  have parsed : ∀ limits : Limits, limits.maxDepth = 1 →
      Script.parse code limits.maxDepth = .ok wavingTwice := by
    intro limits depth
    exact Script.parse_render_fits "m" "r" waitable (by rw [depth]; decide)
  have refused : (run enough tiringHook code { world := 2 }).1 =
      .error (.runtime "action `wave` on r failed: command hook panicked") := by
    rw [run_eq_followAll tiringHook (parsed enough rfl)]
    decide +kernel
  have concluded : Concluded (run enough tiringHook code { world := 2 }).1 := by
    rw [refused]
    exact .refused ⟨"r", .action, "wave", 2, false, true⟩ "command hook panicked"
  have lower : tight ≤ enough := by decide
  have upper : enough ≤ {} := by decide
  refine ⟨⟨lower, upper⟩, ⟨(run_raised lower tiringHook code { world := 2 }).1, ?_⟩, refused,
    (run_raised upper tiringHook code { world := 2 }).2 concluded⟩
  rw [calls_eq_followAll tiringHook (parsed tight rfl)]
  decide +kernel

end Sandbox

end RobotBlocks
