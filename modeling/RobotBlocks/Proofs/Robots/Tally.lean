import Mathlib.Data.List.Basic
import Mathlib.Data.List.Nodup
import RobotBlocks.Proofs.Robots.Reentry

/-!
# What a summary says

Every selected robot is counted once: it was sent to and answered, it was sent to and did not
answer, or it was offline.  Lists, numbers, class and notice of a summary all say this of the same
robots, and the order in which the robots were sent to does not show.
-/

namespace RobotBlocks.Dispatch

/-! ## Results in the order of the robots -/

theorem map_serial_sendEach {κ : Type} (deliver : String → κ → Reply × κ) (robots : List String)
    (state : κ) : (sendEach deliver robots state).1.map (·.serial) = robots := by
  induction robots generalizing state with
  | nil => rfl
  | cons serial rest ih =>
      simp only [sendEach, List.map_cons, ih]
      cases (deliver serial state).1 <;> rfl

theorem Sending.serial_result (sending : Sending) : sending.result.serial = sending.serial := by
  rcases sending with ⟨_, _, _, reply⟩
  cases reply <;> rfl

theorem mem_of_mem_collect {robots : List String} {results : List Result} {result : Result}
    (mem : result ∈ collect robots results) : result ∈ results := by
  obtain ⟨serial, _, found⟩ := List.mem_filterMap.mp mem
  exact List.mem_of_find?_eq_some found

theorem find?_serial {results : List Result} {serial : String}
    (covered : serial ∈ results.map (·.serial)) :
    ∃ result ∈ results, result.serial = serial ∧
      results.find? (fun result => result.serial == serial) = some result := by
  obtain ⟨result, mem, own⟩ := List.mem_map.mp covered
  cases found : results.find? fun result => result.serial == serial with
  | none => exact absurd (beq_iff_eq.mpr own) (List.find?_eq_none.mp found result mem)
  | some first =>
      have own := List.find?_some found
      exact ⟨first, List.mem_of_find?_eq_some found, beq_iff_eq.mp own, rfl⟩

theorem map_serial_collect {robots : List String} {results : List Result}
    (covered : ∀ serial ∈ robots, serial ∈ results.map (·.serial)) :
    (collect robots results).map (·.serial) = robots := by
  induction robots with
  | nil => rfl
  | cons serial rest ih =>
      have others := ih fun other later => covered other (List.mem_cons_of_mem _ later)
      obtain ⟨first, _, same, found⟩ := find?_serial (covered serial List.mem_cons_self)
      have here : collect (serial :: rest) results = first :: collect rest results :=
        List.filterMap_cons_some found
      rw [here, List.map_cons, same, others]

/-- Results that agree on every robot are the same once they are in the robots' order. -/
theorem collect_congr {robots : List String} {results others : List Result}
    (covered : ∀ serial ∈ robots, serial ∈ results.map (·.serial))
    (alike : ∀ serial ∈ robots, serial ∈ others.map (·.serial))
    (agree : ∀ result ∈ results, ∀ other ∈ others, result.serial = other.serial →
      result = other) :
    collect robots results = collect robots others := by
  refine List.filterMap_congr fun serial mem => ?_
  obtain ⟨result, tried, own, found⟩ := find?_serial (covered serial mem)
  obtain ⟨other, again, same, refound⟩ := find?_serial (alike serial mem)
  rw [found, refound, agree result tried other again (own.trans same.symm)]

/-- On every schedule, each robot has one result, and the results are in the robots' order. -/
theorem map_serial_sendAll {κ : Type} (schedule : Schedule) (deliver : String → κ → Reply × κ)
    (robots : List String) (state : κ) :
    (sendAll schedule deliver robots state).1.map (·.serial) = robots := by
  refine map_serial_collect fun serial mem => ?_
  rw [map_serial_sendEach]
  exact (schedule.perm robots).mem_iff.mpr mem

/-! ## Robots of a request -/

namespace Request

theorem mem_online {request : Request} {serial : String} :
    serial ∈ request.online ↔
      serial ∈ request.selection.targets ∧ request.snapshot.isOnline serial = true :=
  List.mem_filter

theorem nodup_online (request : Request) : request.online.Nodup :=
  request.selection.distinct.filter _

theorem length_online_add_offline (request : Request) :
    request.online.length + request.offline.length = request.selection.targets.length :=
  (List.length_eq_length_filter_add request.snapshot.isOnline).symm

theorem offline_of_nobody {request : Request}
    (nobody : ∀ serial ∈ request.selection.targets, request.snapshot.isOnline serial = false) :
    request.offline = request.selection.targets := by
  refine List.filter_eq_self.mpr fun serial mem => ?_
  rw [nobody serial mem]
  rfl

theorem online_eq_nil {request : Request} :
    request.online = [] ↔
      ∀ serial ∈ request.selection.targets, request.snapshot.isOnline serial = false := by
  rw [online, List.filter_eq_nil_iff]
  simp only [Bool.not_eq_true]

theorem refusal?_noTargets {request : Request} :
    request.refusal? = some .noTargets ↔ request.selection.targets = [] := by
  unfold refusal?
  split
  · rename_i nothing
    exact ⟨fun _ => List.isEmpty_iff.mp nothing, fun _ => rfl⟩
  · rename_i something
    constructor
    · intro refused
      split at refused <;> cases refused
    · intro nothing
      exact absurd (List.isEmpty_iff.mpr nothing) something

theorem refusal?_allOffline {request : Request} {robots : List String} :
    request.refusal? = some (.allOffline robots) ↔
      request.selection.targets ≠ [] ∧
        (∀ serial ∈ request.selection.targets, request.snapshot.isOnline serial = false) ∧
        robots = request.selection.targets := by
  unfold refusal?
  split
  · rename_i nothing
    constructor
    · nofun
    · rintro ⟨something, _⟩
      exact absurd (List.isEmpty_iff.mp nothing) something
  · rename_i something
    split
    · rename_i empty
      have nobody := online_eq_nil.mp (List.isEmpty_iff.mp empty)
      rw [offline_of_nobody nobody]
      constructor
      · rintro ⟨⟩
        exact ⟨fun nothing => something (List.isEmpty_iff.mpr nothing), nobody, rfl⟩
      · rintro ⟨_, _, rfl⟩
        rfl
    · rename_i somebody
      constructor
      · nofun
      · rintro ⟨_, nobody, _⟩
        exact absurd (List.isEmpty_iff.mpr (online_eq_nil.mpr nobody)) somebody

theorem refusal?_eq_none {request : Request} {serial : String}
    (selected : serial ∈ request.selection.targets)
    (online : request.snapshot.isOnline serial = true) : request.refusal? = none := by
  have somebody : request.online ≠ [] := by
    intro nobody
    exact List.not_mem_nil (nobody ▸ mem_online.mpr ⟨selected, online⟩)
  rw [← Option.not_isSome_iff_eq_none, refusal?_isSome]
  exact somebody

end Request

/-! ## Summaries and their notices -/

/-- A notice says what a summary says. -/
structure Summary.ShownBy (summary : Summary) (notice : Notice) : Prop where
  info : notice.severity = .info ↔ summary.failed = 0 ∧ summary.offline = []
  error : notice.severity = .error ↔ summary.succeeded = 0
  message : notice.message =
    (if summary.failed = 0 then
      "Sent `" ++ summary.code ++ "` to " ++ toString summary.succeeded ++ " robot(s)"
    else if summary.succeeded = 0 then
      "`" ++ summary.code ++ "` failed on all " ++ toString summary.failed ++ " robot(s)"
    else
      "`" ++ summary.code ++ "` reached " ++ toString summary.succeeded ++ " of " ++
        toString (summary.succeeded + summary.failed) ++ " robot(s), " ++
        toString summary.failed ++ " failed") ++
    (if summary.offline = [] then "" else
      "; skipped offline: " ++ String.intercalate ", " summary.offline)

/-- A notice warns of a refusal, with the robots that are offline. -/
def Refusal.ShownBy (notice : Notice) : Refusal → Prop
  | .noTargets => notice = .warning "No robots selected"
  | .allOffline robots =>
      notice = .warning ("All selected robots are offline: " ++ String.intercalate ", " robots)
  | .busy => notice = .warning "Still sending the previous command"

theorem Refusal.shownBy_notice (refusal : Refusal) : refusal.ShownBy refusal.notice := by
  cases refusal <;> rfl

/-- A summary that counts every selected robot of a request once. -/
structure Summary.Tallies (summary : Summary) (request : Request) (sends : List Sending) :
    Prop where
  code : summary.code = request.code
  offline : summary.offline = request.selection.targets.filter (!request.snapshot.isOnline ·)
  robots : summary.results.map (·.serial) =
    request.selection.targets.filter request.snapshot.isOnline
  /-- Every robot has the outcome of its own send. -/
  own : ∀ result ∈ summary.results, ∃ sending ∈ sends, sending.serial = result.serial ∧
    match sending.reply with
    | .delivered detail => result.succeeded = true ∧ result.detail = detail
    | .failed reason => result.succeeded = false ∧ result.detail = reason
    | .crashed => result.succeeded = false ∧ result.detail = "transport panicked"
  succeeded : summary.succeeded = summary.results.countP (·.succeeded)
  failed : summary.failed = summary.results.countP (!·.succeeded)
  total : summary.succeeded + summary.failed + summary.offline.length =
    request.selection.targets.length
  allSucceeded : summary.outcome = .allSucceeded ↔ summary.failed = 0
  allFailed : summary.outcome = .allFailed ↔ summary.succeeded = 0
  partialSuccess : summary.outcome = .partialSuccess ↔ 0 < summary.succeeded ∧ 0 < summary.failed

theorem ofCounts_cases {succeeded failed : Nat} (tried : 0 < succeeded + failed) :
    (Class.ofCounts succeeded failed = .allSucceeded ∧ failed = 0 ∧ 0 < succeeded) ∨
      (Class.ofCounts succeeded failed = .allFailed ∧ succeeded = 0 ∧ 0 < failed) ∨
      (Class.ofCounts succeeded failed = .partialSuccess ∧ 0 < succeeded ∧ 0 < failed) := by
  unfold Class.ofCounts
  split
  · exact .inl ⟨rfl, by omega, by omega⟩
  · split
    · exact .inr (.inl ⟨rfl, by omega, by omega⟩)
    · exact .inr (.inr ⟨rfl, by omega, by omega⟩)

theorem ofCounts_allSucceeded {succeeded failed : Nat} :
    Class.ofCounts succeeded failed = .allSucceeded ↔ failed = 0 := by
  unfold Class.ofCounts
  split
  · simpa
  · split <;> simpa

theorem ofCounts_allFailed {succeeded failed : Nat} (tried : 0 < succeeded + failed) :
    Class.ofCounts succeeded failed = .allFailed ↔ succeeded = 0 := by
  obtain ⟨outcome, _, some⟩ | ⟨outcome, none, _⟩ | ⟨outcome, some, _⟩ := ofCounts_cases tried
  · simp [outcome, Nat.ne_of_gt some]
  · exact ⟨fun _ => none, fun _ => outcome⟩
  · simp [outcome, Nat.ne_of_gt some]

theorem ofCounts_partialSuccess {succeeded failed : Nat} :
    Class.ofCounts succeeded failed = .partialSuccess ↔ 0 < succeeded ∧ 0 < failed := by
  unfold Class.ofCounts
  split
  · rename_i none
    simp [none]
  · split
    · rename_i none
      simp [none]
    · simp only [true_iff]
      omega

theorem shownBy_notice {summary : Summary}
    (counted : summary.outcome = .ofCounts summary.succeeded summary.failed)
    (tried : 0 < summary.succeeded + summary.failed) : summary.ShownBy summary.notice := by
  have skipped : summary.skipped = if summary.offline = [] then "" else
      "; skipped offline: " ++ String.intercalate ", " summary.offline := by
    unfold Summary.skipped
    simp only [List.isEmpty_iff]
  obtain ⟨outcome, failed, succeeded⟩ | ⟨outcome, succeeded, failed⟩ |
    ⟨outcome, succeeded, failed⟩ := ofCounts_cases tried
  · have noticed : summary.notice = ⟨if summary.offline = [] then .info else .warning,
        "Sent `" ++ summary.code ++ "` to " ++ toString summary.succeeded ++ " robot(s)" ++
          summary.skipped⟩ := by
      unfold Summary.notice
      rw [counted, outcome]
      simp only [List.isEmpty_iff]
      split <;> rfl
    rw [noticed, skipped]
    refine ⟨?_, ?_, ?_⟩
    · by_cases none : summary.offline = [] <;> simp [none, failed]
    · by_cases none : summary.offline = [] <;> simp [none, Nat.ne_of_gt succeeded]
    · rw [if_pos failed]
  · have noticed : summary.notice = .error ("`" ++ summary.code ++ "` failed on all " ++
        toString summary.failed ++ " robot(s)" ++ summary.skipped) := by
      unfold Summary.notice
      rw [counted, outcome]
    rw [noticed, skipped]
    refine ⟨?_, ?_, ?_⟩
    · simp [Notice.error, Nat.ne_of_gt failed]
    · simp [Notice.error, succeeded]
    · rw [if_neg (Nat.ne_of_gt failed), if_pos succeeded]
      rfl
  · have noticed : summary.notice = .warning ("`" ++ summary.code ++ "` reached " ++
        toString summary.succeeded ++ " of " ++ toString (summary.succeeded + summary.failed) ++
        " robot(s), " ++ toString summary.failed ++ " failed" ++ summary.skipped) := by
      unfold Summary.notice
      rw [counted, outcome]
      rfl
    rw [noticed, skipped]
    refine ⟨?_, ?_, ?_⟩
    · simp [Notice.warning, Nat.ne_of_gt failed]
    · simp [Notice.warning, Nat.ne_of_gt succeeded]
    · rw [if_neg (Nat.ne_of_gt failed), if_neg (Nat.ne_of_gt succeeded)]
      rfl

section Counts

variable {request : Request} {results : List Result}

theorem length_results (robots : results.map (·.serial) = request.online) :
    results.countP (·.succeeded) + results.countP (!·.succeeded) = request.online.length := by
  rw [← robots, List.length_map, List.length_eq_countP_add_countP (·.succeeded)]
  simp only [Bool.not_eq_true, Bool.decide_eq_false]

theorem results_tried (robots : results.map (·.serial) = request.online)
    (tried : request.online ≠ []) :
    0 < results.countP (·.succeeded) + results.countP (!·.succeeded) := by
  rw [length_results robots]
  exact List.length_pos_iff.mpr tried

theorem tallies_ofResults {sends : List Sending}
    (robots : results.map (·.serial) = request.online) (tried : request.online ≠ [])
    (own : ∀ result ∈ results, ∃ sending ∈ sends, sending.result = result) :
    (Summary.ofResults request.code request.offline results).Tallies request sends := by
  refine ⟨rfl, rfl, robots, ?_, rfl, rfl, ?_, ofCounts_allSucceeded,
    ofCounts_allFailed (results_tried robots tried), ofCounts_partialSuccess⟩
  · intro result mem
    obtain ⟨⟨_, _, _, reply⟩, sent, rfl⟩ := own result mem
    refine ⟨_, sent, ?_, ?_⟩ <;> cases reply <;> first | rfl | exact ⟨rfl, rfl⟩
  · rw [← request.length_online_add_offline, ← length_results robots]
    rfl

end Counts

/-! ## Requests on a free dispatcher -/

section Tally

variable {σ : Type} (schedule : Schedule) (transport : Transport σ) (request : Request)

/-- The sends of a request, in the order in which they come to their ends. -/
def sendsOf (state : State σ) : List Sending :=
  let watched := dispatchOn schedule transport.watched request ⟨state.dispatcher, {}, state.world⟩
  watched.2.world.1.sends

theorem sendsOf_free {state : State σ} (free : state.dispatcher.sending = false) :
    (sendsOf schedule transport request state).map Sending.order =
        (schedule.order request.online).map (fun serial => (request.code, serial, request.kind)) ∧
      (sendsOf schedule transport request state).map Sending.result =
        (sendEach (transport.answer state.dispatcher.taken request) (schedule.order request.online)
          state.world).1 := by
  obtain ⟨more, same, _, sends, put, orders, results⟩ :=
    settle_watched schedule transport request state.dispatcher state.world
  have here : sendsOf schedule transport request state = sends := by
    rw [sendsOf, dispatchOn_free _ _ free, same]
    exact put
  rw [here]
  exact ⟨orders, results⟩

/-- There is one send to each selected robot that is online. -/
theorem length_sendsOf {state : State σ} (free : state.dispatcher.sending = false) :
    (sendsOf schedule transport request state).length = request.online.length := by
  have orders := congrArg List.length (sendsOf_free schedule transport request free).1
  rw [List.length_map, List.length_map] at orders
  exact orders.trans (schedule.perm request.online).length_eq

theorem settle_error {dispatcher : Dispatcher} {world : σ} {refusal : Refusal} :
    (settle schedule transport request dispatcher world).1.result = .error refusal ↔
      request.refusal? = some refusal := by
  unfold settle
  cases request.refusal? <;> simp [Answer.ofResult]

theorem settle_ok {dispatcher : Dispatcher} {world : σ} (accepted : request.refusal? = none) :
    (settle schedule transport request dispatcher world).1 =
      .ofResult (.ok (.ofResults request.code request.offline
        (sendAll schedule (transport.answer dispatcher.taken request) request.online world).1)) := by
  rw [settle, accepted]

theorem count_sendsOf {state : State σ} (free : state.dispatcher.sending = false)
    (code serial : String) (kind : Kind) :
    ((sendsOf schedule transport request state).map Sending.order).count (code, serial, kind) =
      if code = request.code ∧ kind = request.kind ∧ serial ∈ request.selection.targets ∧
        request.snapshot.isOnline serial = true then 1 else 0 := by
  have distinct : (request.online.map fun serial => (request.code, serial, request.kind)).Nodup :=
    request.nodup_online.map fun serial other same => by cases same; rfl
  have scheduled := (schedule.perm request.online).map fun serial =>
    (request.code, serial, request.kind)
  rw [(sendsOf_free schedule transport request free).1, scheduled.count_eq, distinct.count]
  congr 1
  simp only [List.mem_map, Request.mem_online, Prod.mk.injEq, eq_iff_iff]
  constructor
  · rintro ⟨_, ⟨selected, online⟩, rfl, rfl, rfl⟩
    exact ⟨rfl, rfl, selected, online⟩
  · rintro ⟨rfl, rfl, selected, online⟩
    exact ⟨serial, ⟨selected, online⟩, rfl, rfl, rfl⟩

/-- Every result of a request is that of a send. -/
theorem mem_sendAll {state : State σ} (free : state.dispatcher.sending = false) {result : Result}
    (mem : result ∈ (sendAll schedule (transport.answer state.dispatcher.taken request)
      request.online state.world).1) :
    ∃ sending ∈ sendsOf schedule transport request state, sending.result = result := by
  have made := mem_of_mem_collect mem
  rw [← (sendsOf_free schedule transport request free).2] at made
  exact List.mem_map.mp made

/-- Schedules on which every robot answers alike give the same results. -/
theorem sendAll_congr (other : Schedule) {state : State σ}
    (free : state.dispatcher.sending = false)
    (agree : ∀ sending ∈ sendsOf schedule transport request state,
      ∀ again ∈ sendsOf other transport request state,
        sending.serial = again.serial → sending.reply = again.reply) :
    (sendAll schedule (transport.answer state.dispatcher.taken request) request.online
        state.world).1 =
      (sendAll other (transport.answer state.dispatcher.taken request) request.online
        state.world).1 := by
  have covers : ∀ schedule : Schedule, ∀ serial ∈ request.online, serial ∈
      ((sendEach (transport.answer state.dispatcher.taken request)
        (schedule.order request.online) state.world).1).map (·.serial) := by
    intro schedule serial mem
    rw [map_serial_sendEach]
    exact (schedule.perm request.online).mem_iff.mpr mem
  refine collect_congr (covers schedule) (covers other) ?_
  rw [← (sendsOf_free schedule transport request free).2,
    ← (sendsOf_free other transport request free).2]
  intro _ tried _ retried own
  obtain ⟨sending, mem, rfl⟩ := List.mem_map.mp tried
  obtain ⟨again, remem, rfl⟩ := List.mem_map.mp retried
  have same : sending.serial = again.serial := by
    rw [← sending.serial_result, own, again.serial_result]
  rw [Sending.result, Sending.result, same, agree sending mem again remem same]

end Tally

/--
A free dispatcher sends a request once to every selected robot that is online and to no other.
Nothing is sent only if nothing is selected or nobody is online, and the result says which it was.
Otherwise a summary counts every selected robot, the notice says the same, and the order of sends
does not show as long as no robot's answer depends on it.
-/
theorem dispatch_tallies {σ : Type} (schedule : Schedule) (transport : Transport σ)
    (request : Request) (state : State σ) (free : state.dispatcher.sending = false) :
    let targets := request.selection.targets
    let isOnline := request.snapshot.isOnline
    let answer := (dispatchOn schedule transport request state).1
    let sends := sendsOf schedule transport request state
    (∀ code serial kind, (sends.map Sending.order).count (code, serial, kind) =
      if code = request.code ∧ kind = request.kind ∧ serial ∈ targets ∧ isOnline serial = true
      then 1 else 0) ∧
    (answer.result = .error .noTargets ↔ targets = []) ∧
    (∀ robots, answer.result = .error (.allOffline robots) ↔
      targets ≠ [] ∧ (∀ serial ∈ targets, isOnline serial = false) ∧ robots = targets) ∧
    (∀ refusal, answer.result = .error refusal →
      sends = [] ∧ refusal.ShownBy answer.notice) ∧
    (∀ serial ∈ targets, isOnline serial = true → ∃ summary : Summary,
      answer.result = .ok summary ∧ summary.Tallies request sends ∧
        summary.ShownBy answer.notice) ∧
    ∀ other : Schedule,
      (∀ sending ∈ sends, ∀ again ∈ sendsOf other transport request state,
        sending.serial = again.serial → sending.reply = again.reply) →
      (dispatchOn other transport request state).1 = answer := by
  have settled : ∀ schedule, dispatchOn schedule transport request state =
      settle schedule transport request state.dispatcher state.world :=
    fun schedule => dispatchOn_free schedule transport free request state.world
  simp only [settled, settle_error]
  refine ⟨count_sendsOf schedule transport request free, Request.refusal?_noTargets,
    fun _ => Request.refusal?_allOffline, ?_, ?_, ?_⟩
  · intro refusal refused
    have nobody : request.online = [] := request.refusal?_isSome.mp (by rw [refused]; rfl)
    have scheduled := (sendsOf_free schedule transport request free).1
    rw [nobody, (schedule.perm []).eq_nil] at scheduled
    refine ⟨List.map_eq_nil_iff.mp scheduled, ?_⟩
    rw [settle, refused]
    exact refusal.shownBy_notice
  · intro serial selected online
    have tried : request.online ≠ [] :=
      List.ne_nil_of_mem (Request.mem_online.mpr ⟨selected, online⟩)
    rw [settle_ok schedule transport request (Request.refusal?_eq_none selected online)]
    have robots := map_serial_sendAll schedule
      (transport.answer state.dispatcher.taken request) request.online state.world
    exact ⟨_, rfl,
      tallies_ofResults robots tried fun _ mem => mem_sendAll schedule transport request free mem,
      shownBy_notice rfl (results_tried robots tried)⟩
  · intro other agree
    cases refused : request.refusal? with
    | some refusal => rw [settle, settle, refused]
    | none =>
        rw [settle_ok _ _ _ refused, settle_ok _ _ _ refused,
          sendAll_congr schedule transport request other free agree]

def Schedule.backwards : Schedule := ⟨List.reverse, List.reverse_perm⟩

/-- Waving at four robots, one of them offline. -/
def waveAtFour : Request where
  code := "wave"
  kind := .action
  selection := ⟨.multi, ["R1", "R2", "R3", "R4"], by decide⟩
  snapshot := ⟨[("R1", true), ("R3", true), ("R4", true)]⟩

/-- `R1` waves at everybody before it answers, `R3` cannot move, and the others crash. -/
def restless : Transport (List String) := fun _ serial _ log =>
  match serial with
  | "R1" => .dispatch waveAtFour (serial :: log) fun _ log => .reply (.delivered "done") log
  | "R3" => .reply (.failed "no battery") (serial :: log)
  | _ => .reply .crashed (serial :: log)

theorem dispatch_tallies_waveAtFour :
    let start : State (List String) := ⟨{}, []⟩
    let sends := sendsOf .backwards restless waveAtFour start
    let summary : Summary := {
      code := "wave"
      outcome := .partialSuccess
      succeeded := 1
      failed := 2
      offline := ["R2"]
      results := [⟨"R1", true, "done"⟩, ⟨"R3", false, "no battery"⟩,
        ⟨"R4", false, "transport panicked"⟩] }
    start.dispatcher.sending = false ∧
      sends.map Sending.order =
        [("wave", "R4", .action), ("wave", "R3", .action), ("wave", "R1", .action)] ∧
      summary.Tallies waveAtFour sends ∧
      (dispatch restless waveAtFour start).1.result = .ok summary := by
  intro start sends summary
  obtain ⟨_, _, _, _, tallied, unordered⟩ :=
    dispatch_tallies .backwards restless waveAtFour start rfl
  obtain ⟨counted, made, tallies, _⟩ := tallied "R1" (by decide) (by decide)
  have evaluated : (dispatchOn .backwards restless waveAtFour start).1.result = .ok summary := rfl
  have same : counted = summary := Except.ok.inj (made.symm.trans evaluated)
  have inOrder : (dispatch restless waveAtFour start).1 =
      (dispatchOn .backwards restless waveAtFour start).1 := unordered .inOrder (by decide)
  refine ⟨rfl, by decide, same ▸ tallies, ?_⟩
  rw [inOrder]
  exact evaluated

end RobotBlocks.Dispatch
