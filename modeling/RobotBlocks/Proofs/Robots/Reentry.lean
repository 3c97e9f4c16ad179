import Mathlib.Data.List.Induction
import RobotBlocks.Robots.Dispatcher

/-!
# Requests inside requests

A transport may send other requests on the dispatcher that it works for.  All of them are refused
and leave nothing behind, and the request itself goes as if they had not been sent.  Whatever comes
of a request, the dispatcher is idle afterwards and remembers the phase that the request ended in.
-/

namespace RobotBlocks.Dispatch

/-- What a request gets from a dispatcher that is sending. -/
def busyAnswer : Answer where
  result := .error .busy
  notice := .warning "Still sending the previous command"

namespace Dispatcher

def taken (dispatcher : Dispatcher) : Dispatcher :=
  { dispatcher with sending := true, phase := .dispatching }

/-- An idle dispatcher whose latest request ended in the given phase. -/
def idleAfter (phase : Phase) : Dispatcher where
  sending := false
  phase := .idle
  lastPhase := some phase

theorem release_enter_ofClass (dispatcher : Dispatcher) (outcome : Class) :
    (dispatcher.enter (.ofClass outcome)).release = idleAfter (.ofClass outcome) := by
  cases outcome <;> rfl

end Dispatcher

namespace Request

/-- The selected robots that are online, in selection order. -/
def online (request : Request) : List String :=
  request.selection.targets.filter request.snapshot.isOnline

def offline (request : Request) : List String :=
  request.selection.targets.filter (!request.snapshot.isOnline ·)

/-- Why a request is refused before anything is sent, if it is. -/
def refusal? (request : Request) : Option Refusal :=
  if request.selection.targets.isEmpty then some .noTargets
  else if request.online.isEmpty then some (.allOffline request.offline)
  else none

theorem refusal?_isSome (request : Request) : request.refusal?.isSome ↔ request.online = [] := by
  unfold refusal?
  split
  · rename_i nothing
    rw [online, List.isEmpty_iff.mp nothing]
    simp
  · split
    · rename_i nobody
      simp [List.isEmpty_iff.mp nobody]
    · rename_i somebody
      simpa using somebody

end Request

/-! ## Sending on a taken dispatcher -/

section Sending

variable {σ : Type} (schedule : Schedule) (transport : Transport σ)

/-- What comes of an action while a dispatcher sends and refuses all further requests. -/
def Action.whileSending (dispatcher : Dispatcher) : Action σ → Reply × σ
  | .reply answer world => (answer, world)
  | .dispatch _ world next => (next busyAnswer world).whileSending dispatcher
  | .inspect next => (next dispatcher).whileSending dispatcher

/-- How a transport answers for a robot while a dispatcher sends. -/
def Transport.answer (dispatcher : Dispatcher) (request : Request) (serial : String) (world : σ) :
    Reply × σ :=
  (transport request.code serial request.kind world).whileSending dispatcher

theorem dispatchNested_sending {dispatcher : Dispatcher} (sending : dispatcher.sending = true)
    (levels : Nat) (request : Request) (world : σ) :
    dispatchNested schedule transport levels request ⟨dispatcher, world⟩ =
      (busyAnswer, ⟨dispatcher, world⟩) := by
  cases levels with
  | zero => rfl
  | succ levels => exact if_pos sending

theorem perform_whileSending {dispatcher : Dispatcher} (sending : dispatcher.sending = true)
    (levels : Nat) (action : Action σ) (world : σ) :
    action.perform (dispatchNested schedule transport levels) ⟨dispatcher, world⟩ =
      ((action.whileSending dispatcher).1, ⟨dispatcher, (action.whileSending dispatcher).2⟩) := by
  induction action generalizing world with
  | reply answer other => rfl
  | dispatch request other next ih =>
      rw [Action.perform, dispatchNested_sending schedule transport sending]
      exact ih busyAnswer other other
  | inspect next ih => exact ih dispatcher world

/-- A request on a free dispatcher, with all that the dispatcher does for it. -/
def settle (request : Request) (dispatcher : Dispatcher) (world : σ) : Answer × State σ :=
  match request.refusal? with
  | some refusal => (.ofResult (.error refusal), ⟨.idleAfter .failed, world⟩)
  | none =>
      let (results, world) :=
        sendAll schedule (transport.answer dispatcher.taken request) request.online world
      let summary := Summary.ofResults request.code request.offline results
      (.ofResult (.ok summary), ⟨.idleAfter (.ofClass summary.outcome), world⟩)

/-- How robots are sent to on a dispatcher; `levels` bounds requests inside requests. -/
def deliver (levels : Nat) (request : Request) (serial : String) (state : State σ) :
    Reply × State σ :=
  (transport request.code serial request.kind state.world).perform
    (dispatchNested schedule transport levels) state

theorem sendEach_deliver {dispatcher : Dispatcher} (sending : dispatcher.sending = true)
    (levels : Nat) (request : Request) (robots : List String) (world : σ) :
    sendEach (deliver schedule transport levels request) robots ⟨dispatcher, world⟩ =
      let (results, world) := sendEach (transport.answer dispatcher request) robots world
      (results, ⟨dispatcher, world⟩) := by
  induction robots generalizing world with
  | nil => rfl
  | cons serial rest ih =>
      have first : deliver schedule transport levels request serial ⟨dispatcher, world⟩ =
          ((transport.answer dispatcher request serial world).1,
            ⟨dispatcher, (transport.answer dispatcher request serial world).2⟩) :=
        perform_whileSending schedule transport sending levels _ world
      simp only [sendEach, first, ih]

/-- A free dispatcher settles a request, whatever the bound on requests inside requests. -/
theorem dispatchNested_free {dispatcher : Dispatcher} (free : dispatcher.sending = false)
    (levels : Nat) (request : Request) (world : σ) :
    dispatchNested schedule transport (levels + 1) request ⟨dispatcher, world⟩ =
      settle schedule transport request dispatcher world := by
  have delivers : (fun serial state =>
      (transport request.code serial request.kind state.world).perform
        (dispatchNested schedule transport levels) state) =
      deliver schedule transport levels request := rfl
  have enters : Dispatcher.enter { dispatcher with sending := true } .dispatching =
      dispatcher.taken := rfl
  have sends := sendEach_deliver schedule transport (rfl : dispatcher.taken.sending = true) levels
    request
  have online : request.selection.targets.filter request.snapshot.isOnline = request.online := rfl
  have offline : request.selection.targets.filter (not ∘ request.snapshot.isOnline) =
      request.offline := rfl
  rw [dispatchNested, settle, Request.refusal?]
  simp only [free, Bool.false_eq_true, if_false, delivers, resolve,
    List.partition_eq_filter_filter, enters, sendAll, sends, online, offline]
  split
  · rfl
  · split
    · rfl
    · simp only [Dispatcher.release_enter_ofClass]

/-- Requests inside a request are served by the dispatcher like all others. -/
theorem dispatchNested_eq_dispatchOn (levels : Nat) :
    dispatchNested schedule transport (levels + 1) = dispatchOn schedule transport := by
  funext request ⟨dispatcher, world⟩
  unfold dispatchOn
  cases free : dispatcher.sending with
  | true =>
      rw [dispatchNested_sending schedule transport free,
        dispatchNested_sending schedule transport free]
  | false =>
      rw [dispatchNested_free schedule transport free, dispatchNested_free schedule transport free]

theorem dispatchOn_free {dispatcher : Dispatcher} (free : dispatcher.sending = false)
    (request : Request) (world : σ) :
    dispatchOn schedule transport request ⟨dispatcher, world⟩ =
      settle schedule transport request dispatcher world :=
  dispatchNested_free schedule transport free 1 request world

end Sending

/-! ## What a transport sees -/

structure Sending where
  code : String
  serial : String
  kind : Kind
  reply : Reply

/-- A request that a transport sends, with what the transport sees of it. -/
structure InnerRequest where
  request : Request
  before : Dispatcher
  answer : Answer
  /-- The sends that come to their end meanwhile. -/
  sends : List Sending
  after : Dispatcher

/-- A request that is refused and leaves nothing behind. -/
def InnerRequest.refused (dispatcher : Dispatcher) (request : Request) : InnerRequest where
  request := request
  before := dispatcher
  answer := busyAnswer
  sends := []
  after := dispatcher

structure Record where
  sends : List Sending := []
  inner : List InnerRequest := []
  /-- The dispatcher at the start and at the end of each send, and whenever a send looked. -/
  seen : List Dispatcher := []

section Watching

variable {σ : Type}

/-- The same action on a world that also keeps a record. -/
def Action.watched (sending : Reply → Sending) (record : Record) : Action σ → Action (Record × σ)
  | .reply answer world =>
      .inspect fun now =>
        let sends := record.sends ++ [sending answer]
        .reply answer ({ record with sends, seen := record.seen ++ [now] }, world)
  | .dispatch request world next =>
      .inspect fun before => .dispatch request (record, world) fun answer kept =>
        .inspect fun after =>
          let sends := kept.1.sends.drop record.sends.length
          let inner := kept.1.inner ++ [⟨request, before, answer, sends, after⟩]
          (next answer kept.2).watched sending { kept.1 with inner }
  | .inspect next =>
      .inspect fun now => (next now).watched sending { record with seen := record.seen ++ [now] }

def Transport.watched (transport : Transport σ) : Transport (Record × σ) :=
  fun code serial kind kept => .inspect fun now =>
    (transport code serial kind kept.2).watched (fun reply => ⟨code, serial, kind, reply⟩)
      { kept.1 with seen := kept.1.seen ++ [now] }

/-- A transport that decides like another one but sends no requests. -/
def Transport.alone (transport : Transport σ) : Transport σ :=
  fun code serial kind world => .inspect fun now =>
    let (reply, world) := (transport code serial kind world).whileSending now
    .reply reply world

/-- All that was seen is one dispatcher that does not change and that refuses all requests. -/
structure Record.Steady (dispatcher : Dispatcher) (record : Record) : Prop where
  inner : ∀ request ∈ record.inner, request = .refused dispatcher request.request
  seen : ∀ now ∈ record.seen, now = dispatcher

theorem Record.steady_empty (dispatcher : Dispatcher) : Record.Steady dispatcher {} where
  inner := List.forall_mem_nil _
  seen := List.forall_mem_nil _

theorem Record.Steady.look {dispatcher : Dispatcher} {record : Record}
    (steady : record.Steady dispatcher) (sends : List Sending) :
    Record.Steady dispatcher { record with sends, seen := record.seen ++ [dispatcher] } where
  inner := steady.inner
  seen now mem := by
    rcases List.mem_append.mp mem with earlier | here
    · exact steady.seen now earlier
    · exact List.mem_singleton.mp here

theorem Record.Steady.refuse {dispatcher : Dispatcher} {record : Record}
    (steady : record.Steady dispatcher) (request : Request) :
    Record.Steady dispatcher
      { record with inner := record.inner ++ [.refused dispatcher request] } where
  inner other mem := by
    rcases List.mem_append.mp mem with earlier | here
    · exact steady.inner other earlier
    · rw [List.mem_singleton.mp here]
      rfl
  seen := steady.seen

/-- Watching an action changes nothing about it. -/
theorem whileSending_watched (dispatcher : Dispatcher) (sending : Reply → Sending)
    (record : Record) (action : Action σ) :
    ∃ more : Record, (action.watched sending record).whileSending dispatcher =
        ((action.whileSending dispatcher).1, more, (action.whileSending dispatcher).2) ∧
      more.sends = record.sends ++ [sending (action.whileSending dispatcher).1] ∧
      (record.Steady dispatcher → more.Steady dispatcher) := by
  induction action generalizing record with
  | reply answer world => exact ⟨_, rfl, rfl, fun steady => steady.look _⟩
  | dispatch request world next ih =>
      have nothing : record.sends.drop record.sends.length = [] := List.drop_length
      obtain ⟨more, same, sends, steady⟩ := ih busyAnswer world
        { record with inner := record.inner ++ [.refused dispatcher request] }
      refine ⟨more, ?_, sends, fun before => steady (before.refuse request)⟩
      simp only [Action.watched, Action.whileSending, nothing]
      exact same
  | inspect next ih =>
      obtain ⟨more, same, sends, steady⟩ := ih dispatcher
        { record with seen := record.seen ++ [dispatcher] }
      exact ⟨more, same, sends, fun before => steady (before.look record.sends)⟩

def Transport.sending (transport : Transport σ) (dispatcher : Dispatcher) (request : Request)
    (serial : String) (world : σ) : Sending :=
  ⟨request.code, serial, request.kind, (transport.answer dispatcher request serial world).1⟩

/-- A watched transport answers as before, puts down the send, and sees one dispatcher only. -/
theorem answer_watched (transport : Transport σ) (dispatcher : Dispatcher) (request : Request)
    (serial : String) (record : Record) (world : σ) :
    ∃ more : Record, transport.watched.answer dispatcher request serial (record, world) =
        ((transport.answer dispatcher request serial world).1, more,
          (transport.answer dispatcher request serial world).2) ∧
      more.sends = record.sends ++ [transport.sending dispatcher request serial world] ∧
      (record.Steady dispatcher → more.Steady dispatcher) := by
  obtain ⟨more, same, sends, steady⟩ := whileSending_watched dispatcher
    (fun reply => ⟨request.code, serial, request.kind, reply⟩)
    { record with seen := record.seen ++ [dispatcher] }
    (transport request.code serial request.kind world)
  exact ⟨more, same, sends, fun before => steady (before.look record.sends)⟩

/-- The part of a send that does not say what came of it. -/
def Sending.order (sending : Sending) : String × String × Kind :=
  (sending.code, sending.serial, sending.kind)

def Sending.result (sending : Sending) : Result :=
  .ofReply sending.serial sending.reply

/-- What a watched transport puts down while robots are sent to. -/
structure Record.Follows (record more : Record) (dispatcher : Dispatcher) (request : Request)
    (robots : List String) (results : List Result) : Prop where
  steady : record.Steady dispatcher → more.Steady dispatcher
  sends : ∃ sends, more.sends = record.sends ++ sends ∧
    sends.map Sending.order = robots.map (fun serial => (request.code, serial, request.kind)) ∧
    sends.map Sending.result = results

theorem sendEach_watched (transport : Transport σ) (dispatcher : Dispatcher) (request : Request)
    (robots : List String) (record : Record) (world : σ) :
    ∃ more : Record, sendEach (transport.watched.answer dispatcher request) robots (record, world) =
        ((sendEach (transport.answer dispatcher request) robots world).1, more,
          (sendEach (transport.answer dispatcher request) robots world).2) ∧
      record.Follows more dispatcher request robots
        (sendEach (transport.answer dispatcher request) robots world).1 := by
  induction robots generalizing record world with
  | nil => exact ⟨record, rfl, id, [], (List.append_nil _).symm, rfl, rfl⟩
  | cons serial rest ih =>
      obtain ⟨middle, first, sent, steady⟩ :=
        answer_watched transport dispatcher request serial record world
      obtain ⟨more, others, later, sends, put, orders, results⟩ :=
        ih middle (transport.answer dispatcher request serial world).2
      refine ⟨more, ?_, later ∘ steady,
        transport.sending dispatcher request serial world :: sends, ?_, ?_, ?_⟩
      · simp only [sendEach, first, others]
      · rw [put, sent, List.append_assoc, List.singleton_append]
      · exact congrArg (_ :: ·) orders
      · simp only [sendEach]
        exact congrArg (_ :: ·) results

/-- Watching a transport changes nothing about a request. -/
theorem settle_watched (schedule : Schedule) (transport : Transport σ) (request : Request)
    (dispatcher : Dispatcher) (world : σ) :
    ∃ more : Record, settle schedule transport.watched request dispatcher ({}, world) =
        ((settle schedule transport request dispatcher world).1,
          ⟨(settle schedule transport request dispatcher world).2.dispatcher, more,
            (settle schedule transport request dispatcher world).2.world⟩) ∧
      Record.Follows {} more dispatcher.taken request (schedule.order request.online)
        (sendEach (transport.answer dispatcher.taken request) (schedule.order request.online)
          world).1 := by
  unfold settle
  cases refused : request.refusal? with
  | some refusal =>
      have nobody : request.online = [] := request.refusal?_isSome.mp (by rw [refused]; rfl)
      have idle : schedule.order request.online = [] := by
        rw [nobody]
        exact (schedule.perm []).eq_nil
      rw [idle]
      exact ⟨{}, rfl, id, [], rfl, rfl, rfl⟩
  | none =>
      obtain ⟨more, same, follows⟩ := sendEach_watched transport dispatcher.taken request
        (schedule.order request.online) {} world
      refine ⟨more, ?_, follows⟩
      simp only [sendAll, same]

/-- The phase that a request with the given result ends in. -/
def finalPhase : Except Refusal Summary → Phase
  | .ok summary =>
      match summary.outcome with
      | .allSucceeded => .succeeded
      | .allFailed => .failed
      | .partialSuccess => .partiallySucceeded
  | .error _ => .failed

theorem finalPhase_ok (summary : Summary) :
    finalPhase (.ok summary) = .ofClass summary.outcome := by
  obtain ⟨_, outcome, _, _, _, _⟩ := summary
  cases outcome <;> rfl

theorem settle_dispatcher (schedule : Schedule) (transport : Transport σ) (request : Request)
    (dispatcher : Dispatcher) (world : σ) :
    (settle schedule transport request dispatcher world).2.dispatcher =
      .idleAfter (finalPhase (settle schedule transport request dispatcher world).1.result) := by
  unfold settle
  split
  · rfl
  · exact congrArg Dispatcher.idleAfter (finalPhase_ok _).symm

/-- A free dispatcher is free again after a request. -/
theorem dispatchOn_released (schedule : Schedule) (transport : Transport σ)
    {dispatcher : Dispatcher} (free : dispatcher.sending = false) (request : Request)
    (world : σ) :
    (dispatchOn schedule transport request ⟨dispatcher, world⟩).2.dispatcher.sending = false := by
  rw [dispatchOn_free schedule transport free, settle_dispatcher]
  rfl

theorem settle_ne_busy (schedule : Schedule) (transport : Transport σ) (request : Request)
    (dispatcher : Dispatcher) (world : σ) :
    (settle schedule transport request dispatcher world).1.result ≠ .error .busy := by
  unfold settle Request.refusal?
  split
  · rename_i refusal refused
    rintro ⟨⟩
    split at refused
    · cases refused
    · split at refused <;> cases refused
  · nofun

end Watching

/-! ## Calls one after the other -/

structure Call (σ : Type) where
  schedule : Schedule
  transport : Transport σ
  request : Request

section Calls

variable {σ : Type}

def Call.perform (call : Call σ) (state : State σ) : Answer × State σ :=
  dispatchOn call.schedule call.transport call.request state

def Call.watched (call : Call σ) : Call (Record × σ) :=
  ⟨call.schedule, call.transport.watched, call.request⟩

def Call.alone (call : Call σ) : Call σ :=
  { call with transport := call.transport.alone }

/-- The state after calls on a new dispatcher, the first call first. -/
def stateAfter (calls : List (Call σ)) (world : σ) : State σ :=
  calls.foldl (fun state call => (call.perform state).2) ⟨{}, world⟩

theorem stateAfter_free (calls : List (Call σ)) (world : σ) :
    (stateAfter calls world).dispatcher.sending = false := by
  induction calls using List.reverseRecOn with
  | nil => rfl
  | append_singleton calls call ih =>
      have last : stateAfter (calls ++ [call]) world = (call.perform (stateAfter calls world)).2 :=
        List.foldl_append
      rw [last]
      exact dispatchOn_released call.schedule call.transport ih call.request _

/--
However many calls have been made, the dispatcher takes the next one and is idle again afterwards,
with the phase of its result remembered.  While it sends, nothing that a send can see of it
changes, and every request that a send makes is refused, with one warning and without a send.
Answer and world are those of a transport that decides alike and sends no requests.
-/
theorem calls_exclusive (earlier : List (Call σ)) (call : Call σ) (world : σ) :
    let idle := stateAfter earlier world
    let outcome := call.perform idle
    let watched := call.watched.perform ⟨idle.dispatcher, {}, idle.world⟩
    let taken : Dispatcher := ⟨true, .dispatching, idle.dispatcher.lastPhase⟩
    outcome.1.result ≠ .error .busy ∧
      outcome.2.dispatcher = ⟨false, .idle, some (finalPhase outcome.1.result)⟩ ∧
      (∀ inner ∈ watched.2.world.1.inner, inner = .refused taken inner.request) ∧
      (∀ seen ∈ watched.2.world.1.seen, seen = taken) ∧
      (watched.1 = outcome.1 ∧ watched.2.dispatcher = outcome.2.dispatcher ∧
        watched.2.world.2 = outcome.2.world) ∧
      call.alone.perform idle = outcome := by
  have free := stateAfter_free earlier world
  revert free
  rcases stateAfter earlier world with ⟨dispatcher, start⟩
  intro free
  simp only [Call.perform, Call.watched, Call.alone, dispatchOn_free _ _ free]
  obtain ⟨more, same, follows⟩ :=
    settle_watched call.schedule call.transport call.request dispatcher start
  have steady := follows.steady (Record.steady_empty _)
  rw [same]
  exact ⟨settle_ne_busy _ _ _ _ _, settle_dispatcher _ _ _ _ _, steady.inner, steady.seen,
    ⟨rfl, rfl, rfl⟩, rfl⟩

end Calls

/-- A transport that sends what it is given to nobody and then delivers it. -/
def meddlingTransport : Transport Unit := fun code serial kind world =>
  .dispatch ⟨code, kind, default, default⟩ world fun _ world => .reply (.delivered serial) world

example :
    let request : Request := ⟨"wave", .action, { targets := ["R1"] }, ⟨[("R1", true)]⟩⟩
    let outcome := dispatch meddlingTransport.watched request ⟨{}, {}, ()⟩
    outcome.2.world.1.inner.map (·.before) = [⟨true, .dispatching, none⟩] ∧
      outcome.2.dispatcher = ⟨false, .idle, some .succeeded⟩ := by
  decide

end RobotBlocks.Dispatch
