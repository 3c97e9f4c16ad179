import RobotBlocks.Robots.Transport

/-!
# Dispatching

A request is sent to every selected robot that is online, and to no other.  The call waits for
all of them and gives one summary and one notice.  A dispatcher works on one request at a time.
-/

namespace RobotBlocks.Dispatch

structure State (σ : Type) where
  dispatcher : Dispatcher
  world : σ

namespace Dispatcher

/-- Enters a phase; a final phase is remembered. -/
def enter (dispatcher : Dispatcher) (phase : Phase) : Dispatcher :=
  { dispatcher with
    phase
    lastPhase := if phase.isFinal then some phase else dispatcher.lastPhase }

def release (dispatcher : Dispatcher) : Dispatcher :=
  { dispatcher.enter .idle with sending := false }

end Dispatcher

abbrev Sender (σ : Type) := Request → State σ → Answer × State σ

/-- Carries out what a transport does; `send` serves the requests that the transport makes. -/
def Action.perform {σ : Type} (send : Sender σ) : Action σ → State σ → Reply × State σ
  | .reply answer world, state => (answer, { state with world })
  | .dispatch request world next, state =>
      let (answer, state) := send request { state with world }
      (next answer state.world).perform send state
  | .inspect next, state => (next state.dispatcher).perform send state

def Result.ofReply (serial : String) : Reply → Result
  | .delivered detail => ⟨serial, true, detail⟩
  | .failed reason => ⟨serial, false, reason⟩
  | .crashed => ⟨serial, false, "transport panicked"⟩

/--
The order in which the workers of a pool get to the robots.  It comes of the number of workers and
of how long sends take; every robot has its turn once.
-/
structure Schedule where
  order : List String → List String
  perm : ∀ robots, (order robots).Perm robots

def Schedule.inOrder : Schedule := ⟨id, List.Perm.refl⟩

def sendEach {κ : Type} (deliver : String → κ → Reply × κ) : List String → κ → List Result × κ
  | [], state => ([], state)
  | serial :: rest, state =>
      let (reply, state) := deliver serial state
      let (results, state) := sendEach deliver rest state
      (.ofReply serial reply :: results, state)

/-- The results of robots in the order of the robots. -/
def collect (robots : List String) (results : List Result) : List Result :=
  robots.filterMap fun serial => results.find? fun result => result.serial == serial

/-- Sends to robots on a schedule.  The results are in the robots' own order nevertheless. -/
def sendAll {κ : Type} (schedule : Schedule) (deliver : String → κ → Reply × κ)
    (robots : List String) (state : κ) : List Result × κ :=
  let (results, state) := sendEach deliver (schedule.order robots) state
  (collect robots results, state)

def Summary.ofResults (code : String) (offline : List String) (results : List Result) : Summary :=
  let succeeded := results.countP (·.succeeded)
  let failed := results.countP (!·.succeeded)
  { code, outcome := .ofCounts succeeded failed, succeeded, failed, offline, results }

/-- The result of a request on a dispatcher that has been taken. -/
def resolve {σ : Type} (schedule : Schedule) (deliver : String → State σ → Reply × State σ)
    (request : Request) (state : State σ) : Except Refusal Summary × State σ :=
  let targets := request.selection.targets
  let (online, offline) := targets.partition request.snapshot.isOnline
  if targets.isEmpty then
    (.error .noTargets, { state with dispatcher := state.dispatcher.enter .failed })
  else if online.isEmpty then
    (.error (.allOffline offline), { state with dispatcher := state.dispatcher.enter .failed })
  else
    let state := { state with dispatcher := state.dispatcher.enter .dispatching }
    let (results, state) := sendAll schedule deliver online state
    let summary := Summary.ofResults request.code offline results
    (.ok summary, { state with dispatcher := state.dispatcher.enter (.ofClass summary.outcome) })

/--
Sends a request where at most `levels` requests may be inside each other.  A dispatcher that is
sending refuses a request, so that a request inside a request is refused at its start.
-/
def dispatchNested {σ : Type} (schedule : Schedule) (transport : Transport σ) :
    (levels : Nat) → Sender σ
  | 0, _, state => (.ofResult (.error .busy), state)
  | levels + 1, request, state =>
      if state.dispatcher.sending then
        (.ofResult (.error .busy), state)
      else
        let deliver := fun serial state =>
          (transport request.code serial request.kind state.world).perform
            (dispatchNested schedule transport levels) state
        let taken := { state with dispatcher := { state.dispatcher with sending := true } }
        let (result, state) := resolve schedule deliver request taken
        (.ofResult result, { state with dispatcher := state.dispatcher.release })

def dispatchOn {σ : Type} (schedule : Schedule) (transport : Transport σ) : Sender σ :=
  dispatchNested schedule transport 2

def dispatch {σ : Type} (transport : Transport σ) : Sender σ :=
  dispatchOn .inOrder transport

end RobotBlocks.Dispatch
