import RobotBlocks.Catalog.Kind
import RobotBlocks.Notice
import RobotBlocks.Robots.Selection

/-!
# Requests, summaries and transports

A request names an action and says where it should go.  Its summary lists every robot that was
tried, in selection order, and every selected robot that was left out because it was offline.  A
transport sends to one robot; while it does so it may send another request on the same dispatcher
or look at the state of the dispatcher.
-/

namespace RobotBlocks.Dispatch

/-- Which robots are online; the latest entry for a robot counts, and others are offline. -/
structure Snapshot where
  latestFirst : List (String × Bool) := []
deriving DecidableEq, Inhabited

namespace Snapshot

def set (snapshot : Snapshot) (serial : String) (online : Bool) : Snapshot :=
  ⟨(serial, online) :: snapshot.latestFirst⟩

def isOnline (snapshot : Snapshot) (serial : String) : Bool :=
  match snapshot.latestFirst.find? fun entry => entry.1 == serial with
  | some (_, online) => online
  | none => false

end Snapshot

structure Request where
  code : String
  kind : Kind
  selection : Selection
  snapshot : Snapshot
deriving Inhabited

/-- What came of one robot. -/
structure Result where
  serial : String
  succeeded : Bool
  detail : String
deriving DecidableEq, Inhabited

inductive Class where
  | allSucceeded
  | allFailed
  | partialSuccess
deriving DecidableEq, Inhabited

namespace Class

def ofCounts (succeeded failed : Nat) : Class :=
  if failed = 0 then .allSucceeded
  else if succeeded = 0 then .allFailed
  else .partialSuccess

def word : Class → String
  | .allSucceeded => "AllSucceeded"
  | .allFailed => "AllFailed"
  | .partialSuccess => "PartialSuccess"

end Class

/-- What came of a request that was sent. -/
structure Summary where
  code : String
  outcome : Class
  succeeded : Nat
  failed : Nat
  /-- Selected robots that were left out. -/
  offline : List String
  /-- One entry per robot that was tried, in selection order. -/
  results : List Result
deriving DecidableEq, Inhabited

namespace Summary

def attempted (summary : Summary) : Nat :=
  summary.succeeded + summary.failed

def skipped (summary : Summary) : String :=
  if summary.offline.isEmpty then ""
  else "; skipped offline: " ++ String.intercalate ", " summary.offline

def notice (summary : Summary) : Notice :=
  match summary.outcome with
  | .allSucceeded =>
      let message := "Sent `" ++ summary.code ++ "` to " ++ toString summary.succeeded ++
        " robot(s)" ++ summary.skipped
      if summary.offline.isEmpty then .info message else .warning message
  | .partialSuccess =>
      .warning ("`" ++ summary.code ++ "` reached " ++ toString summary.succeeded ++ " of " ++
        toString summary.attempted ++ " robot(s), " ++ toString summary.failed ++ " failed" ++
        summary.skipped)
  | .allFailed =>
      .error ("`" ++ summary.code ++ "` failed on all " ++ toString summary.failed ++
        " robot(s)" ++ summary.skipped)

end Summary

/-- Why nothing was sent. -/
inductive Refusal where
  | noTargets
  | allOffline (offline : List String)
  | busy
deriving DecidableEq, Inhabited

namespace Refusal

def message : Refusal → String
  | .noTargets => "no robots selected"
  | .allOffline offline =>
      "all selected robots are offline: " ++ String.intercalate ", " offline
  | .busy => "a command is already being sent"

def notice : Refusal → Notice
  | .noTargets => .warning "No robots selected"
  | .allOffline offline =>
      .warning ("All selected robots are offline: " ++ String.intercalate ", " offline)
  | .busy => .warning "Still sending the previous command"

end Refusal

/-- What a request gives: its result and the one notice about it. -/
structure Answer where
  result : Except Refusal Summary
  notice : Notice

def Answer.ofResult : Except Refusal Summary → Answer
  | .ok summary => ⟨.ok summary, summary.notice⟩
  | .error refusal => ⟨.error refusal, refusal.notice⟩

inductive Phase where
  | idle
  | dispatching
  | succeeded
  | failed
  | partiallySucceeded
deriving DecidableEq, Inhabited

namespace Phase

def word : Phase → String
  | .idle => "Idle"
  | .dispatching => "Dispatching"
  | .succeeded => "Succeeded"
  | .failed => "Failed"
  | .partiallySucceeded => "PartiallySucceeded"

def ofClass : Class → Phase
  | .allSucceeded => .succeeded
  | .allFailed => .failed
  | .partialSuccess => .partiallySucceeded

def isFinal : Phase → Bool
  | .idle | .dispatching => false
  | _ => true

end Phase

structure Dispatcher where
  sending : Bool := false
  phase : Phase := .idle
  /-- The phase that the latest request ended in. -/
  lastPhase : Option Phase := none
deriving DecidableEq, Inhabited

inductive Reply where
  | delivered (detail : String)
  | failed (reason : String)
  | crashed
deriving DecidableEq

/-- What a transport does to send to one robot. -/
inductive Action (σ : Type) where
  /-- Answers and leaves the world as given. -/
  | reply (reply : Reply) (world : σ)
  /-- Sends another request on the same dispatcher and goes on with the answer. -/
  | dispatch (request : Request) (world : σ) (next : Answer → σ → Action σ)
  /-- Looks at the dispatcher. -/
  | inspect (next : Dispatcher → Action σ)

abbrev Transport (σ : Type) := (code serial : String) → Kind → σ → Action σ

end RobotBlocks.Dispatch
