import ServiceKit.Lifecycle.Hook

/-!
# Failures and shutdown reports

A failure says which hook of which item failed and why.  A report lists the failures of a shutdown:
first those of closers that ended, in the order they ended, then one for each closer that was
aborted, in the order of registration.
-/

namespace ServiceKit
namespace Lifecycle

/-- A hook that failed, panicked or was aborted. -/
structure Failure where
  phase : Phase
  name : String
  reason : String
  deriving DecidableEq, Repr

/-- The text of a failure. -/
def Failure.text (failure : Failure) : String :=
  failure.phase.text ++ " of " ++ failure.name ++ " failed: " ++ failure.reason

/-- A failure with the time at which the hook ended. -/
structure TimedFailure where
  time : Nat
  failure : Failure
  deriving DecidableEq, Repr

/-- The failures of a hook that ends: none or one. -/
def TimedFailure.ofEnding (time : Nat) (phase : Phase) (name : String) (ending : Ending) :
    List TimedFailure :=
  match ending.reason? with
  | some reason => [⟨time, ⟨phase, name, reason⟩⟩]
  | none => []

/-- The order by time, then name, then reason. -/
def TimedFailure.le (a b : TimedFailure) : Bool :=
  ((compare a.time b.time).then ((compare a.failure.name b.failure.name).then
    (compare a.failure.reason b.failure.reason))).isLE

/-- The failures in the order of their times, those of one time by name and reason. -/
def listing (failures : List TimedFailure) : List Failure :=
  (failures.mergeSort TimedFailure.le).map TimedFailure.failure

/-- The outcome of a shutdown. -/
structure Report where
  closersRun : Nat
  /-- Failures of closers that ended, in the order they ended. -/
  ended : List TimedFailure
  /-- Failures of closers that were aborted, in the order of registration. -/
  aborted : List Failure
  timedOut : Bool
  deriving DecidableEq, Repr

namespace Report

/-- The report of a call that did not begin the shutdown. -/
def empty : Report := ⟨0, [], [], false⟩

/-- All failures. -/
def failures (report : Report) : List Failure :=
  report.ended.map TimedFailure.failure ++ report.aborted

/-- Every closer succeeded in time. -/
def isClean (report : Report) : Bool :=
  report.failures.isEmpty && !report.timedOut

/-- All failures, with those of one time by name and reason. -/
def listing (report : Report) : List Failure :=
  Lifecycle.listing report.ended ++ report.aborted

end Report

/-- The reason given for a closer aborted at the end of a limit. -/
def abortReason (limit : Duration) : String :=
  "aborted after " ++ limit.text ++ " shutdown timeout"

/-- How far a manager is. -/
inductive State where
  /-- Registrations are accepted. -/
  | running
  /-- The shutdown has begun. -/
  | closing
  /-- The shutdown is complete. -/
  | closed
  deriving DecidableEq, Repr

/-- The name of a state. -/
def State.text : State → String
  | .running => "Running"
  | .closing => "Closing"
  | .closed => "Closed"

end Lifecycle
end ServiceKit
