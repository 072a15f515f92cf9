import ServiceKit.Logging.Record
import ServiceKit.Retry.Policy

/-!
# Waiting for readiness

A readiness check is a script of calls, each with its duration and its answer.  A dependency is
polled with growing waits for a number of attempts, or at an interval until a deadline.  Time is in
milliseconds, and a wait that ends within one lasts to its end.
-/

namespace ServiceKit
namespace Readiness

/-- One readiness check. -/
structure Check where
  duration : Nat
  ready : Bool
  deriving DecidableEq, Repr

/-- A series of checks. -/
structure Poll where
  /-- The last check found the dependency ready. -/
  ready : Bool
  /-- When the checks began. -/
  calls : List Nat
  /-- When the series ended. -/
  finish : Nat
  /-- What was logged. -/
  events : List Logging.Event
  deriving DecidableEq, Repr

namespace Poll

/-- The series of a single check. -/
def single (now : Nat) (check : Check) : Poll :=
  ⟨check.ready, [now], now + check.duration, []⟩

/-- The series with a check and events put before it. -/
def after (now : Nat) (events : List Logging.Event) (rest : Poll) : Poll :=
  { rest with calls := now :: rest.calls, events := events ++ rest.events }

end Poll

/-- The event before another check. -/
def backOffEvent (attempt delay : Nat) : Logging.Event :=
  ⟨.debug, "Not ready, backing off",
    [("attempt", .number attempt), ("delay", .text (Duration.ofMillis delay).text)]⟩

/-- Polls from an attempt on; no wait follows the last attempt. -/
def pollFrom (maxRetries : Nat) (delays : Nat → Nat) (script : Nat → Check)
    (attempt now : Nat) : Poll :=
  let check := script attempt
  if check.ready then .single now check
  else if attempt < maxRetries then
    Poll.after now [backOffEvent attempt (delays attempt)]
      (pollFrom maxRetries delays script (attempt + 1) (now + check.duration + delays attempt))
  else .single now check
termination_by maxRetries - attempt

/-- Polls with the waits of a policy, with a random draw for each. -/
def poll (policy : RetryPolicy) (draws : Nat → Binary64) (script : Nat → Check) : Poll :=
  pollFrom policy.maxRetries (fun attempt => policy.delayWith (draws attempt) attempt) script 0 0

/-- Polls with waits that double from one second. -/
def await (script : Nat → Check) (maxRetries : Nat) : Poll :=
  poll (.readiness maxRetries) (fun _ => .finite false 0) script

/-- The deadline for a timeout in nanoseconds; none if the clock cannot represent it. -/
def deadline? (timeout : Duration) : Option Nat :=
  if timeout.fitsClock then some timeout.nanos else none

/-- A time in milliseconds lies before a deadline; every time does if there is none. -/
def isBefore (now : Nat) : Option Nat → Bool
  | none => true
  | some nanos => now * 1000000 < nanos

/-- Polls at an interval from a check on, until the deadline; the deadline is looked at before every
check.  At most `fuel` checks are made, and `none` says that more would have been. -/
def awaitIntervalFrom (script : Nat → Check) (interval : Nat) (deadline : Option Nat) :
    Nat → Nat → Nat → Option Poll
  | fuel, k, now =>
    if isBefore now deadline then
      match fuel with
      | 0 => none
      | fuel + 1 =>
        let check := script k
        if check.ready then some (.single now check)
        else
          (awaitIntervalFrom script interval deadline fuel (k + 1)
            (now + check.duration + interval)).map (Poll.after now [])
    else some ⟨false, [], now, []⟩

/-- Polls at an interval from time zero until a timeout has passed. -/
def awaitInterval (script : Nat → Check) (interval timeout : Duration) (fuel : Nat) :
    Option Poll :=
  awaitIntervalFrom script interval.millisUp (deadline? timeout) fuel 0 0

/-- The checks of a dependency that fails a number of times, or always, and is ready from then on;
every check takes the same time. -/
def flaky (failures : Option Nat) (duration : Nat) (k : Nat) : Check :=
  ⟨duration, match failures with
    | none => false
    | some n => n ≤ k⟩

/-- A number of checks that suffices for a flaky dependency, if any does: one more than it fails, or
one for each step up to the deadline. -/
def flakyFuel (failures : Option Nat) (duration : Nat) (interval timeout : Duration) : Nat :=
  match failures with
  | some n => n + 1
  | none => timeout.millisUp / max 1 (duration + interval.millisUp) + 1

end Readiness
end ServiceKit
