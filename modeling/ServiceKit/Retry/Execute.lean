import ServiceKit.Logging.Record
import ServiceKit.Retry.Policy

/-!
# Running an operation with retries

An operation is a script of calls, each with its duration and its result.  A run calls it until a
call succeeds, fails for good, or has used up the retries, and waits between calls.  Time is in
milliseconds.
-/

namespace ServiceKit

/-- One call of an operation. -/
structure Call (α : Type) where
  duration : Nat
  result : Except ServiceError α

/-- A run of an operation. -/
structure Run (α : Type) where
  /-- What the last call gave. -/
  result : Except ServiceError α
  /-- When the calls began. -/
  calls : List Nat
  /-- When the run ended. -/
  finish : Nat
  /-- What was logged. -/
  events : List Logging.Event

namespace Run

/-- The run of a single call. -/
def single (now : Nat) (call : Call α) : Run α :=
  ⟨call.result, [now], now + call.duration, []⟩

/-- The run with a call and an event put before it. -/
def after (now : Nat) (event : Logging.Event) (rest : Run α) : Run α :=
  { rest with calls := now :: rest.calls, events := event :: rest.events }

end Run

namespace RetryPolicy

/-- The event before another attempt. -/
def retryEvent (attempt delay : Nat) (error : ServiceError) : Logging.Event :=
  ⟨.debug, "Retrying operation",
    [("attempt", .number attempt), ("delay", .text (Duration.ofMillis delay).text),
      ("error", .text error.message)]⟩

/-- Runs an operation from an attempt on.  `delays` gives the wait after each attempt. -/
def executeFrom (policy : RetryPolicy) (delays : Nat → Nat) (script : Nat → Call α)
    (attempt now : Nat) : Run α :=
  let call := script attempt
  match call.result with
  | .ok _ => .single now call
  | .error error =>
    if _h : policy.shouldRetry error attempt then
      Run.after now (retryEvent attempt (delays attempt) error)
        (executeFrom policy delays script (attempt + 1) (now + call.duration + delays attempt))
    else .single now call
termination_by policy.maxRetries - attempt
decreasing_by
  simp only [shouldRetry, Bool.and_eq_true, decide_eq_true_eq] at _h
  omega

/-- Runs an operation from time zero, with a random draw for each wait. -/
def execute (policy : RetryPolicy) (draws : Nat → Binary64) (script : Nat → Call α) : Run α :=
  policy.executeFrom (fun attempt => policy.delayWith (draws attempt) attempt) script 0 0

end RetryPolicy
end ServiceKit
