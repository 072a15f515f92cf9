import ServiceKit.Proofs.Retry.Execution
import ServiceKit.Retry.Readiness

/-!
# Polling is executing

A series of readiness checks goes the way of an operation that succeeds where a check finds the
dependency ready and is unavailable where it does not: the same calls at the same times, and success
exactly where the series finds the dependency ready.
-/

namespace ServiceKit
namespace Readiness

open RetryPolicy

variable {α : Type}

/-- The call of an operation that gives a value where a check finds the dependency ready, and is
unavailable where it does not. -/
def Check.call (check : Check) (value : α) (detail : String) : Call α :=
  ⟨check.duration, if check.ready then .ok value else .error (.unavailable detail)⟩

/-- The operation for a series of checks, with a value and a detail for each attempt. -/
def operation (script : ℕ → Check) (value : ℕ → α) (detail : ℕ → String) (attempt : ℕ) : Call α :=
  (script attempt).call (value attempt) (detail attempt)

variable {policy : RetryPolicy} {script : ℕ → Check} {value : ℕ → α} {detail : ℕ → String}

theorem Check.isFinal_call (check : Check) (value : α) (detail : String) :
    (check.call value detail).isFinal = check.ready := by
  unfold Call.isFinal Check.call
  cases check.ready with
  | true => rfl
  | false => rfl

/-- The operation is tried again where another check is made. -/
theorem triesAgain_operation_iff {attempt : ℕ} :
    TriesAgain policy (operation script value detail) attempt ↔
      (script attempt).ready = false ∧ attempt < policy.maxRetries := by
  constructor
  · rintro ⟨hlt, hagain⟩
    rw [operation, Check.isFinal_call] at hagain
    exact ⟨hagain, hlt⟩
  · rintro ⟨hready, hlt⟩
    refine ⟨hlt, ?_⟩
    rw [operation, Check.isFinal_call, hready]

/-- A series of checks goes the way of a run of an operation. -/
structure Poll.Follows (poll : Poll) (run : Run α) : Prop where
  calls : poll.calls = run.calls
  finish : poll.finish = run.finish
  ready_iff : poll.ready = true ↔ ∃ value, run.result = .ok value
  /-- Both log once before each other call. -/
  logged : poll.events.length = run.events.length

theorem follows_single (check : Check) (value : α) (detail : String) (now : ℕ) :
    (Poll.single now check).Follows (Run.single now (check.call value detail)) where
  calls := rfl
  finish := rfl
  ready_iff := by
    unfold Poll.single Run.single Check.call
    cases check.ready with
    | true => simp
    | false => simp
  logged := rfl

theorem Poll.Follows.after {poll : Poll} {run : Run α} (h : poll.Follows run) (now : ℕ)
    (backOff retry : Logging.Event) :
    (Poll.after now [backOff] poll).Follows (Run.after now retry run) where
  calls := congrArg (now :: ·) h.calls
  finish := h.finish
  ready_iff := h.ready_iff
  logged := congrArg (· + 1) h.logged

/-- From any attempt on, at any time and with any waits, both loops do the same. -/
theorem pollFrom_follows (policy : RetryPolicy) (delays : ℕ → ℕ) (script : ℕ → Check)
    (value : ℕ → α) (detail : ℕ → String) (attempt now : ℕ) :
    (pollFrom policy.maxRetries delays script attempt now).Follows
      (policy.executeFrom delays (operation script value detail) attempt now) := by
  -- one loop tests the answer before the budget and the other both at once
  fun_induction pollFrom policy.maxRetries delays script attempt now with
  | case1 attempt now check hready =>
      have hlast : ¬ TriesAgain policy (operation script value detail) attempt := by
        rw [triesAgain_operation_iff]
        rintro ⟨hunready, -⟩
        exact Bool.false_ne_true (hunready.symm.trans hready)
      rw [executeFrom_of_not_triesAgain hlast]
      exact follows_single _ _ _ now
  | case2 attempt now check hready hlt ih =>
      have hagain : TriesAgain policy (operation script value detail) attempt :=
        triesAgain_operation_iff.mpr ⟨eq_false_of_ne_true hready, hlt⟩
      obtain ⟨event, -, heq⟩ := executeFrom_of_triesAgain delays now hagain
      rw [heq]
      exact ih.after now _ event
  | case3 attempt now check hready hlt =>
      have hlast : ¬ TriesAgain policy (operation script value detail) attempt :=
        fun hagain => hlt hagain.lt
      rw [executeFrom_of_not_triesAgain hlast]
      exact follows_single _ _ _ now

/-- Without jitter nothing is drawn for a wait. -/
theorem delayWith_eq_delay {policy : RetryPolicy} (hjitter : policy.jitter = false)
    (draw : Binary64) (attempt : ℕ) : policy.delayWith draw attempt = policy.delay attempt := by
  rw [delayWith, hjitter, if_neg Bool.false_ne_true]

/-- Polling with the waits of a policy without jitter goes the way of the operation under that
policy, whatever its values and the details of its errors are. -/
theorem poll_follows_execute (policy : RetryPolicy) (hjitter : policy.jitter = false)
    (draws draws' : ℕ → Binary64) (script : ℕ → Check) (value : ℕ → α) (detail : ℕ → String) :
    (poll policy draws script).Follows
      (policy.execute draws' (operation script value detail)) := by
  unfold poll execute
  simp only [delayWith_eq_delay hjitter]
  exact pollFrom_follows policy policy.delay script value detail 0 0

/-- The largest budget of 32 bits, for a dependency that is ready at the fourth check. -/
theorem poll_follows_execute_four :
    (readiness 4294967295).jitter = false ∧
      (poll (readiness 4294967295) (fun _ => .one) (flaky (some 3) 20)).Follows
        ((readiness 4294967295).execute (fun _ => .nan)
          (operation (flaky (some 3) 20) id fun _ => "not yet")) :=
  ⟨rfl, poll_follows_execute (readiness 4294967295) rfl (fun _ => .one) (fun _ => .nan)
    (flaky (some 3) 20) id fun _ => "not yet"⟩

end Readiness
end ServiceKit
