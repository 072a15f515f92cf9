import Mathlib.Algebra.BigOperators.Intervals
import Mathlib.Data.ENat.Lattice
import Mathlib.Order.Bounds.Basic
import ServiceKit.Retry.Execute

/-!
# What a run with retries does

A run makes the calls up to the first one that is final, at most one more than the policy allows
retries, and gives what the last of them gave.  Each call begins when the wait after the one before
it is over, and nothing follows the last one.
-/

namespace ServiceKit

variable {α : Type}

/-- No other call follows: the call succeeded, or failed for good. -/
def Call.isFinal (call : Call α) : Bool :=
  match call.result with
  | .ok _ => true
  | .error error => !error.isRetryable

theorem Call.exists_error_of_not_isFinal {call : Call α} (h : call.isFinal = false) :
    ∃ error, call.result = .error error ∧ error.isRetryable = true := by
  unfold Call.isFinal at h
  split at h
  · contradiction
  next error herror => exact ⟨error, herror, by simpa using h⟩

/-- The least index of a final call, infinite if there is none. -/
noncomputable def firstFinal (script : ℕ → Call α) : ℕ∞ :=
  sInf {k | ∃ i : ℕ, k = i ∧ (script i).isFinal = true}

theorem not_isFinal_of_lt_firstFinal {script : ℕ → Call α} {i : ℕ} (h : i < firstFinal script) :
    (script i).isFinal = false := by
  by_contra hfinal
  have hle : firstFinal script ≤ i := sInf_le ⟨i, rfl, Bool.of_not_eq_false hfinal⟩
  exact absurd h (not_lt.mpr hle)

theorem isFinal_of_firstFinal_eq {script : ℕ → Call α} {i : ℕ} (h : firstFinal script = i) :
    (script i).isFinal = true := by
  have hne : {k : ℕ∞ | ∃ i : ℕ, k = i ∧ (script i).isFinal = true}.Nonempty := by
    by_contra hempty
    rw [Set.not_nonempty_iff_eq_empty] at hempty
    rw [firstFinal, hempty, sInf_empty] at h
    exact absurd h (ENat.top_ne_natCast i)
  obtain ⟨j, hj, hfinal⟩ := csInf_mem hne
  have hij : (i : ℕ∞) = j := h.symm.trans hj
  rwa [ENat.natCast_inj.mp hij]

/-! ## How often an operation is tried again -/

namespace RetryPolicy

variable {policy : RetryPolicy} {script : ℕ → Call α} {delays : ℕ → ℕ} {attempt now : ℕ}

/-- The number of retries that a script needs: up to its first final call, within the budget. -/
noncomputable def retries (policy : RetryPolicy) (script : ℕ → Call α) : ℕ :=
  (min (firstFinal script) policy.maxRetries).toNat

theorem coe_retries (policy : RetryPolicy) (script : ℕ → Call α) :
    (policy.retries script : ℕ∞) = min (firstFinal script) policy.maxRetries := by
  apply ENat.natCast_toNat
  exact ne_top_of_le_ne_top (ENat.natCast_ne_top _) (min_le_right _ _)

theorem retries_le (policy : RetryPolicy) (script : ℕ → Call α) :
    policy.retries script ≤ policy.maxRetries := by
  rw [← ENat.natCast_le_natCast, coe_retries]
  exact min_le_right _ _

/-- A call that is neither final nor the last of the budget is followed by another one. -/
structure TriesAgain (policy : RetryPolicy) (script : ℕ → Call α) (attempt : ℕ) : Prop where
  lt : attempt < policy.maxRetries
  not_isFinal : (script attempt).isFinal = false

theorem triesAgain_of_lt_retries (h : attempt < policy.retries script) :
    TriesAgain policy script attempt where
  lt := Nat.lt_of_lt_of_le h (retries_le policy script)
  not_isFinal := by
    apply not_isFinal_of_lt_firstFinal
    have hlt : (attempt : ℕ∞) < policy.retries script := ENat.natCast_lt_natCast.mpr h
    rw [coe_retries] at hlt
    exact lt_of_lt_of_le hlt (min_le_left _ _)

theorem not_triesAgain_retries (policy : RetryPolicy) (script : ℕ → Call α) :
    ¬ TriesAgain policy script (policy.retries script) := by
  rintro ⟨hlt, hfinal⟩
  have hmin := coe_retries policy script
  -- the last call is final, or the budget is used up
  rcases min_choice (firstFinal script) (policy.maxRetries : ℕ∞) with hfirst | hbudget
  · rw [hfirst] at hmin
    rw [isFinal_of_firstFinal_eq hmin.symm] at hfinal
    contradiction
  · rw [hbudget, ENat.natCast_inj] at hmin
    omega

/-! ## When the calls begin -/

/-- When a call begins: after the calls before it and the waits behind them. -/
def beginning (delays : ℕ → ℕ) (script : ℕ → Call α) (j : ℕ) : ℕ :=
  ∑ i ∈ Finset.range j, ((script i).duration + delays i)

@[simp] theorem beginning_zero : beginning delays script 0 = 0 := rfl

theorem beginning_succ (j : ℕ) : beginning delays script (j + 1) =
    beginning delays script j + (script j).duration + delays j := by
  rw [beginning, Finset.sum_range_succ, ← Nat.add_assoc]
  rfl

/-- What is logged before the next call: nothing after a success. -/
def eventsAfter (delays : ℕ → ℕ) (script : ℕ → Call α) (attempt : ℕ) : List Logging.Event :=
  match (script attempt).result with
  | .ok _ => []
  | .error error => [retryEvent attempt (delays attempt) error]

/-! ## The loop -/

theorem executeFrom_of_triesAgain (delays : ℕ → ℕ) (now : ℕ)
    (h : TriesAgain policy script attempt) :
    ∃ event, eventsAfter delays script attempt = [event] ∧
      policy.executeFrom delays script attempt now =
        Run.after now event (policy.executeFrom delays script (attempt + 1)
          (now + (script attempt).duration + delays attempt)) := by
  obtain ⟨error, herror, hretryable⟩ := Call.exists_error_of_not_isFinal h.not_isFinal
  refine ⟨retryEvent attempt (delays attempt) error, by rw [eventsAfter, herror], ?_⟩
  have hretry : policy.shouldRetry error attempt = true := by
    simp [shouldRetry, h.lt, hretryable]
  rw [executeFrom]
  simp only [herror, hretry, dite_true]

theorem executeFrom_of_not_triesAgain (h : ¬ TriesAgain policy script attempt) :
    policy.executeFrom delays script attempt now = .single now (script attempt) := by
  rw [executeFrom]
  split
  next => rfl
  next error herror =>
    have hretry : policy.shouldRetry error attempt = false := by
      rw [Bool.eq_false_iff]
      intro hretry
      rw [shouldRetry, Bool.and_eq_true, decide_eq_true_eq] at hretry
      exact h ⟨hretry.1, by simp [Call.isFinal, herror, hretry.2]⟩
    rw [dif_neg (by simp [hretry])]

/-- A run from an attempt on makes the calls that are tried again and one more. -/
theorem executeFrom_eq (delays : ℕ → ℕ) (count : ℕ)
    (hbefore : ∀ i < count, TriesAgain policy script (attempt + i))
    (hlast : ¬ TriesAgain policy script (attempt + count)) :
    policy.executeFrom delays script attempt (beginning delays script attempt) = {
      result := (script (attempt + count)).result
      calls := (List.range' attempt (count + 1)).map (beginning delays script)
      finish := beginning delays script (attempt + count) + (script (attempt + count)).duration
      events := (List.range' attempt count).flatMap (eventsAfter delays script) } := by
  -- on the calls that are tried again: the first of them is put before the run from the next on
  induction count generalizing attempt with
  | zero => exact executeFrom_of_not_triesAgain hlast
  | succ count ih =>
      have hfirst : TriesAgain policy script attempt := hbefore 0 (Nat.succ_pos count)
      obtain ⟨event, hevent, heq⟩ :=
        executeFrom_of_triesAgain delays (beginning delays script attempt) hfirst
      have hnext : ∀ i, attempt + 1 + i = attempt + (i + 1) := fun i => by omega
      have hcalls : (List.range' attempt (count + 2)).map (beginning delays script) =
          beginning delays script attempt ::
            (List.range' (attempt + 1) (count + 1)).map (beginning delays script) := by
        rw [List.range'_succ, List.map_cons]
      have hevents : (List.range' attempt (count + 1)).flatMap (eventsAfter delays script) =
          event :: (List.range' (attempt + 1) count).flatMap (eventsAfter delays script) := by
        rw [List.range'_succ, List.flatMap_cons, hevent, List.singleton_append]
      have hbefore' : ∀ i < count, TriesAgain policy script (attempt + 1 + i) := by
        intro i hi
        rw [hnext]
        exact hbefore (i + 1) (Nat.succ_lt_succ hi)
      have hlast' : ¬ TriesAgain policy script (attempt + 1 + count) := by rwa [hnext]
      rw [heq, ← beginning_succ, ih hbefore' hlast', hcalls, hevents, hnext]
      rfl

/-- A run makes the calls up to the number of retries and gives what the last of them gave. -/
theorem execute_eq (policy : RetryPolicy) (draws : ℕ → Binary64) (script : ℕ → Call α) :
    let delays := fun attempt => policy.delayWith (draws attempt) attempt
    let last := policy.retries script
    policy.execute draws script = {
      result := (script last).result
      calls := (List.range (last + 1)).map (beginning delays script)
      finish := beginning delays script last + (script last).duration
      events := (List.range last).flatMap (eventsAfter delays script) } := by
  intro delays last
  have hbefore : ∀ i < last, TriesAgain policy script (0 + i) := by
    intro i hi
    rw [Nat.zero_add]
    exact triesAgain_of_lt_retries hi
  have hlast : ¬ TriesAgain policy script (0 + last) := by
    rw [Nat.zero_add]
    exact not_triesAgain_retries policy script
  have hrun := executeFrom_eq delays last hbefore hlast
  rw [beginning_zero, Nat.zero_add, ← List.range_eq_range', ← List.range_eq_range'] at hrun
  exact hrun

/-- A wait in whole milliseconds ends at the first of them that is not before its end. -/
theorem beginning_succ_isLeast (j : ℕ) :
    IsLeast {time | (beginning delays script j + (script j).duration) * 1000000 +
      (Duration.ofMillis (delays j)).nanos ≤ time * 1000000} (beginning delays script (j + 1)) := by
  have hsum : (beginning delays script j + (script j).duration) * 1000000 +
      (Duration.ofMillis (delays j)).nanos = beginning delays script (j + 1) * 1000000 := by
    rw [beginning_succ, Duration.ofMillis, ← Nat.add_mul]
  rw [hsum]
  constructor
  · exact Nat.le_refl _
  · intro time htime
    exact Nat.le_of_mul_le_mul_right htime (by decide)

/-! ## The contract of a run -/

/-- What a run of a script under a policy does, with the wait after each call. -/
structure Carries (policy : RetryPolicy) (delays : ℕ → ℕ) (script : ℕ → Call α) (last : ℕ)
    (run : Run α) : Prop where
  /-- The last call is the first that is final, or the last that the budget allows. -/
  last_eq : (last : ℕ∞) = min (firstFinal script) policy.maxRetries
  count : run.calls.length = last + 1
  /-- What the last call gave is passed on as it is. -/
  result : run.result = (script last).result
  /-- A call begins when the calls before it and the waits after them are over. -/
  begins : ∀ j (hj : j < run.calls.length),
    run.calls[j] = ∑ i ∈ Finset.range j, ((script i).duration + delays i)
  /-- A wait ends on the first whole millisecond that is not before its end. -/
  wakes : ∀ j (hj : j + 1 < run.calls.length),
    IsLeast {time | (run.calls[j] + (script j).duration) * 1000000 +
      (Duration.ofMillis (delays j)).nanos ≤ time * 1000000} run.calls[j + 1]
  /-- Nothing follows the last call. -/
  finish : run.finish =
    (∑ i ∈ Finset.range last, ((script i).duration + delays i)) + (script last).duration
  /-- Before each other call its attempt is logged. -/
  logged : run.events = (List.range last).flatMap (eventsAfter delays script)
  /-- A counter that can hold the budget can hold every attempt. -/
  counted : ∀ attempt < run.calls.length, attempt ≤ policy.maxRetries

/-- A run calls an operation until a call is final or the budget is used up. -/
theorem execute_carries (policy : RetryPolicy) (draws : ℕ → Binary64) (script : ℕ → Call α) :
    Carries policy (fun attempt => policy.delayWith (draws attempt) attempt) script
      (policy.retries script) (policy.execute draws script) := by
  rw [execute_eq]
  exact {
    last_eq := coe_retries policy script
    count := by simp
    result := rfl
    begins := by
      intro j hj
      rw [List.getElem_map, List.getElem_range, beginning]
    wakes := by
      intro j hj
      rw [List.getElem_map, List.getElem_map, List.getElem_range, List.getElem_range]
      exact beginning_succ_isLeast j
    finish := rfl
    logged := rfl
    counted := by
      intro attempt hattempt
      have hle := retries_le policy script
      simp only [List.length_map, List.length_range] at hattempt
      omega }

end RetryPolicy
end ServiceKit
