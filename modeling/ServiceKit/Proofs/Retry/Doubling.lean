import ServiceKit.Proofs.Retry.Backoff
import ServiceKit.Proofs.Retry.Interval

/-!
# Waiting with doubling waits

Waiting for readiness makes the checks up to the first one that finds the dependency ready, at most
one more than it is given retries.  The wait after each of the others is a second shifted by the
number of checks before it.  The binary64 power behind it is exact, and far beyond 64 bits it
saturates instead of wrapping, so the waits are exact sums of powers of two until they stay at the
greatest number of milliseconds.
-/

namespace ServiceKit
namespace Readiness

open RetryPolicy
open Binary64 hiding min

variable {script : ℕ → Check} {delays : ℕ → ℕ} {maxRetries last i j k attempt : ℕ}

/-! ## The waits -/

/-- A second doubled for each attempt, at most the greatest number of milliseconds. -/
def doubled (attempt : ℕ) : ℕ :=
  min (1000 <<< attempt) (2 ^ 64 - 1)

theorem doubled_pos (attempt : ℕ) : 0 < doubled attempt := by
  rw [doubled, Nat.shiftLeft_eq]
  exact lt_min (Nat.mul_pos (by decide) (Nat.two_pow_pos attempt)) (by decide)

theorem doubled_mono (h : i ≤ j) : doubled i ≤ doubled j := by
  rw [doubled, doubled, Nat.shiftLeft_eq, Nat.shiftLeft_eq]
  exact min_le_min_right _ (Nat.mul_le_mul_left 1000 (Nat.pow_le_pow_right (by decide) h))

theorem greatestDelay_readiness (maxRetries : ℕ) :
    (readiness maxRetries).greatestDelay = 2 ^ 64 - 1 := by
  have hgreatest : truncate longestMillis (ofNat Duration.longest.millis) = 2 ^ 64 - 1 := by
    decide +kernel
  exact hgreatest

/-- The wait of the readiness policy is exact until it saturates. -/
theorem delayWith_readiness (h : attempt < 2 ^ 31) (draw : Binary64) :
    (readiness maxRetries).delayWith draw attempt = doubled attempt := by
  have hpolicy : (readiness maxRetries).Geometric 2 := geometric_readiness maxRetries
  -- a second times a power of two keeps its significant bits, however great it is
  have hshort : ∀ k, IsShort ((readiness maxRetries).initialDelay.millis * 2 ^ k) := by
    intro k
    rw [millis_readiness]
    exact (isShort_of_le (by decide)).mul_two_pow k
  have hagrees := hpolicy.agreesUpTo_uncapped (isCap_two_pow (e := 64) (by decide))
    (fun k => .inl (isShort_two_pow k)) (fun k => .inl (hshort k)) h
  have hgreatest := greatestDelay_readiness maxRetries
  rw [delayWith_eq_delay hpolicy.jitter,
    delay_of_agreesUpTo hagrees (by rw [hgreatest]; decide), hgreatest, millis_readiness,
    doubled, Nat.shiftLeft_eq]
  exact min_eq_left (min_le_right _ _)

/-! ## The checks -/

/-- The last check: the first that finds the dependency ready, or the last that the budget allows. -/
structure IsLast (script : ℕ → Check) (maxRetries last : ℕ) : Prop where
  le : last ≤ maxRetries
  not_ready : ∀ i < last, (script i).ready = false
  ends : (script last).ready = true ∨ last = maxRetries

theorem exists_isLast (script : ℕ → Check) (maxRetries : ℕ) :
    ∃ last, IsLast script maxRetries last := by
  have hexists : ∃ k, (script k).ready = true ∨ maxRetries ≤ k := ⟨maxRetries, .inr le_rfl⟩
  refine ⟨Nat.find hexists, Nat.find_min' hexists (.inr le_rfl), ?_, ?_⟩
  · intro i hi
    have hgoesOn := Nat.find_min hexists hi
    rw [not_or, Bool.not_eq_true] at hgoesOn
    exact hgoesOn.1
  · rcases Nat.find_spec hexists with hready | hle
    · exact .inl hready
    · exact .inr (Nat.le_antisymm (Nat.find_min' hexists (.inr le_rfl)) hle)

theorem IsLast.ready_iff (h : IsLast script maxRetries last) :
    (script last).ready = true ↔ ∃ k ≤ maxRetries, (script k).ready = true := by
  constructor
  · intro hready
    exact ⟨last, h.le, hready⟩
  · rintro ⟨k, hk, hready⟩
    have hle : last ≤ k := by
      by_contra hlt
      rw [h.not_ready k (Nat.lt_of_not_le hlt)] at hready
      contradiction
    rcases h.ends with hlast | rfl
    · exact hlast
    · rwa [Nat.le_antisymm hle hk]

theorem IsLast.lt_succ_iff (h : IsLast script maxRetries last) :
    k < last + 1 ↔ k ≤ maxRetries ∧ ∀ i < k, (script i).ready = false := by
  constructor
  · intro hk
    exact ⟨(Nat.le_of_lt_succ hk).trans h.le,
      fun i hi => h.not_ready i (Nat.lt_of_lt_of_le hi (Nat.le_of_lt_succ hk))⟩
  · rintro ⟨hk, hbefore⟩
    rw [Nat.lt_succ_iff]
    by_contra hlt
    rw [not_le] at hlt
    rcases h.ends with hready | rfl
    · rw [hbefore last hlt] at hready
      contradiction
    · exact absurd hk (Nat.not_le.mpr hlt)

/-- A series of checks up to the last one. -/
structure Poll.EndsAt (poll : Poll) (delays : ℕ → ℕ) (script : ℕ → Check) (last : ℕ) : Prop where
  ready : poll.ready = (script last).ready
  calls : poll.calls = (List.range (last + 1)).map (startTime delays script)
  finish : poll.finish = startTime delays script last + (script last).duration

theorem IsLast.endsAt (h : IsLast script maxRetries last) (delays : ℕ → ℕ) :
    (pollFrom maxRetries delays script 0 0).EndsAt delays script last := by
  -- the series goes the way of an operation, whose run is known as a whole
  let policy : RetryPolicy := readiness maxRetries
  let tried : ℕ → Call Unit := operation script (fun _ => ()) fun _ => ""
  have hbefore : ∀ i < last, TriesAgain policy tried (0 + i) := by
    intro i hi
    rw [Nat.zero_add]
    exact triesAgain_operation_iff.mpr ⟨h.not_ready i hi, Nat.lt_of_lt_of_le hi h.le⟩
  have hlast : ¬ TriesAgain policy tried (0 + last) := by
    rw [Nat.zero_add, triesAgain_operation_iff]
    rintro ⟨hready, hlt⟩
    rcases h.ends with hends | rfl
    · exact Bool.false_ne_true (hready.symm.trans hends)
    · exact Nat.lt_irrefl _ hlt
  have hfollows := pollFrom_follows policy delays script (fun _ => ()) (fun _ => "") 0 0
  have hrun := executeFrom_eq delays last hbefore hlast
  rw [beginning_zero, Nat.zero_add, ← List.range_eq_range'] at hrun
  have hsuccess := (follows_single (script last) () "" 0).ready_iff
  exact {
    ready := Bool.eq_iff_iff.mpr ((hrun ▸ hfollows.ready_iff).trans hsuccess.symm)
    calls := hfollows.calls.trans (congrArg Run.calls hrun)
    finish := hfollows.finish.trans (congrArg Run.finish hrun) }

/-- The time between the end of a check and the beginning of the next. -/
def Poll.waitAfter (poll : Poll) (script : ℕ → Check) (j : ℕ) (hj : j + 1 < poll.calls.length) :
    ℕ :=
  poll.calls[j + 1] - (poll.calls[j] + (script j).duration)

theorem Poll.EndsAt.congr {poll : Poll} {delays' : ℕ → ℕ} (h : poll.EndsAt delays script last)
    (heq : ∀ j < last, delays j = delays' j) : poll.EndsAt delays' script last := by
  have hstart : ∀ k ≤ last, startTime delays script k = startTime delays' script k := by
    intro k hk
    refine Finset.sum_congr rfl fun j hj => ?_
    rw [heq j (Nat.lt_of_lt_of_le (Finset.mem_range.mp hj) hk)]
  exact {
    ready := h.ready
    calls := by
      rw [h.calls]
      refine List.map_congr_left fun k hk => hstart k ?_
      exact Nat.le_of_lt_succ (List.mem_range.mp hk)
    finish := by rw [h.finish, hstart last le_rfl] }

section EndsAt

variable {poll : Poll} (h : poll.EndsAt delays script last)

include h

theorem Poll.EndsAt.length_calls : poll.calls.length = last + 1 := by
  rw [h.calls, List.length_map, List.length_range]

theorem Poll.EndsAt.getElem_calls (hk : k < poll.calls.length) :
    poll.calls[k] = startTime delays script k := by
  simp only [h.calls, List.getElem_map, List.getElem_range]

theorem Poll.EndsAt.waitAfter_eq (hj : j + 1 < poll.calls.length) :
    poll.waitAfter script j hj = delays j := by
  rw [Poll.waitAfter, h.getElem_calls, h.getElem_calls, startTime_succ, Nat.add_sub_cancel_left]

end EndsAt

/-! ## The contract of waiting -/

/-- What waiting with doubling waits does. -/
structure AwaitsDoubling (script : ℕ → Check) (maxRetries : ℕ) (poll : Poll) : Prop where
  ready_iff : poll.ready = true ↔ ∃ k ≤ maxRetries, (script k).ready = true
  /-- A check is made if the budget allows it and no check before it succeeded. -/
  makes_iff : ∀ k, k < poll.calls.length ↔ k ≤ maxRetries ∧ ∀ i < k, (script i).ready = false
  count : poll.calls.length ≤ maxRetries + 1
  /-- A check begins when the checks before it and the waits behind them are over. -/
  begins : ∀ k (hk : k < poll.calls.length), poll.calls[k] =
    ∑ j ∈ Finset.range k, ((script j).duration + min (1000 * 2 ^ j) (2 ^ 64 - 1))
  /-- A wait is a shifted second until it saturates. -/
  wait : ∀ j (hj : j + 1 < poll.calls.length),
    poll.waitAfter script j hj = min (1000 <<< j) (2 ^ 64 - 1)
  wait_pos : ∀ j (hj : j + 1 < poll.calls.length), 0 < poll.waitAfter script j hj
  wait_mono : ∀ i j (hi : i + 1 < poll.calls.length) (hj : j + 1 < poll.calls.length), i ≤ j →
    poll.waitAfter script i hi ≤ poll.waitAfter script j hj
  /-- Nothing follows the last check. -/
  finish : ∀ last (hlast : last < poll.calls.length), poll.calls.length = last + 1 →
    poll.finish = poll.calls[last] + (script last).duration

/-- Waiting for readiness makes the first checks with doubling waits between them. -/
theorem await_doubles (script : ℕ → Check) (h : maxRetries < 2 ^ 31) :
    AwaitsDoubling script maxRetries (await script maxRetries) := by
  obtain ⟨last, hlast⟩ := exists_isLast script maxRetries
  have hdrawn : (await script maxRetries).EndsAt
      (fun attempt => (readiness maxRetries).delayWith (.finite false 0) attempt) script last :=
    hlast.endsAt _
  have hends : (await script maxRetries).EndsAt doubled script last := by
    refine hdrawn.congr fun j hj => delayWith_readiness ?_ _
    exact Nat.lt_trans (Nat.lt_of_lt_of_le hj hlast.le) h
  exact {
    ready_iff := hends.ready ▸ hlast.ready_iff
    makes_iff := fun k => hends.length_calls ▸ hlast.lt_succ_iff
    count := hends.length_calls ▸ Nat.succ_le_succ hlast.le
    begins := by
      intro k hk
      simp only [hends.getElem_calls, startTime, doubled, Nat.shiftLeft_eq]
    wait := fun j hj => hends.waitAfter_eq hj
    wait_pos := fun j hj => hends.waitAfter_eq hj ▸ doubled_pos j
    wait_mono := by
      intro i j hi hj hij
      rw [hends.waitAfter_eq, hends.waitAfter_eq]
      exact doubled_mono hij
    finish := by
      intro k hk hlength
      have hk' : last = k := Nat.succ_injective (hends.length_calls.symm.trans hlength)
      rw [hends.getElem_calls, hends.finish, hk'] }

/-- The greatest budget, for a dependency that is ready when the waits have long been saturated. -/
theorem await_doubles_saturated :
    2147483647 < 2 ^ 31 ∧
      AwaitsDoubling (flaky (some 2000) 20) 2147483647
        (await (flaky (some 2000) 20) 2147483647) :=
  ⟨by decide, await_doubles (flaky (some 2000) 20) (by decide)⟩

end Readiness
end ServiceKit
