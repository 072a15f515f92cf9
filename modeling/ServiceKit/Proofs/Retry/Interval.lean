import Mathlib.Algebra.BigOperators.Intervals
import Mathlib.Order.Bounds.Basic
import ServiceKit.Retry.Readiness

/-!
# Polling at an interval

A series of checks looks at its deadline before every check.  It makes the checks whose time lies
before the deadline, up to the first one that finds the dependency ready, and gives up at the first
time that does not.  A series need not end: it goes on as long as no check succeeds and time stands
still or there is no deadline.  The rules below say when it comes to which check; the function that
polls gives exactly what they end in, and nothing yet as long as they go on.
-/

namespace ServiceKit
namespace Readiness

/-- A time lies before the end of a timeout that began at time zero; every time does if the clock
cannot represent that end. -/
def Precedes (time : ℕ) (timeout : Duration) : Prop :=
  timeout.fitsClock = true → time * 1000000 < timeout.nanos

/-- When a check begins: after the checks before it and the waits behind them. -/
def startTime (waits : ℕ → ℕ) (script : ℕ → Check) (k : ℕ) : ℕ :=
  ∑ j ∈ Finset.range k, ((script j).duration + waits j)

/-- When a check begins if each wait is a rounded interval. -/
def checkTime (script : ℕ → Check) (interval : Duration) (k : ℕ) : ℕ :=
  startTime (fun _ => interval.millisUp) script k

/-- At a time the series has made `k` checks and looks at the deadline. -/
inductive Comes (script : ℕ → Check) (interval timeout : Duration) : ℕ → ℕ → Prop where
  | first : Comes script interval timeout 0 0
  | next {k time : ℕ} (hcomes : Comes script interval timeout k time)
      (hbefore : Precedes time timeout) (hready : (script k).ready = false) :
      Comes script interval timeout (k + 1) (time + (script k).duration + interval.millisUp)

/-- At a time the series makes check `k`. -/
structure Makes (script : ℕ → Check) (interval timeout : Duration) (k time : ℕ) : Prop where
  comes : Comes script interval timeout k time
  precedes : Precedes time timeout

/-- The series that the rules end in. -/
inductive Outcome (script : ℕ → Check) (interval timeout : Duration) : Poll → Prop where
  | ready {k time : ℕ} (hmakes : Makes script interval timeout k time)
      (hready : (script k).ready = true) :
      Outcome script interval timeout
        ⟨true, (List.range (k + 1)).map (checkTime script interval),
          time + (script k).duration, []⟩
  | late {k time : ℕ} (hcomes : Comes script interval timeout k time)
      (hlate : ¬ Precedes time timeout) :
      Outcome script interval timeout
        ⟨false, (List.range k).map (checkTime script interval), time, []⟩

variable {script : ℕ → Check} {interval timeout : Duration} {k time fuel : ℕ} {poll : Poll}

/-! ## Times -/

theorem startTime_succ {waits : ℕ → ℕ} (k : ℕ) : startTime waits script (k + 1) =
    startTime waits script k + (script k).duration + waits k := by
  rw [startTime, Finset.sum_range_succ, ← Nat.add_assoc]
  rfl

@[simp] theorem checkTime_zero : checkTime script interval 0 = 0 := rfl

theorem checkTime_succ (k : ℕ) : checkTime script interval (k + 1) =
    checkTime script interval k + (script k).duration + interval.millisUp :=
  startTime_succ k

theorem checkTime_mono {j k : ℕ} (hjk : j ≤ k) :
    checkTime script interval j ≤ checkTime script interval k := by
  induction k, hjk using Nat.le_induction with
  | base => exact Nat.le_refl _
  | succ k hjk ih =>
      rw [checkTime_succ]
      omega

/-- Where every check or the wait behind it takes time, check `k` begins at `k` milliseconds or
later. -/
theorem le_checkTime (htime : 0 < interval.millisUp ∨ ∀ j, 0 < (script j).duration) (k : ℕ) :
    k ≤ checkTime script interval k := by
  induction k with
  | zero => exact Nat.zero_le _
  | succ k ih =>
      have hstep : 0 < (script k).duration + interval.millisUp := by
        rcases htime with hinterval | hduration
        · omega
        · exact Nat.add_pos_left (hduration k) _
      rw [checkTime_succ]
      omega

theorem Precedes.of_le {early : ℕ} (h : Precedes time timeout) (hle : early ≤ time) :
    Precedes early timeout := by
  intro hfits
  exact Nat.lt_of_le_of_lt (Nat.mul_le_mul_right 1000000 hle) (h hfits)

theorem not_precedes_iff : ¬ Precedes time timeout ↔
    timeout.fitsClock = true ∧ timeout.nanos ≤ time * 1000000 := by
  rw [Precedes, Classical.not_imp, Nat.not_lt]

theorem isBefore_deadline_iff : isBefore time (deadline? timeout) = true ↔
    Precedes time timeout := by
  rw [deadline?, Precedes]
  by_cases hfits : timeout.fitsClock = true
  · simp [hfits, isBefore]
  · simp [hfits, isBefore]

/-! ## What the rules come to -/

theorem comes_iff : Comes script interval timeout k time ↔
    time = checkTime script interval k ∧
      ∀ j < k, Precedes (checkTime script interval j) timeout ∧ (script j).ready = false := by
  constructor
  · intro h
    induction h with
    | first => simp
    | @next k time hcomes hbefore hready ih =>
        obtain ⟨rfl, hearlier⟩ := ih
        refine ⟨(checkTime_succ k).symm, fun j hj => ?_⟩
        rcases Nat.lt_succ_iff_lt_or_eq.mp hj with hlt | rfl
        · exact hearlier j hlt
        · exact ⟨hbefore, hready⟩
  · rintro ⟨rfl, hearlier⟩
    induction k with
    | zero => exact .first
    | succ k ih =>
        have hlast := hearlier k (Nat.lt_succ_self k)
        rw [checkTime_succ]
        exact .next (ih fun j hj => hearlier j (Nat.lt_succ_of_lt hj)) hlast.1 hlast.2

theorem makes_iff : Makes script interval timeout k time ↔
    time = checkTime script interval k ∧ (∀ j < k, (script j).ready = false) ∧
      Precedes (checkTime script interval k) timeout := by
  constructor
  · rintro ⟨hcomes, hbefore⟩
    obtain ⟨rfl, hearlier⟩ := comes_iff.mp hcomes
    exact ⟨rfl, fun j hj => (hearlier j hj).2, hbefore⟩
  · rintro ⟨rfl, hready, hbefore⟩
    refine ⟨comes_iff.mpr ⟨rfl, fun j hj => ⟨?_, hready j hj⟩⟩, hbefore⟩
    exact hbefore.of_le (checkTime_mono (Nat.le_of_lt hj))

theorem Comes.time_eq (h : Comes script interval timeout k time) :
    time = checkTime script interval k :=
  (comes_iff.mp h).1

/-- A check before the one that the series comes to was made. -/
theorem Comes.makes {j : ℕ} (h : Comes script interval timeout k time) (hj : j < k) :
    Makes script interval timeout j (checkTime script interval j) := by
  obtain ⟨-, hearlier⟩ := comes_iff.mp h
  exact makes_iff.mpr ⟨rfl, fun i hi => (hearlier i (Nat.lt_trans hi hj)).2, (hearlier j hj).1⟩

/-- Within any number of checks the series ends or comes to another one. -/
theorem comes_or_ends (script : ℕ → Check) (interval timeout : Duration) (fuel : ℕ) :
    (∃ time, Makes script interval timeout fuel time) ∨
      (∃ k < fuel, ∃ time, Makes script interval timeout k time ∧ (script k).ready = true) ∨
      ∃ k ≤ fuel, ∃ time, Comes script interval timeout k time ∧ ¬ Precedes time timeout := by
  induction fuel with
  | zero =>
      by_cases hbefore : Precedes 0 timeout
      · exact .inl ⟨0, .first, hbefore⟩
      · exact .inr (.inr ⟨0, Nat.le_refl 0, 0, .first, hbefore⟩)
  | succ fuel ih =>
      rcases ih with ⟨time, hmakes⟩ | ⟨k, hk, hready⟩ | ⟨k, hk, hlate⟩
      · by_cases hready : (script fuel).ready = true
        · exact .inr (.inl ⟨fuel, Nat.lt_succ_self fuel, time, hmakes, hready⟩)
        · have hcomes := hmakes.comes.next hmakes.precedes (Bool.eq_false_iff.mpr hready)
          by_cases hbefore :
              Precedes (time + (script fuel).duration + interval.millisUp) timeout
          · exact .inl ⟨_, hcomes, hbefore⟩
          · exact .inr (.inr ⟨fuel + 1, Nat.le_refl _, _, hcomes, hbefore⟩)
      · exact .inr (.inl ⟨k, Nat.lt_succ_of_lt hk, hready⟩)
      · exact .inr (.inr ⟨k, Nat.le_succ_of_le hk, hlate⟩)

/-! ## The loop -/

section Loop

variable {deadline : Option ℕ} {length : ℕ}

theorem awaitIntervalFrom_of_late (h : isBefore time deadline = false) :
    awaitIntervalFrom script length deadline fuel k time = some ⟨false, [], time, []⟩ := by
  rw [awaitIntervalFrom.eq_def]
  exact if_neg (Bool.eq_false_iff.mp h)

theorem awaitIntervalFrom_zero (h : isBefore time deadline = true) :
    awaitIntervalFrom script length deadline 0 k time = none := by
  rw [awaitIntervalFrom, if_pos h]

theorem awaitIntervalFrom_of_ready (h : isBefore time deadline = true)
    (hready : (script k).ready = true) :
    awaitIntervalFrom script length deadline (fuel + 1) k time =
      some (.single time (script k)) := by
  rw [awaitIntervalFrom, if_pos h]
  exact if_pos hready

theorem awaitIntervalFrom_succ (h : isBefore time deadline = true)
    (hready : (script k).ready = false) :
    awaitIntervalFrom script length deadline (fuel + 1) k time =
      (awaitIntervalFrom script length deadline fuel (k + 1)
        (time + (script k).duration + length)).map (Poll.after time []) := by
  rw [awaitIntervalFrom, if_pos h]
  exact if_neg (Bool.eq_false_iff.mp hready)

end Loop

/-- The series with the checks before it. -/
def Poll.behind (calls : List ℕ) (rest : Poll) : Poll :=
  { rest with calls := calls ++ rest.calls }

/-- Where the rules come to a check, the loop goes on from there, the checks before it made. -/
theorem Comes.awaitInterval_eq (h : Comes script interval timeout k time) (fuel : ℕ) :
    awaitInterval script interval timeout (fuel + k) =
      (awaitIntervalFrom script interval.millisUp (deadline? timeout) fuel k time).map
        (.behind ((List.range k).map (checkTime script interval))) := by
  induction h generalizing fuel with
  | first =>
      have hbehind : Poll.behind ((List.range 0).map (checkTime script interval)) = id := rfl
      rw [hbehind, Option.map_id]
      rfl
  | @next k time hcomes hbefore hready ih =>
      have hcalls : Poll.behind ((List.range (k + 1)).map (checkTime script interval)) =
          Poll.behind ((List.range k).map (checkTime script interval)) ∘ Poll.after time [] := by
        funext rest
        simp [Poll.behind, Poll.after, List.range_succ, hcomes.time_eq]
      have hfuel : fuel + (k + 1) = fuel + 1 + k := by omega
      rw [hfuel, ih, awaitIntervalFrom_succ (isBefore_deadline_iff.mpr hbefore) hready,
        Option.map_map, hcalls]

theorem Makes.awaitInterval_eq_none (h : Makes script interval timeout k time) :
    awaitInterval script interval timeout k = none := by
  have hloop := h.comes.awaitInterval_eq 0
  rw [awaitIntervalFrom_zero (isBefore_deadline_iff.mpr h.precedes), Nat.zero_add] at hloop
  exact hloop

theorem Makes.awaitInterval_of_ready (h : Makes script interval timeout k time)
    (hready : (script k).ready = true) (hk : k < fuel) :
    awaitInterval script interval timeout fuel =
      some ⟨true, (List.range (k + 1)).map (checkTime script interval),
        time + (script k).duration, []⟩ := by
  obtain ⟨rest, rfl⟩ := Nat.exists_eq_add_of_le' hk
  rw [show rest + (k + 1) = rest + 1 + k by omega, h.comes.awaitInterval_eq,
    awaitIntervalFrom_of_ready (isBefore_deadline_iff.mpr h.precedes) hready]
  simp [Poll.behind, Poll.single, List.range_succ, hready, h.comes.time_eq]

theorem Comes.awaitInterval_of_late (h : Comes script interval timeout k time)
    (hlate : ¬ Precedes time timeout) (hk : k ≤ fuel) :
    awaitInterval script interval timeout fuel =
      some ⟨false, (List.range k).map (checkTime script interval), time, []⟩ := by
  obtain ⟨rest, rfl⟩ := Nat.exists_eq_add_of_le' hk
  rw [← isBefore_deadline_iff, Bool.not_eq_true] at hlate
  rw [h.awaitInterval_eq, awaitIntervalFrom_of_late hlate]
  simp [Poll.behind]

/-- The loop needs another check exactly where the rules make one. -/
theorem awaitInterval_eq_none_iff :
    awaitInterval script interval timeout fuel = none ↔
      ∃ time, Makes script interval timeout fuel time := by
  constructor
  · intro hnone
    rcases comes_or_ends script interval timeout fuel with
      hmakes | ⟨k, hk, time, hmakes, hready⟩ | ⟨k, hk, time, hcomes, hlate⟩
    · exact hmakes
    · rw [hmakes.awaitInterval_of_ready hready hk] at hnone
      contradiction
    · rw [hcomes.awaitInterval_of_late hlate hk] at hnone
      contradiction
  · rintro ⟨time, hmakes⟩
    exact hmakes.awaitInterval_eq_none

/-- What the loop gives the rules end in, and a greater allowance changes nothing. -/
theorem outcome_of_awaitInterval (h : awaitInterval script interval timeout fuel = some poll) :
    Outcome script interval timeout poll ∧
      ∀ fuel' ≥ fuel, awaitInterval script interval timeout fuel' = some poll := by
  rcases comes_or_ends script interval timeout fuel with
    ⟨time, hmakes⟩ | ⟨k, hk, time, hmakes, hready⟩ | ⟨k, hk, time, hcomes, hlate⟩
  · rw [hmakes.awaitInterval_eq_none] at h
    contradiction
  · rw [hmakes.awaitInterval_of_ready hready hk, Option.some.injEq] at h
    subst h
    exact ⟨.ready hmakes hready, fun fuel' hle =>
      hmakes.awaitInterval_of_ready hready (Nat.lt_of_lt_of_le hk hle)⟩
  · rw [hcomes.awaitInterval_of_late hlate hk, Option.some.injEq] at h
    subst h
    exact ⟨.late hcomes hlate, fun fuel' hle =>
      hcomes.awaitInterval_of_late hlate (Nat.le_trans hk hle)⟩

/-- Polling comes to an end with a series, if it is allowed enough checks. -/
def Ends (script : ℕ → Check) (interval timeout : Duration) (poll : Poll) : Prop :=
  ∃ fuel, awaitInterval script interval timeout fuel = some poll

/-- Polling ends with a series exactly where the rules end in it. -/
theorem ends_iff : Ends script interval timeout poll ↔ Outcome script interval timeout poll := by
  constructor
  · rintro ⟨fuel, hsome⟩
    exact (outcome_of_awaitInterval hsome).1
  · intro houtcome
    induction houtcome with
    | @ready k time hmakes hready =>
        exact ⟨k + 1, hmakes.awaitInterval_of_ready hready (Nat.lt_succ_self k)⟩
    | @late k time hcomes hlate =>
        exact ⟨k, hcomes.awaitInterval_of_late hlate (Nat.le_refl k)⟩

/-! ## The contract of polling at an interval -/

/-- A series gives up at the first time that does not lie before the deadline. -/
theorem comes_late_iff :
    Comes script interval timeout k time ∧ ¬ Precedes time timeout ↔
      IsLeast {k | ¬ Precedes (checkTime script interval k) timeout} k ∧
        (∀ j < k, (script j).ready = false) ∧ time = checkTime script interval k := by
  constructor
  · rintro ⟨hcomes, hlate⟩
    obtain ⟨rfl, hearlier⟩ := comes_iff.mp hcomes
    refine ⟨⟨hlate, fun j hj => ?_⟩, fun j hj => (hearlier j hj).2, rfl⟩
    by_contra hlt
    exact hj (hearlier j (Nat.not_le.mp hlt)).1
  · rintro ⟨⟨hlate, hleast⟩, hready, rfl⟩
    refine ⟨comes_iff.mpr ⟨rfl, fun j hj => ⟨?_, hready j hj⟩⟩, hlate⟩
    by_contra hbefore
    exact absurd hj (Nat.not_lt.mpr (hleast hbefore))

/-- The calls of a series are the checks that the rules make. -/
theorem Outcome.calls_iff (h : Outcome script interval timeout poll) :
    poll.calls[k]? = some time ↔ Makes script interval timeout k time := by
  have hcalls : ∀ count, ((List.range count).map (checkTime script interval))[k]? = some time ↔
      k < count ∧ checkTime script interval k = time := by
    intro count
    rw [List.getElem?_eq_some_iff]
    simp
  induction h with
  | @ready last time' hmakes hready =>
      rw [hcalls]
      constructor
      · rintro ⟨hk, rfl⟩
        rcases Nat.lt_succ_iff_lt_or_eq.mp hk with hlt | rfl
        · exact hmakes.comes.makes hlt
        · exact hmakes.comes.time_eq ▸ hmakes
      · intro hmade
        obtain ⟨rfl, hunready, -⟩ := makes_iff.mp hmade
        refine ⟨?_, rfl⟩
        by_contra hk
        rw [hunready last (by omega)] at hready
        contradiction
  | @late count time' hcomes hlate =>
      rw [hcalls]
      constructor
      · rintro ⟨hk, rfl⟩
        exact hcomes.makes hk
      · intro hmade
        obtain ⟨rfl, -, hbefore⟩ := makes_iff.mp hmade
        refine ⟨?_, rfl⟩
        by_contra hk
        apply hlate
        rw [hcomes.time_eq]
        exact hbefore.of_le (checkTime_mono (Nat.not_lt.mp hk))

theorem Outcome.of_ready (h : Outcome script interval timeout poll) (hready : poll.ready = true) :
    ∃ k time, Makes script interval timeout k time ∧ (script k).ready = true ∧
      poll.finish = time + (script k).duration := by
  induction h with
  | @ready k time hmakes hcheck => exact ⟨k, time, hmakes, hcheck, rfl⟩
  | late hcomes hlate => contradiction

theorem Outcome.of_not_ready (h : Outcome script interval timeout poll)
    (hready : poll.ready = false) :
    Comes script interval timeout poll.calls.length poll.finish ∧
      ¬ Precedes poll.finish timeout := by
  induction h with
  | ready hmakes hcheck => contradiction
  | late hcomes hlate =>
      rw [List.length_map, List.length_range]
      exact ⟨hcomes, hlate⟩

/-- A series gives up less than the last check and one interval after the deadline. -/
theorem Comes.lt_of_late (h : Comes script interval timeout (k + 1) time)
    (hlate : ¬ Precedes time timeout) :
    time * 1000000 < timeout.nanos + ((script k).duration + interval.millisUp) * 1000000 := by
  have hlast : checkTime script interval k * 1000000 < timeout.nanos :=
    (h.makes (Nat.lt_succ_self k)).precedes (not_precedes_iff.mp hlate).1
  rw [h.time_eq, checkTime_succ, Nat.add_assoc, Nat.add_mul]
  exact Nat.add_lt_add_right hlast _

/-- If there is a deadline and time goes on, polling comes to an end. -/
theorem exists_ends (hfits : timeout.fitsClock = true)
    (htime : 0 < interval.millisUp ∨ ∀ k, 0 < (script k).duration) :
    ∃ poll, Ends script interval timeout poll := by
  by_contra hnever
  have hnone : awaitInterval script interval timeout timeout.nanos = none := by
    rw [Option.eq_none_iff_forall_ne_some]
    exact fun poll hsome => hnever ⟨poll, timeout.nanos, hsome⟩
  -- a check for every nanosecond would begin at the deadline or later
  obtain ⟨time, hmakes⟩ := awaitInterval_eq_none_iff.mp hnone
  obtain ⟨-, -, hbefore⟩ := makes_iff.mp hmakes
  have hlt : checkTime script interval timeout.nanos * 1000000 < timeout.nanos := hbefore hfits
  have hle : timeout.nanos ≤ checkTime script interval timeout.nanos := le_checkTime htime _
  exact absurd hlt (Nat.not_lt.mpr (Nat.le_trans hle (Nat.le_mul_of_pos_right _ (by decide))))

/-- What polling at an interval does. -/
structure PollsUntil (script : ℕ → Check) (interval timeout : Duration) : Prop where
  /-- A check is made where those before it found the dependency not ready and its time lies before
  the deadline. -/
  makes_iff : ∀ k time, Makes script interval timeout k time ↔
    time = (∑ j ∈ Finset.range k, ((script j).duration + interval.millisUp)) ∧
      (∀ j < k, (script j).ready = false) ∧
      (timeout.fitsClock = true → time * 1000000 < timeout.nanos)
  /-- Polling that is allowed `k` checks is not at an end exactly if it makes check `k` as well. -/
  goesOn_iff : ∀ k, awaitInterval script interval timeout k = none ↔
    ∃ time, Makes script interval timeout k time
  /-- Once polling is at an end, a greater allowance changes nothing. -/
  settled : ∀ fuel poll, awaitInterval script interval timeout fuel = some poll →
    ∀ fuel' ≥ fuel, awaitInterval script interval timeout fuel' = some poll
  /-- The calls of a series are the checks that are made, at their times. -/
  calls_iff : ∀ poll, Ends script interval timeout poll →
    ∀ k time, poll.calls[k]? = some time ↔ Makes script interval timeout k time
  /-- Polling succeeds exactly if a check that is made does, when that check ends. -/
  succeeds_iff : ∀ finish,
    (∃ poll, Ends script interval timeout poll ∧ poll.ready = true ∧ poll.finish = finish) ↔
      ∃ k time, Makes script interval timeout k time ∧ (script k).ready = true ∧
        finish = time + (script k).duration
  /-- Polling fails exactly if all checks before the deadline do, at the first time that does not
  lie before it. -/
  fails_iff : ∀ finish,
    (∃ poll, Ends script interval timeout poll ∧ poll.ready = false ∧ poll.finish = finish) ↔
      ∃ k, IsLeast {k | ¬ Precedes (checkTime script interval k) timeout} k ∧
        (∀ j < k, (script j).ready = false) ∧ finish = checkTime script interval k
  /-- It does not fail before the deadline. -/
  not_early : ∀ poll, Ends script interval timeout poll → poll.ready = false →
    timeout.nanos ≤ poll.finish * 1000000
  /-- It fails less than the last check and one interval after the deadline. -/
  not_late : ∀ poll k, Ends script interval timeout poll → poll.ready = false →
    poll.calls.length = k + 1 →
    poll.finish * 1000000 <
      timeout.nanos + ((script k).duration + interval.millisUp) * 1000000
  /-- Without time nothing is checked. -/
  of_zero : timeout.nanos = 0 → Ends script interval timeout ⟨false, [], 0, []⟩
  /-- Without a deadline polling does not fail. -/
  of_not_fitsClock : timeout.fitsClock = false →
    ∀ poll, Ends script interval timeout poll → poll.ready = true
  /-- If there is a deadline and time goes on, polling comes to an end. -/
  terminates : timeout.fitsClock = true →
    (0 < interval.millisUp ∨ ∀ k, 0 < (script k).duration) →
    ∃ poll, Ends script interval timeout poll

/-- Polling makes the checks that begin before the deadline and gives what they find. -/
theorem awaitInterval_pollsUntil (script : ℕ → Check) (interval timeout : Duration) :
    PollsUntil script interval timeout where
  makes_iff k time := by
    rw [makes_iff]
    constructor
    · rintro ⟨rfl, hready, hbefore⟩
      exact ⟨rfl, hready, hbefore⟩
    · rintro ⟨htime, hready, hbefore⟩
      have htime' : time = checkTime script interval k := htime
      exact ⟨htime', hready, htime' ▸ hbefore⟩
  goesOn_iff k := awaitInterval_eq_none_iff
  settled fuel poll hsome := (outcome_of_awaitInterval hsome).2
  calls_iff poll hends k time := (ends_iff.mp hends).calls_iff
  succeeds_iff finish := by
    constructor
    · rintro ⟨poll, hends, hready, rfl⟩
      exact (ends_iff.mp hends).of_ready hready
    · rintro ⟨k, time, hmakes, hready, rfl⟩
      exact ⟨_, ends_iff.mpr (.ready hmakes hready), rfl, rfl⟩
  fails_iff finish := by
    constructor
    · rintro ⟨poll, hends, hready, rfl⟩
      exact ⟨_, comes_late_iff.mp ((ends_iff.mp hends).of_not_ready hready)⟩
    · rintro ⟨k, hleast⟩
      obtain ⟨hcomes, hlate⟩ := comes_late_iff.mpr hleast
      exact ⟨_, ends_iff.mpr (.late hcomes hlate), rfl, rfl⟩
  not_early poll hends hready :=
    (not_precedes_iff.mp ((ends_iff.mp hends).of_not_ready hready).2).2
  not_late poll k hends hready hcount := by
    obtain ⟨hcomes, hlate⟩ := (ends_iff.mp hends).of_not_ready hready
    rw [hcount] at hcomes
    exact hcomes.lt_of_late hlate
  of_zero hzero := by
    have hfits : timeout.fitsClock = true := by
      rw [Duration.fitsClock, Duration.seconds, hzero]
      rfl
    have hlate : ¬ Precedes 0 timeout := not_precedes_iff.mpr ⟨hfits, Nat.le_of_eq hzero⟩
    exact ends_iff.mpr (.late .first hlate)
  of_not_fitsClock hfits poll hends := by
    rw [← Bool.not_eq_false]
    intro hready
    have hlate := ((ends_iff.mp hends).of_not_ready hready).2
    rw [not_precedes_iff, hfits] at hlate
    exact Bool.false_ne_true hlate.1
  terminates hfits htime := exists_ends hfits htime

end Readiness
end ServiceKit
