import Mathlib.Data.List.Forall2
import ServiceKit.Lifecycle.Manager
import ServiceKit.Proofs.Lifecycle.History

/-!
# What a shutdown ought to report

A shutdown that begins at a time, with a limit and closers in the order of registration, runs all
of them at once.  Each closer has a time at which it ends, or none.  The closers that end strictly
before the deadline give the failures of their ends, and the others are late.
-/

namespace ServiceKit
namespace Lifecycle

/-- When a closer that starts at a time ends, and how; `none` if it never does. -/
def Closer.ending? (closer : Closer) (start : Nat) : Option (Nat × Ending) :=
  match closer.make with
  | .ok hook => hook.ending.map fun ending => (start + hook.delay, ending)
  | .error _ => none

/-- A shutdown as its caller asks for it. -/
structure Plan where
  start : Nat
  limit : Option Duration
  closers : List Closer

namespace Plan

variable (plan : Plan)

/-- The limit after the start, rounded up to whole milliseconds. -/
def deadline : Option Nat :=
  plan.limit.map fun limit => plan.start + limit.millisUp

/-- The time is strictly before the deadline. -/
def isInTime (time : Nat) : Bool :=
  match plan.deadline with
  | some deadline => time < deadline
  | none => true

/-- The closer ends strictly before the deadline. -/
def endsInTime (closer : Closer) : Bool :=
  match closer.ending? plan.start with
  | some (time, _) => plan.isInTime time
  | none => false

/-- The failure that the end of a closer gives: none or one. -/
def failuresOf (closer : Closer) : List TimedFailure :=
  match closer.ending? plan.start with
  | some (time, ending) => TimedFailure.ofEnding time .close closer.name ending
  | none => []

/-- The failures of the closers that end in time. -/
def failures : List TimedFailure :=
  (plan.closers.filter plan.endsInTime).flatMap plan.failuresOf

/-- The closers that do not end in time, in the order of registration. -/
def late : List Closer :=
  plan.closers.filter fun closer => !plan.endsInTime closer

/-- The failures of closers that are listed as aborted. -/
def abortionsOf (closers : List Closer) : List Failure :=
  match plan.limit with
  | some limit => closers.map fun closer => ⟨.close, closer.name, abortReason limit⟩
  | none => []

/-- The failures of the closers that do not end in time. -/
def abortions : List Failure :=
  plan.abortionsOf plan.late

/-- The closer is lost: there is time to call it when the shutdown begins, and the call panics.  It
has no hook, so it is late, but no deadline stops it. -/
def loses (closer : Closer) : Bool :=
  plan.isInTime plan.start && !closer.make.isOk

/-- The deadline stops the closer: it does not end in time, and it is not lost. -/
def overruns (closer : Closer) : Bool :=
  !plan.endsInTime closer && !plan.loses closer

/-- The closer ends in time and succeeds. -/
def succeeds (closer : Closer) : Bool :=
  match closer.ending? plan.start with
  | some (time, .success) => plan.isInTime time
  | _ => false

variable {plan}

theorem isInTime_of_le {time later : Nat} (hle : time ≤ later)
    (h : plan.isInTime later = true) : plan.isInTime time = true := by
  unfold isInTime at h ⊢
  split
  next deadline hdeadline =>
    rw [hdeadline] at h
    simp only [decide_eq_true_eq] at h ⊢
    omega
  next => rfl

theorem mem_late {closer : Closer} :
    closer ∈ plan.late ↔ closer ∈ plan.closers ∧ plan.endsInTime closer = false := by
  simp [late]

theorem late_ne_nil_iff :
    plan.late ≠ [] ↔ ∃ closer ∈ plan.closers, plan.endsInTime closer = false := by
  constructor
  · intro hne
    obtain ⟨closer, hcloser⟩ := List.exists_mem_of_ne_nil _ hne
    exact ⟨closer, mem_late.mp hcloser⟩
  · rintro ⟨closer, hcloser⟩
    exact List.ne_nil_of_mem (mem_late.mpr hcloser)

theorem endsInTime_of_error {closer : Closer} {panic : Panic} (h : closer.make = .error panic) :
    plan.endsInTime closer = false := by
  simp [endsInTime, Closer.ending?, h]

theorem loses_of_error {closer : Closer} {panic : Panic} (hmake : closer.make = .error panic)
    (htime : plan.isInTime plan.start = true) : plan.loses closer = true := by
  rw [loses, htime, hmake]
  rfl

theorem loses_of_ok {closer : Closer} {hook : Hook} (hmake : closer.make = .ok hook) :
    plan.loses closer = false := by
  rw [loses, hmake]
  exact Bool.and_false _

theorem loses_of_not_isInTime (htime : plan.isInTime plan.start = false) (closer : Closer) :
    plan.loses closer = false := by
  rw [loses, htime, Bool.false_and]

theorem not_endsInTime_of_loses {closer : Closer} (h : plan.loses closer = true) :
    plan.endsInTime closer = false := by
  cases hmake : closer.make with
  | error panic => exact endsInTime_of_error hmake
  | ok hook =>
      rw [loses_of_ok hmake] at h
      contradiction

theorem overruns_iff {closer : Closer} : plan.overruns closer = true ↔
    plan.endsInTime closer = false ∧ plan.loses closer = false := by
  simp [overruns]

/-! ## Lists of aborted closers -/

theorem abortionsOf_append (first last : List Closer) :
    plan.abortionsOf (first ++ last) = plan.abortionsOf first ++ plan.abortionsOf last := by
  unfold abortionsOf
  split
  · exact List.map_append
  · rfl

theorem abortionsOf_perm {closers closers' : List Closer} (h : closers.Perm closers') :
    (plan.abortionsOf closers).Perm (plan.abortionsOf closers') := by
  unfold abortionsOf
  split
  · exact h.map _
  · exact .refl _

@[simp] theorem abortionsOf_nil : plan.abortionsOf [] = [] := by
  unfold abortionsOf
  split <;> rfl

theorem endsInTime_of_ok {closer : Closer} {hook : Hook} {ending : Ending}
    (hmake : closer.make = .ok hook) (hending : hook.ending = some ending) :
    plan.endsInTime closer = plan.isInTime (plan.start + hook.delay) := by
  simp [endsInTime, Closer.ending?, hmake, hending]

/-- A closer that ends just at the deadline is late. -/
example : (Plan.mk 5 (some (.ofMillis 10)) []).endsInTime
    ⟨"pool", .ok ⟨10, none, some .success, none⟩⟩ = false := by
  decide

theorem failuresOf_of_ok {closer : Closer} {hook : Hook} {ending : Ending}
    (hmake : closer.make = .ok hook) (hending : hook.ending = some ending) :
    plan.failuresOf closer =
      TimedFailure.ofEnding (plan.start + hook.delay) .close closer.name ending := by
  simp [failuresOf, Closer.ending?, hmake, hending]

/-- A closer that succeeds in time is one that ends in time without a failure. -/
theorem succeeds_iff {closer : Closer} :
    plan.succeeds closer = true ↔ plan.endsInTime closer = true ∧ plan.failuresOf closer = [] := by
  unfold succeeds endsInTime failuresOf
  cases hending : closer.ending? plan.start with
  | none => simp
  | some found =>
      obtain ⟨time, ending⟩ := found
      cases ending <;> simp [TimedFailure.ofEnding_eq_nil_iff]

end Plan

/-- A report says of each closer what became of it: the failures of those that ended in time in the
order in which they ended, then one failure for each of the others in the order of registration. -/
structure Plan.Reports (plan : Plan) (report : Report) : Prop where
  closersRun : report.closersRun = plan.closers.length
  timedOut : report.timedOut = true ↔ ∃ closer ∈ plan.closers, plan.endsInTime closer = false
  ended : report.ended.Perm plan.failures
  inOrder : report.ended.Pairwise fun a b => a.time ≤ b.time
  aborted : report.aborted = plan.abortions
  failures : report.failures = report.ended.map TimedFailure.failure ++ plan.abortions
  isClean : report.isClean = true ↔ ∀ closer ∈ plan.closers, plan.succeeds closer = true

end Lifecycle
end ServiceKit
