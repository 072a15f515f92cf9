import ServiceKit.Proofs.Lifecycle.MendedRuns
import ServiceKit.Proofs.Lifecycle.Panics
import ServiceKit.Proofs.Lifecycle.SetUps

/-!
# Hooks do not influence each other

Two runs may have some hooks in common and others of their own.  What becomes of the common ones is
the same in both, since in each run it follows from their scripts and from the times at which they
are started.  And a run never shows how hooks have ended, except in its lists of failures.

There is one exception.  A closer that panics when it is called has no hook, and the report lists it
as aborted just where some closer overruns the limit, be it another one.
-/

namespace ServiceKit
namespace Lifecycle

open History

namespace Plan

variable {plan : Plan} {m : Manager} {own closers : List Closer} {report : Report}

/-! ## A plan with closers in another order -/

theorem failures_among_perm (h : closers.Perm (own ++ plan.closers)) :
    (plan.among closers).failures.Perm ((plan.among own).failures ++ plan.failures) := by
  simp only [failures, endsInTime_among, failuresOf_among]
  rw [← List.flatMap_append, ← List.filter_append]
  exact (h.filter _).flatMap_right _

/-! ## What is listed as aborted -/

/-- The failures of closers that are listed as aborted: those of the closers that overrun the limit
and, if the limit was reached, those of the lost ones. -/
def stopped (plan : Plan) (timedOut : Bool) (closers : List Closer) : List Failure :=
  plan.abortionsOf
    (closers.filter fun closer => plan.overruns closer || (timedOut && plan.loses closer))

theorem stopped_eq (timedOut : Bool) (h : ∀ closer ∈ closers, plan.loses closer = false) :
    plan.stopped timedOut closers = plan.abortionsOf (closers.filter plan.overruns) := by
  unfold stopped
  congr 1
  refine List.filter_congr fun closer hcloser => ?_
  rw [h closer hcloser, Bool.and_false, Bool.or_false]

/-- Where the limit is reached, all late closers are listed. -/
theorem abortions_eq_stopped : plan.abortions = plan.stopped true plan.closers := by
  unfold abortions late stopped
  congr 1
  refine List.filter_congr fun closer _ => ?_
  cases hloses : plan.loses closer with
  | false => simp [overruns, hloses]
  | true => simp [not_endsInTime_of_loses hloses]

theorem stopped_append_perm (timedOut : Bool) (h : closers.Perm (own ++ plan.closers)) :
    (plan.stopped timedOut closers).Perm
      (plan.stopped timedOut own ++ plan.stopped timedOut plan.closers) := by
  unfold stopped
  rw [← abortionsOf_append, ← List.filter_append]
  exact abortionsOf_perm (h.filter _)

/-- Where the limit was not reached, no closer overran it: each has ended in time or is lost. -/
theorem Governs.overruns_eq_false (h : plan.Governs m) (hdone : m.progress = .done report)
    (hover : report.timedOut = false) {closer : Closer} (hcloser : closer ∈ plan.closers) :
    plan.overruns closer = false := by
  obtain ⟨hsettles, -, hstart⟩ := h.done report hdone
  cases hends : plan.endsInTime closer with
  | true => simp [overruns, hends]
  | false =>
      obtain ⟨panic, hmake⟩ := hsettles.lost hover closer (mem_late.mpr ⟨hcloser, hends⟩)
      simp [overruns, loses_of_error hmake (hstart hover closer hcloser)]

theorem Governs.aborted_eq (h : plan.Governs m) (hdone : m.progress = .done report) :
    report.aborted = plan.stopped report.timedOut plan.closers := by
  rw [(h.done report hdone).1.aborted]
  cases hover : report.timedOut with
  | true => exact abortions_eq_stopped
  | false =>
      have hnone : plan.closers.filter plan.overruns = [] :=
        List.filter_eq_nil_iff.mpr fun closer hcloser => by
          simp [h.overruns_eq_false hdone hover hcloser]
      simp [stopped, hnone]

theorem Governs.timedOut_iff (h : plan.Governs m) (hdone : m.progress = .done report) :
    report.timedOut = true ↔ ∃ closer ∈ plan.closers, plan.overruns closer = true := by
  refine ⟨(h.done report hdone).1.late, ?_⟩
  rintro ⟨closer, hcloser, hoverruns⟩
  by_contra hover
  rw [h.overruns_eq_false hdone (eq_false_of_ne_true hover) hcloser] at hoverruns
  contradiction

/-! ## Closers beside others -/

/-- What becomes of the closers of a plan in a shutdown that runs them beside others of its own.
Every part of it is a part for the others and a part for the closers of the plan.  The latter
depends on the plan alone, except for lost closers: they are listed as aborted if the limit was
reached, and that depends on all closers. -/
structure RunsBeside (plan : Plan) (own : List Closer) (m : Manager) : Prop where
  /-- The times at which closers are entered, end or are aborted. -/
  told : ∀ time ≤ m.now, (before time (closings m.history)).Perm
    (before time (own.flatMap plan.fate) ++ before time (plan.closers.flatMap plan.fate))
  /-- The failures of those that end in time. -/
  ended : ∀ report, m.progress = .done report →
    report.ended.Perm ((plan.among own).failures ++ plan.failures)
  /-- The failures of those that are listed as aborted. -/
  aborted : ∀ report, m.progress = .done report →
    report.aborted.Perm
      (plan.stopped report.timedOut own ++ plan.stopped report.timedOut plan.closers)
  /-- The limit was reached if a closer overruns it, and a lost closer does not. -/
  timedOut : ∀ report, m.progress = .done report →
    (report.timedOut = true ↔ ∃ closer ∈ own ++ plan.closers, plan.overruns closer = true)
  /-- Where none is lost, the closers that overrun the limit are listed, whatever the others do. -/
  overran : (∀ closer ∈ plan.closers, plan.loses closer = false) →
    ∀ report, m.progress = .done report → report.aborted.Perm
      (plan.stopped report.timedOut own ++ plan.abortionsOf (plan.closers.filter plan.overruns))

theorem Governs.runsBeside (hsound : m.Sound) (h : (plan.among closers).Governs m)
    (hclosers : closers.Perm (own ++ plan.closers)) : plan.RunsBeside own m where
  told := by
    intro time hle
    refine (h.before_closings hsound hle).trans ?_
    rw [← before_append, ← List.flatMap_append]
    exact (hclosers.flatMap_right _).filter _
  ended := fun report hdone =>
    (h.done report hdone).1.ended.trans (failures_among_perm hclosers)
  aborted := fun report hdone =>
    (List.Perm.of_eq (h.aborted_eq hdone)).trans (stopped_append_perm _ hclosers)
  timedOut := by
    intro report hdone
    rw [h.timedOut_iff hdone]
    exact exists_congr fun closer => and_congr_left' hclosers.mem_iff
  overran := by
    intro hkept report hdone
    rw [h.aborted_eq hdone, ← stopped_eq report.timedOut hkept]
    exact stopped_append_perm _ hclosers

end Plan

namespace Manager

variable {m m' : Manager}

/-! ## Two runs -/

/-- The ends of initializers that a run has in common with another, beside those of its own. -/
def EndsBeside (shared own : List Start) (m : Manager) : Prop :=
  ∀ time ≤ m.now, (before time (setUpEnds m.history)).Perm
    (before time (own.filterMap Start.end?) ++ before time (shared.filterMap Start.end?))

/-- A run begins a shutdown that runs the closers of a plan beside others of its own. -/
def Closes (start : Nat) (steps : List Step) (plan : Plan) (own : List Closer) : Prop :=
  ∃ before id after, steps = before ++ .act (.close id plan.limit) :: after ∧
    BeginsAfter start before id ∧ ((new start).run before).now = plan.start ∧
    (accepted ((new start).run before).history).Perm (own ++ plan.closers)

/-- Two managers that differ in how hooks have ended and in the failures from that, and in nothing
else: they have told of the same happenings at the same times, and the same can happen next. -/
structure SameButFailures (m m' : Manager) : Prop where
  state : m.state = m'.state
  accepts : m.accepts = m'.accepts
  pending : m.pending = m'.pending
  enabled : m.enabled = m'.enabled
  rest : m.mend = m'.mend

/-- Hooks of one manager do not influence each other, as two runs show that have some of them in
common.  The hooks of their own may be one hook with two durations and two ends.  Only whether lost
closers are listed as aborted depends on all the hooks. -/
structure Independent (start : Nat) (first second : List Step) : Prop where
  /-- Initializers that both runs start at the same times end at the same times with the same
  outcomes. -/
  initializers : ∀ shared own own',
    ((new start).started first).Perm (own ++ shared) →
    ((new start).started second).Perm (own' ++ shared) →
      EndsBeside shared own ((new start).run first) ∧
        EndsBeside shared own' ((new start).run second)
  /-- Closers that both runs shut down from the same time on and with the same limit are entered,
  end and are aborted at the same times, with the same failures. -/
  closers : ∀ plan own own', Closes start first plan own → Closes start second plan own' →
    plan.RunsBeside own ((new start).run first) ∧ plan.RunsBeside own' ((new start).run second)
  /-- Where the runs differ only in whether hooks fail, panic or succeed, only the failures
  differ. -/
  endings : (new start).mendedSteps first = (new start).mendedSteps second →
    SameButFailures ((new start).run first) ((new start).run second)

theorem endsBeside_run (start : Nat) (steps : List Step) {shared own : List Start}
    (h : ((new start).started steps).Perm (own ++ shared)) :
    EndsBeside shared own ((new start).run steps) := by
  intro time hle
  refine (setUpEnds_run start steps hle).trans ?_
  rw [← before_append, ← List.filterMap_append]
  exact (h.filterMap _).filter _

theorem Closes.runsBeside {start : Nat} {steps : List Step} {plan : Plan} {own : List Closer}
    (h : Closes start steps plan own) : plan.RunsBeside own ((new start).run steps) := by
  obtain ⟨before, id, after, rfl, hbegins, hnow, haccepted⟩ := h
  have hidle : ((new start).run before).progress = .idle :=
    state_eq_running_iff.mp hbegins.running
  have hgoverns := governs_run start before after id plan.limit hbegins.handle hbegins.fresh hidle
  have hplan : ((new start).run before).plan plan.limit =
      plan.among (accepted ((new start).run before).history) := by
    rw [Manager.plan, hnow]
    rfl
  rw [hplan] at hgoverns
  exact hgoverns.runsBeside (sound_run start _) haccepted

theorem sameButFailures_of_mend (h : m.mend = m'.mend) : SameButFailures m m' where
  state := by rw [← state_mend, h, state_mend]
  accepts := by rw [← accepts_mend, h, accepts_mend]
  pending := by rw [← mend_pending, h, mend_pending]
  enabled := by rw [← enabled_mend, h, enabled_mend]
  rest := h

/-- Hooks of one manager do not influence each other. -/
theorem run_independent (start : Nat) (first second : List Step) :
    Independent start first second where
  initializers := fun _ _ _ hfirst hsecond =>
    ⟨endsBeside_run start first hfirst, endsBeside_run start second hsecond⟩
  closers := fun _ _ _ hfirst hsecond => ⟨hfirst.runsBeside, hsecond.runsBeside⟩
  endings := by
    intro hsteps
    apply sameButFailures_of_mend
    rw [run_mend start first, run_mend start second, hsteps]

/-- One closer fails after three milliseconds in one run and never ends in the other, where it is
aborted.  The other closer panics after five milliseconds in both, and both runs report it.  Where
the first closer succeeds after three milliseconds, only its failure is missing. -/
theorem run_independent_two :
    let pool : Closer := ⟨"pool", .ok ⟨3, none, some (.failure ["drain", "gone"]), none⟩⟩
    let stuck : Closer := ⟨"pool", .ok ⟨0, none, none, none⟩⟩
    let healthy : Closer := ⟨"pool", .ok ⟨3, none, some .success, none⟩⟩
    let cache : Closer := ⟨"cache", .ok ⟨5, none, some (.panic ⟨some "lost"⟩), none⟩⟩
    let db : Hook := ⟨4, none, some (.failure ["down"]), none⟩
    let limit := some (Duration.ofMillis 10)
    let before (closer : Closer) : List Step :=
      [.act (.startInitializer "db" db), .act (.register closer), .act (.register cache)]
    let entered : List Step := [.act .collect, .act .collect, .act .collect, .act .launch,
      .act (.closerEnters 0), .act (.closerEnters 1)]
    let after : List Step := entered ++ [.elapse 3, .act (.closerActs 0), .elapse 1,
      .act (.initializerActs 0), .act .retire, .elapse 1, .act (.closerActs 1), .act .conclude,
      .act (.answer 1)]
    let after' : List Step := entered ++ [.elapse 4, .act (.initializerActs 0), .act .retire,
      .elapse 1, .act (.closerActs 1), .elapse 5, .act .expire, .act .conclude, .act (.answer 1)]
    let m := (new 0).run (before pool ++ .act (.close 1 limit) :: after)
    let m' := (new 0).run (before stuck ++ .act (.close 1 limit) :: after')
    let plan : Plan := ⟨0, limit, [cache]⟩
    (EndsBeside [⟨0, "db", db⟩] [] m ∧ EndsBeside [⟨0, "db", db⟩] [] m') ∧
    (plan.RunsBeside [pool] m ∧ plan.RunsBeside [stuck] m') ∧
    SameButFailures m ((new 0).run (before healthy ++ .act (.close 1 limit) :: after)) ∧
    m.returned = [⟨5, 1, .report ⟨2, [⟨3, ⟨.close, "pool", "drain: gone"⟩⟩,
      ⟨5, ⟨.close, "cache", "panicked: lost"⟩⟩], [], false⟩⟩] ∧
    m'.returned = [⟨10, 1, .report ⟨2, [⟨5, ⟨.close, "cache", "panicked: lost"⟩⟩],
      [⟨.close, "pool", "aborted after 10ms shutdown timeout"⟩], true⟩⟩] := by
  intro pool stuck healthy cache db limit before entered after after' m m' plan
  have hindependent := run_independent 0 (before pool ++ .act (.close 1 limit) :: after)
    (before stuck ++ .act (.close 1 limit) :: after')
  refine ⟨?_, ?_, ?_, ?_, ?_⟩
  · exact hindependent.initializers [⟨0, "db", db⟩] [] [] (.of_eq rfl) (.of_eq rfl)
  · refine hindependent.closers plan [pool] [stuck] ?_ ?_
    · exact ⟨before pool, 1, after, rfl, ⟨rfl, by decide, rfl⟩, rfl, .of_eq rfl⟩
    · exact ⟨before stuck, 1, after', rfl, ⟨rfl, by decide, rfl⟩, rfl, .of_eq rfl⟩
  · apply (run_independent 0 (before pool ++ .act (.close 1 limit) :: after) _).endings
    rw [mendedSteps_eq_map 0, mendedSteps_eq_map 0]
    · rfl
    · simp [before, after, entered, Step.RegistersHook, healthy, cache]
    · simp [before, after, entered, Step.RegistersHook, pool, cache]
  · decide +kernel
  · decide +kernel

/-- One hook does decide about another closer: where the call of a closer panics, the report lists
it as aborted if the other closer never ends, and says nothing of it if that one ends at once. -/
theorem lostCloser_listed_beside_stuck :
    let cache : Closer := ⟨"cache", .error ⟨some "gone"⟩⟩
    let healthy : Closer := ⟨"pool", .ok ⟨0, none, some .success, none⟩⟩
    let stuck : Closer := ⟨"pool", .ok ⟨0, none, none, none⟩⟩
    let entered (pool : Closer) : List Step := [.act (.register pool), .act (.register cache),
      .act (.close 1 (some (.ofMillis 10))), .act .collect, .act .collect, .act .collect,
      .act .launch, .act (.closerEnters 0), .act (.closerEnters 1)]
    ((new 0).run (entered healthy ++
      [.act (.closerActs 0), .act .conclude, .act (.answer 1)])).returned =
        [⟨0, 1, .report ⟨2, [], [], false⟩⟩] ∧
    ((new 0).run (entered stuck ++
      [.elapse 10, .act .expire, .act .conclude, .act (.answer 1)])).returned =
        [⟨10, 1, .report ⟨2, [], [⟨.close, "pool", "aborted after 10ms shutdown timeout"⟩,
          ⟨.close, "cache", "aborted after 10ms shutdown timeout"⟩], true⟩⟩] := by
  intro cache healthy stuck entered
  constructor <;> decide +kernel

end Manager
end Lifecycle
end ServiceKit
