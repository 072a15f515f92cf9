import ServiceKit.Proofs.Lifecycle.Closing
import ServiceKit.Proofs.Lifecycle.Reporting

/-!
# Panics of closers

A closer can panic in two places.  A panic of its hook is reported like any other end of it.  A
panic of the call that makes the hook is not: the closer never ends, so the report lists it as
aborted if the limit is reached, and says nothing of it otherwise.
-/

namespace ServiceKit
namespace Lifecycle

open History

namespace Plan

variable {plan : Plan} {report : Report} {first last : List Closer} {closer : Closer}

/-- The plan of the same shutdown with other closers. -/
def among (plan : Plan) (closers : List Closer) : Plan :=
  { plan with closers := closers }

/-! ## A plan without one of its closers -/

theorem endsInTime_among (plan : Plan) (closers : List Closer) :
    (plan.among closers).endsInTime = plan.endsInTime :=
  rfl

theorem failuresOf_among (plan : Plan) (closers : List Closer) :
    (plan.among closers).failuresOf = plan.failuresOf :=
  rfl

theorem failures_perm (hclosers : plan.closers = first ++ closer :: last)
    (hin : plan.endsInTime closer = true) :
    plan.failures.Perm (plan.failuresOf closer ++ (plan.among (first ++ last)).failures) := by
  rw [failures, failures, endsInTime_among, failuresOf_among, hclosers, among,
    List.filter_append, List.filter_append, List.filter_cons_of_pos hin, List.flatMap_append,
    List.flatMap_append, List.flatMap_cons]
  exact List.perm_append_comm_assoc _ _ _

theorem failures_eq (hclosers : plan.closers = first ++ closer :: last)
    (hlate : plan.endsInTime closer = false) :
    plan.failures = (plan.among (first ++ last)).failures := by
  rw [failures, failures, endsInTime_among, failuresOf_among, hclosers, among,
    List.filter_append, List.filter_append, List.filter_cons_of_neg (by simp [hlate])]

theorem late_eq (hclosers : plan.closers = first ++ closer :: last)
    (hin : plan.endsInTime closer = true) :
    plan.late = (plan.among (first ++ last)).late := by
  rw [late, late, endsInTime_among, hclosers, among, List.filter_append, List.filter_append,
    List.filter_cons_of_neg (by simp [hin])]

/-- A closer that ends in time adds its failure to the report, and nothing else. -/
theorem Settles.without (h : plan.Settles report)
    (hclosers : plan.closers = first ++ closer :: last) (hin : plan.endsInTime closer = true) :
    ∃ rest, report.ended.Perm (plan.failuresOf closer ++ rest) ∧
      (plan.among (first ++ last)).Settles
        { report with closersRun := (first ++ last).length, ended := rest } := by
  have hlate : plan.late = (plan.among (first ++ last)).late := late_eq hclosers hin
  have habortions : plan.abortions = (plan.among (first ++ last)).abortions := by
    rw [abortions, abortions, hlate]
    rfl
  refine ⟨(plan.among (first ++ last)).failures, h.ended.trans (failures_perm hclosers hin),
    rfl, .refl _, habortions ▸ h.aborted, ?_, hlate ▸ h.lost⟩
  intro htimedOut
  obtain ⟨other, hother, hoverruns⟩ := h.late htimedOut
  refine ⟨other, ?_, hoverruns⟩
  -- the closer that ends in time is not the one that overruns
  have hne : other ≠ closer := by
    rintro rfl
    rw [(overruns_iff.mp hoverruns).1] at hin
    contradiction
  rw [hclosers, List.mem_append, List.mem_cons] at hother
  exact List.mem_append.mpr (hother.imp_right fun hmem => hmem.resolve_left hne)

/-- A closer that does not end in time is in the report only if the limit is reached, as aborted. -/
theorem Settles.of_late (h : plan.Settles report)
    (hclosers : plan.closers = first ++ closer :: last) (hlate : plan.endsInTime closer = false) :
    report.ended.Perm (plan.among (first ++ last)).failures ∧
      report.aborted = if report.timedOut then
        (plan.among first).abortions ++ plan.abortionsOf [closer] ++ (plan.among last).abortions
      else [] := by
  refine ⟨h.ended.trans (.of_eq (failures_eq hclosers hlate)), ?_⟩
  have hsplit : plan.late = (plan.among first).late ++ [closer] ++ (plan.among last).late := by
    rw [Plan.late, hclosers, List.filter_append, List.filter_cons_of_pos (by simp [hlate]),
      List.append_assoc]
    rfl
  rw [h.aborted, abortions, hsplit, abortionsOf_append, abortionsOf_append]
  rfl

/-- What a report says of closers that panic. -/
structure ReportsPanics (plan : Plan) (report : Report) : Prop where
  /-- A hook that panics before the deadline gives one failure with the text of the panic; without
  it the report goes to the plan of the other closers, so the closer is not among the aborted
  ones. -/
  hook : ∀ first closer last, plan.closers = first ++ closer :: last →
    ∀ hook value, closer.make = .ok hook → hook.ending = some (.panic value) →
      plan.isInTime (plan.start + hook.delay) = true →
      report.isClean = false ∧ ∃ rest,
        report.ended.Perm
          (⟨plan.start + hook.delay, ⟨.close, closer.name, value.text⟩⟩ :: rest) ∧
        (plan.among (first ++ last)).Settles
          { report with closersRun := (first ++ last).length, ended := rest }
  /-- A panic of the call that makes the hook gives no failure of its own: the closer is reported as
  aborted if the limit is reached, and not at all otherwise. -/
  call : ∀ first closer last, plan.closers = first ++ closer :: last →
    ∀ panic, closer.make = .error panic →
      report.ended.Perm (plan.among (first ++ last)).failures ∧
      report.aborted = if report.timedOut then
        (plan.among first).abortions ++ plan.abortionsOf [closer] ++ (plan.among last).abortions
      else []

theorem Settles.reportsPanics (h : plan.Settles report) : plan.ReportsPanics report where
  hook := by
    intro first closer last hclosers hook value hmake hending htime
    have hin : plan.endsInTime closer = true := (endsInTime_of_ok hmake hending).trans htime
    have hfailure : plan.failuresOf closer =
        [⟨plan.start + hook.delay, ⟨.close, closer.name, value.text⟩⟩] :=
      failuresOf_of_ok hmake hending
    obtain ⟨rest, hended, hsettles⟩ := h.without hclosers hin
    rw [hfailure, List.singleton_append] at hended
    refine ⟨?_, rest, hended, hsettles⟩
    have hsome : report.ended ≠ [] := fun hnone => by simp [hnone] at hended
    simp [Report.isClean, Report.failures, hsome]
  call := fun first closer last hclosers panic hmake =>
    h.of_late hclosers (endsInTime_of_error hmake)

end Plan

namespace Manager

/-- The call that begins a shutdown comes to return a report that says of the closers that panic
what happened to them, whatever the limit. -/
theorem close_reportsPanics (start : Nat) (before after : List Step) (id : Nat)
    (limit : Option Duration) (hbegins : BeginsAfter start before id)
    (hkept : .act (.abandon id) ∉ after) :
    let plan := ((new start).run before).plan limit
    let m := (new start).run (before ++ .act (.close id limit) :: after)
    (∀ report, m.progress = .done report → plan.ReportsPanics report) ∧
    (∀ r ∈ m.returned, r.id = id →
      ∃ report, r.answer = .report report ∧ plan.ReportsPanics report) ∧
    ((limit = none → ∀ closer ∈ plan.closers, ∀ hook, closer.make = .ok hook →
        hook.ending.isSome = true) →
      Inevitable (fun m' => ∃ r ∈ m'.returned, r.id = id ∧
        ∃ report, r.answer = .report report ∧ plan.ReportsPanics report) m) := by
  intro plan m
  have hsound : m.Sound := sound_run start _
  have hrecorded : m.Recorded := recorded_run start _
  have hserves : plan.Serves id m :=
    serves_run start before after id limit hbegins.handle hbegins.fresh hbegins.running hkept
  refine ⟨fun report hdone => (hserves.governs.done report hdone).1.reportsPanics, ?_, ?_⟩
  · intro r hr hrId
    obtain ⟨report, hanswer, hsettles, -⟩ := hserves.settles hsound hrecorded hr hrId
    exact ⟨report, hanswer, hsettles.reportsPanics⟩
  · intro hends
    apply (hserves.inevitable hsound hrecorded hends).mono
    rintro m' ⟨hsound, hrecorded, hserves, r, hr, hrId⟩
    obtain ⟨report, hanswer, hsettles, -⟩ := hserves.settles hsound hrecorded hr hrId
    exact ⟨r, hr, hrId, report, hanswer, hsettles.reportsPanics⟩

/-- One hook panics in time, one call panics before it has a hook, and one hook never ends. -/
theorem close_reportsPanics_three :
    let before : List Step := [
      .act (.register ⟨"pool", .ok ⟨3, none, some (.panic ⟨some "drained"⟩), none⟩⟩),
      .act (.register ⟨"cache", .error ⟨some "gone"⟩⟩),
      .act (.register ⟨"feed", .ok ⟨0, none, none, none⟩⟩)]
    let after : List Step := [.act .collect, .act .collect, .act .collect, .act .collect,
      .act .launch, .act (.closerEnters 0), .act (.closerEnters 1), .act (.closerEnters 2),
      .elapse 3, .act (.closerActs 0), .elapse 7, .act .expire, .act .conclude, .act (.answer 1)]
    let plan := ((new 5).run before).plan (some (.ofMillis 10))
    let m := (new 5).run (before ++ .act (.close 1 (some (.ofMillis 10))) :: after)
    (∀ report, m.progress = .done report → plan.ReportsPanics report) ∧
    (∀ r ∈ m.returned, r.id = 1 →
      ∃ report, r.answer = .report report ∧ plan.ReportsPanics report) ∧
    ((some (Duration.ofMillis 10) = none → ∀ closer ∈ plan.closers, ∀ hook,
        closer.make = .ok hook → hook.ending.isSome = true) →
      Inevitable (fun m' => ∃ r ∈ m'.returned, r.id = 1 ∧
        ∃ report, r.answer = .report report ∧ plan.ReportsPanics report) m) := by
  intro before after plan m
  exact close_reportsPanics 5 before after 1 (some (.ofMillis 10)) ⟨rfl, by decide, rfl⟩
    (by simp [after])

/-- Not every panic is reported: a closer that panics when it is called is missing from a report
that finds nothing wrong. -/
theorem panic_unreported :
    let pool : Closer := ⟨"pool", .error ⟨some "drained"⟩⟩
    ((new 0).run [.act (.register pool), .act (.close 1 none), .act .collect, .act .collect,
      .act .launch, .act (.closerEnters 0), .act .conclude, .act (.answer 1)]).returned =
        [⟨0, 1, .report ⟨1, [], [], false⟩⟩] ∧
    (Report.mk 1 [] [] false).isClean = true := by
  intro pool
  exact ⟨rfl, rfl⟩

end Manager
end Lifecycle
end ServiceKit
