import ServiceKit.Proofs.Lifecycle.Completion
import ServiceKit.Proofs.Lifecycle.Course

/-!
# The report of a shutdown

The call that begins the shutdown comes to return a report, and the report says of every closer what
became of it.
-/

namespace ServiceKit
namespace Lifecycle

open History
open Manager (Begun)

namespace Plan

variable {plan : Plan} {m m' : Manager} {id : Nat}

/-! ## The call that began the shutdown -/

/-- The shutdown goes to plan, and the call that began it waits or has returned the report. -/
structure Serves (plan : Plan) (id : Nat) (m : Manager) : Prop where
  governs : plan.Governs m
  call : ⟨id, .owner⟩ ∈ m.calls ∨
    ∃ r ∈ m.returned, r.id = id ∧ ∃ report, r.answer = .report report ∧ m.progress = .done report

theorem Serves.change {step : Manager.Step} (hsound : m.Sound)
    (hkept : step ≠ .act (.abandon id)) (hchange : Manager.Change step m m')
    (h : plan.Serves id m) : plan.Serves id m' := by
  refine ⟨h.governs.change hsound hchange, ?_⟩
  rcases h.call with hcall | ⟨r, hr, hid, report, hanswer, hdone⟩
  · rcases hsound.identified.waits_or_returns hchange hkept hcall with hcall | ⟨value, hvalue, rfl⟩
    · exact Or.inl hcall
    · obtain ⟨report, hprogress, rfl⟩ := Manager.answer?_owner hvalue
      refine Or.inr ⟨_, List.mem_append_right _ (List.mem_singleton_self _), rfl, report, rfl, ?_⟩
      exact hprogress
  · exact Or.inr ⟨r, hchange.mem_returned hr, hid, report, hanswer, hchange.done hdone⟩

/-! ## A report that goes to plan accounts for every closer -/

theorem Settles.timedOut_iff {report : Report} (h : plan.Settles report)
    (hscripts : ∀ closer ∈ plan.closers, ∃ hook, closer.make = .ok hook) :
    report.timedOut = true ↔ plan.late ≠ [] := by
  refine ⟨fun htimedOut => ?_, fun hne => ?_⟩
  · obtain ⟨closer, hcloser, hoverruns⟩ := h.late htimedOut
    exact List.ne_nil_of_mem (mem_late.mpr ⟨hcloser, (overruns_iff.mp hoverruns).1⟩)
  obtain ⟨closer, hcloser⟩ := List.exists_mem_of_ne_nil _ hne
  by_contra hnot
  obtain ⟨panic, herror⟩ := h.lost (eq_false_of_ne_true hnot) closer hcloser
  obtain ⟨hook, hmake⟩ := hscripts closer (mem_late.mp hcloser).1
  rw [hmake] at herror
  contradiction

theorem abortions_eq_nil (h : plan.late = []) : plan.abortions = [] := by
  rw [abortions, h, abortionsOf_nil]

theorem Settles.aborted_eq {report : Report} (h : plan.Settles report)
    (htimedOut : report.timedOut = true ↔ plan.late ≠ []) : report.aborted = plan.abortions := by
  rw [h.aborted]
  split
  · rfl
  next hnot =>
    have hnone : plan.late = [] := by
      by_contra hne
      exact hnot (htimedOut.mpr hne)
    exact (abortions_eq_nil hnone).symm

/-- A plan fails nowhere and leaves nobody late just if every closer succeeds. -/
theorem forall_succeeds_iff :
    (∀ closer ∈ plan.closers, plan.succeeds closer = true) ↔
      plan.late = [] ∧ plan.failures = [] := by
  simp only [succeeds_iff, late, failures, List.filter_eq_nil_iff, List.flatMap_eq_nil_iff,
    List.mem_filter, Bool.not_eq_true', Bool.not_eq_false]
  constructor
  · intro hall
    exact ⟨fun closer hcloser => (hall closer hcloser).1,
      fun closer hcloser => (hall closer hcloser.1).2⟩
  · rintro ⟨hends, hnone⟩ closer hcloser
    exact ⟨hends closer hcloser, hnone closer ⟨hcloser, hends closer hcloser⟩⟩

theorem Settles.isClean_iff {report : Report} (h : plan.Settles report)
    (htimedOut : report.timedOut = true ↔ plan.late ≠ []) :
    report.isClean = true ↔ ∀ closer ∈ plan.closers, plan.succeeds closer = true := by
  have hclean : report.isClean = true ↔
      (report.ended = [] ∧ report.aborted = []) ∧ report.timedOut = false := by
    simp [Report.isClean, Report.failures]
  have hended : report.ended = [] ↔ plan.failures = [] := by
    constructor
    · intro hnone
      exact List.perm_nil.mp (hnone ▸ h.ended.symm)
    · intro hnone
      exact List.perm_nil.mp (hnone ▸ h.ended)
  have hlate : report.timedOut = false ↔ plan.late = [] := by
    rw [← Bool.not_eq_true, htimedOut, not_not]
  rw [hclean, hended, hlate, h.aborted_eq htimedOut, forall_succeeds_iff]
  constructor
  · rintro ⟨⟨hfailures, -⟩, hnone⟩
    exact ⟨hnone, hfailures⟩
  · rintro ⟨hnone, hfailures⟩
    exact ⟨⟨hfailures, abortions_eq_nil hnone⟩, hnone⟩

/-- If every closer has a hook, a report that goes to plan accounts for all of them. -/
theorem Settles.reports {report : Report} (h : plan.Settles report)
    (hscripts : ∀ closer ∈ plan.closers, ∃ hook, closer.make = .ok hook)
    (hinOrder : report.ended.Pairwise fun a b => a.time ≤ b.time) : plan.Reports report := by
  have htimedOut := h.timedOut_iff hscripts
  have haborted : report.aborted = plan.abortions := h.aborted_eq htimedOut
  exact {
    closersRun := h.closersRun
    timedOut := htimedOut.trans late_ne_nil_iff
    ended := h.ended
    inOrder := hinOrder
    aborted := haborted
    failures := by rw [Report.failures, haborted]
    isClean := h.isClean_iff htimedOut }

/-- What the call has returned is the report of the shutdown. -/
theorem Serves.exists_done (hsound : m.Sound) (h : plan.Serves id m) {r : Return}
    (hr : r ∈ m.returned) (hid : r.id = id) :
    ∃ report, r.answer = .report report ∧ m.progress = .done report := by
  rcases h.call with hcall | ⟨other, hother, hotherId, report, hanswer, hdone⟩
  · exact absurd hid (hsound.identified.id_ne_of_waiting hcall hr)
  · obtain rfl : r = other := hsound.identified.return_eq hr hother (hid.trans hotherId.symm)
    exact ⟨report, hanswer, hdone⟩

/-- What the call has returned goes to plan. -/
theorem Serves.settles (hsound : m.Sound) (hrecorded : m.Recorded) (h : plan.Serves id m)
    {r : Return} (hr : r ∈ m.returned) (hid : r.id = id) :
    ∃ report, r.answer = .report report ∧ plan.Settles report ∧
      report.ended = History.failures m.history .close := by
  obtain ⟨report, hanswer, hdone⟩ := h.exists_done hsound hr hid
  have hclose := hrecorded.close
  rw [hdone] at hclose
  exact ⟨report, hanswer, (h.governs.done report hdone).1, hclose⟩

/-- What the call has returned is the report of the plan. -/
theorem Serves.reports (hsound : m.Sound) (hrecorded : m.Recorded)
    (hscripts : ∀ closer ∈ plan.closers, ∃ hook, closer.make = .ok hook)
    (h : plan.Serves id m) {r : Return} (hr : r ∈ m.returned) (hid : r.id = id) :
    ∃ report, r.answer = .report report ∧ plan.Reports report ∧
      report.ended = History.failures m.history .close := by
  obtain ⟨report, hanswer, hsettles, hended⟩ := h.settles hsound hrecorded hr hid
  refine ⟨report, hanswer, hsettles.reports hscripts ?_, hended⟩
  rw [hended]
  exact hrecorded.chronological.failures .close

/-! ## The report comes -/

/-- When the last closer of a plan has ended, or the limit is reached. -/
def bound (plan : Plan) : Nat :=
  match plan.deadline with
  | some deadline => deadline
  | none => plan.start + total (fun closer =>
      match closer.make with
      | .ok hook => hook.delay
      | .error _ => 0) plan.closers

theorem le_bound {closer : Closer} {hook : Hook} (hdeadline : plan.deadline = none)
    (hcloser : closer ∈ plan.closers) (hmake : closer.make = .ok hook) :
    plan.start + hook.delay ≤ plan.bound := by
  have hle := le_total_of_mem (fun closer : Closer =>
    match closer.make with
    | .ok hook => hook.delay
    | .error _ => 0) hcloser
  simp only [hmake] at hle
  simp only [bound, hdeadline]
  omega

/-- While a closer is open and nothing is possible, the plan has not come to its end. -/
theorem Tracks.now_lt_bound {s : Shutdown} {closings : List Moment}
    (htracks : plan.Tracks m.now closings s)
    (hends : plan.limit = none → ∀ closer ∈ plan.closers, ∀ hook, closer.make = .ok hook →
      hook.ending.isSome = true)
    (hprogress : m.progress = .underWay s) (hopen : s.isUnfinished = true)
    (hnone : m.enabled = []) : m.now < plan.bound := by
  have hkeeps := htracks.keeps
  have htime : s.isInTime m.now = true := by
    by_contra hnot
    exact Manager.not_ready_of_enabled_eq_nil hnone _
      (.expire hprogress (eq_false_of_ne_true hnot) hopen)
  cases hdeadline : plan.deadline with
  | some deadline =>
      rw [htracks.isInTime_eq, isInTime, hdeadline] at htime
      simpa [bound, hdeadline] using htime
  | none =>
      have hlimit : plan.limit = none := by simpa [deadline] using hdeadline
      obtain ⟨slot, hmem, hslot⟩ := List.any_eq_true.mp hopen
      obtain ⟨closer, hcloser, hplace⟩ := exists_mem_of_forall₂ hkeeps.places hmem
      cases slot with
      | waiting c => exact absurd hmem (Manager.not_waiting_of_enabled_eq_nil hnone hprogress)
      | running r =>
          obtain ⟨-, -, hmake, hwhen⟩ := hplace
          have hending : r.hook.ending.isSome = true := hends hlimit closer hcloser r.hook hmake
          have hdue : r.due = some (plan.start + r.hook.delay) := by
            rcases hwhen with hwhen | hnever
            · rw [hwhen, Hook.due?, if_pos (by simp [hending])]
            · simp [hnever] at hending
          refine Nat.lt_of_lt_of_le ?_ (le_bound hdeadline hcloser hmake)
          obtain ⟨k, hk⟩ := List.getElem?_of_mem hmem
          by_contra hnot
          exact Manager.not_ready_of_enabled_eq_nil hnone _ (.closer hprogress htime hk
            (Running.isDue_of_le hdue (Nat.le_of_not_lt hnot)))
      | ended | lost | aborted => contradiction

/-- The call has returned, and what it has returned goes to plan. -/
def Served (plan : Plan) (id : Nat) (m : Manager) : Prop :=
  m.Sound ∧ m.Recorded ∧ plan.Serves id m ∧ ∃ r ∈ m.returned, r.id = id

theorem Serves.inevitable (hsound : m.Sound) (hrecorded : m.Recorded)
    (hends : plan.limit = none → ∀ closer ∈ plan.closers, ∀ hook, closer.make = .ok hook →
      hook.ending.isSome = true)
    (h : plan.Serves id m) : Manager.Inevitable (plan.Served id) m := by
  refine Manager.inevitable_of_bound plan.bound (I := fun m => m.Recorded ∧ plan.Serves id m)
    ?_ ?_ hsound ⟨hrecorded, h⟩
  · rintro m m' hsound ⟨hrecorded, h⟩ hmove
    refine ⟨hsound.move_invariant hmove (fun _ _ => Manager.Recorded.change) hrecorded, ?_⟩
    refine hsound.move_invariant hmove ?_ h
    intro step hown m m' hsound
    exact Serves.change hsound (hown (.abandon id) rfl)
  · rintro m hsound ⟨hrecorded, h⟩ hnot hnone
    have hcall : ⟨id, .owner⟩ ∈ m.calls := by
      rcases h.call with hcall | ⟨r, hr, hid, -⟩
      · exact hcall
      · exact absurd ⟨hsound, hrecorded, h, r, hr, hid⟩ hnot
    cases hprogress : m.progress with
    | idle => exact absurd hprogress (hsound.staged.begun_iff.mp h.governs.begun.begun)
    | requested limit => exact absurd hnone (hsound.enabled_ne_nil_of_requested hprogress)
    | underWay s =>
        by_cases hopen : s.isUnfinished = true
        · exact (h.governs.underWay s hprogress).now_lt_bound hends hprogress hopen hnone
        · exact absurd (.conclude hprogress (eq_false_of_ne_true hopen))
            (Manager.not_ready_of_enabled_eq_nil hnone _)
    | done report =>
        refine absurd (.answer hcall ?_) (Manager.not_ready_of_enabled_eq_nil hnone _)
        simp [Manager.answer?, hprogress]

end Plan

namespace Manager

variable {m : Manager} {id : Nat} {limit : Option Duration}

theorem Sound.serves_close (hsound : m.Sound) (hhandle : 0 < m.handles)
    (hid : m.hasCall id = false) (hstate : m.state = .running) :
    (m.plan limit).Serves id (m.act (.close id limit)) := by
  have hidle : m.progress = .idle := state_eq_running_iff.mp hstate
  obtain ⟨queue, hcollector⟩ := hsound.listening hidle (Or.inl hhandle)
  refine ⟨hsound.governs_close hhandle hid hidle, Or.inl ?_⟩
  rw [act_close hhandle hid]
  simp only [close, hidle, hcollector]
  exact List.mem_append_right _ (List.mem_singleton_self _)

/-- The call that begins a shutdown is served as long as nobody abandons it. -/
theorem serves_run (start : Nat) (before after : List Step) (id : Nat) (limit : Option Duration)
    (hhandle : 0 < ((new start).run before).handles)
    (hid : ((new start).run before).hasCall id = false)
    (hstate : ((new start).run before).state = .running)
    (hkept : .act (.abandon id) ∉ after) :
    (((new start).run before).plan limit).Serves id
      ((new start).run (before ++ .act (.close id limit) :: after)) := by
  have hbefore : ((new start).run before).Sound := sound_run start before
  rw [run_append, run_cons]
  refine (hbefore.step (.act (.close id limit))).run_invariant ?_
    (hbefore.serves_close hhandle hid hstate)
  intro step hstep m m' hsound hchange
  refine Plan.Serves.change hsound ?_ hchange
  rintro rfl
  exact hkept hstep

/-- The call that begins the shutdown comes to return a report that accounts for every closer. -/
theorem close_reports (start : Nat) (before after : List Step) (id : Nat)
    (limit : Option Duration) (hhandle : 0 < ((new start).run before).handles)
    (hid : ((new start).run before).hasCall id = false)
    (hstate : ((new start).run before).state = .running)
    (hscripts : ∀ closer ∈ accepted ((new start).run before).history,
      ∃ hook, closer.make = .ok hook)
    (hends : limit = none → ∀ closer ∈ accepted ((new start).run before).history,
      (closer.ending? ((new start).run before).now).isSome = true)
    (hkept : .act (.abandon id) ∉ after) :
    let plan := ((new start).run before).plan limit
    let m := (new start).run (before ++ .act (.close id limit) :: after)
    (∀ r ∈ m.returned, r.id = id → ∃ report, r.answer = .report report ∧
      plan.Reports report ∧ report.ended = failures m.history .close) ∧
    Inevitable (fun m' => ∃ r ∈ m'.returned, r.id = id ∧
      ∃ report, r.answer = .report report ∧ plan.Reports report) m := by
  intro plan m
  have hsound : m.Sound := sound_run start _
  have hrecorded : m.Recorded := recorded_run start _
  have hserves : plan.Serves id m := serves_run start before after id limit hhandle hid hstate hkept
  refine ⟨fun r hr hrId => hserves.reports hsound hrecorded hscripts hr hrId, ?_⟩
  have hall : plan.limit = none → ∀ closer ∈ plan.closers, ∀ hook, closer.make = .ok hook →
      hook.ending.isSome = true := by
    intro hnone closer hcloser hook hmake
    simpa [Closer.ending?, hmake] using hends hnone closer hcloser
  apply (hserves.inevitable hsound hrecorded hall).mono
  rintro m' ⟨hsound, hrecorded, hserves, r, hr, hrId⟩
  obtain ⟨report, hanswer, hreports, -⟩ := hserves.reports hsound hrecorded hscripts hr hrId
  exact ⟨r, hr, hrId, report, hanswer, hreports⟩

/-- One closer fails in time, one panics just at the deadline, and one never ends. -/
theorem close_reports_ten_millis :
    let before : List Step := [
      .act (.register ⟨"pool", .ok ⟨3, none, some (.failure ["drain", "gone"]), none⟩⟩),
      .act .clone,
      .act (.register ⟨"cache", .ok ⟨10, some "late", some (.panic ⟨none⟩), none⟩⟩),
      .act (.register ⟨"feed", .ok ⟨0, none, none, none⟩⟩)]
    let after : List Step := [.act .collect, .act (.close 2 none), .act .collect, .act .collect,
      .act .collect, .act .launch, .act (.closerEnters 0), .act (.closerEnters 1),
      .act (.closerEnters 2), .elapse 3, .act (.closerActs 0), .elapse 7, .act .expire,
      .act .conclude, .act (.answer 1)]
    let plan := ((new 5).run before).plan (some (.ofMillis 10))
    let m := (new 5).run (before ++ .act (.close 1 (some (.ofMillis 10))) :: after)
    (∀ r ∈ m.returned, r.id = 1 → ∃ report, r.answer = .report report ∧
      plan.Reports report ∧ report.ended = failures m.history .close) ∧
    Inevitable (fun m' => ∃ r ∈ m'.returned, r.id = 1 ∧
      ∃ report, r.answer = .report report ∧ plan.Reports report) m := by
  intro before after plan m
  refine close_reports 5 before after 1 (some (.ofMillis 10)) (by decide) (by decide) rfl
    ?_ ?_ ?_
  · intro closer hcloser
    have haccepted : accepted ((new 5).run before).history =
        [⟨"pool", .ok ⟨3, none, some (.failure ["drain", "gone"]), none⟩⟩,
          ⟨"cache", .ok ⟨10, some "late", some (.panic ⟨none⟩), none⟩⟩,
          ⟨"feed", .ok ⟨0, none, none, none⟩⟩] := rfl
    rw [haccepted] at hcloser
    simp only [List.mem_cons, List.not_mem_nil, or_false] at hcloser
    rcases hcloser with rfl | rfl | rfl
    · exact ⟨_, rfl⟩
    · exact ⟨_, rfl⟩
    · exact ⟨_, rfl⟩
  · intro hnone
    contradiction
  · simp [after]

end Manager
end Lifecycle
end ServiceKit
