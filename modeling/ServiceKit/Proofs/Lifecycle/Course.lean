import ServiceKit.Proofs.Lifecycle.Fate

/-!
# The course of a shutdown

Every shutdown goes to its plan, whatever its limit: in every run that begins it, what the history
tells of closers is what becomes of them, and the report accounts for all of them.
-/

namespace ServiceKit
namespace Lifecycle

open History
open Manager (Begun)

theorem Happening.isOfClosers_of_concernsCloser {happening : Happening}
    (h : happening.concernsCloser = true) : happening.isOfClosers = true := by
  cases happening with
  | entered phase | ended phase =>
      cases phase with
      | setUp => contradiction
      | close => rfl
  | lost | aborted => rfl
  | _ => contradiction

namespace Plan

variable {plan : Plan} {m m' : Manager}

/-- The shutdown of a manager goes to plan. -/
structure Governs (plan : Plan) (m : Manager) : Prop where
  begun : Begun plan.closers m
  requested : ∀ limit, m.progress = .requested limit →
    limit = plan.limit ∧ m.now = plan.start ∧ closings m.history = []
  underWay : ∀ s, m.progress = .underWay s → plan.Tracks m.now (closings m.history) s
  done : ∀ report, m.progress = .done report →
    plan.Settles report ∧ (closings m.history).Perm (plan.closers.flatMap plan.fate) ∧
      (report.timedOut = false → ∀ closer ∈ plan.closers,
        plan.isInTime plan.start = true)

theorem governs_of_underWay {s : Shutdown} (hbegun : Begun plan.closers m)
    (hprogress : m.progress = .underWay s)
    (htracks : plan.Tracks m.now (closings m.history) s) : plan.Governs m := by
  refine ⟨hbegun, ?_, ?_, ?_⟩
  · intro limit hlimit
    rw [hprogress] at hlimit
    contradiction
  · intro t ht
    rw [hprogress] at ht
    exact Progress.underWay.inj ht ▸ htracks
  · intro report hreport
    rw [hprogress] at hreport
    contradiction

theorem Governs.keep (h : plan.Governs m) (hbegun : Begun plan.closers m')
    (hnow : m'.now = m.now) (hprogress : m'.progress = m.progress)
    (hclosings : closings m'.history = closings m.history) : plan.Governs m' := by
  refine ⟨hbegun, ?_, ?_, ?_⟩
  · rw [hnow, hprogress, hclosings]
    exact h.requested
  · rw [hnow, hprogress, hclosings]
    exact h.underWay
  · rw [hprogress, hclosings]
    exact h.done

theorem closings_note {happening : Happening} (h : happening.concernsCloser = false) :
    closings (m.note happening).history = closings m.history := by
  simp [Manager.note, closings, h]

theorem closings_note_concerning {happening : Happening} (h : happening.concernsCloser = true) :
    closings (m.note happening).history = closings m.history ++ [⟨m.now, happening⟩] := by
  simp [Manager.note, closings, h]

theorem tracks_launch {limit : Option Duration} (hlimit : limit = plan.limit)
    (hnow : m.now = plan.start) :
    plan.Tracks m.now [] {
      limit := limit
      deadline := limit.map fun d => m.now + d.millisUp
      ticket := m.ticket
      slots := plan.closers.map .waiting
      ended := []
      aborted := []
      timedOut := false } := by
  have hnone : ∀ {α : Type} (f : Slot → Closer → List α),
      (∀ closer, f (.waiting closer) closer = []) →
      (List.zipWith f (plan.closers.map .waiting) plan.closers).flatten = [] := by
    intro α f hf
    simp [List.zipWith_map_left, hf]
  refine ⟨⟨hlimit, ?_, ?_, ?_, rfl, ?_⟩, ?_, ?_⟩
  · rw [deadline, ← hlimit, ← hnow]
  · rw [List.forall₂_map_left_iff]
    exact List.forall₂_same.mpr fun closer _ => ⟨rfl, rfl, hnow⟩
  · rw [tally]
    exact .of_eq (hnone _ fun _ => rfl).symm
  · intro h
    contradiction
  · intro slot hslot
    obtain ⟨closer, -, rfl⟩ := List.mem_map.mp hslot
    intro h
    contradiction
  · exact .of_eq (hnone _ fun _ => rfl).symm

/-- Reaching the limit is told of closers only as they are aborted. -/
theorem closings_expiry (limit : Duration) (slots : List Slot) (time : Nat) :
    closings ((expiry limit slots).map (Moment.mk time)) =
      (slots.filterMap Slot.abortion?).map (Moment.mk time) := by
  rw [expiry, List.map_cons, closings, List.filter_cons_of_neg (by simp [Happening.concernsCloser]),
    List.filter_eq_self]
  intro moment hmoment
  obtain ⟨x, hx, rfl⟩ := List.mem_map.mp hmoment
  obtain ⟨name, resource, inHook, rfl⟩ := eq_aborted_of_mem_abortions hx
  rfl

theorem Governs.change {step : Manager.Step} (hsound : m.Sound)
    (hchange : Manager.Change step m m') (h : plan.Governs m) : plan.Governs m' := by
  have hbegun : Begun plan.closers m' := h.begun.change hsound hchange
  have hprogress : m.progress ≠ .idle := hsound.staged.begun_iff.mp h.begun.begun
  cases hchange with
  | queue _ _ _ hidle | begin _ _ _ _ hidle | beginAlone _ _ _ _ hidle =>
      exact absurd hidle hprogress
  | @launch _ limit closers hrequested hcollector =>
      obtain ⟨-, -, hsummary⟩ := hsound.staged.of_delivered hcollector
      have haccepted : accepted m.history = closers := congrArg Manager.Summary.accepted hsummary
      obtain ⟨hlimit, hnow, hnone⟩ := h.requested _ hrequested
      refine governs_of_underWay hbegun rfl ?_
      change plan.Tracks m.now (closings m.history) _
      rw [hnone, ← haccepted, h.begun.accepted]
      exact tracks_launch hlimit hnow
  | launchAlone hrequested hcollector =>
      exact absurd hcollector (hsound.staged.not_stopped hrequested)
  | @closerLost _ s before after closer panic hunderWay hslots htime hmake =>
      have htracks := h.underWay s hunderWay
      have hnow := htracks.now_eq_of_waiting hslots
      refine governs_of_underWay hbegun rfl ?_
      rw [closings_note_concerning rfl]
      refine htracks.replace hslots (by simp) (by simp) ?_ ?_ ?_
      · intro _
        rw [← hnow, ← htracks.isInTime_eq]
        exact htime
      · rintro other ⟨-, rfl, -⟩
        exact ⟨rfl, panic, hmake⟩
      · rintro other ⟨-, rfl, -⟩
        rw [hnow]
        rfl
  | @closerEnters _ s before after closer hook hunderWay hslots htime hmake =>
      have htracks := h.underWay s hunderWay
      have hnow := htracks.now_eq_of_waiting hslots
      refine governs_of_underWay hbegun rfl ?_
      rw [closings_note_concerning rfl]
      refine htracks.replace hslots (by simp) (by simp) ?_ ?_ ?_
      · intro _
        rw [← hnow, ← htracks.isInTime_eq]
        exact htime
      · rintro other ⟨hover, rfl, -⟩
        exact ⟨hover, rfl, hmake, Or.inl (congrArg hook.due? hnow)⟩
      · rintro other ⟨-, rfl, -⟩
        rw [hnow]
        rfl
  | @closerRests _ s before after r hunderWay hslots htime hdue hending =>
      have htracks := h.underWay s hunderWay
      refine governs_of_underWay hbegun rfl ?_
      rw [← List.append_nil (closings _)]
      refine htracks.replace hslots (by simp) (by simp) ?_ ?_ ?_
      · intro _
        exact htracks.begun (.running r) (by simp [hslots]) rfl
      · rintro other ⟨hover, hname, hmake, -⟩
        exact ⟨hover, hname, hmake, Or.inr hending⟩
      · intro other _
        exact (List.append_nil _).symm
  | @closerEnds _ s before after r ending hunderWay hslots htime hdue hending =>
      have htracks := h.underWay s hunderWay
      refine governs_of_underWay hbegun rfl ?_
      rw [closings_note_concerning rfl]
      refine htracks.ends hslots htime hdue ?_ hending
      exact hsound.punctual.closers s hunderWay r (by simp [hslots])
  | @expire _ s limit hunderWay hlimit hopen htime =>
      have htracks := h.underWay s hunderWay
      refine governs_of_underWay hbegun rfl ?_
      rw [Manager.noteAll, closings_append, closings_expiry]
      exact htracks.expire hlimit hopen htime (hsound.punctual.closers s hunderWay)
        (hsound.punctual.deadline s hunderWay hopen)
  | @conclude _ s hunderWay hopen =>
      have htracks := h.underWay s hunderWay
      refine ⟨hbegun, by simp [Manager.note], by simp [Manager.note], ?_⟩
      rintro report ⟨⟩
      refine ⟨htracks.keeps.settles hopen, ?_, ?_⟩
      · rw [closings_note rfl]
        exact htracks.perm_fates hopen
      · intro hover closer hcloser
        exact htracks.isInTime_start hopen hover hcloser
  | elapse millis hquiet =>
      have hnone : m.enabled = [] := Manager.enabled_eq_nil_of_isQuietFor hquiet
      refine ⟨hbegun, ?_, ?_, h.done⟩
      · intro limit hrequested
        exact absurd hnone (hsound.enabled_ne_nil_of_requested hrequested)
      · intro s hunderWay
        refine (h.underWay s hunderWay).elapse _ ?_
        intro closer hmem
        exact Manager.not_waiting_of_enabled_eq_nil hnone hunderWay hmem
  | loseClosers | reject | start | handOver | discard | initializerEnds | retire =>
      exact h.keep hbegun rfl rfl (closings_note rfl)
  | clone | drop | follow | await | abandon | take | initializerRests | answer =>
      exact h.keep hbegun rfl rfl rfl

/-- Up to a time that is not later, the fates of all closers are told. -/
theorem Governs.before_closings (hsound : m.Sound) (h : plan.Governs m) {time : Nat}
    (hle : time ≤ m.now) :
    (before time (closings m.history)).Perm
      (before time (plan.closers.flatMap plan.fate)) := by
  cases hprogress : m.progress with
  | idle => exact absurd hprogress (hsound.staged.begun_iff.mp h.begun.begun)
  | requested limit =>
      -- Nothing is told of closers yet, and nothing becomes of them before the start.
      obtain ⟨-, hnow, hnone⟩ := h.requested limit hprogress
      have hlater : before time (plan.closers.flatMap plan.fate) = [] := by
        rw [before, List.filter_eq_nil_iff]
        intro moment hmem
        obtain ⟨closer, -, hfate⟩ := List.mem_flatMap.mp hmem
        have hstart : plan.start ≤ moment.time := start_le_of_mem_fate hfate
        simp only [decide_eq_true_eq]
        omega
      rw [hnone, hlater]
      exact .refl _
  | underWay s =>
      exact (h.underWay s hprogress).before_closings hle (hsound.punctual.closers s hprogress)
        (hsound.punctual.deadline s hprogress)
  | done report => exact (h.done report hprogress).2.1.filter _

end Plan

namespace Manager

variable {m : Manager} {id : Nat} {limit : Option Duration}

/-- The plan of a shutdown that would begin now. -/
def plan (m : Manager) (limit : Option Duration) : Plan :=
  ⟨m.now, limit, accepted m.history⟩

/-- Before the shutdown begins closers do nothing. -/
theorem Sound.closings_eq_nil (hsound : m.Sound) (hidle : m.progress = .idle) :
    closings m.history = [] := by
  rw [closings, List.filter_eq_nil_iff]
  intro moment hmem hcloser
  obtain ⟨past, future, heq⟩ := List.append_of_mem hmem
  have hrun := (hsound.lawful past moment future heq).closersRun
    (Happening.isOfClosers_of_concernsCloser hcloser)
  have hnot := (hsound.staged.of_idle hidle).1
  rw [heq, begun_append, hrun.begun, Bool.true_or] at hnot
  contradiction

theorem Sound.governs_close (hsound : m.Sound) (hhandle : 0 < m.handles)
    (hid : m.hasCall id = false) (hidle : m.progress = .idle) :
    (m.plan limit).Governs (m.act (.close id limit)) := by
  obtain ⟨queue, hcollector⟩ := hsound.listening hidle (Or.inl hhandle)
  have hnone := hsound.closings_eq_nil hidle
  rw [act_close hhandle hid]
  simp only [close, hidle, hcollector]
  refine ⟨⟨by simp [note], by simp [note, plan]⟩, ?_, by simp [note], by simp [note]⟩
  rintro l ⟨⟩
  exact ⟨rfl, rfl, by rw [Plan.closings_note rfl, hnone]⟩

/-- In every run the shutdown goes to plan from the call that begins it. -/
theorem governs_run (start : Nat) (before after : List Step) (id : Nat) (limit : Option Duration)
    (hhandle : 0 < ((new start).run before).handles)
    (hid : ((new start).run before).hasCall id = false)
    (hidle : ((new start).run before).progress = .idle) :
    (((new start).run before).plan limit).Governs
      ((new start).run (before ++ .act (.close id limit) :: after)) := by
  have hbefore : ((new start).run before).Sound := sound_run start before
  rw [run_append, run_cons]
  exact (hbefore.step _).run_invariant
    (fun _ _ _ _ hsound hchange => Plan.Governs.change hsound hchange)
    (hbefore.governs_close hhandle hid hidle)

end Manager
end Lifecycle
end ServiceKit
