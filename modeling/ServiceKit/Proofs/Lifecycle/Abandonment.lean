import ServiceKit.Proofs.Lifecycle.Closing
import ServiceKit.Proofs.Lifecycle.Forgetting

/-!
# Abandoned calls

The shutdown does not need the call that began it.  If that call is dropped at any time before it
returns, the manager goes on as it would if the call were awaited: the two runs shadow each other,
and only the return of the call is missing from the one in which it is dropped.
-/

namespace ServiceKit
namespace Lifecycle
namespace Manager

variable {m m' : Manager} {id : Nat}

/-- A step that makes or drops the call of an id. -/
def Step.touches (id : Nat) : Step → Bool
  | .act (.close other _) => other == id
  | .act (.awaitInitialized other) => other == id
  | .act (.abandon other) => other == id
  | _ => false

/-- A run in which the call of an id returns as soon as it can. -/
def awaiting (id : Nat) (steps : List Step) : List Step :=
  steps.flatMap (fun step => [.act (.answer id), step]) ++ [.act (.answer id)]

/-! ## The call that began the shutdown -/

/-- The call of this id began the shutdown: it waits for the report or has returned it. -/
structure HasOwner (id : Nat) (m : Manager) : Prop where
  begun : m.progress ≠ .idle
  call : ⟨id, .owner⟩ ∈ m.calls ∨ ∃ r ∈ m.returned, r.id = id ∧
    ∃ report, m.progress = .done report ∧ r.answer = .report report

/-- The call of an id has nothing to return now. -/
def Rests (id : Nat) (m : Manager) : Prop :=
  ∀ call ∈ m.calls, call.id = id → m.answer? call.kind = none

theorem HasOwner.change {step : Step} (hsound : m.Sound) (hfree : step.touches id = false)
    (hchange : Change step m m') (h : HasOwner id m) : HasOwner id m' := by
  refine ⟨hchange.not_idle h.begun, ?_⟩
  rcases h.call with hcall | ⟨r, hr, hid, report, hdone, hanswer⟩
  · have hkept : step ≠ .act (.abandon id) := by
      rintro rfl
      simp [Step.touches] at hfree
    rcases hsound.identified.waits_or_returns hchange hkept hcall with hcall' | ⟨value, hvalue, rfl⟩
    · exact Or.inl hcall'
    · obtain ⟨report, hdone, rfl⟩ := answer?_owner hvalue
      exact Or.inr ⟨_, List.mem_append_right _ (List.mem_singleton_self _), rfl, report, hdone, rfl⟩
  · exact Or.inr ⟨r, hchange.mem_returned hr, hid, report, hchange.done hdone, hanswer⟩

theorem HasOwner.step (hsound : m.Sound) (h : HasOwner id m) (step : Step)
    (hfree : step.touches id = false) : HasOwner id (m.step step) :=
  hsound.step_invariant (fun hsound => HasOwner.change hsound hfree) h

theorem HasOwner.run {steps : List Step} (hsound : m.Sound) (h : HasOwner id m)
    (hfree : ∀ step ∈ steps, step.touches id = false) : HasOwner id (m.run steps) := by
  apply hsound.run_invariant _ h
  intro step hstep m m' hsound
  exact HasOwner.change hsound (hfree step hstep)

theorem HasOwner.kind_eq (hsound : m.Sound) (h : HasOwner id m) {call : Call}
    (hcall : call ∈ m.calls) (hid : call.id = id) : call.kind = .owner := by
  rcases h.call with howner | ⟨r, hr, hrId, -⟩
  · rw [hsound.identified.eq_of_id_eq hcall howner hid]
  · exact absurd (hrId.trans hid.symm) (hsound.identified.id_ne_of_waiting hcall hr)

theorem rests_of_enabled_eq_nil (h : m.enabled = []) : Rests id m := by
  intro call hcall _
  by_contra hvalue
  exact not_ready_of_enabled_eq_nil h _ (.answer hcall (Option.isSome_iff_ne_none.mpr hvalue))

/-- Returning changes nothing but the call itself: nobody else waits for the report. -/
theorem HasOwner.answer_self (hsound : m.Sound) (h : HasOwner id m) :
    (m.answer id).forget id = m.forget id := by
  unfold answer
  split
  next => rfl
  next call hfind =>
    have hkind : call.kind = .owner :=
      h.kind_eq hsound (List.mem_of_find?_eq_some hfind) (by simpa using List.find?_some hfind)
    split
    next => rfl
    next value hvalue =>
      rw [hkind]
      simp [forget, remaining, List.filter_filter]

theorem HasOwner.rests_answer (hsound : m.Sound) (h : HasOwner id m) : Rests id (m.answer id) := by
  unfold answer
  split
  next hnone =>
    intro call hcall hid
    rw [List.find?_eq_none] at hnone
    exact absurd (by simpa using hid) (hnone call hcall)
  next call hfind =>
    have hkind : call.kind = .owner :=
      h.kind_eq hsound (List.mem_of_find?_eq_some hfind) (by simpa using List.find?_some hfind)
    split
    next hnone =>
      intro other hother hid
      rw [h.kind_eq hsound hother hid, ← hkind]
      exact hnone
    next value hvalue =>
      intro other hother hid
      have hne := (List.mem_filter.mp hother).2
      simp [hid] at hne

/-- Once the shutdown has begun, the collector does not give up. -/
theorem Staged.discard_eq (h : m.Staged) (hbegun : m.progress ≠ .idle) : m.discard = m := by
  unfold discard
  split
  next hcollector hmailbox => exact absurd (h.of_discard hcollector hmailbox).1 hbegun
  next => rfl

theorem HasOwner.act_forget (hsound : m.Sound) (h : HasOwner id m) {action : Action}
    (hfree : Step.touches id (.act action) = false) :
    (m.act action).forget id = (m.forget id).act action := by
  cases action with
  | clone | drop | startInitializer =>
      simp only [act]
      apply withHandle_comm (·.forget id) rfl
      rfl
  | register closer =>
      simp only [act]
      apply withHandle_comm (·.forget id) rfl
      exact register_forget none closer
  | close other limit =>
      have hne : other ≠ id := by simpa [Step.touches] using hfree
      simp only [act]
      apply withNewCall_comm (·.forget id) (hasCall_forget hne) rfl
      exact close_forget limit hne
  | awaitInitialized other =>
      have hne : other ≠ id := by simpa [Step.touches] using hfree
      simp only [act]
      apply withNewCall_comm (·.forget id) (hasCall_forget hne) rfl
      exact awaitInitialized_forget hne
  | abandon => exact abandon_forget
  | collect => exact collect_forget
  | discard =>
      rw [act, act, hsound.staged.discard_eq h.begun]
      exact (Staged.discard_eq (m := m.forget id) hsound.staged h.begun).symm
  | launch => exact launch_forget
  | initializerActs ticket => exact initializerActs_forget ticket
  | retire => exact retire_forget
  | closerEnters place => exact closerEnters_forget place
  | closerActs place => exact closerActs_forget place
  | expire => exact expire_forget
  | conclude => exact conclude_forget
  | answer other =>
      by_cases hother : other = id
      · subst hother
        rw [act, act, h.answer_self hsound]
        unfold answer
        rw [List.find?_eq_none.mpr]
        intro call hcall
        simpa using (List.mem_filter.mp hcall).2
      · exact answer_forget hother

/-! ## Time passes as it would -/

theorem returnActions_forget (hrests : Rests id m) :
    (m.forget id).returnActions = m.returnActions := by
  unfold returnActions
  congr 1
  rw [forget, List.filter_filter]
  apply List.filter_congr
  intro call hcall
  by_cases hid : call.id = id
  · simp [hid, hrests call hcall hid]
  · simp [hid]
    rfl

theorem collectorActions_forget (hstaged : m.Staged) (hbegun : m.progress ≠ .idle) :
    (m.forget id).collectorActions = m.collectorActions := by
  cases hcollector : m.collector with
  | listening queue =>
      cases hmailbox : m.mailbox with
      | nil => exact absurd (hstaged.of_discard hcollector hmailbox).1 hbegun
      | cons command rest => simp [collectorActions, forget, hcollector, hmailbox]
  | delivered | stopped => simp [collectorActions, forget, hcollector]

theorem HasOwner.enabled_forget (hsound : m.Sound) (h : HasOwner id m) (hrests : Rests id m) :
    (m.forget id).enabled = m.enabled := by
  unfold enabled
  rw [returnActions_forget hrests, collectorActions_forget hsound.staged h.begun]
  rfl

theorem HasOwner.isQuietFor_forget (hsound : m.Sound) (h : HasOwner id m) (hrests : Rests id m)
    (millis : Nat) : (m.forget id).isQuietFor millis = m.isQuietFor millis := by
  unfold isQuietFor
  rw [h.enabled_forget hsound hrests]
  rfl

theorem HasOwner.elapse_forget (hsound : m.Sound) (h : HasOwner id m) (hrests : Rests id m)
    (millis : Nat) : (m.elapse millis).forget id = (m.forget id).elapse millis := by
  unfold elapse
  rw [h.isQuietFor_forget hsound hrests]
  split <;> rfl

/-! ## The run without the call -/

/-- While the call has nothing to return, a step does without it what it does with it. -/
theorem HasOwner.step_forget {step : Step} (hsound : m.Sound) (h : HasOwner id m)
    (hrests : Rests id m) (hfree : step.touches id = false) :
    (m.step step).forget id = (m.forget id).step step := by
  cases step with
  | act action => exact h.act_forget hsound hfree
  | elapse millis => exact h.elapse_forget hsound hrests millis

/-- A run in which the call returns as soon as it can is the run without the call. -/
theorem HasOwner.run_awaiting {steps : List Step} (hsound : m.Sound) (h : HasOwner id m)
    (hfree : ∀ step ∈ steps, step.touches id = false) :
    (m.run (awaiting id steps)).forget id = (m.forget id).run steps := by
  induction steps generalizing m with
  | nil => exact h.answer_self hsound
  | cons step rest ih =>
      have hsound' : (m.answer id).Sound := hsound.step (.act (.answer id))
      have howner : HasOwner id (m.answer id) := h.step hsound (.act (.answer id)) rfl
      have hstep : step.touches id = false := hfree step List.mem_cons_self
      calc (m.run (awaiting id (step :: rest))).forget id
          = (((m.answer id).step step).run (awaiting id rest)).forget id := rfl
        _ = (((m.answer id).step step).forget id).run rest :=
            ih (hsound'.step step) (howner.step hsound' step hstep)
              fun next hnext => hfree next (List.mem_cons_of_mem _ hnext)
        _ = (((m.answer id).forget id).step step).run rest := by
            rw [howner.step_forget hsound' (h.rests_answer hsound) hstep]
        _ = (m.forget id).run (step :: rest) := by
            rw [h.answer_self hsound, run_cons]

/-- Every run in which the call is awaited, whenever it returns, is a run without the call: only
time may have to wait for the return. -/
theorem HasOwner.exists_run_forget {steps : List Step} (hsound : m.Sound) (h : HasOwner id m)
    (hfree : ∀ step ∈ steps, step.touches id = false) :
    ∃ rest, rest.Sublist steps ∧ (m.forget id).run rest = (m.run steps).forget id := by
  induction steps generalizing m with
  | nil => exact ⟨[], .slnil, rfl⟩
  | cons step steps ih =>
      have hstep : step.touches id = false := hfree step List.mem_cons_self
      obtain ⟨rest, hsublist, heq⟩ := ih (hsound.step step) (h.step hsound step hstep)
        fun next hnext => hfree next (List.mem_cons_of_mem _ hnext)
      by_cases hsame : (m.step step).forget id = (m.forget id).step step
      · refine ⟨step :: rest, hsublist.cons_cons step, ?_⟩
        rw [run_cons, ← hsame, heq, run_cons]
      · -- the call can return, and time does not pass before it has
        have hstill : m.step step = m := by
          cases step with
          | act action => exact absurd (h.act_forget hsound hstep) hsame
          | elapse millis =>
              have hbusy : m.isQuietFor millis ≠ true := fun hquiet =>
                hsame (h.elapse_forget hsound
                  (rests_of_enabled_eq_nil (enabled_eq_nil_of_isQuietFor hquiet)) millis)
              simp [Manager.step, elapse, hbusy]
        refine ⟨rest, hsublist.cons step, ?_⟩
        rw [run_cons, ← heq, hstill]

/-! ## What is inevitable without the call -/

theorem Step.touches_of_not_callers (id : Nat) {action : Action} (h : action.isCallers = false) :
    Step.touches id (.act action) = false := by
  cases action <;> first | rfl | simp [Action.isCallers] at h

theorem HasOwner.exists_move (hsound : m.Sound) (h : HasOwner id m) (hrests : Rests id m)
    (hmove : Move (m.forget id) m') : ∃ next, Move m next ∧ HasOwner id next ∧
      next.forget id = m' := by
  cases hmove with
  | @act action hready =>
      rw [h.enabled_forget hsound hrests] at hready
      have hfree := Step.touches_of_not_callers id (mem_enabled_iff.mp hready).isCallers
      exact ⟨m.act action, .act hready, h.step hsound (.act action) hfree,
        h.act_forget hsound hfree⟩
  | @elapse millis hpos hquiet =>
      rw [h.isQuietFor_forget hsound hrests] at hquiet
      exact ⟨m.elapse millis, .elapse hpos hquiet, h.step hsound (.elapse millis) rfl,
        h.elapse_forget hsound hrests millis⟩

theorem HasOwner.move_forget (hsound : m.Sound) (h : HasOwner id m) (hrests : Rests id m)
    (hmove : Move m m') : Move (m.forget id) (m'.forget id) := by
  cases hmove with
  | @act action hready =>
      have hfree := Step.touches_of_not_callers id (mem_enabled_iff.mp hready).isCallers
      rw [h.act_forget hsound hfree]
      exact .act ((h.enabled_forget hsound hrests).symm ▸ hready)
  | @elapse millis hpos hquiet =>
      rw [h.elapse_forget hsound hrests]
      exact .elapse hpos ((h.isQuietFor_forget hsound hrests millis).trans hquiet)

/-- What is inevitable with the call is inevitable without it. -/
theorem HasOwner.inevitable_forget {P : Manager → Prop} (hP : ∀ m, P m → P (m.forget id))
    (hinevitable : Inevitable P m) (hsound : m.Sound) (h : HasOwner id m) :
    Inevitable P (m.forget id) := by
  induction hinevitable with
  | now hnow => exact .now (hP _ hnow)
  | @later m hmove _ ih =>
      by_cases hrests : Rests id m
      · obtain ⟨next, hnext⟩ := hmove
        refine .later ⟨next.forget id, h.move_forget hsound hrests hnext⟩ ?_
        intro m' hmove'
        obtain ⟨next, hnext, howner, rfl⟩ := h.exists_move hsound hrests hmove'
        exact ih next hnext (hsound.move hnext) howner
      · -- the call can return, which changes nothing for the others
        simp only [Rests, not_forall] at hrests
        obtain ⟨call, hcall, rfl, hvalue⟩ := hrests
        have hready : .answer call.id ∈ m.enabled :=
          mem_enabled_iff.mpr (.answer hcall (Option.isSome_iff_ne_none.mpr hvalue))
        have hnext := ih _ (.act hready) (hsound.move (.act hready))
          (h.step hsound (.act (.answer call.id)) rfl)
        rwa [act, h.answer_self hsound] at hnext

/-! ## The report -/

theorem HasOwner.returned_iff (hsound : m.Sound) (h : HasOwner id m) (hrests : Rests id m)
    (report : Report) :
    (∃ r ∈ m.returned, r.id = id ∧ r.answer = .report report) ↔ m.progress = .done report := by
  constructor
  · rintro ⟨r, hr, hid, hanswer⟩
    rcases h.call with hcall | ⟨other, hother, hotherId, final, hdone, hfinal⟩
    · exact absurd hid (hsound.identified.id_ne_of_waiting hcall hr)
    · obtain rfl : r = other :=
        hsound.identified.return_eq hr hother (hid.trans hotherId.symm)
      rw [hdone, Answer.report.inj (hanswer.symm.trans hfinal)]
  · intro hdone
    rcases h.call with hcall | ⟨r, hr, hid, final, hfinal, hanswer⟩
    · have hnone : m.answer? .owner = none := hrests _ hcall rfl
      simp [answer?, hdone] at hnone
    · rw [hdone] at hfinal
      exact ⟨r, hr, hid, hanswer.trans (congrArg _ (Progress.done.inj hfinal).symm)⟩

/-- A call that is awaited has returned the report once there is one. -/
theorem HasOwner.returned_awaiting_iff {steps : List Step} (hsound : m.Sound) (h : HasOwner id m)
    (hfree : ∀ step ∈ steps, step.touches id = false) (report : Report) :
    (∃ r ∈ (m.run (awaiting id steps)).returned, r.id = id ∧ r.answer = .report report) ↔
      (m.run (awaiting id steps)).progress = .done report := by
  have hall : ∀ step ∈ steps.flatMap (fun step => [.act (.answer id), step]),
      step.touches id = false := by
    intro step hstep
    obtain ⟨own, hown, hmem⟩ := List.mem_flatMap.mp hstep
    rcases List.mem_pair.mp hmem with rfl | rfl
    · rfl
    · exact hfree _ hown
  have howner := h.run hsound hall
  have hsound' := hsound.run (steps.flatMap fun step => [.act (.answer id), step])
  rw [awaiting, run_concat]
  exact (howner.step hsound' (.act (.answer id)) rfl).returned_iff (hsound'.step _)
    (howner.rests_answer hsound') report

/-! ## Dropping the call -/

theorem BeginsAfter.hasOwner {start : Nat} {before meantime : List Step}
    (h : BeginsAfter start before id) (limit : Option Duration)
    (hfree : ∀ step ∈ meantime, step.touches id = false) :
    HasOwner id ((new start).run (before ++ .act (.close id limit) :: meantime)) := by
  have hidle : ((new start).run before).progress = .idle := state_eq_running_iff.mp h.running
  have hsound : ((new start).run before).Sound := sound_run start before
  obtain ⟨queue, hcollector⟩ := hsound.listening hidle (Or.inl h.handle)
  rw [run_append, run_cons]
  refine HasOwner.run (hsound.step _) ?_ hfree
  rw [Manager.step, act_close h.handle h.fresh]
  generalize (new start).run before = m at *
  simp only [close, hidle, hcollector]
  exact ⟨by simp [note], Or.inl (List.mem_append_right _ (List.mem_singleton_self _))⟩

theorem abandon_eq_forget (hwaiting : ∀ r ∈ m.returned, r.id ≠ id) :
    m.act (.abandon id) = m.forget id := by
  have hreturned : m.returned.filter (·.id ≠ id) = m.returned :=
    List.filter_eq_self.mpr fun r hr => decide_eq_true (hwaiting r hr)
  rw [act, abandon, forget, hreturned]

/-- The manager goes on without the call of an id, which began its shutdown, as it goes on with
it. -/
structure GoesOnWithout (id : Nat) (m : Manager) : Prop where
  /-- After the same steps it is where it is if the call is awaited, except for the return. -/
  same : ∀ after, (∀ step ∈ after, step.touches id = false) →
    (m.act (.abandon id)).run after = (m.run (awaiting id after)).forget id
  /-- Wherever it comes to if the call is awaited, whenever that returns, it comes to without the
  call. -/
  back : ∀ after, (∀ step ∈ after, step.touches id = false) →
    ∃ rest, rest.Sublist after ∧ (m.act (.abandon id)).run rest = (m.run after).forget id
  /-- The call returns the report of the shutdown if it is awaited. -/
  report : ∀ after, (∀ step ∈ after, step.touches id = false) → ∀ report,
    (∃ r ∈ (m.run (awaiting id after)).returned, r.id = id ∧ r.answer = .report report) ↔
      ((m.act (.abandon id)).run after).progress = .done report
  /-- If it is dropped nobody gets a report that says anything. -/
  unreported : ∀ after, (∀ step ∈ after, step.touches id = false) →
    ∀ r ∈ ((m.act (.abandon id)).run after).returned, r.id ≠ id ∧ ¬ r.IsTelling
  /-- If the shutdown comes to its end with the call, it does without it. -/
  closes : Inevitable (fun m => m.state = .closed) m →
    Inevitable (fun m => m.state = .closed) (m.act (.abandon id))

/-- A manager whose shutdown has begun goes on as it would when the call that began it is dropped,
at any time before that call returns. -/
theorem abandon_goesOnWithout (start : Nat) (before meantime : List Step) (id : Nat)
    (limit : Option Duration) (hbegins : BeginsAfter start before id)
    (hfree : ∀ step ∈ meantime, step.touches id = false)
    (hwaiting : ∀ r ∈ ((new start).run (before ++ .act (.close id limit) :: meantime)).returned,
      r.id ≠ id) :
    GoesOnWithout id ((new start).run (before ++ .act (.close id limit) :: meantime)) := by
  have howned := hbegins.ownedBy_run limit meantime
  have howner := hbegins.hasOwner limit hfree
  have hsound := sound_run start (before ++ .act (.close id limit) :: meantime)
  have hdropped := abandon_eq_forget hwaiting
  generalize (new start).run (before ++ .act (.close id limit) :: meantime) = m at *
  have hsame : ∀ after : List Step, (∀ step ∈ after, step.touches id = false) →
      (m.act (.abandon id)).run after = (m.run (awaiting id after)).forget id := by
    intro after hfree
    rw [hdropped, howner.run_awaiting hsound hfree]
  exact {
    same := hsame
    back := by
      intro after hfree
      rw [hdropped]
      exact howner.exists_run_forget hsound hfree
    report := by
      intro after hfree report
      rw [howner.returned_awaiting_iff hsound hfree, hsame after hfree, forget_progress]
    unreported := by
      intro after hfree r hr
      have hother : r.id ≠ id := by
        rw [hsame after hfree] at hr
        simpa using (List.mem_filter.mp hr).2
      have howned' : OwnedBy id ((m.act (.abandon id)).run after) := by
        rw [show m.act (.abandon id) = m.step (.act (.abandon id)) from rfl, ← run_cons]
        exact run_invariant (fun _ _ _ _ => OwnedBy.change) howned
      exact ⟨hother, fun htelling => hother (howned'.returned r hr htelling)⟩
    closes := by
      intro hcloses
      rw [hdropped]
      exact howner.inevitable_forget (fun _ h => h) hcloses hsound }

/-- The call is dropped while one closer runs and another has not been entered. -/
theorem abandon_goesOnWithout_launched :
    let before : List Step := [
      .act (.register ⟨"pool", .ok ⟨3, none, some (.failure ["drain", "gone"]), none⟩⟩),
      .act (.register ⟨"feed", .ok ⟨0, none, none, none⟩⟩)]
    let meantime : List Step := [.act .collect, .act .collect, .act .collect, .act .launch,
      .act (.closerEnters 1), .act (.close 2 none)]
    GoesOnWithout 1
      ((new 5).run (before ++ .act (.close 1 (some (.ofMillis 10))) :: meantime)) := by
  intro before meantime
  refine abandon_goesOnWithout 5 before meantime 1 (some (.ofMillis 10))
    ⟨rfl, by decide, rfl⟩ ?_ ?_
  · decide
  · intro r hr
    contradiction

end Manager
end Lifecycle
end ServiceKit
