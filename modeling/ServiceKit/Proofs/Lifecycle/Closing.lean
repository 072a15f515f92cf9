import ServiceKit.Proofs.Lifecycle.Completion
import ServiceKit.Proofs.Lifecycle.Handover

/-!
# Closing once

Exactly one call begins the shutdown, and at most that one returns a report that says anything.
Every other call to close waits until the shutdown is complete and returns then, or at once if it is
complete already.
-/

namespace ServiceKit
namespace Lifecycle

open History

/-- A report that says something was returned. -/
def Return.IsTelling (r : Return) : Prop :=
  ∃ report, r.answer = .report report ∧ report ≠ .empty

namespace Manager

variable {m m' : Manager} {step : Step} {id : Nat}

/-! ## The call that begins the shutdown -/

/-- A call to close made after these steps begins the shutdown. -/
structure BeginsAfter (start : Nat) (before : List Step) (id : Nat) : Prop where
  running : ((new start).run before).state = .running
  handle : 0 < ((new start).run before).handles
  fresh : ((new start).run before).hasCall id = false

theorem act_close_of_not_fresh {limit : Option Duration}
    (h : ¬ (0 < m.handles ∧ m.hasCall id = false)) : m.act (.close id limit) = m := by
  by_cases hid : m.hasCall id = true
  · simp [act, withNewCall, hid]
  · have hhandles : m.handles = 0 := by
      by_contra hne
      exact h ⟨Nat.pos_of_ne_zero hne, eq_false_of_ne_true hid⟩
    simp [act, withNewCall, withHandle, hid, hhandles]

/-- Where a shutdown has begun, some call to close began it. -/
theorem exists_begin {start : Nat} {steps : List Step}
    (h : ((new start).run steps).state ≠ .running) :
    ∃ before id limit after, steps = before ++ .act (.close id limit) :: after ∧
      BeginsAfter start before id := by
  induction steps using List.reverseRecOn with
  | nil => exact absurd rfl h
  | append_singleton init step ih =>
      by_cases hrunning : ((new start).run init).state = .running
      · rw [run_concat] at h
        rcases (step_changes ((new start).run init) step).state_cases with
          hsame | ⟨⟨id, limit, rfl⟩, -⟩ | ⟨-, hclosing, -⟩
        · exact absurd (hsame.trans hrunning) h
        · by_cases hcan : 0 < ((new start).run init).handles ∧
              ((new start).run init).hasCall id = false
          · exact ⟨init, id, limit, [], rfl, hrunning, hcan.1, hcan.2⟩
          · rw [Manager.step, act_close_of_not_fresh hcan] at h
            exact absurd hrunning h
        · rw [hrunning] at hclosing
          contradiction
      · obtain ⟨before, id, limit, after, rfl, hbegins⟩ := ih hrunning
        exact ⟨before, id, limit, after ++ [step], by simp, hbegins⟩

/-- The call of this id began the shutdown: no other waits for the report or has returned it. -/
structure OwnedBy (id : Nat) (m : Manager) : Prop where
  begun : m.progress ≠ .idle
  waiting : ∀ call ∈ m.calls, call.kind = .owner → call.id = id
  returned : ∀ r ∈ m.returned, r.IsTelling → r.id = id

/-- The report goes to nobody any more: those who have returned it are known. -/
structure Disowned (known : List Return) (m : Manager) : Prop where
  begun : m.progress ≠ .idle
  waiting : ∀ call ∈ m.calls, call.kind ≠ .owner
  returned : ∀ r ∈ m.returned, r.IsTelling → r ∈ known

theorem Change.not_idle (hchange : Change step m m') (h : m.progress ≠ .idle) :
    m'.progress ≠ .idle := by
  rw [Ne, ← state_eq_running_iff] at h ⊢
  rcases hchange.state_cases with hsame | ⟨-, hrunning, -⟩ | ⟨-, -, hclosed⟩
  · rwa [hsame]
  · exact absurd hrunning h
  · simp [hclosed]

/-- Only the call that begins the shutdown comes to wait for the report. -/
theorem Change.mem_calls_of_owner (hchange : Change step m m') {call : Call}
    (hcall : call ∈ m'.calls) (howner : call.kind = .owner) :
    call ∈ m.calls ∨ m.progress = .idle ∧ m'.progress ≠ .idle := by
  cases hchange with
  | begin _ _ _ _ hprogress | beginAlone _ _ _ _ hprogress =>
      exact Or.inr ⟨hprogress, by simp [note, noteAll]⟩
  | follow | await =>
      rcases List.mem_append.mp hcall with hcall | hcall
      · exact Or.inl hcall
      · rw [List.mem_singleton.mp hcall] at howner
        contradiction
  | abandon | answer => exact Or.inl (List.mem_filter.mp hcall).1
  | _ => exact Or.inl hcall

/-- A report that says something goes to a call that waits for it. -/
theorem Change.exists_owner_of_telling (hchange : Change step m m') {r : Return}
    (hr : r ∈ m'.returned) (htelling : r.IsTelling) :
    r ∈ m.returned ∨ ∃ call ∈ m.calls, call.kind = .owner ∧ r.id = call.id := by
  rcases hchange.returned_cases hr with hr | ⟨call, hcall, hid, hvalue, -⟩
  · exact Or.inl hr
  · obtain ⟨report, hanswer, hne⟩ := htelling
    rw [hanswer] at hvalue
    cases hkind : call.kind with
    | owner => exact Or.inr ⟨call, hcall, hkind, hid⟩
    | follower =>
        rw [hkind] at hvalue
        obtain ⟨-, -, hempty⟩ := answer?_follower hvalue
        exact absurd (Answer.report.inj hempty) hne
    | initialized =>
        rw [hkind] at hvalue
        obtain ⟨-, hfailures⟩ := answer?_initialized hvalue
        contradiction

theorem OwnedBy.change (hchange : Change step m m') (h : OwnedBy id m) : OwnedBy id m' := by
  refine ⟨hchange.not_idle h.begun, ?_, ?_⟩
  · intro call hcall howner
    rcases hchange.mem_calls_of_owner hcall howner with hcall | hnow
    · exact h.waiting call hcall howner
    · exact absurd hnow.1 h.begun
  · intro r hr htelling
    rcases hchange.exists_owner_of_telling hr htelling with hr | ⟨call, hcall, howner, hid⟩
    · exact h.returned r hr htelling
    · rw [hid, h.waiting call hcall howner]

theorem Disowned.change {known : List Return} (hchange : Change step m m')
    (h : Disowned known m) : Disowned known m' := by
  refine ⟨hchange.not_idle h.begun, ?_, ?_⟩
  · intro call hcall howner
    rcases hchange.mem_calls_of_owner hcall howner with hcall | hnow
    · exact h.waiting call hcall howner
    · exact absurd hnow.1 h.begun
  · intro r hr htelling
    rcases hchange.exists_owner_of_telling hr htelling with hr | ⟨call, hcall, howner, -⟩
    · exact h.returned r hr htelling
    · exact absurd howner (h.waiting call hcall)

/-- When the call that began the shutdown is abandoned, nobody waits for the report. -/
theorem OwnedBy.disowned (h : OwnedBy id m) : Disowned m.returned (m.act (.abandon id)) := by
  refine ⟨h.begun, ?_, fun r hr _ => hr⟩
  intro call hcall howner
  obtain ⟨hmem, hne⟩ := List.mem_filter.mp hcall
  simp [h.waiting call hmem howner] at hne

/-! ## The report goes to the call that began the shutdown -/

theorem owners_begun_run (start : Nat) (steps : List Step) :
    ∀ call ∈ ((new start).run steps).calls, call.kind = .owner →
      ((new start).run steps).progress ≠ .idle := by
  apply run_invariant (P := fun m => ∀ call ∈ m.calls, call.kind = .owner → m.progress ≠ .idle)
  · intro step _ m m' hchange h call hcall howner
    rcases hchange.mem_calls_of_owner hcall howner with hcall | hnow
    · exact hchange.not_idle (h call hcall howner)
    · exact hnow.2
  · intro call hcall
    contradiction

theorem BeginsAfter.ownedBy {start : Nat} {before : List Step} (h : BeginsAfter start before id)
    (limit : Option Duration) :
    OwnedBy id ((new start).run (before ++ [.act (.close id limit)])) := by
  have hidle : ((new start).run before).progress = .idle := state_eq_running_iff.mp h.running
  have howners := owners_begun_run start before
  have hreports := reportsAfterwards_run start before
  obtain ⟨queue, hcollector⟩ := (sound_run start before).listening hidle (Or.inl h.handle)
  rw [run_concat, step, act_close h.handle h.fresh]
  generalize (new start).run before = m at *
  simp only [close, hidle, hcollector]
  refine ⟨by simp [note], ?_, ?_⟩
  · intro call hcall howner
    rcases List.mem_append.mp hcall with hcall | hcall
    · exact absurd hidle (howners call hcall howner)
    · rw [List.mem_singleton.mp hcall]
  · rintro r hr ⟨report, hanswer, -⟩
    obtain ⟨final, -, hdone, -⟩ := hreports r hr report hanswer
    rw [hidle] at hdone
    contradiction

theorem BeginsAfter.ownedBy_run {start : Nat} {before : List Step}
    (h : BeginsAfter start before id) (limit : Option Duration) (after : List Step) :
    OwnedBy id ((new start).run (before ++ .act (.close id limit) :: after)) := by
  rw [← List.singleton_append, ← List.append_assoc, run_append]
  exact run_invariant (fun _ _ _ _ => OwnedBy.change) (h.ownedBy limit)

theorem not_running_of_telling {start : Nat} {steps : List Step} {r : Return}
    (hr : r ∈ ((new start).run steps).returned) (htelling : r.IsTelling) :
    ((new start).run steps).state ≠ .running := by
  obtain ⟨report, hanswer, -⟩ := htelling
  obtain ⟨final, -, hdone, -⟩ := reportsAfterwards_run start steps r hr report hanswer
  simp [state, hdone]

/-- At most one report that says something is returned. -/
theorem return_eq_of_telling {start : Nat} {steps : List Step} {r other : Return}
    (hr : r ∈ ((new start).run steps).returned) (hother : other ∈ ((new start).run steps).returned)
    (htelling : r.IsTelling) (hotherTelling : other.IsTelling) : r = other := by
  obtain ⟨before, id, limit, after, rfl, hbegins⟩ :=
    exists_begin (not_running_of_telling hr htelling)
  have howned := hbegins.ownedBy_run limit after
  apply (sound_run start _).identified.return_eq hr hother
  rw [howned.returned r hr htelling, howned.returned other hother hotherTelling]

/-- Whoever returned a report that says something is the call that began the shutdown, and it had
not been abandoned before. -/
theorem exists_begin_of_telling {start : Nat} {steps : List Step} {r : Return}
    (hr : r ∈ ((new start).run steps).returned) (htelling : r.IsTelling) :
    ∃ before limit meantime after,
      steps = before ++ .act (.close r.id limit) :: (meantime ++ after) ∧
      BeginsAfter start before r.id ∧ .act (.abandon r.id) ∉ meantime ∧
      r ∈ ((new start).run (before ++ .act (.close r.id limit) :: meantime)).returned := by
  obtain ⟨before, id, limit, after, rfl, hbegins⟩ :=
    exists_begin (not_running_of_telling hr htelling)
  have howned := hbegins.ownedBy_run limit
  obtain rfl : r.id = id := (howned after).returned r hr htelling
  -- after the first time the call is abandoned nobody waits for the report any more
  by_cases habandoned : .act (.abandon r.id) ∈ after
  · obtain ⟨meantime, rest, rfl, hkept⟩ := List.eq_append_cons_of_mem habandoned
    refine ⟨before, limit, meantime, .act (.abandon r.id) :: rest, rfl, hbegins, hkept, ?_⟩
    have hdisowned : Disowned ((new start).run
        (before ++ .act (.close r.id limit) :: meantime)).returned _ := (howned meantime).disowned
    rw [← List.cons_append, ← List.append_assoc, run_append, run_cons] at hr
    have hlast : Disowned _ ((Manager.act _ (.abandon r.id)).run rest) :=
      run_invariant (fun _ _ _ _ => Disowned.change) hdisowned
    exact hlast.returned r hr htelling
  · exact ⟨before, limit, after, [], by simp, hbegins, habandoned, hr⟩

/-! ## Every other call waits for the completion -/

/-- A call to close made after these steps waits for a shutdown that has begun. -/
structure JoinsAfter (start : Nat) (before : List Step) (id : Nat) : Prop where
  begun : ((new start).run before).state ≠ .running
  handle : 0 < ((new start).run before).handles
  fresh : ((new start).run before).hasCall id = false

/-- A call made at a time waits until the shutdown is complete, or has returned just then. -/
structure Joins (time : Nat) (id : Nat) (m : Manager) : Prop where
  since : time ≤ m.now
  call : (⟨id, .follower⟩ ∈ m.calls ∧
      ∀ completion, completedAt m.history = some completion → m.now = max time completion) ∨
    ∃ completion, completedAt m.history = some completion ∧
      ⟨max time completion, id, .report .empty⟩ ∈ m.returned

/-- A call that waits for the completion returns before time passes. -/
theorem Sound.enabled_ne_nil_of_follower (hsound : m.Sound) {completion : Nat}
    (hcompleted : completedAt m.history = some completion)
    (hcall : ⟨id, .follower⟩ ∈ m.calls) : m.enabled ≠ [] := by
  intro hnone
  obtain ⟨report, hdone⟩ := hsound.done_of_completedAt hcompleted
  refine not_ready_of_enabled_eq_nil hnone _ (.answer hcall ?_)
  simp [answer?, hdone]

theorem Joins.change {time : Nat} (hsound : m.Sound) (hkept : step ≠ .act (.abandon id))
    (hchange : Change step m m') (h : Joins time id m) : Joins time id m' := by
  refine ⟨Nat.le_trans h.since hchange.now_le, ?_⟩
  rcases h.call with ⟨hcall, hnow⟩ | ⟨completion, hcompleted, hreturned⟩
  · rcases hsound.identified.waits_or_returns hchange hkept hcall with hcall' | ⟨value, hvalue, rfl⟩
    · refine Or.inl ⟨hcall', fun completion hcompleted' => ?_⟩
      -- between the completion and the return no time passes, since the return is possible
      cases hcompleted : completedAt m.history with
      | some earlier =>
          rw [hchange.completedAt_eq_some hcompleted] at hcompleted'
          rw [← Option.some.inj hcompleted', ← hnow earlier hcompleted]
          rcases hchange.now_cases with htime | hquiet
          · exact htime
          · exact absurd hquiet (hsound.enabled_ne_nil_of_follower hcompleted hcall)
      | none =>
          rcases hchange.completedAt_cases with hsame | ⟨hsame, htime⟩
          · rw [hsame, hcompleted] at hcompleted'
            contradiction
          · rw [hsame, hcompleted] at hcompleted'
            rw [← Option.some.inj hcompleted', htime, Nat.max_eq_right h.since]
    · obtain ⟨report, hdone, rfl⟩ := answer?_follower hvalue
      obtain ⟨completion, hcompleted⟩ := hsound.completedAt_of_done hdone
      refine Or.inr ⟨completion, hcompleted, ?_⟩
      rw [← hnow completion hcompleted]
      exact List.mem_append_right _ (List.mem_singleton_self _)
  · exact Or.inr ⟨completion, hchange.completedAt_eq_some hcompleted,
      hchange.mem_returned hreturned⟩

theorem JoinsAfter.joins {start : Nat} {before after : List Step}
    (h : JoinsAfter start before id) (limit : Option Duration)
    (hkept : .act (.abandon id) ∉ after) :
    Joins ((new start).run before).now id
      ((new start).run (before ++ .act (.close id limit) :: after)) := by
  have hsound : ((new start).run before).Sound := sound_run start before
  have hrecorded : ((new start).run before).Recorded := recorded_run start before
  rw [run_append, run_cons]
  refine (hsound.step _).run_invariant (P := Joins _ id) ?_ ?_
  · intro step hstep m m' hsound hchange
    refine Joins.change hsound ?_ hchange
    rintro rfl
    exact hkept hstep
  · rw [Manager.step, act_close h.handle h.fresh]
    have hprogress : ((new start).run before).progress ≠ .idle := by
      rw [Ne, ← state_eq_running_iff]
      exact h.begun
    generalize (new start).run before = m at *
    have hclose : m.close id limit = { m with calls := m.calls ++ [⟨id, .follower⟩] } := by
      unfold close
      split
      · contradiction
      · contradiction
      · rfl
    rw [hclose]
    refine ⟨Nat.le_refl _, Or.inl ⟨List.mem_append_right _ (List.mem_singleton_self _), ?_⟩⟩
    intro completion hcompleted
    exact (Nat.max_eq_left (hrecorded.completedAt_le hcompleted)).symm

theorem Joins.returned_eq {time : Nat} (h : Joins time id m) (hsound : m.Sound) {r : Return}
    (hr : r ∈ m.returned) (hid : r.id = id) :
    r.answer = .report .empty ∧ ∃ completion, completedAt m.history = some completion ∧
      r.time = max time completion := by
  rcases h.call with ⟨hcall, -⟩ | ⟨completion, hcompleted, hreturned⟩
  · exact absurd hid (hsound.identified.id_ne_of_waiting hcall hr)
  · rw [hsound.identified.return_eq hr hreturned hid]
    exact ⟨rfl, completion, hcompleted, rfl⟩

theorem Joins.now_eq {time : Nat} (h : Joins time id m) (hnot : ∀ r ∈ m.returned, r.id ≠ id)
    (completion : Nat) (hcompleted : completedAt m.history = some completion) :
    m.now = max time completion := by
  rcases h.call with ⟨-, hnow⟩ | ⟨_, -, hreturned⟩
  · exact hnow completion hcompleted
  · exact absurd rfl (hnot _ hreturned)

/-- If the shutdown comes to its end, a call that waits for it returns. -/
theorem Joins.inevitable {time : Nat} (hsound : m.Sound) (h : Joins time id m)
    (hclosed : Inevitable (fun m => m.state = .closed) m) :
    Inevitable (fun m => ∃ r ∈ m.returned, r.id = id) m := by
  have hkeep : ∀ m m', m.Sound → Joins time id m → Move m m' → Joins time id m' := by
    intro m m' hsound h hmove
    refine hsound.move_invariant hmove ?_ h
    intro step hown m m' hsound
    exact Joins.change hsound (hown (.abandon id) rfl)
  refine hclosed.bind hkeep ?_ hsound h
  intro m hsound h hclosed
  obtain ⟨report, hdone⟩ := state_eq_closed_iff.mp hclosed
  refine inevitable_of_bound 0 (I := fun m => Joins time id m ∧ ∃ report, m.progress = .done report)
    ?_ ?_ hsound ⟨h, report, hdone⟩
  · rintro m m' hsound ⟨h, report, hdone⟩ hmove
    refine ⟨hkeep m m' hsound h hmove, report, ?_⟩
    exact hsound.move_invariant hmove (fun _ _ _ _ _ => Change.done) hdone
  · rintro m hsound ⟨h, report, hdone⟩ hnot hnone
    rcases h.call with ⟨hcall, -⟩ | ⟨completion, -, hreturned⟩
    · obtain ⟨completion, hcompleted⟩ := hsound.completedAt_of_done hdone
      exact absurd hnone (hsound.enabled_ne_nil_of_follower hcompleted hcall)
    · exact absurd ⟨_, hreturned, rfl⟩ hnot

/-! ## The contract of closing -/

/-- Whatever the steps of a run were, the manager is closed once and for good. -/
structure ClosesOnce (start : Nat) (steps : List Step) : Prop where
  /-- The state moves from running to closing to closed and no other way. -/
  forward : ∀ step,
    State.Next ((new start).run steps).state (((new start).run steps).step step).state
  /-- A shutdown that has begun was begun by a call to close. -/
  begun : ((new start).run steps).state ≠ .running →
    ∃ before id limit after, steps = before ++ .act (.close id limit) :: after ∧
      BeginsAfter start before id
  /-- No close hook is entered before that. -/
  entered : ∀ past moment future, ((new start).run steps).history = past ++ moment :: future →
    moment.happening.entered? .close ≠ none → History.begun past = true
  unclosed : (∀ id limit, .act (.close id limit) ∉ steps) →
    History.entered ((new start).run steps).history .close = []
  /-- A report that says something goes to the call that began the shutdown, at most once. -/
  owner : ∀ r ∈ ((new start).run steps).returned, r.IsTelling →
    ∃ before limit meantime after,
      steps = before ++ .act (.close r.id limit) :: (meantime ++ after) ∧
      BeginsAfter start before r.id ∧ .act (.abandon r.id) ∉ meantime ∧
      r ∈ ((new start).run (before ++ .act (.close r.id limit) :: meantime)).returned
  once : ∀ r ∈ ((new start).run steps).returned, ∀ other ∈ ((new start).run steps).returned,
    r.IsTelling → other.IsTelling → r = other
  /-- When a call to close has returned, no close hook runs any more, and none does anything
  later. -/
  closed : ∀ r ∈ ((new start).run steps).returned, ∀ report, r.answer = .report report →
    ((new start).run steps).state = .closed ∧
      (History.entered ((new start).run steps).history .close).Perm
        (ended ((new start).run steps).history .close ++ aborted ((new start).run steps).history) ∧
      ∀ later,
        History.entered ((new start).run (steps ++ later)).history .close =
          History.entered ((new start).run steps).history .close ∧
        ended ((new start).run (steps ++ later)).history .close =
          ended ((new start).run steps).history .close
  /-- A later call returns the empty report exactly when the shutdown is complete, or at once. -/
  joined : ∀ before id limit after, steps = before ++ .act (.close id limit) :: after →
    JoinsAfter start before id → .act (.abandon id) ∉ after →
    (∀ r ∈ ((new start).run steps).returned, r.id = id → r.answer = .report .empty ∧
      ∃ completion, completedAt ((new start).run steps).history = some completion ∧
        r.time = max ((new start).run before).now completion) ∧
    ((∀ r ∈ ((new start).run steps).returned, r.id ≠ id) →
      ∀ completion, completedAt ((new start).run steps).history = some completion →
        ((new start).run steps).now = max ((new start).run before).now completion) ∧
    (Inevitable (fun m => m.state = .closed) ((new start).run steps) →
      Inevitable (fun m => ∃ r ∈ m.returned, r.id = id) ((new start).run steps))

theorem Sound.begun_of_entered (hsound : m.Sound) {past future : List Moment} {moment : Moment}
    (heq : m.history = past ++ moment :: future)
    (hentered : moment.happening.entered? .close ≠ none) : begun past = true := by
  have hlawful : moment.happening.Lawful past := hsound.lawful past moment future heq
  cases hhappening : moment.happening with
  | entered phase =>
      rw [hhappening] at hlawful hentered
      cases phase with
      | setUp => simp at hentered
      | close => exact hlawful.begun
  | _ => simp [hhappening] at hentered

/-- In every run the manager is closed at most once, by the first call to close, and for good. -/
theorem run_closesOnce (start : Nat) (steps : List Step) : ClosesOnce start steps := by
  have hsound : ((new start).run steps).Sound := sound_run start steps
  have hreports := reportsAfterwards_run start steps
  have hbalanced := balanced_run start steps
  exact {
    forward := step_state _
    begun := exists_begin
    entered := fun past moment future heq => hsound.begun_of_entered heq
    unclosed := by
      intro hnone
      have hrunning : ((new start).run steps).state = .running := by
        by_contra hnot
        obtain ⟨before, id, limit, after, heq, -⟩ := exists_begin hnot
        apply hnone id limit
        rw [heq]
        exact List.mem_append_right _ List.mem_cons_self
      have hidle := state_eq_running_iff.mp hrunning
      exact hbalanced.unentered (by simp [hidle]) (by simp [hidle])
    owner := fun r hr htelling => exists_begin_of_telling hr htelling
    once := fun r hr other hother => return_eq_of_telling hr hother
    closed := by
      intro r hr report hanswer
      obtain ⟨final, -, hdone, -⟩ := hreports r hr report hanswer
      refine ⟨state_eq_closed_iff.mpr ⟨final, hdone⟩, hbalanced.perm_of_done hdone, ?_⟩
      intro later
      rw [run_append]
      have hlater := hsound.run_of_done hdone later
      exact ⟨hlater.1, hlater.2.1⟩
    joined := by
      rintro before id limit after rfl hjoins hkept
      have hcall := hjoins.joins limit hkept
      exact ⟨fun r hr hid => hcall.returned_eq hsound hr hid, hcall.now_eq,
        hcall.inevitable hsound⟩ }

end Manager
end Lifecycle
end ServiceKit
