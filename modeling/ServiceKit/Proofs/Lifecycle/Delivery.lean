import ServiceKit.Proofs.Lifecycle.Balance
import ServiceKit.Proofs.Lifecycle.Inevitable
import ServiceKit.Proofs.Lifecycle.Recorded

/-!
# The delivery of failures

The calls that wait for the initializers return every failure of an initializer exactly once, in the
order in which the initializers ended.  Such a call returns when the last initializer that it waits
for ends, and then no initializer runs any more.
-/

namespace ServiceKit
namespace Lifecycle

open History

namespace Manager

variable {m m' : Manager} {step : Step} {id : Nat}

/-! ## What has happened when a call returns -/

/-- When a call that waits for the initializers returns, none is pending and no failure is left. -/
theorem Changes.settled (hchanges : Changes step m m') {r : Return} {failures : List TimedFailure}
    (hr : r ∈ m'.returned) (hnew : r ∉ m.returned) (hanswer : r.answer = .failures failures) :
    (∃ id, step = .act (.answer id)) ∧ m'.pending = 0 ∧ m'.undelivered = [] := by
  induction hchanges with
  | refl => exact absurd hr hnew
  | @tail between last _ hlast ih =>
      by_cases hbefore : r ∈ between.returned
      · obtain ⟨⟨id, hstep⟩, hpending, hundelivered⟩ := ih hbefore
        refine ⟨⟨id, hstep⟩, ?_⟩
        subst hstep
        cases hlast with
        | queue | loseClosers | reject => exact ⟨hpending, hundelivered⟩
        | @answer _ call =>
            refine ⟨hpending, ?_⟩
            simp only [remaining, hundelivered]
            split <;> rfl
      · cases hlast with
        | @answer _ call value _ hvalue =>
            rcases List.mem_append.mp hr with hr | hr
            · exact absurd hr hbefore
            · rw [List.mem_singleton.mp hr] at hanswer
              obtain rfl : value = .failures failures := hanswer
              cases hkind : call.kind with
              | initialized =>
                  rw [hkind] at hvalue
                  obtain ⟨hpending, -⟩ := answer?_initialized hvalue
                  exact ⟨⟨_, rfl⟩, hpending, rfl⟩
              | owner =>
                  rw [hkind] at hvalue
                  obtain ⟨_, -, hreport⟩ := answer?_owner hvalue
                  contradiction
              | follower =>
                  rw [hkind] at hvalue
                  obtain ⟨_, -, hreport⟩ := answer?_follower hvalue
                  contradiction
        | _ => exact absurd hr hbefore

/-! ## When a call returns -/

/-- An initializer that has ended and still counts as pending ended just now. -/
def Recent (m : Manager) : Prop :=
  m.leaving ≠ 0 → lastEnd m.history .setUp = some m.now

/-- Only the end of an initializer tells when the last one ended. -/
theorem Change.lastEnd_cases (hchange : Change step m m') :
    (lastEnd m'.history .setUp = lastEnd m.history .setUp ∧ m'.leaving ≤ m.leaving) ∨
      lastEnd m'.history .setUp = some m.now ∧ m'.now = m.now ∧ m.initializers ≠ [] := by
  cases hchange with
  | initializerEnds hmem => exact Or.inr ⟨by simp [note], rfl, List.ne_nil_of_mem hmem⟩
  | expire =>
      refine Or.inl ⟨?_, Nat.le_refl _⟩
      simp only [noteAll, lastEnd_append, lastEnd_expiry, Option.none_or]
  | beginAlone =>
      refine Or.inl ⟨?_, Nat.le_refl _⟩
      simp only [noteAll, lastEnd_append]
      rfl
  | retire hleaving =>
      refine Or.inl ⟨by simp [note], ?_⟩
      simp only [note, hleaving]
      omega
  | queue | loseClosers | reject | start | begin | handOver | discard | launchAlone | closerLost
  | closerEnters | closerEnds | conclude =>
      refine Or.inl ⟨?_, Nat.le_refl _⟩
      simp [note, startInitializer, runClosers]
  | clone | drop | follow | await | abandon | take | launch | initializerRests | closerRests
  | answer | elapse => exact Or.inl ⟨rfl, Nat.le_refl _⟩

theorem Recent.change (hchange : Change step m m') (h : m.Recent) : m'.Recent := by
  intro hleaving
  rcases hchange.lastEnd_cases with ⟨hsame, hle⟩ | ⟨hsame, hnow, -⟩
  · have hbefore : m.leaving ≠ 0 := by omega
    rw [hsame, h hbefore]
    rcases hchange.now_cases with hnow | hnone
    · rw [hnow]
    · exact absurd (.retire hbefore) (not_ready_of_enabled_eq_nil hnone _)
  · rw [hsame, hnow]

theorem recent_run (start : Nat) (steps : List Step) : ((new start).run steps).Recent :=
  run_invariant (fun _ _ _ _ => Recent.change) (by simp [Recent, new])

/-- Without a new initializer the count of pending ones only goes down, one at a time. -/
theorem Change.pending_cases (hchange : Change step m m')
    (hstart : ∀ name hook, step ≠ .act (.startInitializer name hook)) :
    m'.pending = m.pending ∨ m.leaving ≠ 0 ∧ m'.now = m.now ∧ m'.pending = m.pending - 1 := by
  cases hchange with
  | start name hook => exact absurd rfl (hstart name hook)
  | retire hleaving => exact Or.inr ⟨by omega, rfl, rfl⟩
  | _ => exact Or.inl rfl

/-- A time is when a call made in `m₀` is to return: at once if no initializer was pending then, and
else when the last one has ended. -/
def EndsWait (m₀ m : Manager) (time : Nat) : Prop :=
  if m₀.pending = 0 then time = m₀.now else lastEnd m.history .setUp = some time

/-- A call made in `m₀` waits while initializers are pending, or has returned just when none was. -/
structure AwaitsFrom (m₀ : Manager) (id : Nat) (m : Manager) : Prop where
  pending : m₀.pending = 0 → m.pending = 0
  call : (⟨id, .initialized⟩ ∈ m.calls ∧ (m.pending = 0 → EndsWait m₀ m m.now)) ∨
    (m.pending = 0 ∧ ∃ failures time, ⟨time, id, .failures failures⟩ ∈ m.returned ∧
      EndsWait m₀ m time)

/-- Where no initializer is pending, a call that waits for them returns before time passes. -/
theorem enabled_ne_nil_of_initialized (hpending : m.pending = 0)
    (hcall : ⟨id, .initialized⟩ ∈ m.calls) : m.enabled ≠ [] := by
  intro hnone
  refine not_ready_of_enabled_eq_nil hnone _ (.answer hcall ?_)
  simp [answer?, hpending]

theorem AwaitsFrom.wait_change {m₀ : Manager} (hrecent : m.Recent)
    (hstart : ∀ name hook, step ≠ .act (.startInitializer name hook))
    (hchange : Change step m m') (h : AwaitsFrom m₀ id m)
    (hcall : ⟨id, .initialized⟩ ∈ m.calls) (htime : m.pending = 0 → EndsWait m₀ m m.now)
    (hpending' : m'.pending = 0) : EndsWait m₀ m' m'.now := by
  have hnow : m.pending = 0 → m'.now = m.now := by
    intro hpending
    rcases hchange.now_cases with hnow | hnone
    · exact hnow
    · exact absurd hnone (enabled_ne_nil_of_initialized hpending hcall)
  -- the last initializer to leave ended just now, since time stands still while one is leaving
  by_cases hfirst : m₀.pending = 0
  · have hpending : m.pending = 0 := h.pending hfirst
    have hends := htime hpending
    rw [EndsWait, if_pos hfirst] at hends ⊢
    rw [hnow hpending, hends]
  · rw [EndsWait, if_neg hfirst]
    rcases hchange.lastEnd_cases with ⟨hsame, -⟩ | ⟨hsame, hnow', -⟩
    · rw [hsame]
      rcases hchange.pending_cases hstart with hpending | ⟨hleaving, hnow', -⟩
      · have hends := htime (hpending ▸ hpending')
        rw [EndsWait, if_neg hfirst] at hends
        rw [hends, hnow (hpending ▸ hpending')]
      · rw [hrecent hleaving, hnow']
    · rw [hsame, hnow']

theorem AwaitsFrom.change {m₀ : Manager} (hsound : m.Sound) (hrecent : m.Recent)
    (hkept : step ≠ .act (.abandon id))
    (hstart : ∀ name hook, step ≠ .act (.startInitializer name hook))
    (hchange : Change step m m') (h : AwaitsFrom m₀ id m) : AwaitsFrom m₀ id m' := by
  have hpending : m.pending = 0 → m'.pending = 0 := by
    intro hzero
    rcases hchange.pending_cases hstart with hsame | ⟨-, -, hless⟩
    · rw [hsame, hzero]
    · rw [hless, hzero]
  refine ⟨fun hfirst => hpending (h.pending hfirst), ?_⟩
  rcases h.call with ⟨hcall, htime⟩ | ⟨hzero, failures, time, hreturned, hends⟩
  · rcases hsound.identified.waits_or_returns hchange hkept hcall with hcall' | ⟨value, hvalue, rfl⟩
    · exact Or.inl ⟨hcall', h.wait_change hrecent hstart hchange hcall htime⟩
    · obtain ⟨hzero, rfl⟩ := answer?_initialized hvalue
      refine Or.inr ⟨hzero, m.undelivered, m.now, ?_, htime hzero⟩
      exact List.mem_append_right _ (List.mem_singleton_self _)
  · refine Or.inr ⟨hpending hzero, failures, time, hchange.mem_returned hreturned, ?_⟩
    by_cases hfirst : m₀.pending = 0
    · rw [EndsWait, if_pos hfirst] at hends ⊢
      exact hends
    · rw [EndsWait, if_neg hfirst] at hends ⊢
      rcases hchange.lastEnd_cases with ⟨hsame, -⟩ | ⟨-, -, hne⟩
      · rw [hsame, hends]
      · exact absurd (hsound.counted.initializers_eq_nil hzero) hne

/-! ## A call returns -/

/-- An initializer that is to end has a time. -/
def Scheduled (m : Manager) : Prop :=
  ∀ r ∈ m.initializers, r.hook.ending.isSome = true → r.due.isSome = true

theorem Scheduled.change (hcounted : m.Counted) (hchange : Change step m m')
    (h : m.Scheduled) : m'.Scheduled := by
  cases hchange with
  | start name hook =>
      intro r hr hending
      rcases List.mem_append.mp hr with hr | hr
      · exact h r hr hending
      · rw [List.mem_singleton.mp hr] at hending ⊢
        simp [Hook.due?, hending]
  | @initializerRests _ r hmem hdue hnever =>
      intro t ht hending
      obtain ⟨s, hs, rfl⟩ := List.mem_map.mp ht
      by_cases hticket : s.ticket = r.ticket
      · have hsame : s = r := List.inj_on_of_nodup_map hcounted.tickets_nodup hs hmem hticket
        simp [hsame, hnever] at hending
      · rw [if_neg hticket] at hending ⊢
        exact h s hs hending
  | initializerEnds =>
      intro r hr
      exact h r (List.mem_filter.mp hr).1
  | _ => exact h

/-- Without a new initializer those that run are those that ran, or rest. -/
theorem Change.initializers_cases (hchange : Change step m m')
    (hstart : ∀ name hook, step ≠ .act (.startInitializer name hook)) {r : Running}
    (hr : r ∈ m'.initializers) :
    ∃ s ∈ m.initializers, r.hook = s.hook ∧ (r.due = s.due ∨ r.due = none) := by
  cases hchange with
  | start name hook => exact absurd rfl (hstart name hook)
  | initializerRests =>
      obtain ⟨s, hs, rfl⟩ := List.mem_map.mp hr
      refine ⟨s, hs, ?_⟩
      split
      · exact ⟨rfl, Or.inr rfl⟩
      · exact ⟨rfl, Or.inl rfl⟩
  | initializerEnds => exact ⟨r, (List.mem_filter.mp hr).1, rfl, Or.inl rfl⟩
  | _ => exact ⟨r, hr, rfl, Or.inl rfl⟩

theorem scheduled_run (start : Nat) (steps : List Step) : ((new start).run steps).Scheduled :=
  (sound_new start).run_invariant (fun _ _ _ _ hsound => Scheduled.change hsound.counted)
    (by simp [Scheduled, new])

/-- Every initializer that runs ends by some time. -/
structure EndsBy (bound : Nat) (m : Manager) : Prop where
  scheduled : m.Scheduled
  ends : ∀ r ∈ m.initializers, r.hook.ending.isSome = true
  due_le : ∀ r ∈ m.initializers, ∀ time, r.due = some time → time ≤ bound

theorem Scheduled.exists_endsBy (h : m.Scheduled)
    (hends : ∀ r ∈ m.initializers, r.hook.ending.isSome = true) : ∃ bound, EndsBy bound m := by
  refine ⟨total (fun r => r.due.getD 0) m.initializers, h, hends, ?_⟩
  intro r hr time hdue
  have hle := le_total_of_mem (fun r : Running => r.due.getD 0) hr
  simpa [hdue] using hle

theorem EndsBy.change {bound : Nat} (hcounted : m.Counted)
    (hstart : ∀ name hook, step ≠ .act (.startInitializer name hook))
    (hchange : Change step m m') (h : EndsBy bound m) : EndsBy bound m' := by
  refine ⟨h.scheduled.change hcounted hchange, ?_, ?_⟩
  · intro r hr
    obtain ⟨s, hs, hhook, -⟩ := hchange.initializers_cases hstart hr
    rw [hhook]
    exact h.ends s hs
  · intro r hr time hdue
    obtain ⟨s, hs, -, hsame | hnone⟩ := hchange.initializers_cases hstart hr
    · exact h.due_le s hs time (hsame ▸ hdue)
    · rw [hnone] at hdue
      contradiction

/-- If every initializer ends, a call that waits for them returns. -/
theorem AwaitsFrom.inevitable {m₀ : Manager} {bound : Nat} (hsound : m.Sound)
    (hrecent : m.Recent) (h : AwaitsFrom m₀ id m) (hends : EndsBy bound m) :
    Inevitable (fun m => ∃ r ∈ m.returned, r.id = id) m := by
  refine inevitable_of_bound bound
    (I := fun m => m.Recent ∧ AwaitsFrom m₀ id m ∧ EndsBy bound m) ?_ ?_ hsound
    ⟨hrecent, h, hends⟩
  · rintro m m' hsound hI hmove
    refine hsound.move_invariant (P := fun m => m.Recent ∧ AwaitsFrom m₀ id m ∧ EndsBy bound m)
      hmove ?_ hI
    rintro step hown m m' hsound hchange ⟨hrecent, h, hends⟩
    have hkept : step ≠ .act (.abandon id) := hown _ rfl
    have hstart : ∀ name hook, step ≠ .act (.startInitializer name hook) :=
      fun name hook => hown _ rfl
    exact ⟨hrecent.change hchange, h.change hsound hrecent hkept hstart hchange,
      hends.change hsound.counted hstart hchange⟩
  · rintro m hsound ⟨hrecent, h, hends⟩ hnot hnone
    rcases h.call with ⟨hcall, -⟩ | ⟨-, _, _, hreturned, -⟩
    · have hleaving : m.leaving = 0 := leaving_eq_zero_of_enabled_eq_nil hnone
      have hrunning : m.initializers ≠ [] := by
        intro hinitializers
        have hpending : m.pending = 0 := by
          rw [hsound.counted.pending_eq, hinitializers, hleaving]
          rfl
        exact enabled_ne_nil_of_initialized hpending hcall hnone
      obtain ⟨r, hr⟩ := List.exists_mem_of_ne_nil _ hrunning
      obtain ⟨time, hdue⟩ := Option.isSome_iff_exists.mp (hends.scheduled r hr (hends.ends r hr))
      refine Nat.lt_of_lt_of_le ?_ (hends.due_le r hr time hdue)
      by_contra hnot
      exact not_ready_of_enabled_eq_nil hnone _
        (.initializer hr (Running.isDue_of_le hdue (Nat.le_of_not_lt hnot)))
    · exact absurd ⟨_, hreturned, rfl⟩ hnot

/-! ## The contract of delivery -/

/-- A call made after these steps waits for the initializers. -/
structure AwaitsAfter (start : Nat) (before : List Step) (id : Nat) : Prop where
  handle : 0 < ((new start).run before).handles
  fresh : ((new start).run before).hasCall id = false

theorem AwaitsAfter.awaitsFrom {start : Nat} {before meantime : List Step}
    (h : AwaitsAfter start before id) (hkept : .act (.abandon id) ∉ meantime)
    (hstart : ∀ name hook, .act (.startInitializer name hook) ∉ meantime) :
    AwaitsFrom ((new start).run before) id
      ((new start).run (before ++ .act (.awaitInitialized id) :: meantime)) := by
  have hrecent : ((new start).run before).Recent := recent_run start before
  have hsound := (sound_run start before).step (.act (.awaitInitialized id))
  rw [Manager.step, act_awaitInitialized h.handle h.fresh] at hsound
  rw [run_append, run_cons, Manager.step, act_awaitInitialized h.handle h.fresh]
  generalize (new start).run before = m₀ at *
  have hfirst : AwaitsFrom m₀ id (m₀.awaitInitialized id) := by
    refine ⟨fun hpending => hpending, Or.inl ⟨?_, ?_⟩⟩
    · exact List.mem_append_right _ (List.mem_singleton_self _)
    · intro hpending
      have hnone : m₀.pending = 0 := hpending
      rw [EndsWait, if_pos hnone]
      rfl
  have hboth : ((m₀.awaitInitialized id).run meantime).Recent ∧
      AwaitsFrom m₀ id ((m₀.awaitInitialized id).run meantime) := by
    refine hsound.run_invariant (P := fun m => m.Recent ∧ AwaitsFrom m₀ id m) ?_
      ⟨hrecent, hfirst⟩
    rintro step hstep m m' hsound hchange ⟨hrecent, h⟩
    refine ⟨hrecent.change hchange, h.change hsound hrecent ?_ ?_ hchange⟩
    · rintro rfl
      exact hkept hstep
    · rintro name hook rfl
      exact hstart name hook hstep
  exact hboth.2

theorem AwaitsFrom.returned_cases {m₀ : Manager} (h : AwaitsFrom m₀ id m) (hsound : m.Sound)
    {r : Return} (hr : r ∈ m.returned) (hid : r.id = id) :
    (∃ list, r.answer = .failures list) ∧ EndsWait m₀ m r.time := by
  rcases h.call with ⟨hcall, -⟩ | ⟨-, failures, time, hreturned, hends⟩
  · exact absurd hid (hsound.identified.id_ne_of_waiting hcall hr)
  · rw [hsound.identified.return_eq hr hreturned hid]
    exact ⟨⟨failures, rfl⟩, hends⟩

theorem AwaitsFrom.endsWait_now {m₀ : Manager} (h : AwaitsFrom m₀ id m)
    (hnot : ∀ r ∈ m.returned, r.id ≠ id) (hpending : m.pending = 0) : EndsWait m₀ m m.now := by
  rcases h.call with ⟨-, htime⟩ | ⟨-, _, _, hreturned, -⟩
  · exact htime hpending
  · exact absurd rfl (hnot _ hreturned)

/-- Whatever the steps of a run were, every failure of an initializer is delivered once. -/
structure DeliversAll (start : Nat) (steps : List Step) : Prop where
  /-- What the calls returned and what is left are the failures in the order they occurred. -/
  delivered : ((new start).run steps).returned.flatMap Return.failures ++
      ((new start).run steps).undelivered = failures ((new start).run steps).history .setUp
  /-- When a call returns, every initializer has ended and its failure has been delivered. -/
  settled : ∀ step, ∀ r ∈ ((new start).run (steps ++ [step])).returned,
    r ∉ ((new start).run steps).returned → ∀ list, r.answer = .failures list →
    (entered ((new start).run (steps ++ [step])).history .setUp).Perm
      (ended ((new start).run (steps ++ [step])).history .setUp) ∧
    ((new start).run (steps ++ [step])).returned.flatMap Return.failures =
      failures ((new start).run (steps ++ [step])).history .setUp
  /-- If no initializer is started while a call waits, it returns when the last one ends, or at
  once when none is pending. -/
  punctual : ∀ before id meantime, steps = before ++ .act (.awaitInitialized id) :: meantime →
    AwaitsAfter start before id → .act (.abandon id) ∉ meantime →
    (∀ name hook, .act (.startInitializer name hook) ∉ meantime) →
    (∀ r ∈ ((new start).run steps).returned, r.id = id → (∃ list, r.answer = .failures list) ∧
      EndsWait ((new start).run before) ((new start).run steps) r.time) ∧
    ((∀ r ∈ ((new start).run steps).returned, r.id ≠ id) → ((new start).run steps).pending = 0 →
      EndsWait ((new start).run before) ((new start).run steps) ((new start).run steps).now) ∧
    ((∀ r ∈ ((new start).run steps).initializers, r.hook.ending.isSome = true) →
      Inevitable (fun m => ∃ r ∈ m.returned, r.id = id) ((new start).run steps))

theorem settled_step {start : Nat} {steps : List Step} {step : Step} {r : Return}
    {list : List TimedFailure} (hr : r ∈ ((new start).run (steps ++ [step])).returned)
    (hnew : r ∉ ((new start).run steps).returned) (hanswer : r.answer = .failures list) :
    ((new start).run (steps ++ [step])).initializers = [] ∧
      ((new start).run (steps ++ [step])).undelivered = [] := by
  have hsound : ((new start).run (steps ++ [step])).Sound := sound_run start _
  have hchanges : Changes step ((new start).run steps) ((new start).run (steps ++ [step])) := by
    rw [run_concat]
    exact step_changes _ _
  obtain ⟨-, hpending, hundelivered⟩ := hchanges.settled hr hnew hanswer
  exact ⟨hsound.counted.initializers_eq_nil hpending, hundelivered⟩

/-- In every run each failure of an initializer is delivered exactly once and in order, and calls
return when the last initializer has ended. -/
theorem run_deliversAll (start : Nat) (steps : List Step) : DeliversAll start steps where
  delivered := (recorded_run start steps).setUp
  settled := by
    intro step r hr hnew list hanswer
    obtain ⟨hinitializers, hundelivered⟩ := settled_step hr hnew hanswer
    refine ⟨(balanced_run start _).perm_setUp hinitializers, ?_⟩
    rw [← (recorded_run start _).setUp, hundelivered, List.append_nil]
  punctual := by
    rintro before id meantime rfl hcall hkept hstart
    have hsound := sound_run start (before ++ .act (.awaitInitialized id) :: meantime)
    have hrecent := recent_run start (before ++ .act (.awaitInitialized id) :: meantime)
    have hscheduled := scheduled_run start (before ++ .act (.awaitInitialized id) :: meantime)
    have hawaits := hcall.awaitsFrom hkept hstart
    refine ⟨fun r hr hid => hawaits.returned_cases hsound hr hid, hawaits.endsWait_now, ?_⟩
    intro hends
    obtain ⟨bound, hbound⟩ := hscheduled.exists_endsBy hends
    exact hawaits.inevitable hsound hrecent hbound

end Manager
end Lifecycle
end ServiceKit
