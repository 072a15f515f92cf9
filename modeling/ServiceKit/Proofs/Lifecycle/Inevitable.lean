import ServiceKit.Proofs.Lifecycle.Work

/-!
# What is inevitable

A manager goes on without its callers: it does what is possible, in any order, and lets time pass
when nothing is.  What it comes to however it goes on is inevitable.  It never gets stuck before
something that has not come, as long as that something has a time.
-/

namespace ServiceKit
namespace Lifecycle

/-- An action that only a caller takes. -/
def Action.isCallers : Action → Bool
  | clone => true
  | drop => true
  | register _ => true
  | startInitializer _ _ => true
  | close _ _ => true
  | awaitInitialized _ => true
  | abandon _ => true
  | _ => false

theorem Running.isDue_of_le {r : Running} {now time : Nat} (hdue : r.due = some time)
    (hle : time ≤ now) : r.isDue now = true := by
  simp [isDue, hdue, hle]

namespace Manager

/-- A manager goes on without its callers. -/
inductive Move (m : Manager) : Manager → Prop where
  | act {action : Action} (hready : action ∈ m.enabled) : Move m (m.act action)
  | elapse {millis : Nat} (hpos : 0 < millis) (hquiet : m.isQuietFor millis = true) :
      Move m (m.elapse millis)

/-- However the manager goes on without its callers, it comes to a state with the property. -/
inductive Inevitable (P : Manager → Prop) : Manager → Prop where
  | now {m : Manager} (h : P m) : Inevitable P m
  | later {m : Manager} (hmove : ∃ m', Move m m')
      (h : ∀ m', Move m m' → Inevitable P m') : Inevitable P m

theorem Inevitable.mono {P Q : Manager → Prop} {m : Manager} (h : Inevitable P m)
    (himp : ∀ m, P m → Q m) : Inevitable Q m := by
  induction h with
  | now h => exact .now (himp _ h)
  | later hmove _ ih => exact .later hmove ih

/-! ## Moves are steps -/

theorem Ready.isCallers {m : Manager} {action : Action} (h : m.Ready action) :
    action.isCallers = false := by
  cases h <;> rfl

theorem Move.exists_step {m m' : Manager} (h : Move m m') :
    ∃ step, m' = m.step step ∧ ∀ action, action.isCallers = true → step ≠ .act action := by
  cases h with
  | @act action hready =>
      refine ⟨.act action, rfl, ?_⟩
      rintro _ hcallers ⟨⟩
      rw [(mem_enabled_iff.mp hready).isCallers] at hcallers
      contradiction
  | @elapse millis _ _ =>
      refine ⟨.elapse millis, rfl, ?_⟩
      rintro _ _ ⟨⟩

theorem Sound.move {m m' : Manager} (hmove : Move m m') (h : m.Sound) : m'.Sound := by
  obtain ⟨step, rfl, -⟩ := hmove.exists_step
  exact h.step step

/-- What every change keeps that no caller makes, a move keeps. -/
theorem Sound.move_invariant {P : Manager → Prop} {m m' : Manager} (hsound : m.Sound)
    (hmove : Move m m')
    (hchange : ∀ step, (∀ action, action.isCallers = true → step ≠ .act action) →
      ∀ {m m' : Manager}, m.Sound → Change step m m' → P m → P m')
    (h : P m) : P m' := by
  obtain ⟨step, rfl, hown⟩ := hmove.exists_step
  exact hsound.step_invariant (hchange step hown) h

/-- Actions take no time. -/
theorem act_now (m : Manager) (action : Action) : (m.act action).now = m.now := by
  have hkeep : ∀ {m' : Manager}, Changes (.act action) m m' → m'.now = m.now := by
    intro m' hchanges
    induction hchanges with
    | refl => rfl
    | tail _ hlast ih =>
        rw [← ih]
        cases hlast <;> rfl
  exact hkeep (act_changes m action)

/-- What leads to a property leads on to what the property leads to. -/
theorem Inevitable.bind {P Q I : Manager → Prop} {m : Manager} (h : Inevitable P m)
    (hkeep : ∀ m m', m.Sound → I m → Move m m' → I m')
    (hnext : ∀ m, m.Sound → I m → P m → Inevitable Q m) (hsound : m.Sound) (hI : I m) :
    Inevitable Q m := by
  induction h with
  | now h => exact hnext _ hsound hI h
  | later hmove _ ih =>
      apply Inevitable.later hmove
      intro m' hm'
      exact ih m' hm' (hsound.move hm') (hkeep _ m' hsound hI hm')

/-! ## Nothing gets stuck -/

variable {m : Manager}

theorem not_ready_of_enabled_eq_nil (h : m.enabled = []) (action : Action) :
    ¬ m.Ready action := by
  intro hready
  have hmem : action ∈ m.enabled := mem_enabled_iff.mpr hready
  simp [h] at hmem

theorem leaving_eq_zero_of_enabled_eq_nil (h : m.enabled = []) : m.leaving = 0 := by
  by_contra hne
  exact not_ready_of_enabled_eq_nil h _ (.retire hne)

/-- Where nothing is possible, no closer of a shutdown waits for its entry. -/
theorem not_waiting_of_enabled_eq_nil (h : m.enabled = []) {s : Shutdown}
    (hprogress : m.progress = .underWay s) {closer : Closer} : .waiting closer ∉ s.slots := by
  intro hmem
  obtain ⟨k, hk⟩ := List.getElem?_of_mem hmem
  by_cases htime : s.isInTime m.now = true
  · exact not_ready_of_enabled_eq_nil h _ (.enter hprogress htime hk)
  · exact not_ready_of_enabled_eq_nil h _ (.expire hprogress (eq_false_of_ne_true htime)
      (Shutdown.isUnfinished_of_mem hmem rfl))

/-- Where nothing is possible, whatever is due is due later. -/
theorem lt_of_mem_times (hnone : m.enabled = []) {time : Nat} (hmem : time ∈ m.times) :
    m.now < time := by
  rcases List.mem_append.mp hmem with hmem | hmem
  · obtain ⟨r, hr, hdue⟩ := List.mem_filterMap.mp hmem
    by_contra hnot
    exact not_ready_of_enabled_eq_nil hnone _
      (.initializer hr (Running.isDue_of_le hdue (Nat.le_of_not_lt hnot)))
  · unfold shutdownTimes at hmem
    split at hmem
    next s hprogress =>
      split at hmem
      next hopen =>
        have htime : s.isInTime m.now = true := by
          by_contra hnot
          exact not_ready_of_enabled_eq_nil hnone _
            (.expire hprogress (eq_false_of_ne_true hnot) hopen)
        rcases List.mem_append.mp hmem with hmem | hmem
        · have hdeadline : s.deadline = some time := by simpa using hmem
          simpa [Shutdown.isInTime, hdeadline] using htime
        · obtain ⟨slot, hslot, hdue⟩ := List.mem_filterMap.mp hmem
          cases slot with
          | running r =>
              obtain ⟨k, hk⟩ := List.getElem?_of_mem hslot
              by_contra hnot
              exact not_ready_of_enabled_eq_nil hnone _
                (.closer hprogress htime hk (Running.isDue_of_le hdue (Nat.le_of_not_lt hnot)))
          | waiting | ended | lost | aborted => contradiction
      next => contradiction
    next => contradiction

/-- Where nothing is possible, time can pass. -/
theorem isQuietFor_one (hnone : m.enabled = []) : m.isQuietFor 1 = true := by
  simp only [isQuietFor, hnone, List.isEmpty_nil, Bool.true_and, List.all_eq_true,
    decide_eq_true_eq]
  intro time hmem
  exact lt_of_mem_times hnone hmem

/-- What lasts until a property holds leads to the property, if it leaves nothing to do only before
some time. -/
theorem inevitable_of_bound {P I : Manager → Prop} (bound : Nat)
    (hkeep : ∀ m m', m.Sound → I m → Move m m' → I m')
    (hquiet : ∀ m, m.Sound → I m → ¬ P m → m.enabled = [] → m.now < bound)
    (hsound : m.Sound) (h : I m) : Inevitable P m := by
  -- time comes closer to the bound, and between two passings of time the work gets less
  induction hgap : bound - m.now using Nat.strongRecOn generalizing m with
  | ind gap ihgap =>
      induction hleft : m.work using Nat.strongRecOn generalizing m with
      | ind left ihleft =>
          by_cases hP : P m
          · exact .now hP
          by_cases hnone : m.enabled = []
          · have hbefore : m.now < bound := hquiet m hsound h hP hnone
            refine .later ⟨_, .elapse Nat.one_pos (isQuietFor_one hnone)⟩ ?_
            intro m' hmove
            have hnext : I m' := hkeep m m' hsound h hmove
            have hsound' : m'.Sound := hsound.move hmove
            cases hmove with
            | act hready => simp [hnone] at hready
            | @elapse millis hpos hquietFor =>
                have hnow : (m.elapse millis).now = m.now + millis := by
                  simp [elapse, hquietFor]
                exact ihgap _ (by omega) hsound' hnext rfl
          · obtain ⟨action, hready⟩ := List.exists_mem_of_ne_nil _ hnone
            refine .later ⟨_, .act hready⟩ ?_
            intro m' hmove
            have hnext : I m' := hkeep m m' hsound h hmove
            have hsound' : m'.Sound := hsound.move hmove
            cases hmove with
            | @act action hready =>
                have hless : (m.act action).work < m.work :=
                  work_lt_of_ready hsound (mem_enabled_iff.mp hready)
                exact ihleft _ (by omega) hsound' hnext (by rw [act_now, hgap]) rfl
            | elapse _ hquietFor =>
                exact absurd (enabled_eq_nil_of_isQuietFor hquietFor) hnone

end Manager
end Lifecycle
end ServiceKit
