import ServiceKit.Proofs.Lifecycle.Change

/-!
# Nothing is overdue

Time never passes beyond an instant at which something is due, so what is due has its time now or
later.
-/

namespace ServiceKit
namespace Lifecycle

theorem Hook.le_of_due? {hook : Hook} {now time : Nat} (h : hook.due? now = some time) :
    now ≤ time := by
  unfold due? at h
  split at h
  · have heq : now + hook.delay = time := Option.some.inj h
    omega
  · contradiction

/-- What is due and not overdue is due now. -/
theorem Running.due_eq_of_isDue {r : Running} {now : Nat} (hdue : r.isDue now = true)
    (hpunctual : ∀ time, r.due = some time → now ≤ time) : r.due = some now := by
  cases hcase : r.due with
  | none => simp [isDue, hcase] at hdue
  | some time =>
      have hle : time ≤ now := by simpa [isDue, hcase] using hdue
      rw [Nat.le_antisymm hle (hpunctual time hcase)]

theorem Shutdown.isUnfinished_of_mem {s : Shutdown} {slot : Slot} (hmem : slot ∈ s.slots)
    (hopen : slot.isOpen = true) : s.isUnfinished = true :=
  List.any_eq_true.mpr ⟨slot, hmem, hopen⟩

theorem Shutdown.not_isOpen_of_mem {s : Shutdown} {slot : Slot} (h : s.isUnfinished = false)
    (hmem : slot ∈ s.slots) : slot.isOpen = false := by
  simpa using List.any_eq_false.mp h slot hmem

theorem Slot.not_isOpen_abort (slot : Slot) : slot.abort.isOpen = false := by
  cases slot <;> rfl

namespace Manager

/-- Whatever is due in a manager has its time now or later. -/
structure Punctual (m : Manager) : Prop where
  initializers : ∀ r ∈ m.initializers, ∀ time, r.due = some time → m.now ≤ time
  closers : ∀ s, m.progress = .underWay s →
    ∀ r, Slot.running r ∈ s.slots → ∀ time, r.due = some time → m.now ≤ time
  deadline : ∀ s, m.progress = .underWay s → s.isUnfinished = true →
    ∀ time, s.deadline = some time → m.now ≤ time
  /-- Only a limit sets a deadline. -/
  limited : ∀ s, m.progress = .underWay s → s.limit = none → s.deadline = none

theorem punctual_new (start : Nat) : (new start).Punctual where
  initializers := by simp [new]
  closers := by simp [new]
  deadline := by simp [new]
  limited := by simp [new]

theorem punctual_of_idle {m : Manager}
    (hinitializers : ∀ r ∈ m.initializers, ∀ time, r.due = some time → m.now ≤ time)
    (hprogress : ∀ s, m.progress ≠ .underWay s) : m.Punctual where
  initializers := hinitializers
  closers := fun s hs => absurd hs (hprogress s)
  deadline := fun s hs => absurd hs (hprogress s)
  limited := fun s hs => absurd hs (hprogress s)

/-- One place of the shutdown changes, and what it has due is not overdue. -/
theorem Punctual.replace {m m' : Manager} {s s' : Shutdown} {before after : List Slot}
    {old slot : Slot} (h : m.Punctual) (hprogress : m.progress = .underWay s)
    (hslots : s.slots = before ++ old :: after) (hopen : old.isOpen = true)
    (hprogress' : m'.progress = .underWay s') (hslots' : s'.slots = before ++ slot :: after)
    (hslot : ∀ r, slot = .running r → ∀ time, r.due = some time → m.now ≤ time)
    (hnow : m'.now = m.now) (hinitializers : m'.initializers = m.initializers)
    (hdeadline : s'.deadline = s.deadline) (hlimit : s'.limit = s.limit) : m'.Punctual where
  initializers := by
    rw [hnow, hinitializers]
    exact h.initializers
  closers := by
    intro t ht r hr time htime
    obtain rfl : s' = t := by simpa [hprogress'] using ht
    rw [hslots'] at hr
    rw [hnow]
    rcases List.mem_append.mp hr with hr | hr
    · exact h.closers s hprogress r (by rw [hslots]; exact List.mem_append_left _ hr) time htime
    · rcases List.mem_cons.mp hr with hr | hr
      · exact hslot r hr.symm time htime
      · refine h.closers s hprogress r ?_ time htime
        rw [hslots]
        exact List.mem_append_right _ (List.mem_cons_of_mem _ hr)
  deadline := by
    intro t ht _ time htime
    obtain rfl : s' = t := by simpa [hprogress'] using ht
    rw [hnow]
    have hunfinished : s.isUnfinished = true :=
      Shutdown.isUnfinished_of_mem (by simp [hslots]) hopen
    exact h.deadline s hprogress hunfinished time (hdeadline ▸ htime)
  limited := by
    intro t ht hnone
    obtain rfl : s' = t := by simpa [hprogress'] using ht
    rw [hdeadline]
    exact h.limited s hprogress (hlimit ▸ hnone)

theorem punctual_runClosers {m : Manager} (h : m.Punctual) (limit : Option Duration)
    (closers : List Closer) : (m.runClosers limit closers).Punctual where
  initializers := h.initializers
  closers := by
    intro s hs r hr
    obtain rfl := Progress.underWay.inj hs
    simp at hr
  deadline := by
    intro s hs _ time htime
    obtain rfl := Progress.underWay.inj hs
    obtain ⟨d, -, rfl⟩ := Option.map_eq_some_iff.mp htime
    exact Nat.le_add_right _ _
  limited := by
    intro s hs hnone
    obtain rfl := Progress.underWay.inj hs
    exact congrArg (Option.map _) hnone

theorem le_of_isQuietFor {m : Manager} {millis time : Nat} (hquiet : m.isQuietFor millis = true)
    (hmem : time ∈ m.times) : m.now + millis ≤ time := by
  simp only [isQuietFor, Bool.and_eq_true, List.all_eq_true, decide_eq_true_eq] at hquiet
  exact hquiet.2 time hmem

theorem Punctual.change {step : Step} {m m' : Manager} (hchange : Change step m m')
    (h : m.Punctual) : m'.Punctual := by
  cases hchange with
  | start name hook hhandle =>
      refine ⟨?_, h.closers, h.deadline, h.limited⟩
      intro r hr time htime
      rcases List.mem_append.mp hr with hr | hr
      · exact h.initializers r hr time htime
      · rw [List.mem_singleton.mp hr] at htime
        exact Hook.le_of_due? htime
  | initializerRests =>
      refine ⟨?_, h.closers, h.deadline, h.limited⟩
      intro r hr time htime
      obtain ⟨s, hs, rfl⟩ := List.mem_map.mp hr
      split at htime
      · contradiction
      · exact h.initializers s hs time htime
  | initializerEnds =>
      refine ⟨?_, h.closers, h.deadline, h.limited⟩
      intro r hr
      exact h.initializers r (List.mem_filter.mp hr).1
  | begin | beginAlone | conclude => exact punctual_of_idle h.initializers (by simp [note, noteAll])
  | launch => exact punctual_runClosers h _ _
  | launchAlone =>
      have hnoted : (m.note .collectorStopped).Punctual :=
        ⟨h.initializers, h.closers, h.deadline, h.limited⟩
      exact punctual_runClosers hnoted _ _
  | closerLost hprogress hslots htime hmake =>
      exact h.replace hprogress hslots rfl rfl rfl (by simp) rfl rfl rfl rfl
  | closerEnters hprogress hslots htime hmake =>
      refine h.replace hprogress hslots rfl rfl rfl ?_ rfl rfl rfl rfl
      intro r hr time htime
      rw [← Slot.running.inj hr] at htime
      exact Hook.le_of_due? htime
  | closerRests hprogress hslots htime hdue hending =>
      refine h.replace hprogress hslots rfl rfl rfl ?_ rfl rfl rfl rfl
      intro r hr time htime
      rw [← Slot.running.inj hr] at htime
      contradiction
  | closerEnds hprogress hslots htime hdue hending =>
      exact h.replace hprogress hslots rfl rfl rfl (by simp) rfl rfl rfl rfl
  | @expire _ s limit hprogress hlimit hopen htime =>
      refine ⟨h.initializers, ?_, ?_, ?_⟩
      · intro t ht r hr
        obtain rfl := Progress.underWay.inj ht
        obtain ⟨slot, -, hslot⟩ := List.mem_map.mp hr
        cases slot <;> simp [Slot.abort] at hslot
      · intro t ht hunfinished
        obtain rfl := Progress.underWay.inj ht
        obtain ⟨slot, hslot, hisOpen⟩ := List.any_eq_true.mp hunfinished
        obtain ⟨old, -, rfl⟩ := List.mem_map.mp hslot
        simp [Slot.not_isOpen_abort] at hisOpen
      · intro t ht hnone
        obtain rfl := Progress.underWay.inj ht
        simp [hlimit] at hnone
  | elapse millis hquiet =>
      refine ⟨?_, ?_, ?_, h.limited⟩
      · intro r hr time htime
        exact le_of_isQuietFor hquiet
          (List.mem_append_left _ (List.mem_filterMap.mpr ⟨r, hr, htime⟩))
      · intro s hs r hr time htime
        refine le_of_isQuietFor hquiet (List.mem_append_right _ ?_)
        have hunfinished : s.isUnfinished = true := Shutdown.isUnfinished_of_mem hr rfl
        have hprogress : m.progress = .underWay s := hs
        simp only [shutdownTimes, hprogress, hunfinished, if_true]
        exact List.mem_append_right _ (List.mem_filterMap.mpr ⟨_, hr, htime⟩)
      · intro s hs hunfinished time htime
        refine le_of_isQuietFor hquiet (List.mem_append_right _ ?_)
        have hprogress : m.progress = .underWay s := hs
        simp only [shutdownTimes, hprogress, hunfinished, if_true]
        exact List.mem_append_left _ (by simp [htime])
  | clone | drop | queue | loseClosers | reject | follow | await | abandon | take | handOver
  | discard | retire | answer =>
      exact ⟨h.initializers, h.closers, h.deadline, h.limited⟩

end Manager
end Lifecycle
end ServiceKit
