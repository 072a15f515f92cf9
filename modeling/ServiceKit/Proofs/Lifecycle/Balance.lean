import Mathlib.Data.List.Perm.Subperm
import ServiceKit.Proofs.Lifecycle.Sound

/-!
# Where the entered hooks are

Every hook that was entered has ended, was aborted, or runs, and a close hook is entered only on
behalf of a closer that was accepted.  Hooks are counted by the name and resource under which a
history knows them, so no hook is counted for another registration of the same closer.
-/

namespace ServiceKit
namespace Lifecycle

open History

namespace Progress

/-- The closers of a shutdown that runs. -/
def slots : Progress → List Slot
  | underWay s => s.slots
  | _ => []

/-- The hooks that closers have not entered yet. -/
def waiting (progress : Progress) : List HookName :=
  progress.slots.filterMap Slot.waitingName?

/-- The close hooks that run. -/
def running (progress : Progress) : List HookName :=
  progress.slots.filterMap Slot.runningName?

@[simp] theorem running_idle : idle.running = [] := rfl

@[simp] theorem running_requested (limit : Option Duration) : (requested limit).running = [] := rfl

@[simp] theorem running_underWay (s : Shutdown) :
    (underWay s).running = s.slots.filterMap Slot.runningName? := rfl

@[simp] theorem running_done (report : Report) : (done report).running = [] := rfl

@[simp] theorem waiting_idle : idle.waiting = [] := rfl

@[simp] theorem waiting_requested (limit : Option Duration) : (requested limit).waiting = [] := rfl

@[simp] theorem waiting_underWay (s : Shutdown) :
    (underWay s).waiting = s.slots.filterMap Slot.waitingName? := rfl

@[simp] theorem waiting_done (report : Report) : (done report).waiting = [] := rfl

end Progress

/-- The hooks of a shutdown are those at one place and those before and after it. -/
theorem count_filterMap_around (view : Slot → Option HookName) (before after : List Slot)
    (slot : Slot) (x : HookName) :
    ((before ++ slot :: after).filterMap view).count x = (view slot).toList.count x +
      ((before.filterMap view).count x + (after.filterMap view).count x) := by
  rw [List.filterMap_append, List.filterMap_cons, List.count_append]
  cases view slot with
  | none => simp
  | some name =>
      simp only [Option.toList_some, List.count_cons, List.count_nil]
      omega

theorem filterMap_runningName_abort (slots : List Slot) :
    (slots.map Slot.abort).filterMap Slot.runningName? = [] := by
  rw [List.filterMap_map, List.filterMap_eq_nil_iff]
  intro slot _
  cases slot <;> rfl

theorem filterMap_waitingName_abort (slots : List Slot) :
    (slots.map Slot.abort).filterMap Slot.waitingName? = [] := by
  rw [List.filterMap_map, List.filterMap_eq_nil_iff]
  intro slot _
  cases slot <;> rfl

namespace Manager

/-- The hooks that were entered are accounted for. -/
structure Balanced (m : Manager) : Prop where
  setUp : ∀ x, (entered m.history .setUp).count x =
    (ended m.history .setUp).count x + (m.initializers.map Running.hookName).count x
  close : ∀ x, (entered m.history .close).count x =
    (ended m.history .close).count x + (aborted m.history).count x + m.progress.running.count x
  accepted : ∀ x, (entered m.history .close).count x + m.progress.waiting.count x ≤
    ((accepted m.history).map Closer.hookName).count x
  /-- No close hook is entered before the shutdown has received its closers. -/
  unentered : (∀ s, m.progress ≠ .underWay s) → (∀ report, m.progress ≠ .done report) →
    entered m.history .close = []

theorem balanced_new (start : Nat) : (new start).Balanced where
  setUp := by
    intro x
    rfl
  close := by
    intro x
    rfl
  accepted := by
    intro x
    exact Nat.le_refl 0
  unentered := by
    intro _ _
    rfl

theorem Balanced.change {step : Step} {m m' : Manager} (hsound : m.Sound)
    (hchange : Change step m m') (h : m.Balanced) : m'.Balanced := by
  cases hchange with
  | queue source closer huse hprogress hcollector =>
      refine ⟨by simpa [note] using h.setUp, by simpa [note] using h.close, ?_,
        by simpa [note] using h.unentered⟩
      intro x
      have := h.accepted x
      simp only [note, entered_append, entered_singleton, accepted_append, accepted_singleton,
        Happening.entered?, Happening.accepted?, List.map_append, List.count_append]
      simp
      omega
  | start name hook hhandle =>
      refine ⟨?_, by simpa [startInitializer, note] using h.close,
        by simpa [startInitializer, note] using h.accepted,
        by simpa [startInitializer, note] using h.unentered⟩
      intro x
      have := h.setUp x
      simp [startInitializer, note, Running.hookName]
      omega
  | @initializerRests _ r hmem hdue hending =>
      refine ⟨?_, h.close, h.accepted, h.unentered⟩
      have hnames : (m.initializers.map fun s =>
          if s.ticket = r.ticket then { s with due := none } else s).map Running.hookName =
          m.initializers.map Running.hookName := by
        rw [List.map_map]
        apply List.map_congr_left
        intro s _
        simp only [Function.comp_apply]
        split <;> rfl
      intro x
      rw [hnames]
      exact h.setUp x
  | @initializerEnds _ r _ hmem hdue hending =>
      refine ⟨?_, by simpa [note] using h.close, by simpa [note] using h.accepted,
        by simpa [note] using h.unentered⟩
      obtain ⟨before, after, heq, hfilter⟩ := hsound.counted.exists_around hmem
      intro x
      have hbefore := h.setUp x
      simp only [heq, List.map_append, List.map_cons, List.count_append, List.count_cons] at hbefore
      simp only [note, hfilter, entered_append, entered_singleton, ended_append, ended_singleton,
        Happening.entered?, Happening.ended?, if_true, Option.toList_none, Option.toList_some,
        List.append_nil, List.count_append, List.map_append, List.count_singleton]
      rw [show (r.name, r.hook.resource) = r.hookName from rfl]
      omega
  | launch hprogress hcollector =>
      obtain ⟨-, -, hsummary⟩ := hsound.staged.of_delivered hcollector
      have haccepted : History.accepted m.history = _ := congrArg Summary.accepted hsummary
      have hunentered : entered m.history .close = [] :=
        h.unentered (by simp [hprogress]) (by simp [hprogress])
      refine ⟨h.setUp, ?_, ?_, by simp [runClosers]⟩
      · intro x
        have := h.close x
        simpa [hprogress, runClosers, List.filterMap_map, Function.comp_def, Slot.runningName?]
          using this
      · intro x
        simp [runClosers, hunentered, haccepted, Function.comp_def, Slot.waitingName?]
  | launchAlone hprogress hcollector =>
      exact absurd hcollector (hsound.staged.not_stopped hprogress)
  | closerLost hprogress hslots htime hmake =>
      refine ⟨by simpa [note] using h.setUp, ?_, ?_, by simp [note]⟩
      · intro x
        have hclose := h.close x
        simp only [note, hprogress, hslots, Progress.running_underWay, count_filterMap_around]
          at hclose ⊢
        simpa using hclose
      · intro x
        have haccepted := h.accepted x
        simp only [note, hprogress, hslots, Progress.waiting_underWay, count_filterMap_around]
          at haccepted ⊢
        simp at haccepted ⊢
        omega
  | closerEnters hprogress hslots htime hmake =>
      refine ⟨by simpa [note] using h.setUp, ?_, ?_, by simp [note]⟩
      · intro x
        have hclose := h.close x
        simp only [note, hprogress, hslots, Progress.running_underWay, count_filterMap_around]
          at hclose ⊢
        simp [Running.hookName] at hclose ⊢
        omega
      · intro x
        have haccepted := h.accepted x
        simp only [note, hprogress, hslots, Progress.waiting_underWay, count_filterMap_around]
          at haccepted ⊢
        simp [Closer.hookName, hmake] at haccepted ⊢
        omega
  | closerRests hprogress hslots htime hdue hending =>
      refine ⟨h.setUp, ?_, ?_, by simp⟩
      · intro x
        have hclose := h.close x
        simp only [hprogress, hslots, Progress.running_underWay, count_filterMap_around]
          at hclose ⊢
        exact hclose
      · intro x
        have haccepted := h.accepted x
        simp only [hprogress, hslots, Progress.waiting_underWay, count_filterMap_around]
          at haccepted ⊢
        exact haccepted
  | closerEnds hprogress hslots htime hdue hending =>
      refine ⟨by simpa [note] using h.setUp, ?_, ?_, by simp [note]⟩
      · intro x
        have hclose := h.close x
        simp only [note, hprogress, hslots, Progress.running_underWay, count_filterMap_around]
          at hclose ⊢
        simp [Running.hookName] at hclose ⊢
        omega
      · intro x
        have haccepted := h.accepted x
        simp only [note, hprogress, hslots, Progress.waiting_underWay, count_filterMap_around]
          at haccepted ⊢
        simpa using haccepted
  | @expire _ s limit hprogress hlimit hopen htime =>
      refine ⟨?_, ?_, ?_, by simp [noteAll]⟩
      · intro x
        simp only [noteAll, entered_append, entered_expiry, ended_append, ended_expiry,
          List.append_nil]
        exact h.setUp x
      · intro x
        have := h.close x
        simp only [noteAll, entered_append, entered_expiry, ended_append, ended_expiry,
          aborted_append, aborted_expiry, List.append_nil, List.count_append,
          Progress.running_underWay, filterMap_runningName_abort, List.count_nil]
        simp only [hprogress, Progress.running_underWay] at this
        omega
      · intro x
        have := h.accepted x
        simp only [noteAll, entered_append, entered_expiry, accepted_append, accepted_expiry,
          List.append_nil, Progress.waiting_underWay, filterMap_waitingName_abort, List.count_nil]
        omega
  | @conclude _ s hprogress hopen =>
      have hnone : s.slots.filterMap Slot.runningName? = [] := by
        rw [List.filterMap_eq_nil_iff]
        intro slot hslot
        have hclosed : slot.isOpen = false := Shutdown.not_isOpen_of_mem hopen hslot
        cases slot with
        | waiting | running => contradiction
        | ended | lost | aborted => rfl
      refine ⟨by simpa [note] using h.setUp, ?_, ?_, by simp [note]⟩
      · intro x
        have := h.close x
        simpa [note, hprogress, hnone] using this
      · intro x
        have := h.accepted x
        simp [note, hprogress] at this ⊢
        omega
  | begin id limit hhandle hid hprogress hcollector =>
      have hunentered : entered m.history .close = [] :=
        h.unentered (by simp [hprogress]) (by simp [hprogress])
      refine ⟨by simpa [note] using h.setUp, ?_, ?_, ?_⟩
      · intro x
        have := h.close x
        simpa [note, hprogress] using this
      · intro x
        simp [note, hunentered]
      · intro _ _
        simp [note, hunentered]
  | beginAlone id limit hhandle hid hprogress hcollector =>
      obtain ⟨queue, hlistening⟩ := hsound.listening hprogress (Or.inl hhandle)
      exact absurd hlistening (hcollector queue)
  | loseClosers | reject | retire | handOver | discard =>
      exact ⟨by simpa [note] using h.setUp, by simpa [note] using h.close,
        by simpa [note] using h.accepted, by simpa [note] using h.unentered⟩
  | clone | drop | follow | await | abandon | take | answer | elapse =>
      exact ⟨h.setUp, h.close, h.accepted, h.unentered⟩

theorem Sound.balanced_run {m : Manager} (hsound : m.Sound) (h : m.Balanced) (steps : List Step) :
    (m.run steps).Balanced :=
  hsound.run_invariant (fun _ _ _ _ => Balanced.change) h

theorem balanced_run (start : Nat) (steps : List Step) : ((new start).run steps).Balanced :=
  (sound_new start).balanced_run (balanced_new start) steps

/-! ## What is left of the hooks in the end -/

variable {m : Manager}

theorem Balanced.subperm (h : m.Balanced) :
    (entered m.history .close).Subperm ((History.accepted m.history).map Closer.hookName) := by
  rw [List.subperm_ext_iff]
  intro x _
  have haccepted := h.accepted x
  omega

/-- Of the initializers that were entered, those that have not ended run. -/
theorem Balanced.perm_entered (h : m.Balanced) :
    (entered m.history .setUp).Perm
      (ended m.history .setUp ++ m.initializers.map Running.hookName) := by
  rw [List.perm_iff_count]
  intro x
  rw [List.count_append]
  exact h.setUp x

/-- Where no initializer runs, all that were entered have ended. -/
theorem Balanced.perm_setUp (h : m.Balanced) (hinitializers : m.initializers = []) :
    (entered m.history .setUp).Perm (ended m.history .setUp) := by
  have hperm := h.perm_entered
  rwa [hinitializers, List.map_nil, List.append_nil] at hperm

/-- Where the shutdown is complete, all close hooks that were entered have ended or were aborted. -/
theorem Balanced.perm_of_done (h : m.Balanced) {report : Report}
    (hdone : m.progress = .done report) :
    (entered m.history .close).Perm (ended m.history .close ++ aborted m.history) := by
  rw [List.perm_iff_count]
  intro x
  have hclose := h.close x
  rw [hdone, Progress.running_done, List.count_nil, Nat.add_zero] at hclose
  rw [hclose, List.count_append]

end Manager
end Lifecycle
end ServiceKit
