import ServiceKit.Proofs.Lifecycle.Balance

/-!
# What becomes of accepted closers

Every accepted closer is called, is aborted before its call, or is still to be called.  Closers are
told apart by the resource of their hook, so those that panic before they have one are left out.
-/

namespace ServiceKit
namespace Lifecycle

open History

/-- The closer that is aborted before its hook is entered. -/
def Happening.passedOver? : Happening → Option HookName
  | aborted name resource false => some (name, resource)
  | _ => none

/-- The closers that were aborted before their hooks were entered. -/
def History.passedOver (history : List Moment) : List HookName :=
  history.filterMap fun moment => moment.happening.passedOver?

@[simp] theorem History.passedOver_append (h₁ h₂ : List Moment) :
    passedOver (h₁ ++ h₂) = passedOver h₁ ++ passedOver h₂ := by
  simp [passedOver]

@[simp] theorem History.passedOver_singleton (moment : Moment) :
    passedOver [moment] = moment.happening.passedOver?.toList := by
  cases h : moment.happening.passedOver? <;> simp [passedOver, h]

attribute [simp] Happening.passedOver?

/-- When the limit is reached, the closers are passed over that were not called yet. -/
theorem passedOver_expiry (limit : Duration) (slots : List Slot) (time : Nat) :
    passedOver ((expiry limit slots).map (Moment.mk time)) =
      slots.filterMap Slot.waitingName? := by
  have hexpired : ∀ l, passedOver (⟨time, .expired limit (slots.countP Slot.isOpen)⟩ :: l) =
      passedOver l := fun _ => rfl
  rw [List.map_cons, hexpired]
  simp only [passedOver, List.filterMap_map, List.filterMap_filterMap]
  refine List.filterMap_congr fun slot _ => ?_
  cases slot with
  | waiting closer => cases hmake : closer.make <;> simp [Slot.abortion?, Closer.hookName, hmake]
  | running r => rfl
  | ended | lost | aborted => rfl

namespace Manager

/-- The accepted closers that have not come to their turn. -/
def uncalled (m : Manager) : List HookName :=
  match m.progress with
  | .idle => (accepted m.history).map Closer.hookName
  | .requested _ => (accepted m.history).map Closer.hookName
  | progress => progress.waiting

/-- Every accepted closer with a resource is called, is passed over, or is still to be called. -/
def Dispatches (m : Manager) : Prop :=
  ∀ x : HookName, x.2 ≠ none → ((accepted m.history).map Closer.hookName).count x =
    (entered m.history .close).count x + (passedOver m.history).count x + m.uncalled.count x

theorem dispatches_new (start : Nat) : (new start).Dispatches := fun _ _ => rfl

theorem Dispatches.change {step : Step} {m m' : Manager} (hsound : m.Sound)
    (hchange : Change step m m') (h : m.Dispatches) : m'.Dispatches := by
  intro x hx
  have hcount := h x hx
  cases hchange with
  | queue source closer huse hprogress hcollector =>
      simp only [uncalled, hprogress] at hcount
      simp only [note, uncalled, hprogress]
      simp
      omega
  | begin id limit hhandle hid hprogress hcollector =>
      simpa [note, uncalled, hprogress] using hcount
  | beginAlone id limit hhandle hid hprogress hcollector =>
      obtain ⟨queue, hlistening⟩ := hsound.listening hprogress (Or.inl hhandle)
      exact absurd hlistening (hcollector queue)
  | launch hprogress hcollector =>
      obtain ⟨-, -, hsummary⟩ := hsound.staged.of_delivered hcollector
      have haccepted : accepted m.history = _ := congrArg Summary.accepted hsummary
      simp only [uncalled, hprogress, haccepted] at hcount
      simpa [runClosers, uncalled, haccepted, Function.comp_def] using hcount
  | launchAlone hprogress hcollector =>
      exact absurd hcollector (hsound.staged.not_stopped hprogress)
  | @closerLost _ s before after closer panic hprogress hslots htime hmake =>
      have hlost : closer.hookName ≠ x := by
        rintro rfl
        simp [Closer.hookName, hmake] at hx
      simp only [note, uncalled, hprogress, hslots, Progress.waiting_underWay,
        count_filterMap_around] at hcount ⊢
      simpa [hlost] using hcount
  | closerEnters hprogress hslots htime hmake =>
      simp only [note, uncalled, hprogress, hslots, Progress.waiting_underWay,
        count_filterMap_around] at hcount ⊢
      simp [Closer.hookName, hmake] at hcount ⊢
      omega
  | closerRests hprogress hslots htime hdue hending =>
      simp only [uncalled, hprogress, hslots, Progress.waiting_underWay,
        count_filterMap_around] at hcount ⊢
      exact hcount
  | closerEnds hprogress hslots htime hdue hending =>
      simp only [note, uncalled, hprogress, hslots, Progress.waiting_underWay,
        count_filterMap_around] at hcount ⊢
      simpa using hcount
  | @expire _ s limit hprogress hlimit hopen htime =>
      simp only [uncalled, hprogress, Progress.waiting_underWay] at hcount
      simp only [noteAll, uncalled, entered_append, entered_expiry, accepted_append,
        accepted_expiry, passedOver_append, passedOver_expiry, Progress.waiting_underWay,
        filterMap_waitingName_abort, List.append_nil, List.count_append, List.count_nil]
      omega
  | @conclude _ s hprogress hopen =>
      have hnone : s.slots.filterMap Slot.waitingName? = [] := by
        rw [List.filterMap_eq_nil_iff]
        intro slot hslot
        have hclosed : slot.isOpen = false := Shutdown.not_isOpen_of_mem hopen hslot
        cases slot with
        | waiting | running => contradiction
        | ended | lost | aborted => rfl
      simpa [note, uncalled, hprogress, hnone] using hcount
  | loseClosers | reject | start | handOver | discard | initializerEnds | retire =>
      simpa [note, startInitializer, uncalled] using hcount
  | clone | drop | follow | await | abandon | take | initializerRests | answer | elapse =>
      exact hcount

theorem dispatches_run (start : Nat) (steps : List Step) : ((new start).run steps).Dispatches :=
  (sound_new start).run_invariant (fun _ _ _ _ => Dispatches.change) (dispatches_new start)

end Manager
end Lifecycle
end ServiceKit
