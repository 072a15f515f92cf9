import ServiceKit.Proofs.Lifecycle.Calls
import ServiceKit.Proofs.Lifecycle.Law
import ServiceKit.Proofs.Lifecycle.Punctual

/-!
# Sound runs

The invariants of a manager together: its counts are right, its calls are told apart, it is in one
of the stages, its history keeps the law, and nothing is overdue.
-/

namespace ServiceKit
namespace Lifecycle
namespace Manager

/-- What holds of a manager in every run. -/
structure Sound (m : Manager) : Prop where
  counted : m.Counted
  identified : m.Identified
  staged : m.Staged
  unreachable : m.Unreachable
  lawful : Lawful m.history
  punctual : m.Punctual

theorem sound_new (start : Nat) : (new start).Sound :=
  ⟨counted_new start, identified_new start, staged_new start, unreachable_new start,
    lawful_new start, punctual_new start⟩

theorem Sound.change {step : Step} {m m' : Manager} (hchange : Change step m m')
    (h : m.Sound) : m'.Sound where
  counted := h.counted.change hchange
  identified := h.identified.change hchange
  staged := h.staged.change h.counted h.unreachable hchange
  unreachable := h.unreachable.change h.staged hchange
  lawful := h.staged.lawful_change h.counted h.unreachable hchange h.lawful
  punctual := h.punctual.change hchange

theorem Sound.step {m : Manager} (h : m.Sound) (step : Step) : (m.step step).Sound :=
  step_invariant Sound.change h

theorem Sound.run {m : Manager} (h : m.Sound) (steps : List Step) : (m.run steps).Sound :=
  run_invariant (fun _ _ _ _ => Sound.change) h

/-- Every run of a new manager is sound. -/
theorem sound_run (start : Nat) (steps : List Step) : ((new start).run steps).Sound :=
  (sound_new start).run steps

/-- What every change of a sound manager keeps, a step keeps. -/
theorem Sound.step_invariant {P : Manager → Prop} {step : Step} {m : Manager} (hsound : m.Sound)
    (hchange : ∀ {m m' : Manager}, m.Sound → Change step m m' → P m → P m') (h : P m) :
    P (m.step step) := by
  have hboth : (m.step step).Sound ∧ P (m.step step) := by
    apply Manager.step_invariant (P := fun m => m.Sound ∧ P m) _ ⟨hsound, h⟩
    rintro m m' hnext ⟨hsound, h⟩
    exact ⟨hsound.change hnext, hchange hsound hnext h⟩
  exact hboth.2

/-- What every change of a sound manager keeps, a run keeps. -/
theorem Sound.run_invariant {P : Manager → Prop} {steps : List Step} {m : Manager}
    (hsound : m.Sound)
    (hchange : ∀ step ∈ steps, ∀ {m m' : Manager}, m.Sound → Change step m m' → P m → P m')
    (h : P m) : P (m.run steps) := by
  induction steps generalizing m with
  | nil => exact h
  | cons step rest ih =>
      rw [run_cons]
      apply ih (hsound.step step)
      · intro next hnext
        exact hchange next (List.mem_cons_of_mem _ hnext)
      · exact hsound.step_invariant (hchange step List.mem_cons_self) h

/-- While no shutdown has begun, whoever could register keeps the collector listening. -/
theorem Sound.listening {m : Manager} (h : m.Sound) (hidle : m.progress = .idle)
    (huse : m.InUse) : ∃ queue, m.collector = .listening queue :=
  exists_listening_of_inUse h.counted h.unreachable hidle huse

end Manager
end Lifecycle
end ServiceKit
