import ServiceKit.Proofs.Lifecycle.Closing
import ServiceKit.Proofs.Lifecycle.Course
import ServiceKit.Proofs.Lifecycle.Mending
import ServiceKit.Proofs.Lifecycle.Naming

/-!
# Runs in which every hook that ends succeeds

To every run belongs one in which its hooks succeed when they end, and in which a closer that panics
when it is called has a hook that succeeds at once.  The two runs lead to the same manager, up to
what mending takes away.
-/

namespace ServiceKit
namespace Lifecycle
namespace Manager

open History

/-- The steps that are taken instead of one where every hook that ends succeeds. -/
def mendedStep (m : Manager) : Step → List Step
  | .act (.closerEnters k) =>
    if m.losesAt k then [.act (.closerEnters k), .act (.closerActs k)] else [.act (.closerEnters k)]
  | step => [step.mend]

/-- The steps of a run where every hook that ends succeeds. -/
def mendedSteps (m : Manager) : List Step → List Step
  | [] => []
  | step :: rest => m.mendedStep step ++ (m.step step).mendedSteps rest

variable {m x : Manager} {step : Step} {steps : List Step}

theorem mendedSteps_append (m : Manager) (first second : List Step) :
    m.mendedSteps (first ++ second) =
      m.mendedSteps first ++ (m.run first).mendedSteps second := by
  induction first generalizing m with
  | nil => rfl
  | cons step first ih =>
      rw [List.cons_append, mendedSteps, mendedSteps, ih, List.append_assoc, run_cons]

theorem mendedSteps_concat (m : Manager) (steps : List Step) (step : Step) :
    m.mendedSteps (steps ++ [step]) = m.mendedSteps steps ++ (m.run steps).mendedStep step := by
  rw [mendedSteps_append, mendedSteps, mendedSteps, List.append_nil]

theorem mend_of_mem_mendedStep {other : Step} (h : other ∈ m.mendedStep step) :
    other.mend = other := by
  unfold mendedStep at h
  split at h
  next k =>
    split at h
    · rcases List.mem_cons.mp h with rfl | h
      · rfl
      · rw [List.mem_singleton.mp h]
        rfl
    · rw [List.mem_singleton.mp h]
      rfl
  next => rw [List.mem_singleton.mp h, Step.mend_mend]

theorem mend_of_mem_mendedSteps {other : Step} (h : other ∈ m.mendedSteps steps) :
    other.mend = other := by
  induction steps generalizing m with
  | nil => contradiction
  | cons step rest ih =>
      rw [mendedSteps, List.mem_append] at h
      exact h.elim mend_of_mem_mendedStep ih

/-! ## Closers with hooks -/

/-- The closer that a step registers, if it registers one, has a hook. -/
def Step.RegistersHook (step : Step) : Prop :=
  ∀ closer, step = .act (.register closer) → ∃ hook, closer.make = .ok hook

theorem registersHook_of_mend (h : step.mend = step) : step.RegistersHook := by
  rintro closer rfl
  simp only [Step.mend, Action.mend, Step.act.injEq, Action.register.injEq] at h
  rw [← h]
  exact ⟨_, rfl⟩

/-- Callers that register closers with hooks have only such closers accepted. -/
theorem exists_hook_of_accepted {start : Nat} (hsteps : ∀ step ∈ steps, step.RegistersHook)
    {closer : Closer} (h : closer ∈ accepted ((new start).run steps).history) :
    ∃ hook, closer.make = .ok hook := by
  induction steps using List.reverseRecOn with
  | nil => contradiction
  | append_singleton init step ih =>
      rw [run_concat] at h
      have hinit := ih fun step hstep => hsteps step (List.mem_append_left _ hstep)
      have hlast : step.RegistersHook :=
        hsteps step (List.mem_append_right _ (List.mem_singleton_self _))
      cases step with
      | elapse millis =>
          refine hinit ?_
          rw [Manager.step, elapse] at h
          split at h <;> exact h
      | act action =>
          rcases mem_accepted_act h with h | rfl | ⟨name, rfl⟩
          · exact hinit h
          · exact hlast closer rfl
          · exact ⟨_, rfl⟩

/-- A closer whose task has not run yet was accepted. -/
theorem mem_accepted_of_waiting {start : Nat} {s : Shutdown} {closer : Closer}
    (hprogress : ((new start).run steps).progress = .underWay s)
    (hmem : .waiting closer ∈ s.slots) : closer ∈ accepted ((new start).run steps).history := by
  have hstate : ((new start).run steps).state ≠ .running := by simp [state, hprogress]
  obtain ⟨before, id, limit, after, rfl, hbegins⟩ := exists_begin hstate
  have hgoverns := governs_run start before after id limit hbegins.handle hbegins.fresh
    (state_eq_running_iff.mp hbegins.running)
  obtain ⟨other, hother, -, rfl, -⟩ :=
    Plan.exists_mem_of_forall₂ (hgoverns.underWay s hprogress).keeps.places hmem
  rwa [hgoverns.begun.accepted]

theorem not_losesAt_run (start : Nat) (hsteps : ∀ step ∈ steps, step.RegistersHook) (k : Nat) :
    ((new start).run steps).losesAt k = false := by
  rw [← Bool.not_eq_true, losesAt_iff]
  rintro ⟨s, closer, panic, hprogress, hslot, -, hmake⟩
  have hcloser := mem_accepted_of_waiting hprogress (List.mem_of_getElem? hslot)
  obtain ⟨hook, hok⟩ := exists_hook_of_accepted hsteps hcloser
  rw [hok] at hmake
  contradiction

theorem mendedStep_eq (h : ∀ k, step = .act (.closerEnters k) → m.losesAt k = false) :
    m.mendedStep step = [step.mend] := by
  unfold mendedStep
  split
  next k => exact if_neg (by simp [h k rfl])
  next => rfl

/-- Where every closer that is registered has a hook, the steps are mended one by one. -/
theorem mendedSteps_eq_map (start : Nat) (hsteps : ∀ step ∈ steps, step.RegistersHook) :
    (new start).mendedSteps steps = steps.map Step.mend := by
  induction steps using List.reverseRecOn with
  | nil => rfl
  | append_singleton init step ih =>
      have hinit : ∀ step ∈ init, step.RegistersHook :=
        fun step hstep => hsteps step (List.mem_append_left _ hstep)
      rw [mendedSteps_concat, ih hinit, mendedStep_eq fun k _ => not_losesAt_run start hinit k,
        List.map_append, List.map_singleton]

/-! ## The same manager, up to mending -/

/-- Managers that are the same when mended remain so, where one of them takes mended steps. -/
theorem run_mendedStep (hsame : m.mend = x.mend) (hnone : ∀ k, x.losesAt k = false) (step : Step) :
    (m.step step).mend = (x.run (m.mendedStep step)).mend := by
  by_cases hloses : ∃ k, step = .act (.closerEnters k) ∧ m.losesAt k = true
  · obtain ⟨k, rfl, hk⟩ := hloses
    have hsteps : m.mendedStep (.act (.closerEnters k)) =
        [.act (.closerEnters k), .act (.closerActs k)] := if_pos hk
    rw [hsteps]
    calc (m.closerEnters k).mend = (m.mend.closerEnters k).closerActs k :=
          closerEnters_mend_of_loses hk
      _ = (x.mend.closerEnters k).closerActs k := by rw [hsame]
      _ = (x.closerEnters k).mend.closerActs k := by rw [closerEnters_mend (hnone k)]
      _ = ((x.closerEnters k).closerActs k).mend := (closerActs_mend k).symm
  · have hkept : ∀ k, step = .act (.closerEnters k) → m.losesAt k = false := fun k hk =>
      eq_false_of_ne_true fun h => hloses ⟨k, hk, h⟩
    rw [mendedStep_eq hkept]
    calc (m.step step).mend = (m.mend.step step.mend).mend := step_mend hkept
      _ = (x.mend.step step.mend.mend).mend := by rw [hsame, Step.mend_mend]
      _ = (x.step step.mend).mend := (step_mend fun k _ => hnone k).symm

/-- A run leads where the run leads in which every hook that ends succeeds, up to mending. -/
theorem run_mend (start : Nat) (steps : List Step) :
    ((new start).run steps).mend =
      ((new start).run ((new start).mendedSteps steps)).mend := by
  induction steps using List.reverseRecOn with
  | nil => rfl
  | append_singleton init step ih =>
      rw [run_concat, mendedSteps_concat, run_append]
      have hhooks : ∀ step ∈ (new start).mendedSteps init, step.RegistersHook :=
        fun _ hstep => registersHook_of_mend (mend_of_mem_mendedSteps hstep)
      exact run_mendedStep ih (not_losesAt_run start hhooks) step

end Manager
end Lifecycle
end ServiceKit
