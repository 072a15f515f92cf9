import ServiceKit.Proofs.Lifecycle.Balance
import ServiceKit.Proofs.Lifecycle.Recorded

/-!
# The way to completion

A manager runs, then closes, then is closed, and goes no other way.  Once the shutdown is complete
no close hook does anything, and every call that returned a report returned it after that.
-/

namespace ServiceKit
namespace Lifecycle

open History

/-- How the state of a manager may change in one step. -/
inductive State.Next : State → State → Prop where
  | stay (state : State) : Next state state
  | begin : Next .running .closing
  | complete : Next .closing .closed

namespace Manager

variable {m m' : Manager} {step : Step}

/-! ## The state -/

theorem state_eq_running_iff : m.state = .running ↔ m.progress = .idle := by
  cases hprogress : m.progress <;> simp [state, hprogress]

theorem state_eq_closed_iff : m.state = .closed ↔ ∃ report, m.progress = .done report := by
  cases hprogress : m.progress <;> simp [state, hprogress]

/-- Which change takes a manager from one state to the next. -/
theorem Change.state_cases (hchange : Change step m m') :
    m'.state = m.state ∨
      ((∃ id limit, step = .act (.close id limit)) ∧ m.state = .running ∧ m'.state = .closing) ∨
      (step = .act .conclude ∧ m.state = .closing ∧ m'.state = .closed) := by
  cases hchange with
  | begin id limit _ _ hprogress | beginAlone id limit _ _ hprogress =>
      refine Or.inr (Or.inl ⟨⟨id, limit, rfl⟩, ?_, rfl⟩)
      simp [state, hprogress]
  | conclude hprogress =>
      refine Or.inr (Or.inr ⟨rfl, ?_, rfl⟩)
      simp [state, hprogress]
  | launch hprogress | launchAlone hprogress | closerLost hprogress | closerEnters hprogress
  | closerRests hprogress | closerEnds hprogress | expire hprogress =>
      apply Or.inl
      simp [state, hprogress, runClosers, note, noteAll]
  | _ => exact Or.inl rfl

theorem Changes.state_cases (hchanges : Changes step m m') :
    m'.state = m.state ∨
      ((∃ id limit, step = .act (.close id limit)) ∧ m.state = .running ∧ m'.state = .closing) ∨
      (step = .act .conclude ∧ m.state = .closing ∧ m'.state = .closed) := by
  induction hchanges with
  | refl => exact Or.inl rfl
  | tail _ hlast ih =>
      rcases ih with hsame | ⟨⟨id, limit, hstep⟩, hrunning, hclosing⟩ | ⟨hstep, hclosing, hclosed⟩
      · rw [← hsame]
        exact hlast.state_cases
      · rcases hlast.state_cases with hsame' | ⟨-, hrunning', -⟩ | ⟨hstep', -⟩
        · exact Or.inr (Or.inl ⟨⟨id, limit, hstep⟩, hrunning, hsame'.trans hclosing⟩)
        · rw [hclosing] at hrunning'
          contradiction
        · simp [hstep] at hstep'
      · rcases hlast.state_cases with hsame' | ⟨⟨id, limit, hstep'⟩, -⟩ | ⟨-, hclosing', -⟩
        · exact Or.inr (Or.inr ⟨hstep, hclosing, hsame'.trans hclosed⟩)
        · simp [hstep] at hstep'
        · rw [hclosed] at hclosing'
          contradiction

theorem step_state (m : Manager) (step : Step) : State.Next m.state (m.step step).state := by
  rcases (step_changes m step).state_cases with
    hsame | ⟨-, hrunning, hclosing⟩ | ⟨-, hclosing, hclosed⟩
  · rw [hsame]
    exact .stay _
  · rw [hrunning, hclosing]
    exact .begin
  · rw [hclosing, hclosed]
    exact .complete

/-! ## Completion is final -/

/-- A finished shutdown stays finished. -/
theorem Change.done {report : Report} (hchange : Change step m m')
    (h : m.progress = .done report) : m'.progress = .done report := by
  cases hchange with
  | begin _ _ _ _ hprogress | beginAlone _ _ _ _ hprogress | launch hprogress
  | launchAlone hprogress | closerLost hprogress | closerEnters hprogress | closerRests hprogress
  | closerEnds hprogress | expire hprogress | conclude hprogress =>
      rw [h] at hprogress
      contradiction
  | _ => exact h

theorem Sound.completedAt_of_done {report : Report} (hsound : m.Sound)
    (h : m.progress = .done report) : ∃ time, completedAt m.history = some time := by
  obtain ⟨-, -, -, time, hsummary⟩ := hsound.staged.of_done h
  exact ⟨time, congrArg Summary.completedAt hsummary⟩

/-- After the completion of the shutdown close hooks do nothing. -/
theorem Sound.run_of_done {report : Report} (hsound : m.Sound) (h : m.progress = .done report)
    (later : List Step) :
    entered (m.run later).history .close = entered m.history .close ∧
      ended (m.run later).history .close = ended m.history .close ∧
      aborted (m.run later).history = aborted m.history := by
  obtain ⟨added, hhistory⟩ := run_history m later
  obtain ⟨time, htime⟩ := hsound.completedAt_of_done h
  have hlawful : Lawful (m.history ++ added) := hhistory ▸ (hsound.run later).lawful
  have hcompleted : completedAt m.history ≠ none := by simp [htime]
  have hentered : entered added .close = [] :=
    hlawful.filterMap_eq_nil hcompleted fun _ => Happening.entered?_close
  have hended : ended added .close = [] :=
    hlawful.filterMap_eq_nil hcompleted fun _ => Happening.ended?_close
  have haborted : aborted added = [] :=
    hlawful.filterMap_eq_nil hcompleted fun _ => Happening.aborted?_eq_none
  simp [hhistory, hentered, hended, haborted]

/-- Only the completion of the shutdown tells when it was complete. -/
theorem Change.completedAt_cases (hchange : Change step m m') :
    completedAt m'.history = completedAt m.history ∨
      completedAt m'.history = (completedAt m.history).or (some m.now) ∧ m'.now = m.now := by
  cases hchange with
  | conclude => exact Or.inr ⟨by simp [note], rfl⟩
  | expire =>
      exact Or.inl (congrArg Summary.completedAt
        (summary_append_silent (isSilent_of_mem_expiry _ _)))
  | beginAlone =>
      apply Or.inl
      simp only [noteAll, completedAt_append]
      exact Option.or_none
  | queue | loseClosers | reject | start | begin | handOver | discard | launchAlone
  | initializerEnds | retire | closerLost | closerEnters | closerEnds =>
      apply Or.inl
      simp [note, startInitializer, runClosers]
  | clone | drop | follow | await | abandon | take | launch | initializerRests | closerRests
  | answer | elapse => exact Or.inl rfl

theorem Change.completedAt_eq_some (hchange : Change step m m') {time : Nat}
    (h : completedAt m.history = some time) : completedAt m'.history = some time := by
  rcases hchange.completedAt_cases with hsame | ⟨hsame, -⟩
  · rw [hsame, h]
  · rw [hsame, h, Option.some_or]

theorem Sound.done_of_completedAt (hsound : m.Sound) {time : Nat}
    (h : completedAt m.history = some time) : ∃ report, m.progress = .done report := by
  have hstaged := hsound.staged
  unfold Staged at hstaged
  generalize hsummary : summary m.history = said, m.progress = progress,
    m.collector = collector, m.mailbox = mailbox at hstaged
  have hcompleted : completedAt m.history = said.completedAt :=
    congrArg Summary.completedAt hsummary
  rw [h] at hcompleted
  cases hstaged with
  | done report => exact ⟨report, rfl⟩
  | listening | deserted | requested | delivered | underWay => contradiction

theorem Recorded.completedAt_le (h : m.Recorded) {time : Nat}
    (hcompleted : completedAt m.history = some time) : time ≤ m.now := by
  obtain ⟨moment, hfind, rfl⟩ := Option.map_eq_some_iff.mp hcompleted
  exact h.past moment (List.mem_of_find?_eq_some hfind)

/-! ## Reports are returned after the completion -/

/-- A report is returned after the completion of the shutdown. -/
def ReportsAfterwards (m : Manager) : Prop :=
  ∀ r ∈ m.returned, ∀ report, r.answer = .report report →
    ∃ final time, m.progress = .done final ∧ completedAt m.history = some time ∧ time ≤ r.time

theorem done_of_answer? {kind : CallKind} {report : Report}
    (h : m.answer? kind = some (.report report)) : ∃ final, m.progress = .done final := by
  cases kind with
  | owner =>
      obtain ⟨final, hdone, -⟩ := answer?_owner h
      exact ⟨final, hdone⟩
  | follower =>
      obtain ⟨final, hdone, -⟩ := answer?_follower h
      exact ⟨final, hdone⟩
  | initialized =>
      obtain ⟨-, hvalue⟩ := answer?_initialized h
      contradiction

theorem ReportsAfterwards.change (hsound : m.Sound) (hrecorded : m.Recorded)
    (hchange : Change step m m') (h : m.ReportsAfterwards) : m'.ReportsAfterwards := by
  intro r hr report hanswer
  rcases hchange.returned_cases hr with hr | ⟨call, -, -, hvalue, htime, hprogress, hhistory⟩
  · obtain ⟨final, time, hdone, hcompleted, hle⟩ := h r hr report hanswer
    exact ⟨final, time, hchange.done hdone, hchange.completedAt_eq_some hcompleted, hle⟩
  · rw [hanswer] at hvalue
    obtain ⟨final, hdone⟩ := done_of_answer? hvalue
    obtain ⟨time, hcompleted⟩ := hsound.completedAt_of_done hdone
    rw [hprogress, hhistory, htime]
    exact ⟨final, time, hdone, hcompleted, hrecorded.completedAt_le hcompleted⟩

theorem reportsAfterwards_run (start : Nat) (steps : List Step) :
    ((new start).run steps).ReportsAfterwards := by
  have hboth : ((new start).run steps).Recorded ∧ ((new start).run steps).ReportsAfterwards := by
    apply (sound_new start).run_invariant (P := fun m => m.Recorded ∧ m.ReportsAfterwards)
    · rintro step - m m' hsound hchange ⟨hrecorded, h⟩
      exact ⟨hrecorded.change hsound hchange, h.change hsound hrecorded hchange⟩
    · exact ⟨recorded_new start, by simp [ReportsAfterwards, new]⟩
  exact hboth.2

end Manager
end Lifecycle
end ServiceKit
