import ServiceKit.Proofs.Lifecycle.History
import ServiceKit.Proofs.Lifecycle.Sound

/-!
# What is recorded of failures

The failures that calls have returned and those that no call has returned yet are together those of
the initializers that ended, in the order in which they ended.  The failures of a shutdown are those
of the closers that ended, in their order.  A history tells its moments in the order of time.
-/

namespace ServiceKit
namespace Lifecycle

open History

/-- The failures of initializers that a call returned. -/
def Return.failures (r : Return) : List TimedFailure :=
  match r.answer with
  | .failures failures => failures
  | .report _ => []

/-- The failures of closers that ended, as far as the shutdown is. -/
def Progress.ended : Progress → List TimedFailure
  | underWay s => s.ended
  | done report => report.ended
  | _ => []

/-- Moments in the order of time. -/
def History.Chronological (history : List Moment) : Prop :=
  history.Pairwise fun a b => a.time ≤ b.time

theorem History.mem_failures {history : List Moment} {phase : Phase} {failure : TimedFailure}
    (h : failure ∈ failures history phase) : ∃ moment ∈ history, failure.time = moment.time := by
  obtain ⟨moment, hmem, hfailure⟩ := List.mem_flatMap.mp h
  refine ⟨moment, hmem, ?_⟩
  unfold Moment.failures at hfailure
  split at hfailure
  · split at hfailure
    · exact TimedFailure.time_eq_of_mem_ofEnding hfailure
    · contradiction
  · contradiction

theorem Moment.failures_length_le (phase : Phase) (moment : Moment) :
    (moment.failures phase).length ≤ 1 := by
  unfold Moment.failures
  split
  · split
    · exact TimedFailure.length_ofEnding_le
    · exact Nat.zero_le 1
  · exact Nat.zero_le 1

/-- Failures come in the order of time if the moments do. -/
theorem History.Chronological.failures {history : List Moment} (h : Chronological history)
    (phase : Phase) :
    (failures history phase).Pairwise fun a b => a.time ≤ b.time := by
  induction history with
  | nil => exact .nil
  | cons moment history ih =>
      obtain ⟨hfirst, hrest⟩ := List.pairwise_cons.mp h
      have hsplit : History.failures (moment :: history) phase =
          moment.failures phase ++ History.failures history phase := List.flatMap_cons
      rw [hsplit, List.pairwise_append]
      refine ⟨?_, ih hrest, ?_⟩
      · have hone := moment.failures_length_le phase
        cases hlist : moment.failures phase with
        | nil => exact .nil
        | cons failure rest =>
            rw [hlist] at hone
            have hnone : rest = [] := by simpa using hone
            rw [hnone]
            exact List.pairwise_singleton _ _
      · intro failure hfailure other hother
        have htime : failure ∈ History.failures [moment] phase := by simpa using hfailure
        obtain ⟨first, hmem, hfirstTime⟩ := mem_failures htime
        obtain ⟨later, hlater, hlaterTime⟩ := mem_failures hother
        rw [List.mem_singleton] at hmem
        rw [hfirstTime, hlaterTime, hmem]
        exact hfirst later hlater

namespace Manager

/-- Every failure that a history tells has been returned or is kept. -/
structure Recorded (m : Manager) : Prop where
  setUp : m.returned.flatMap Return.failures ++ m.undelivered = failures m.history .setUp
  close : m.progress.ended = failures m.history .close
  chronological : Chronological m.history
  past : ∀ moment ∈ m.history, moment.time ≤ m.now

theorem recorded_new (start : Nat) : (new start).Recorded where
  setUp := rfl
  close := rfl
  chronological := List.pairwise_singleton _ _
  past := by simp [new]

/-- What a call returns leaves the failures that are kept. -/
theorem failures_of_answer? {m : Manager} {kind : CallKind} {value : Answer}
    (hvalue : m.answer? kind = some value) (r : Return) (hr : r.answer = value) :
    r.failures ++ m.remaining kind = m.undelivered := by
  unfold answer? at hvalue
  split at hvalue
  · rw [← Option.some.inj hvalue] at hr
    simp [Return.failures, hr, remaining]
  · rw [← Option.some.inj hvalue] at hr
    simp [Return.failures, hr, remaining]
  · split at hvalue
    · rw [← Option.some.inj hvalue] at hr
      simp [Return.failures, hr, remaining]
    · contradiction
  · contradiction

theorem Recorded.setUp_change {step : Step} {m m' : Manager} (hchange : Change step m m')
    (h : m.Recorded) :
    m'.returned.flatMap Return.failures ++ m'.undelivered = failures m'.history .setUp := by
  have hbefore := h.setUp
  cases hchange with
  | initializerEnds =>
      simp only [note, failures_append, failures_singleton, Moment.failures, if_true]
      rw [← hbefore, List.append_assoc]
  | expire =>
      simp only [noteAll, failures_append, failures_expiry, List.append_nil]
      exact hbefore
  | @answer _ call value hmem hvalue =>
      rw [List.flatMap_append, List.flatMap_singleton, List.append_assoc,
        failures_of_answer? hvalue _ rfl]
      exact hbefore
  | queue | loseClosers | reject | start | begin | handOver | discard | retire | closerLost
  | closerEnters | closerEnds | conclude | launchAlone =>
      simpa [note, startInitializer, runClosers] using hbefore
  | beginAlone =>
      simp only [noteAll, failures_append]
      rw [hbefore]
      exact (List.append_nil _).symm
  | clone | drop | follow | await | abandon | take | launch | initializerRests | closerRests
  | elapse => exact hbefore

theorem Recorded.close_change {step : Step} {m m' : Manager} (hsound : m.Sound)
    (hchange : Change step m m') (h : m.Recorded) :
    m'.progress.ended = failures m'.history .close := by
  have hbefore := h.close
  cases hchange with
  | closerEnds hprogress =>
      rw [hprogress] at hbefore
      simp only [note, failures_append, failures_singleton, Moment.failures, if_true]
      rw [← hbefore]
      rfl
  | expire hprogress =>
      rw [hprogress] at hbefore
      simp only [noteAll, failures_append, failures_expiry, List.append_nil]
      exact hbefore
  | beginAlone id limit hhandle _ hprogress hcollector =>
      obtain ⟨queue, hlistening⟩ := hsound.listening hprogress (Or.inl hhandle)
      exact absurd hlistening (hcollector queue)
  | launch hprogress | launchAlone hprogress | closerRests hprogress =>
      rw [hprogress] at hbefore
      simpa [note, runClosers, Progress.ended] using hbefore
  | begin _ _ _ _ hprogress | closerLost hprogress | closerEnters hprogress
  | conclude hprogress =>
      rw [hprogress] at hbefore
      simpa [note, Progress.ended, Shutdown.report] using hbefore
  | queue | loseClosers | reject | start | handOver | discard | initializerEnds | retire =>
      simpa [note, startInitializer] using hbefore
  | clone | drop | follow | await | abandon | take | initializerRests | answer | elapse =>
      exact hbefore

theorem Recorded.change {step : Step} {m m' : Manager} (hsound : m.Sound)
    (hchange : Change step m m') (h : m.Recorded) : m'.Recorded := by
  obtain ⟨happenings, hhistory⟩ := hchange.exists_happenings
  have hpast : ∀ moment ∈ m'.history, moment.time ≤ m.now := by
    intro moment hmem
    rw [hhistory] at hmem
    rcases List.mem_append.mp hmem with hmem | hmem
    · exact h.past moment hmem
    · obtain ⟨x, -, rfl⟩ := List.mem_map.mp hmem
      exact Nat.le_refl _
  refine ⟨h.setUp_change hchange, h.close_change hsound hchange, ?_, fun moment hmem =>
    Nat.le_trans (hpast moment hmem) hchange.now_le⟩
  rw [hhistory, Chronological, List.pairwise_append]
  refine ⟨h.chronological, ?_, ?_⟩
  · rw [List.pairwise_map]
    exact List.pairwise_of_forall fun _ _ => Nat.le_refl _
  · intro moment hmem later hlater
    obtain ⟨x, -, rfl⟩ := List.mem_map.mp hlater
    exact h.past moment hmem

theorem recorded_run (start : Nat) (steps : List Step) : ((new start).run steps).Recorded :=
  (sound_new start).run_invariant (fun _ _ _ _ => Recorded.change) (recorded_new start)

end Manager
end Lifecycle
end ServiceKit
