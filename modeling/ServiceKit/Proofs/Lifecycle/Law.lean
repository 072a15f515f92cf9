import ServiceKit.Proofs.Lifecycle.Stage

/-!
# The law of histories

What may happen in a manager after what, in every run: registrations are accepted before the
shutdown begins and rejected afterwards, the closers that are handed over are the accepted ones, and
closers do something only between the handover and the completion of the shutdown.
-/

namespace ServiceKit
namespace Lifecycle

open History

/-- Closers run: they were handed over, and the shutdown is not complete. -/
structure ClosersRun (past : List Moment) : Prop where
  begun : begun past = true
  handed : handed past = [accepted past]
  incomplete : completedAt past = none

/-- A happening may come after a history. -/
def Happening.Lawful (past : List Moment) : Happening → Prop
  | created => True
  | queued _ _ => begun past = false
  | rejected _ _ => begun past = true
  | unsent _ _ => False
  | entered .setUp _ _ => True
  | entered .close _ _ => ClosersRun past
  | ended .setUp _ _ _ => True
  | ended .close _ _ _ => ClosersRun past
  | retired => True
  | shutdownBegun => begun past = false
  | collectorGone => False
  | handedOver closers => begun past = true ∧ handed past = [] ∧ closers = accepted past
  | collectorStopped => False
  | lost _ => ClosersRun past
  | expired _ _ => ClosersRun past
  | aborted _ _ _ => ClosersRun past
  | completed _ => ClosersRun past
  | discarded => begun past = false

/-- Something that closers do or that is done to them. -/
def Happening.isOfClosers : Happening → Bool
  | entered .close _ _ => true
  | ended .close _ _ _ => true
  | lost _ => true
  | expired _ _ => true
  | aborted _ _ _ => true
  | completed _ => true
  | _ => false

/-- Every happening of a history may come where it comes. -/
def Lawful (history : List Moment) : Prop :=
  Each Happening.Lawful history

theorem Happening.Lawful.closersRun {past : List Moment} {happening : Happening}
    (h : happening.Lawful past) (hclosers : happening.isOfClosers = true) : ClosersRun past := by
  cases happening with
  | entered phase | ended phase =>
      cases phase with
      | setUp => contradiction
      | close => exact h
  | lost | expired | aborted | completed => exact h
  | created | queued | rejected | unsent | retired | shutdownBegun | collectorGone | handedOver
  | collectorStopped | discarded => contradiction

/-- Once the shutdown is complete, closers do nothing. -/
theorem Lawful.not_isOfClosers {past added : List Moment} (h : Lawful (past ++ added))
    (hcompleted : completedAt past ≠ none) {moment : Moment} (hmem : moment ∈ added) :
    moment.happening.isOfClosers = false := by
  obtain ⟨before, after, rfl⟩ := List.append_of_mem hmem
  have hlawful : moment.happening.Lawful (past ++ before) := by
    apply h _ _ after
    rw [List.append_assoc]
  by_contra hclosers
  have hnone : completedAt (past ++ before) = none :=
    (hlawful.closersRun (eq_true_of_ne_false hclosers)).incomplete
  rw [completedAt_append, Option.or_eq_none_iff] at hnone
  exact hcompleted hnone.1

/-- A view that shows nothing but what closers do shows nothing more then. -/
theorem Lawful.filterMap_eq_nil {α : Type*} {view : Happening → Option α}
    {past added : List Moment} (h : Lawful (past ++ added)) (hcompleted : completedAt past ≠ none)
    (hview : ∀ happening : Happening, happening.isOfClosers = false → view happening = none) :
    added.filterMap (fun moment => view moment.happening) = [] := by
  rw [List.filterMap_eq_nil_iff]
  intro moment hmem
  exact hview _ (h.not_isOfClosers hcompleted hmem)

theorem Happening.entered?_close {happening : Happening} (h : happening.isOfClosers = false) :
    happening.entered? .close = none := by
  cases happening with
  | entered phase =>
      cases phase with
      | setUp => rfl
      | close => contradiction
  | _ => rfl

theorem Happening.ended?_close {happening : Happening} (h : happening.isOfClosers = false) :
    happening.ended? .close = none := by
  cases happening with
  | ended phase =>
      cases phase with
      | setUp => rfl
      | close => contradiction
  | _ => rfl

theorem Happening.aborted?_eq_none {happening : Happening} (h : happening.isOfClosers = false) :
    happening.aborted? = none := by
  cases happening with
  | aborted => contradiction
  | _ => rfl

theorem ClosersRun.of_summary {past past' : List Moment} (h : ClosersRun past)
    (hsummary : Manager.summary past' = Manager.summary past) : ClosersRun past' := by
  have hbegun : History.begun past' = History.begun past :=
    congrArg Manager.Summary.begun hsummary
  have hhanded : History.handed past' = History.handed past :=
    congrArg Manager.Summary.handed hsummary
  have haccepted : accepted past' = accepted past := congrArg Manager.Summary.accepted hsummary
  have hcompleted : completedAt past' = completedAt past :=
    congrArg Manager.Summary.completedAt hsummary
  exact ⟨hbegun.trans h.begun, by rw [hhanded, haccepted, h.handed],
    hcompleted.trans h.incomplete⟩

namespace Manager

theorem Staged.closersRun {m : Manager} {s : Shutdown} (h : m.Staged)
    (hprogress : m.progress = .underWay s) : ClosersRun m.history := by
  obtain ⟨-, -, -, hsummary⟩ := h.of_underWay hprogress
  exact ⟨congrArg Summary.begun hsummary, congrArg Summary.handed hsummary,
    congrArg Summary.completedAt hsummary⟩

theorem lawful_new (start : Nat) : Lawful (new start).history :=
  each_nil.concat trivial

theorem Staged.lawful_change {step : Step} {m m' : Manager} (hstaged : m.Staged)
    (hcounted : m.Counted) (hreach : m.Unreachable) (hchange : Change step m m')
    (h : Lawful m.history) : Lawful m'.history := by
  cases hchange with
  | queue _ _ _ hprogress => exact Each.concat h (hstaged.of_idle hprogress).1
  | loseClosers _ _ huse hprogress hcollector =>
      obtain ⟨queue, hlistening⟩ := exists_listening_of_inUse hcounted hreach hprogress huse
      exact absurd hlistening (hcollector queue)
  | reject _ _ hprogress => exact Each.concat h (hstaged.begun_iff.mpr hprogress)
  | begin _ _ _ _ hprogress => exact Each.concat h (hstaged.of_idle hprogress).1
  | beginAlone _ _ hhandle _ hprogress hcollector =>
      obtain ⟨queue, hlistening⟩ :=
        exists_listening_of_inUse hcounted hreach hprogress (Or.inl hhandle)
      exact absurd hlistening (hcollector queue)
  | handOver hcollector hmailbox =>
      obtain ⟨-, -, hsummary⟩ := hstaged.of_handOver hcollector hmailbox
      exact Each.concat h ⟨congrArg Summary.begun hsummary, congrArg Summary.handed hsummary,
        (congrArg Summary.accepted hsummary).symm⟩
  | discard hcollector hmailbox =>
      obtain ⟨-, closers, hsummary⟩ := hstaged.of_discard hcollector hmailbox
      exact Each.concat h (congrArg Summary.begun hsummary)
  | launchAlone hprogress hcollector =>
      exact absurd hcollector (hstaged.not_stopped hprogress)
  | closerLost hprogress | closerEnters hprogress | closerEnds hprogress | conclude hprogress =>
      exact Each.concat h (hstaged.closersRun hprogress)
  | @expire _ s limit hprogress =>
      apply Each.append_all h
      intro before x after heq
      -- whatever of this instant came before leaves the shutdown as it was
      have hsilent : ∀ y ∈ before, IsSilent y := by
        intro y hy
        apply isSilent_of_mem_expiry limit s.slots
        rw [expiry, heq]
        exact List.mem_append_left _ hy
      have hrun : ClosersRun (m.history ++ before.map (Moment.mk m.now)) :=
        ClosersRun.of_summary (hstaged.closersRun hprogress) (summary_append_silent hsilent)
      have hmem : x ∈ expiry limit s.slots := by
        rw [expiry, heq]
        exact List.mem_append_right _ List.mem_cons_self
      refine forall_mem_expiry ?_ ?_ x hmem
      · intro _
        exact hrun
      · intro _ _ _
        exact hrun
  | start | initializerEnds | retire => exact Each.concat h trivial
  | clone | drop | follow | await | abandon | take | launch | initializerRests | closerRests
  | answer | elapse => exact h

end Manager
end Lifecycle
end ServiceKit
