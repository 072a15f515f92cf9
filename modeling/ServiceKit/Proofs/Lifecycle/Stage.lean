import Mathlib.Data.List.Forall2
import ServiceKit.Proofs.Lifecycle.Counting
import ServiceKit.Proofs.Lifecycle.Expiry

/-!
# The stages of a shutdown

In every run the caller that begins the shutdown, the collector with its mailbox, and the shutdown
itself are in one of six stages together, and the history says the same about them.  From this
follows what may happen when: the law that every history keeps.
-/

namespace ServiceKit
namespace Lifecycle

open History

/-- A place of a shutdown belongs to a closer. -/
def Slot.Holds : Slot → Closer → Prop
  | waiting c, closer => c = closer
  | running r, closer => r.name = closer.name ∧ closer.make = .ok r.hook
  | ended, closer => ∃ hook, closer.make = .ok hook
  | lost name, closer => name = closer.name ∧ ∃ panic, closer.make = .error panic
  | aborted, _ => True

theorem Slot.Holds.abort {slot : Slot} {closer : Closer} (h : slot.Holds closer) :
    slot.abort.Holds closer := by
  cases slot with
  | waiting c => trivial
  | running r => trivial
  | ended => exact h
  | lost name => exact h
  | aborted => trivial

/-- Replacing one place keeps a relation between places and closers. -/
theorem forall₂_replace {α β : Type*} {R : α → β → Prop} {before after : List α} {x y : α}
    {l : List β} (h : List.Forall₂ R (before ++ x :: after) l)
    (hreplace : ∀ b ∈ l, R x b → R y b) :
    List.Forall₂ R (before ++ y :: after) l := by
  induction before generalizing l with
  | nil =>
      cases h with
      | cons hx hafter => exact .cons (hreplace _ List.mem_cons_self hx) hafter
  | cons a before ih =>
      cases h with
      | cons ha hrest =>
          exact .cons ha (ih hrest fun b hb => hreplace b (List.mem_cons_of_mem _ hb))

namespace Manager

/-! ## The stages -/

/-- What a history says about the shutdown. -/
structure Summary where
  begun : Bool
  accepted : List Closer
  handed : List (List Closer)
  completedAt : Option Nat

/-- The summary of a history. -/
def summary (history : List Moment) : Summary :=
  ⟨begun history, accepted history, handed history, completedAt history⟩

/-- How far the shutdown and the collector are together, and what the history says then. -/
inductive Stage : Progress → Collector → List Command → Summary → Prop where
  /-- No shutdown has begun, and the mailbox holds registrations only. -/
  | listening (queue waiting : List Closer) :
      Stage .idle (.listening queue) (waiting.map .register) ⟨false, queue ++ waiting, [], none⟩
  /-- No shutdown has begun, and the collector has discarded its closers. -/
  | deserted (closers : List Closer) :
      Stage .idle .stopped [] ⟨false, closers, [], none⟩
  /-- The request for the closers is the last command in the mailbox. -/
  | requested (limit : Option Duration) (queue waiting : List Closer) :
      Stage (.requested limit) (.listening queue) (waiting.map .register ++ [.shutdown])
        ⟨true, queue ++ waiting, [], none⟩
  /-- The closers are on their way. -/
  | delivered (limit : Option Duration) (closers : List Closer) :
      Stage (.requested limit) (.delivered closers) [] ⟨true, closers, [closers], none⟩
  | underWay (s : Shutdown) (closers : List Closer)
      (hslots : List.Forall₂ Slot.Holds s.slots closers) :
      Stage (.underWay s) .stopped [] ⟨true, closers, [closers], none⟩
  | done (report : Report) (closers : List Closer) (time : Nat)
      (hlength : report.closersRun = closers.length) :
      Stage (.done report) .stopped [] ⟨true, closers, [closers], some time⟩

/-- The manager is in one of the stages. -/
def Staged (m : Manager) : Prop :=
  Stage m.progress m.collector m.mailbox (summary m.history)

/-- A collector that has stopped before a shutdown began is out of reach: nothing refers to the
manager any more. -/
def Unreachable (m : Manager) : Prop :=
  m.progress = .idle → (∀ queue, m.collector ≠ .listening queue) →
    m.handles = 0 ∧ m.calls = [] ∧ m.pending = 0

/-- Happenings of no importance to the stage. -/
def IsSilent (happening : Happening) : Prop :=
  happening.isBegin = false ∧ happening.accepted? = none ∧ happening.handedOver? = none ∧
    happening.isCompletion = false

theorem summary_append_silent {history : List Moment} {time : Nat} {happenings : List Happening}
    (h : ∀ x ∈ happenings, IsSilent x) :
    summary (history ++ happenings.map (Moment.mk time)) = summary history := by
  have hbegun : begun (happenings.map (Moment.mk time)) = false := by
    simp only [begun, List.any_map, List.any_eq_false]
    intro x hx
    simpa using (h x hx).1
  have haccepted : accepted (happenings.map (Moment.mk time)) = [] := by
    simp only [accepted, List.filterMap_map, List.filterMap_eq_nil_iff]
    exact fun x hx => (h x hx).2.1
  have hhanded : handed (happenings.map (Moment.mk time)) = [] := by
    simp only [handed, List.filterMap_map, List.filterMap_eq_nil_iff]
    exact fun x hx => (h x hx).2.2.1
  have hcompleted : completedAt (happenings.map (Moment.mk time)) = none := by
    simp only [completedAt, Option.map_eq_none_iff, List.find?_eq_none, List.mem_map]
    rintro _ ⟨x, hx, rfl⟩
    simpa using (h x hx).2.2.2
  simp [summary, hbegun, haccepted, hhanded, hcompleted]

theorem summary_note {m : Manager} {happening : Happening} (h : IsSilent happening) :
    summary (m.note happening).history = summary m.history := by
  have hall : ∀ x ∈ [happening], IsSilent x := by simpa using h
  exact summary_append_silent hall

/-- Reaching the limit begins nothing, accepts nothing and completes nothing. -/
theorem isSilent_of_mem_expiry (limit : Duration) (slots : List Slot) :
    ∀ x ∈ expiry limit slots, IsSilent x :=
  forall_mem_expiry (fun _ => ⟨rfl, rfl, rfl, rfl⟩) (fun _ _ _ => ⟨rfl, rfl, rfl, rfl⟩)

theorem summary_note_queued (m : Manager) (source : Option Phase) (closer : Closer) :
    summary (m.note (.queued source closer)).history =
      { summary m.history with accepted := (summary m.history).accepted ++ [closer] } := by
  simp [summary, note, Happening.isBegin, Happening.accepted?, Happening.handedOver?,
    Happening.isCompletion]

theorem summary_note_begin (m : Manager) :
    summary (m.note .shutdownBegun).history = { summary m.history with begun := true } := by
  simp [summary, note, Happening.isBegin, Happening.accepted?, Happening.handedOver?,
    Happening.isCompletion]

theorem summary_note_handedOver (m : Manager) (closers : List Closer) :
    summary (m.note (.handedOver closers)).history =
      { summary m.history with handed := (summary m.history).handed ++ [closers] } := by
  simp [summary, note, Happening.isBegin, Happening.accepted?, Happening.handedOver?,
    Happening.isCompletion]

theorem summary_note_completed (m : Manager) (report : Report) :
    summary (m.note (.completed report)).history =
      { summary m.history with
        completedAt := (summary m.history).completedAt.or (some m.now) } := by
  simp [summary, note, Happening.isBegin, Happening.accepted?, Happening.handedOver?,
    Happening.isCompletion]

/-! ## What each stage says -/

/-- While the collector listens, its queue and the mailbox together hold what was accepted. -/
theorem Staged.of_collecting {m : Manager} {queue : List Closer} (h : m.Staged)
    (hcollector : m.collector = .listening queue) :
    ∃ waiting,
      (m.progress = .idle ∧ m.mailbox = waiting.map .register ∧
        summary m.history = ⟨false, queue ++ waiting, [], none⟩) ∨
      (∃ limit, m.progress = .requested limit ∧
        m.mailbox = waiting.map .register ++ [.shutdown] ∧
        summary m.history = ⟨true, queue ++ waiting, [], none⟩) := by
  unfold Staged at h
  rw [hcollector] at h
  generalize m.progress = progress, m.mailbox = mailbox, summary m.history = s at h
  cases h with
  | listening queue waiting => exact ⟨waiting, Or.inl ⟨rfl, rfl, rfl⟩⟩
  | requested limit queue waiting => exact ⟨waiting, Or.inr ⟨limit, rfl, rfl, rfl⟩⟩

theorem Staged.of_listening {m : Manager} {queue : List Closer} (h : m.Staged)
    (hprogress : m.progress = .idle) (hcollector : m.collector = .listening queue) :
    ∃ waiting, m.mailbox = waiting.map .register ∧
      summary m.history = ⟨false, queue ++ waiting, [], none⟩ := by
  obtain ⟨waiting, ⟨-, hmailbox, hsummary⟩ | ⟨limit, hlimit, -⟩⟩ := h.of_collecting hcollector
  · exact ⟨waiting, hmailbox, hsummary⟩
  · rw [hprogress] at hlimit
    contradiction

/-- When the collector finds the request for its closers, it has taken all that were accepted. -/
theorem Staged.of_handOver {m : Manager} {queue : List Closer} {rest : List Command}
    (h : m.Staged) (hcollector : m.collector = .listening queue)
    (hmailbox : m.mailbox = .shutdown :: rest) :
    (∃ limit, m.progress = .requested limit) ∧ rest = [] ∧
      summary m.history = ⟨true, queue, [], none⟩ := by
  obtain ⟨waiting, ⟨-, hwaiting, -⟩ | ⟨limit, hprogress, hwaiting, hsummary⟩⟩ :=
    h.of_collecting hcollector
  · rw [hmailbox] at hwaiting
    cases waiting with
    | nil => simp at hwaiting
    | cons closer waiting => simp at hwaiting
  · rw [hmailbox] at hwaiting
    cases waiting with
    | nil =>
        have hnone : rest = [] := by simpa using hwaiting
        exact ⟨⟨limit, hprogress⟩, hnone, by simpa using hsummary⟩
    | cons closer waiting => simp at hwaiting

/-- Where the mailbox is empty while the collector listens, no shutdown has begun. -/
theorem Staged.of_discard {m : Manager} {queue : List Closer} (h : m.Staged)
    (hcollector : m.collector = .listening queue) (hmailbox : m.mailbox = []) :
    m.progress = .idle ∧ ∃ closers, summary m.history = ⟨false, closers, [], none⟩ := by
  obtain ⟨waiting, ⟨hprogress, -, hsummary⟩ | ⟨limit, -, hwaiting, -⟩⟩ :=
    h.of_collecting hcollector
  · exact ⟨hprogress, _, hsummary⟩
  · simp [hmailbox] at hwaiting

theorem Staged.of_idle {m : Manager} (h : m.Staged) (hprogress : m.progress = .idle) :
    begun m.history = false ∧ handed m.history = [] ∧ completedAt m.history = none := by
  unfold Staged at h
  rw [hprogress] at h
  generalize hsummary : summary m.history = s, m.collector = collector, m.mailbox = mailbox at h
  cases h <;> simp_all [summary]

theorem Staged.not_stopped {m : Manager} {limit : Option Duration} (h : m.Staged)
    (hprogress : m.progress = .requested limit) : m.collector ≠ .stopped := by
  unfold Staged at h
  rw [hprogress] at h
  generalize m.collector = collector, m.mailbox = mailbox, summary m.history = s at h
  cases h <;> simp

theorem Staged.of_delivered {m : Manager} {closers : List Closer} (h : m.Staged)
    (hcollector : m.collector = .delivered closers) :
    (∃ limit, m.progress = .requested limit) ∧ m.mailbox = [] ∧
      summary m.history = ⟨true, closers, [closers], none⟩ := by
  unfold Staged at h
  rw [hcollector] at h
  generalize m.progress = progress, m.mailbox = mailbox, summary m.history = s at h
  cases h with
  | delivered limit closers => exact ⟨⟨limit, rfl⟩, rfl, rfl⟩

theorem Staged.of_underWay {m : Manager} {s : Shutdown} (h : m.Staged)
    (hprogress : m.progress = .underWay s) :
    m.collector = .stopped ∧ m.mailbox = [] ∧
      List.Forall₂ Slot.Holds s.slots (accepted m.history) ∧
      summary m.history = ⟨true, accepted m.history, [accepted m.history], none⟩ := by
  unfold Staged at h
  rw [hprogress] at h
  generalize hsummary : summary m.history = t, m.collector = collector, m.mailbox = mailbox at h
  cases h with
  | underWay s closers hslots =>
      have haccepted : accepted m.history = closers := congrArg Summary.accepted hsummary
      rw [haccepted]
      exact ⟨rfl, rfl, hslots, rfl⟩

theorem Staged.of_done {m : Manager} {report : Report} (h : m.Staged)
    (hprogress : m.progress = .done report) :
    m.collector = .stopped ∧ m.mailbox = [] ∧
      report.closersRun = (accepted m.history).length ∧
      ∃ time, summary m.history =
        ⟨true, accepted m.history, [accepted m.history], some time⟩ := by
  unfold Staged at h
  rw [hprogress] at h
  generalize hsummary : summary m.history = t, m.collector = collector, m.mailbox = mailbox at h
  cases h with
  | done report closers time hlength =>
      have haccepted : accepted m.history = closers := congrArg Summary.accepted hsummary
      rw [haccepted]
      exact ⟨rfl, rfl, hlength, time, rfl⟩

theorem Staged.begun_iff {m : Manager} (h : m.Staged) :
    begun m.history = true ↔ m.progress ≠ .idle := by
  unfold Staged at h
  generalize hsummary : summary m.history = t, m.progress = progress,
    m.collector = collector, m.mailbox = mailbox at h
  have hbegun : begun m.history = t.begun := congrArg Summary.begun hsummary
  cases h <;> simp [hbegun]

/-! ## Every change keeps the stage -/

theorem staged_of {m : Manager} {progress : Progress} {collector : Collector}
    {mailbox : List Command} {said : Summary} (h : Stage progress collector mailbox said)
    (hprogress : m.progress = progress) (hcollector : m.collector = collector)
    (hmailbox : m.mailbox = mailbox) (hsummary : summary m.history = said) : m.Staged := by
  unfold Staged
  rw [hprogress, hcollector, hmailbox, hsummary]
  exact h

theorem staged_new (start : Nat) : (new start).Staged :=
  Stage.listening [] []

/-- Whoever could register keeps the collector listening. -/
theorem exists_listening_of_inUse {m : Manager} (hcounted : m.Counted) (hreach : m.Unreachable)
    (hidle : m.progress = .idle) (huse : m.InUse) : ∃ queue, m.collector = .listening queue := by
  by_contra hnot
  rw [not_exists] at hnot
  obtain ⟨hhandles, -, hpending⟩ := hreach hidle hnot
  rcases huse with hhandle | hrunning
  · omega
  · exact hrunning (hcounted.initializers_eq_nil hpending)

/-- A place of the shutdown changes, and the closer it belongs to stays. -/
theorem Staged.replace {m m' : Manager} {s s' : Shutdown} {before after : List Slot}
    {old slot : Slot} (h : m.Staged) (hprogress : m.progress = .underWay s)
    (hslots : s.slots = before ++ old :: after)
    (hreplace : ∀ closer, old.Holds closer → slot.Holds closer)
    (hprogress' : m'.progress = .underWay s') (hslots' : s'.slots = before ++ slot :: after)
    (hcollector : m'.collector = m.collector) (hmailbox : m'.mailbox = m.mailbox)
    (hsummary : summary m'.history = summary m.history) : m'.Staged := by
  obtain ⟨hstopped, hempty, hholds, hsaid⟩ := h.of_underWay hprogress
  have hholds' : List.Forall₂ Slot.Holds s'.slots (accepted m.history) := by
    rw [hslots']
    rw [hslots] at hholds
    exact forall₂_replace hholds fun closer _ => hreplace closer
  exact staged_of (.underWay s' _ hholds') hprogress' (hcollector.trans hstopped)
    (hmailbox.trans hempty) (hsummary.trans hsaid)

theorem Staged.change {step : Step} {m m' : Manager} (hcounted : m.Counted)
    (hreach : m.Unreachable) (hchange : Change step m m') (h : m.Staged) : m'.Staged := by
  cases hchange with
  | queue source closer huse hprogress hcollector =>
      obtain ⟨waiting, hmailbox, hsummary⟩ := h.of_listening hprogress hcollector
      refine staged_of (.listening _ (waiting ++ [closer])) hprogress hcollector ?_ ?_
      · simp [note, hmailbox]
      · rw [summary_note_queued]
        simp [hsummary]
  | loseClosers source closer huse hprogress hcollector =>
      obtain ⟨queue, hlistening⟩ := exists_listening_of_inUse hcounted hreach hprogress huse
      exact absurd hlistening (hcollector queue)
  | begin id limit hhandle hid hprogress hcollector =>
      obtain ⟨waiting, hmailbox, hsummary⟩ := h.of_listening hprogress hcollector
      refine staged_of (.requested limit _ waiting) rfl hcollector ?_ ?_
      · simp [note, hmailbox]
      · rw [summary_note_begin]
        simp [hsummary]
  | beginAlone id limit hhandle hid hprogress hcollector =>
      obtain ⟨queue, hlistening⟩ :=
        exists_listening_of_inUse hcounted hreach hprogress (Or.inl hhandle)
      exact absurd hlistening (hcollector queue)
  | take hcollector hmailbox =>
      obtain ⟨waiting, ⟨hprogress, hwaiting, hsummary⟩ | ⟨limit, hprogress, hwaiting, hsummary⟩⟩ :=
        h.of_collecting hcollector
      · rw [hmailbox] at hwaiting
        obtain ⟨closer', waiting, rfl, hcloser, rfl⟩ := List.map_eq_cons_iff.mp hwaiting.symm
        obtain rfl := Command.register.inj hcloser
        refine staged_of (.listening _ waiting) hprogress rfl rfl ?_
        simpa using hsummary
      · rw [hmailbox] at hwaiting
        cases waiting with
        | nil => simp at hwaiting
        | cons closer' waiting =>
            simp only [List.map_cons, List.cons_append, List.cons.injEq,
              Command.register.injEq] at hwaiting
            obtain ⟨rfl, rfl⟩ := hwaiting
            refine staged_of (.requested limit _ waiting) hprogress rfl rfl ?_
            simpa using hsummary
  | handOver hcollector hmailbox =>
      obtain ⟨⟨limit, hprogress⟩, rfl, hsummary⟩ := h.of_handOver hcollector hmailbox
      refine staged_of (.delivered limit _) hprogress rfl rfl ?_
      rw [summary_note_handedOver]
      simp [hsummary]
  | discard hcollector hmailbox hheld =>
      obtain ⟨hprogress, closers, hsummary⟩ := h.of_discard hcollector hmailbox
      refine staged_of (.deserted closers) hprogress rfl hmailbox ?_
      exact (summary_note ⟨rfl, rfl, rfl, rfl⟩).trans hsummary
  | launch hprogress hcollector =>
      obtain ⟨-, hmailbox, hsummary⟩ := h.of_delivered hcollector
      refine staged_of (.underWay _ _ ?_) rfl rfl hmailbox hsummary
      rw [List.forall₂_map_left_iff]
      exact List.forall₂_same.mpr fun _ _ => rfl
  | launchAlone hprogress hcollector => exact absurd hcollector (h.not_stopped hprogress)
  | closerLost hprogress hslots htime hmake =>
      refine h.replace hprogress hslots ?_ rfl rfl rfl rfl ?_
      · rintro c rfl
        exact ⟨rfl, _, hmake⟩
      · exact summary_note ⟨rfl, rfl, rfl, rfl⟩
  | closerEnters hprogress hslots htime hmake =>
      refine h.replace hprogress hslots ?_ rfl rfl rfl rfl ?_
      · rintro c rfl
        exact ⟨rfl, hmake⟩
      · exact summary_note ⟨rfl, rfl, rfl, rfl⟩
  | closerRests hprogress hslots htime hdue hending =>
      refine h.replace hprogress hslots ?_ rfl rfl rfl rfl rfl
      exact fun c hc => hc
  | closerEnds hprogress hslots htime hdue hending =>
      refine h.replace hprogress hslots ?_ rfl rfl rfl rfl ?_
      · rintro c hc
        exact ⟨_, hc.2⟩
      · exact summary_note ⟨rfl, rfl, rfl, rfl⟩
  | expire hprogress hlimit hopen htime =>
      obtain ⟨hcollector, hmailbox, hholds, hsummary⟩ := h.of_underWay hprogress
      refine staged_of (.underWay _ (accepted m.history) ?_) rfl hcollector hmailbox ?_
      · rw [List.forall₂_map_left_iff]
        exact hholds.imp fun _ _ hholds => hholds.abort
      · exact (summary_append_silent (isSilent_of_mem_expiry _ _)).trans hsummary
  | conclude hprogress hopen =>
      obtain ⟨hcollector, hmailbox, hholds, hsummary⟩ := h.of_underWay hprogress
      refine staged_of (.done _ (accepted m.history) m.now hholds.length_eq) rfl hcollector
        hmailbox ?_
      rw [summary_note_completed]
      simp [hsummary]
  | reject | start | initializerEnds | retire =>
      exact staged_of h rfl rfl rfl (summary_note ⟨rfl, rfl, rfl, rfl⟩)
  | clone | drop | follow | await | abandon | initializerRests | answer | elapse =>
      exact h

/-! ## The collector stays as long as anyone could need it -/

theorem unreachable_new (start : Nat) : (new start).Unreachable := by
  intro _ hcollector
  exact absurd rfl (hcollector [])

theorem Unreachable.change {step : Step} {m m' : Manager} (hstaged : m.Staged)
    (hchange : Change step m m') (h : m.Unreachable) : m'.Unreachable := by
  intro hidle hcollector
  cases hchange with
  | clone hhandle | drop hhandle | start _ _ hhandle | await _ hhandle =>
      have := (h hidle hcollector).1
      omega
  | queue _ _ _ hprogress hlistening => exact absurd hlistening (hcollector _)
  | follow _ _ _ _ hprogress => exact absurd hidle hprogress
  | take => exact absurd rfl (hcollector _)
  | handOver hlistening hmailbox =>
      obtain ⟨⟨limit, hprogress⟩, -⟩ := hstaged.of_handOver hlistening hmailbox
      rw [show m.progress = .idle from hidle] at hprogress
      contradiction
  | discard _ _ hheld =>
      simp only [isHeld, Bool.or_eq_false_iff, decide_eq_false_iff_not, Nat.not_lt,
        Nat.le_zero, Bool.not_eq_eq_eq_not, Bool.not_false, List.isEmpty_iff] at hheld
      exact ⟨hheld.1.1.1.1, hheld.1.1.1.2, hheld.1.1.2⟩
  | retire =>
      obtain ⟨hhandles, hcalls, hpending⟩ := h hidle hcollector
      exact ⟨hhandles, hcalls, by simp [note, hpending]⟩
  | abandon | answer =>
      obtain ⟨hhandles, hcalls, hpending⟩ := h hidle hcollector
      exact ⟨hhandles, by simp [hcalls], hpending⟩
  | begin | beginAlone | launch | launchAlone | closerLost | closerEnters | closerRests
  | closerEnds | expire | conclude =>
      contradiction
  | loseClosers | reject | initializerRests | initializerEnds | elapse =>
      exact h hidle hcollector

end Manager
end Lifecycle
end ServiceKit
