import ServiceKit.Proofs.Lifecycle.Balance
import ServiceKit.Proofs.Lifecycle.Inevitable

/-!
# The handover of closers

Registrations race with the shutdown.  Whatever the order of steps, the shutdown receives exactly
the closers of the accepted registrations, each once and in their order.  A registration is rejected
once the shutdown has begun and never before, and its hook is never entered.
-/

namespace ServiceKit
namespace Lifecycle

open History

/-- The collector was gone when it was needed. -/
def Happening.missesCollector : Happening → Bool
  | unsent _ _ => true
  | collectorGone => true
  | collectorStopped => true
  | _ => false

/-- Registrations are accepted before the shutdown begins, and rejected afterwards. -/
def RegistersInTime (past : List Moment) : Happening → Prop
  | .queued _ _ => begun past = false
  | .rejected _ _ => begun past = true
  | _ => True

namespace Manager

variable {m : Manager}

theorem not_missesCollector_of_lawful {past : List Moment} {happening : Happening}
    (h : happening.Lawful past) : happening.missesCollector = false := by
  cases happening with
  | unsent | collectorGone | collectorStopped => exact h.elim
  | _ => rfl

theorem Sound.not_missesCollector (h : m.Sound) {moment : Moment} (hmem : moment ∈ m.history) :
    moment.happening.missesCollector = false := by
  obtain ⟨past, future, heq⟩ := List.append_of_mem hmem
  exact not_missesCollector_of_lawful (h.lawful past moment future heq)

theorem Sound.registersInTime (h : m.Sound) : Each RegistersInTime m.history := by
  intro past moment future heq
  have hlawful : moment.happening.Lawful past := h.lawful past moment future heq
  cases hhappening : moment.happening with
  | queued source closer => rwa [hhappening] at hlawful
  | rejected source closer => rwa [hhappening] at hlawful
  | _ => trivial

theorem Sound.begun_eq_false_iff (h : m.Sound) :
    begun m.history = false ↔ m.progress = .idle := by
  rw [← Bool.not_eq_true, h.staged.begun_iff, not_not]

/-- A registration is rejected if the shutdown has begun, and accepted if not. -/
theorem Sound.register_history (h : m.Sound) (source : Option Phase) (closer : Closer)
    (huse : m.InUse ∨ begun m.history = true) :
    (m.register source closer).history = m.history ++
      [⟨m.now, if begun m.history then .rejected source closer else .queued source closer⟩] := by
  cases hbegun : begun m.history with
  | true =>
      have hnot : m.progress ≠ .idle := h.staged.begun_iff.mp hbegun
      cases hprogress : m.progress with
      | idle => exact absurd hprogress hnot
      | requested | underWay | done => simp [register, hprogress, note]
  | false =>
      have hidle : m.progress = .idle := h.begun_eq_false_iff.mp hbegun
      have hinUse : m.InUse := by simpa [hbegun] using huse
      obtain ⟨queue, hcollector⟩ := h.listening hidle hinUse
      simp [register, hidle, hcollector, note]

theorem Sound.accepts_eq (h : m.Sound) (hhandle : 0 < m.handles) :
    m.accepts = !begun m.history := by
  cases hbegun : begun m.history with
  | true =>
      have hnot : m.progress ≠ .idle := h.staged.begun_iff.mp hbegun
      cases hprogress : m.progress with
      | idle => exact absurd hprogress hnot
      | requested | underWay | done => simp [accepts, hprogress]
  | false =>
      have hidle : m.progress = .idle := h.begun_eq_false_iff.mp hbegun
      obtain ⟨queue, hcollector⟩ := h.listening hidle (Or.inl hhandle)
      simp [accepts, hidle, hcollector]

theorem Sound.registerAll_singleton (h : m.Sound) (hhandle : 0 < m.handles) (closer : Closer) :
    (m.registerAll [closer]).2 =
      if begun m.history then .error .shuttingDown else .ok () := by
  simp only [registerAll, h.accepts_eq hhandle]
  cases begun m.history <;> rfl

/-- The closers of the registrations that were not rejected are the accepted ones. -/
theorem Sound.accepted_register (h : m.Sound) (hhandle : 0 < m.handles) (closer : Closer) :
    accepted (m.act (.register closer)).history =
      accepted m.history ++ if begun m.history then [] else [closer] := by
  have hact : m.act (.register closer) = m.register none closer := by
    simp [act, withHandle, Nat.ne_of_gt hhandle]
  rw [hact, h.register_history none closer (Or.inl (Or.inl hhandle)), accepted_append,
    accepted_singleton]
  cases begun m.history <;> rfl

theorem Sound.manageAll_singleton (h : m.Sound) (hhandle : 0 < m.handles) (item : Item) :
    (m.manageAll [item]).2 =
      if begun m.history then .error .shuttingDown else .ok () := by
  simp only [manageAll, h.accepts_eq hhandle]
  cases begun m.history <;> rfl

/-! ## The shutdown receives its closers -/

/-- The shutdown has begun and accepted closers are what they are. -/
structure Begun (closers : List Closer) (m : Manager) : Prop where
  begun : begun m.history = true
  accepted : accepted m.history = closers

/-- Once the shutdown has begun, no closer is accepted any more. -/
theorem Begun.change {step : Step} {m m' : Manager} {closers : List Closer} (hsound : m.Sound)
    (hchange : Change step m m') (h : Begun closers m) : Begun closers m' := by
  have hprogress : m.progress ≠ .idle := hsound.staged.begun_iff.mp h.begun
  cases hchange with
  | queue _ _ _ hidle | begin _ _ _ _ hidle | beginAlone _ _ _ _ hidle =>
      exact absurd hidle hprogress
  | expire =>
      constructor
      · simp [noteAll, h.begun]
      · simp only [noteAll, accepted_append, accepted_expiry, List.append_nil]
        exact h.accepted
  | loseClosers | reject | start | handOver | discard | launchAlone | initializerEnds | retire
  | closerLost | closerEnters | closerEnds | conclude =>
      constructor
      · simp [startInitializer, runClosers, note, h.begun]
      · simpa [startInitializer, runClosers, note] using h.accepted
  | clone | drop | follow | await | abandon | take | launch | initializerRests | closerRests
  | answer | elapse => exact ⟨h.begun, h.accepted⟩

theorem Begun.move {m m' : Manager} {closers : List Closer} (hsound : m.Sound)
    (h : Begun closers m) (hmove : Move m m') : Begun closers m' :=
  hsound.move_invariant hmove (fun _ _ => Begun.change) h

/-- The shutdown has received closers. -/
def Received (closers : List Closer) (m : Manager) : Prop :=
  handed m.history = [closers] ∧ ∀ limit, m.progress ≠ .requested limit

theorem Sound.received (hsound : m.Sound) {closers : List Closer} (h : Begun closers m)
    (hprogress : ∀ limit, m.progress ≠ .requested limit) : Received closers m := by
  refine ⟨?_, hprogress⟩
  rw [← h.accepted]
  cases hwhere : m.progress with
  | idle => exact absurd hwhere (hsound.staged.begun_iff.mp h.begun)
  | requested limit => exact absurd hwhere (hprogress limit)
  | underWay s =>
      obtain ⟨-, -, -, hsummary⟩ := hsound.staged.of_underWay hwhere
      exact congrArg Summary.handed hsummary
  | done report =>
      obtain ⟨-, -, -, time, hsummary⟩ := hsound.staged.of_done hwhere
      exact congrArg Summary.handed hsummary

theorem Sound.handed_cases (hsound : m.Sound) :
    handed m.history = [] ∨ handed m.history = [accepted m.history] := by
  by_cases hbegun : begun m.history = true
  · by_cases hrequested : ∃ limit, m.progress = .requested limit
    · obtain ⟨limit, hprogress⟩ := hrequested
      cases hcollector : m.collector with
      | listening queue =>
          obtain ⟨waiting, ⟨-, -, hsummary⟩ | ⟨_, -, -, hsummary⟩⟩ :=
            hsound.staged.of_collecting hcollector
          · exact Or.inl (congrArg Summary.handed hsummary)
          · exact Or.inl (congrArg Summary.handed hsummary)
      | delivered closers =>
          obtain ⟨-, -, hsummary⟩ := hsound.staged.of_delivered hcollector
          have hhanded : handed m.history = [closers] := congrArg Summary.handed hsummary
          have haccepted : accepted m.history = closers := congrArg Summary.accepted hsummary
          exact Or.inr (by rw [hhanded, haccepted])
      | stopped => exact absurd hcollector (hsound.staged.not_stopped hprogress)
    · rw [not_exists] at hrequested
      exact Or.inr (hsound.received ⟨hbegun, rfl⟩ hrequested).1
  · have hidle : m.progress = .idle := hsound.begun_eq_false_iff.mp (eq_false_of_ne_true hbegun)
    exact Or.inl (hsound.staged.of_idle hidle).2.1

/-- While the shutdown waits for its closers there is something to do. -/
theorem Sound.enabled_ne_nil_of_requested (hsound : m.Sound) {limit : Option Duration}
    (hprogress : m.progress = .requested limit) : m.enabled ≠ [] := by
  intro hnone
  by_cases hcollector : ∃ queue, m.collector = .listening queue
  · obtain ⟨queue, hcollector⟩ := hcollector
    obtain ⟨waiting, ⟨hidle, -⟩ | ⟨_, -, hmailbox, -⟩⟩ := hsound.staged.of_collecting hcollector
    · rw [hprogress] at hidle
      contradiction
    · cases waiting with
      | nil => exact not_ready_of_enabled_eq_nil hnone _ (.collect hcollector hmailbox)
      | cons closer waiting =>
          exact not_ready_of_enabled_eq_nil hnone _ (.collect hcollector hmailbox)
  · rw [not_exists] at hcollector
    exact not_ready_of_enabled_eq_nil hnone _ (.launch hprogress hcollector)

theorem Sound.inevitable_received (hsound : m.Sound) (hbegun : begun m.history = true) :
    Inevitable (Received (accepted m.history)) m := by
  apply inevitable_of_bound 0 (I := Begun (accepted m.history)) _ _ hsound ⟨hbegun, rfl⟩
  · intro m m' hsound h hmove
    exact h.move hsound hmove
  · intro m hsound h hnot hnone
    exfalso
    apply hnot
    apply hsound.received h
    intro limit hprogress
    exact hsound.enabled_ne_nil_of_requested hprogress hnone

/-! ## The contract of registrations and shutdowns -/

/-- Registrations and the shutdown fit together, whatever the order of steps was. -/
structure HandsOver (m : Manager) : Prop where
  /-- The shutdown is given the accepted closers, each once and in their order. -/
  delivered : ∀ closers, m.collector = .delivered closers → closers = accepted m.history
  handed : handed m.history = [] ∨ handed m.history = [accepted m.history]
  run : ∀ s, m.progress = .underWay s → List.Forall₂ Slot.Holds s.slots (accepted m.history)
  /-- A shutdown that has begun does come to have them. -/
  inevitable : begun m.history = true → Inevitable (Received (accepted m.history)) m
  /-- A caller is told that the manager shuts down once it does and not before. -/
  registered : ∀ closer, 0 < m.handles → (m.registerAll [closer]).2 =
    if begun m.history then .error .shuttingDown else .ok ()
  managed : ∀ item, 0 < m.handles → (m.manageAll [item]).2 =
    if begun m.history then .error .shuttingDown else .ok ()
  remembered : ∀ closer, 0 < m.handles →
    accepted (m.act (.register closer)).history =
      accepted m.history ++ if begun m.history then [] else [closer]
  /-- The history says the same, also of the registrations that hooks make. -/
  recorded : ∀ source closer, m.InUse ∨ begun m.history = true →
    (m.register source closer).history = m.history ++
      [⟨m.now, if begun m.history then .rejected source closer else .queued source closer⟩]
  inTime : Each RegistersInTime m.history
  /-- Close hooks are entered on behalf of accepted closers only, at most once for each. -/
  entered : (entered m.history .close).Subperm ((accepted m.history).map Closer.hookName)
  /-- The collector is there whenever it is needed. -/
  present : ∀ moment ∈ m.history, moment.happening.missesCollector = false
  listening : 0 < m.handles → begun m.history = false → ∃ queue, m.collector = .listening queue
  replying : ∀ limit, m.progress = .requested limit → m.collector ≠ .stopped

/-- In every run the shutdown receives exactly the closers of the accepted registrations, in order;
registrations are rejected exactly once it has begun. -/
theorem run_handsOver (start : Nat) (steps : List Step) : HandsOver ((new start).run steps) := by
  have hsound : ((new start).run steps).Sound := sound_run start steps
  have hbalanced : ((new start).run steps).Balanced := balanced_run start steps
  generalize (new start).run steps = m at hsound hbalanced
  exact {
    delivered := by
      intro closers hcollector
      obtain ⟨-, -, hsummary⟩ := hsound.staged.of_delivered hcollector
      exact (congrArg Summary.accepted hsummary).symm
    handed := hsound.handed_cases
    run := by
      intro s hprogress
      exact (hsound.staged.of_underWay hprogress).2.2.1
    inevitable := hsound.inevitable_received
    registered := fun closer hhandle => hsound.registerAll_singleton hhandle closer
    managed := fun item hhandle => hsound.manageAll_singleton hhandle item
    remembered := fun closer hhandle => hsound.accepted_register hhandle closer
    recorded := hsound.register_history
    inTime := hsound.registersInTime
    entered := hbalanced.subperm
    present := fun moment hmem => hsound.not_missesCollector hmem
    listening := by
      intro hhandle hbegun
      exact hsound.listening (hsound.begun_eq_false_iff.mp hbegun) (Or.inl hhandle)
    replying := fun limit hprogress => hsound.staged.not_stopped hprogress }

end Manager
end Lifecycle
end ServiceKit
