import ServiceKit.Proofs.Lifecycle.Mocks

/-!
# What the counters and the event log of mock resources tell

Whatever is done with managers, the counters of mock resources and their common event log agree but
for panics, aborted hooks and hooks that run, and the event log tells of the ends of hooks in the
order in which they happen.  After a shutdown without a limit every accepted closer has been called.
-/

namespace ServiceKit
namespace Lifecycle

open History

variable {resources : List MockResource} {w w' : World} {m : Manager} {id : Nat}

/-! ## Shutdowns without a limit -/

namespace Manager

/-- After a shutdown without a limit every accepted closer of a resource has been called. -/
theorem BeginsAfter.countP_entered {start call : Nat} {before : List Step}
    (h : BeginsAfter start before call) (after : List Step) {p : HookName → Bool}
    (hp : ∀ x, p x = true → x.2 ≠ none)
    (hclosed : ((new start).run (before ++ .act (.close call none) :: after)).state = .closed) :
    let m := (new start).run (before ++ .act (.close call none) :: after)
    (entered m.history .close).countP p = ((accepted m.history).map Closer.hookName).countP p := by
  intro m
  obtain ⟨report, hdone⟩ := state_eq_closed_iff.mp hclosed
  have hgoverns := governs_run start before after call none h.handle h.fresh
    (state_eq_running_iff.mp h.running)
  have hlimit : (((new start).run before).plan none).limit ≠ some ⟨0⟩ := nofun
  have hentered := ((hgoverns.countsCalls hdone).hooks hlimit).1
  rw [hentered.countP_eq, ← hgoverns.begun.accepted, List.countP_map, List.countP_map,
    List.countP_filter]
  refine List.countP_congr fun closer _ => ?_
  rw [Bool.and_eq_true, and_iff_left_iff_imp]
  intro hcloser
  obtain ⟨id, hid⟩ := Option.ne_none_iff_exists'.mp (hp _ hcloser)
  exact Plan.hasHook_of_resource hid

end Manager

namespace World

/-- A call to close begins the shutdown of the manager in a place. -/
def Begins (w : World) (i call : Nat) : Prop :=
  ∃ m ∈ w.managers[i]?, m.state = .running ∧ 0 < m.handles ∧ m.hasCall call = false

/-- The shutdown of the manager in a place is complete. -/
def IsClosed (w : World) (i : Nat) : Prop :=
  ∃ m ∈ w.managers[i]?, m.state = .closed

/-- No other manager than the one in a place has accepted a closer of a resource. -/
def RegistersOnlyWith (w : World) (i id : Nat) : Prop :=
  ∀ j < w.managers.length, j ≠ i → ∀ closer ∈ accepted (w.historyOf j), closer.hookName.2 ≠ some id

instance (w : World) (i call : Nat) : Decidable (w.Begins i call) :=
  inferInstanceAs (Decidable (∃ m ∈ w.managers[i]?,
    m.state = .running ∧ 0 < m.handles ∧ m.hasCall call = false))

instance (w : World) (i : Nat) : Decidable (w.IsClosed i) :=
  inferInstanceAs (Decidable (∃ m ∈ w.managers[i]?, m.state = .closed))

instance (w : World) (i id : Nat) : Decidable (w.RegistersOnlyWith i id) :=
  inferInstanceAs (Decidable (∀ j < w.managers.length, j ≠ i →
    ∀ closer ∈ accepted (w.historyOf j), closer.hookName.2 ≠ some id))

/-- The accepted registrations of the closer of a resource with the manager in a place. -/
def registrationsWith (w : World) (i id : Nat) : Nat :=
  (accepted (w.historyOf i)).countP fun closer => isOf id closer.hookName

theorem historyOf_eq {i : Nat} (h : w.managers[i]? = some m) : w.historyOf i = m.history := by
  rw [historyOf, h]
  rfl

/-- The run of a manager from a call on. -/
theorem exists_run_act {before : List World.Step} {i : Nat} {action : Action}
    (h : (empty.run before).managers[i]? = some m) (after : List World.Step) :
    ∃ later, (empty.run (before ++ .act i action :: after)).managers[i]? =
      some ((m.act action).run later) := by
  rw [run_append, run_cons]
  exact exists_run (getElem?_act h action) after

/-- A manager that has accepted no closer of a resource calls none. -/
theorem Coherent.countP_entered_eq_zero {i j : Nat} (h : w.Coherent)
    (honly : w.RegistersOnlyWith i id) (hj : j ≠ i) (hm : w.managers[j]? = some m) :
    (entered m.history .close).countP (isOf id) = 0 := by
  rw [List.countP_eq_zero]
  intro x hx hof
  have haccepted : x ∈ (accepted m.history).map Closer.hookName := by
    obtain ⟨start, steps, rfl⟩ := h.run m (List.mem_of_getElem? hm)
    exact (Manager.balanced_run start steps).subperm.subset hx
  obtain ⟨closer, hcloser, rfl⟩ := List.mem_map.mp haccepted
  rw [← historyOf_eq hm] at hcloser
  exact honly j (List.getElem?_eq_some_iff.mp hm).1 hj closer hcloser (beq_iff_eq.mp hof)

/-- After a shutdown without a limit the close hook of a resource that only this manager has was
called for every accepted registration. -/
theorem mockCalls_close_eq {before after : List World.Step} {i call : Nat}
    (hw : empty.run (before ++ .act i (.close call none) :: after) = w)
    (hbegins : (empty.run before).Begins i call) (hclosed : w.IsClosed i)
    (honly : w.RegistersOnlyWith i id) :
    w.mockCalls id .close = w.registrationsWith i id := by
  obtain ⟨m₀, hm₀, hrunning, hhandle, hfresh⟩ := hbegins
  obtain ⟨start, own, rfl⟩ := (coherent_run before).run m₀ (List.mem_of_getElem? hm₀)
  obtain ⟨later, hlater⟩ := exists_run_act hm₀ after
  have hcoherent : w.Coherent := hw ▸ coherent_run _
  rw [hw, ← Manager.step, ← Manager.run_cons, ← Manager.run_append] at hlater
  obtain ⟨m, hm, hclosed⟩ := hclosed
  obtain rfl := Option.some.inj (hlater.symm.trans hm)
  have hcalled := Manager.BeginsAfter.countP_entered ⟨hrunning, hhandle, hfresh⟩ later
    (fun x (hx : isOf id x = true) => ne_none_of_isOf hx) hclosed
  rw [mockCalls_eq, hcoherent.tellings_eq, registrationsWith, historyOf_eq hm]
  refine (total_eq_of_getElem? hm fun j m' hj hm' => ?_).trans (hcalled.trans List.countP_map)
  exact hcoherent.countP_entered_eq_zero honly hj hm'

/-! ## The event log -/

theorem event_time {entry : JournalEntry} {event : HookEvent}
    (h : HookEvent.ofEntry? entry = some event) : event.time = entry.moment.time := by
  unfold HookEvent.ofEntry? at h
  split at h
  · contradiction
  · cases h
    rfl
  · contradiction

/-- The event log is in the order of time. -/
theorem Coherent.eventLog_pairwise (h : w.Coherent) :
    w.eventLog.Pairwise fun a b => a.time ≤ b.time := by
  refine h.chronological.filterMap _ fun a b hle event hevent event' hevent' => ?_
  rwa [event_time hevent, event_time hevent']

/-- The event log grows by the ends of hooks that a step tells, at the time of the step. -/
structure Records (w w' : World) (told : List JournalEntry) : Prop extends w.Tells w' told where
  log : w'.eventLog = w.eventLog ++ told.filterMap HookEvent.ofEntry?

theorem Tells.records {told : List JournalEntry} (h : w.Tells w' told) : w.Records w' told where
  toTells := h
  log := by rw [eventLog, h.journal, List.filterMap_append, eventLog]

/-! ## The account of a run -/

theorem Coherent.countsHooks {resource : MockResource}
    (hnames : (resources.map MockResource.name).Nodup) (h : w.Coherent)
    (hmanagers : ∀ m ∈ w.managers, m.Names (IsNamed resources))
    (hresource : resources[id]? = some resource) : w.CountsHooks id resource.name where
  calls phase := by
    rw [h.mockCalls_eq id phase, tellings_ended_eq hnames hresource fun entry hentry _ hx =>
      h.isNamed_of_ended hmanagers hentry hx]
  closers := h.registrations_eq id

/-- Mock resources with distinct names are managed in any way by any managers.  At every moment the
calls of a hook that are counted are those that the event log has, that panicked, that were aborted
after they were entered, or that run; the log has the ends of hooks in the order in which they
happen; and after a shutdown without a limit the closers that a manager has accepted of a resource
that no other has were all called. -/
theorem run_countsHooks (hnames : (resources.map MockResource.name).Nodup)
    (steps : List World.Step) (hmanages : ∀ step ∈ steps, step.Manages resources) :
    let w := empty.run steps
    (∀ id resource, resources[id]? = some resource → w.CountsHooks id resource.name) ∧
    w.eventLog.Pairwise (fun a b => a.time ≤ b.time) ∧
    (∀ before step after, steps = before ++ step :: after →
      ∃ told, (empty.run before).Records (empty.run (before ++ [step])) told) ∧
    ∀ before i call after id, steps = before ++ .act i (.close call none) :: after →
      (empty.run before).Begins i call → w.IsClosed i → w.RegistersOnlyWith i id →
        w.mockCalls id .close = w.registrationsWith i id := by
  intro w
  have hcoherent : w.Coherent := coherent_run steps
  refine ⟨fun id resource hresource => ?_, hcoherent.eventLog_pairwise, ?_, ?_⟩
  · exact hcoherent.countsHooks hnames (names_run hmanages) hresource
  · rintro before step after -
    obtain ⟨told, htold⟩ := (coherent_run before).exists_tells step
    refine ⟨told, ?_⟩
    rw [run_append]
    exact htold.records
  · rintro before i call after id rfl hbegins hclosed honly
    exact mockCalls_close_eq rfl hbegins hclosed honly

/-- One manager closes the pool, which it has twice, without a limit.  The queue panics as it is set
up there; another manager closes the queue, and the limit of its shutdown aborts it. -/
theorem run_countsHooks_two :
    let pool : MockResource := ⟨"pool", ⟨0, .succeed⟩, ⟨5, .succeed⟩⟩
    let queue : MockResource := ⟨"queue", ⟨0, .panic⟩, ⟨100, .fail⟩⟩
    let before : List World.Step := [.create, .create,
      .act 0 (.startInitializer "queue" (queue.item 1).setUp),
      .act 0 (.register (pool.item 0).closer), .act 0 (.register (pool.item 0).closer),
      .act 1 (.register (queue.item 1).closer)]
    let after : List World.Step := [.act 1 (.close 1 (some ⟨10000000⟩)),
      .act 0 (.initializerActs 0), .act 0 .retire, .act 0 .collect, .act 0 .collect,
      .act 0 .collect, .act 0 .launch, .act 0 (.closerEnters 0), .act 0 (.closerEnters 1),
      .act 1 .collect, .act 1 .collect, .act 1 .launch, .act 1 (.closerEnters 0),
      .elapse 5, .act 0 (.closerActs 0), .act 0 (.closerActs 1), .act 0 .conclude,
      .act 0 (.answer 1), .elapse 5, .act 1 .expire]
    let w := empty.run (before ++ .act 0 (.close 1 none) :: after)
    w.CountsHooks 0 "pool" ∧ w.CountsHooks 1 "queue" ∧
      w.mockCalls 0 .close = w.registrationsWith 0 0 ∧
      w.eventLog = [⟨5, .close, "pool"⟩, ⟨5, .close, "pool"⟩] ∧
      (w.mockCalls 0 .close, w.events "pool" .close) = (2, 2) ∧
      (w.mockCalls 1 .setUp, w.panics 1 .setUp) = (1, 1) ∧
      (w.mockCalls 1 .close, w.stops 1 .close) = (1, 1) := by
  intro pool queue before after w
  have hmanages : ∀ step ∈ before ++ .act 0 (.close 1 none) :: after,
      step.Manages [pool, queue] := by
    have hpool : (Action.register (pool.item 0).closer).Manages [pool, queue] :=
      .inr ⟨0, pool, rfl, rfl⟩
    have hqueue : (Action.register (queue.item 1).closer).Manages [pool, queue] :=
      .inr ⟨1, queue, rfl, rfl⟩
    have hsetUp : (Action.startInitializer "queue" (queue.item 1).setUp).Manages [pool, queue] :=
      .inr ⟨1, queue, rfl, rfl, rfl⟩
    refine List.forall_mem_append.mpr ⟨?_, by simp [after, World.Step.Manages, Action.Manages]⟩
    simp only [before, List.forall_mem_cons]
    exact ⟨trivial, trivial, hsetUp, hpool, hpool, hqueue, List.forall_mem_nil _⟩
  obtain ⟨hcounts, -, -, huntimed⟩ := run_countsHooks (by decide) _ hmanages
  refine ⟨hcounts 0 pool rfl, hcounts 1 queue rfl, ?_, by decide +kernel, by decide +kernel,
    by decide +kernel, by decide +kernel⟩
  exact huntimed before 0 1 after 0 rfl (by decide +kernel) (by decide +kernel) (by decide +kernel)

end World
end Lifecycle
end ServiceKit
