import Mathlib.Logic.Relation
import ServiceKit.Lifecycle.Run

/-!
# What a step of a run changes

Every step of a run is a sequence of changes from the list below, at most two of them: a hook that
registers a closer before it ends makes one change for the registration and one for its end.  Each
change says when it is possible and what the manager is afterwards, so an invariant of all runs
needs one case for each change and never opens a step.
-/

namespace ServiceKit
namespace Lifecycle
namespace Manager

/-- Someone who may register a closer: a caller with a handle, or an initializer that runs. -/
def InUse (m : Manager) : Prop :=
  0 < m.handles ∨ m.initializers ≠ []

/-- The changes that a step of a run can make. -/
inductive Change : Step → Manager → Manager → Prop where
  | clone {m : Manager} (hhandle : 0 < m.handles) :
      Change (.act .clone) m { m with handles := m.handles + 1 }
  | drop {m : Manager} (hhandle : 0 < m.handles) :
      Change (.act .drop) m { m with handles := m.handles - 1 }
  | queue {step : Step} {m : Manager} {queue : List Closer} (source : Option Phase)
      (closer : Closer) (huse : m.InUse) (hprogress : m.progress = .idle)
      (hcollector : m.collector = .listening queue) :
      Change step m (note { m with mailbox := m.mailbox ++ [.register closer] }
        (.queued source closer))
  | loseClosers {step : Step} {m : Manager} (source : Option Phase) (closer : Closer)
      (huse : m.InUse) (hprogress : m.progress = .idle)
      (hcollector : ∀ queue, m.collector ≠ .listening queue) :
      Change step m (m.note (.unsent source closer))
  | reject {step : Step} {m : Manager} (source : Option Phase) (closer : Closer)
      (hprogress : m.progress ≠ .idle) :
      Change step m (m.note (.rejected source closer))
  | start {m : Manager} (name : String) (hook : Hook) (hhandle : 0 < m.handles) :
      Change (.act (.startInitializer name hook)) m (m.startInitializer name hook)
  | begin {m : Manager} {queue : List Closer} (id : Nat) (limit : Option Duration)
      (hhandle : 0 < m.handles) (hid : m.hasCall id = false) (hprogress : m.progress = .idle)
      (hcollector : m.collector = .listening queue) :
      Change (.act (.close id limit)) m (note { m with
        progress := .requested limit
        mailbox := m.mailbox ++ [.shutdown]
        calls := m.calls ++ [⟨id, .owner⟩] } .shutdownBegun)
  | beginAlone {m : Manager} (id : Nat) (limit : Option Duration)
      (hhandle : 0 < m.handles) (hid : m.hasCall id = false) (hprogress : m.progress = .idle)
      (hcollector : ∀ queue, m.collector ≠ .listening queue) :
      Change (.act (.close id limit)) m (noteAll { m with
        progress := .requested limit
        calls := m.calls ++ [⟨id, .owner⟩] } [.shutdownBegun, .collectorGone])
  | follow {m : Manager} (id : Nat) (limit : Option Duration)
      (hhandle : 0 < m.handles) (hid : m.hasCall id = false) (hprogress : m.progress ≠ .idle) :
      Change (.act (.close id limit)) m { m with calls := m.calls ++ [⟨id, .follower⟩] }
  | await {m : Manager} (id : Nat) (hhandle : 0 < m.handles) (hid : m.hasCall id = false) :
      Change (.act (.awaitInitialized id)) m { m with calls := m.calls ++ [⟨id, .initialized⟩] }
  | abandon {m : Manager} (id : Nat) :
      Change (.act (.abandon id)) m { m with calls := m.calls.filter (·.id ≠ id) }
  | take {m : Manager} {queue : List Closer} {closer : Closer} {rest : List Command}
      (hcollector : m.collector = .listening queue)
      (hmailbox : m.mailbox = .register closer :: rest) :
      Change (.act .collect) m
        { m with collector := .listening (queue ++ [closer]), mailbox := rest }
  | handOver {m : Manager} {queue : List Closer} {rest : List Command}
      (hcollector : m.collector = .listening queue) (hmailbox : m.mailbox = .shutdown :: rest) :
      Change (.act .collect) m
        (note { m with collector := .delivered queue, mailbox := rest } (.handedOver queue))
  | discard {m : Manager} {queue : List Closer} (hcollector : m.collector = .listening queue)
      (hmailbox : m.mailbox = []) (hheld : m.isHeld = false) :
      Change (.act .discard) m (note { m with collector := .stopped } .discarded)
  | launch {m : Manager} {limit : Option Duration} {closers : List Closer}
      (hprogress : m.progress = .requested limit) (hcollector : m.collector = .delivered closers) :
      Change (.act .launch) m (m.runClosers limit closers)
  | launchAlone {m : Manager} {limit : Option Duration}
      (hprogress : m.progress = .requested limit) (hcollector : m.collector = .stopped) :
      Change (.act .launch) m ((m.note .collectorStopped).runClosers limit [])
  | initializerRests {m : Manager} {r : Running} (hmem : r ∈ m.initializers)
      (hdue : r.isDue m.now = true) (hending : r.hook.ending = none) :
      Change (.act (.initializerActs r.ticket)) m { m with
        initializers := m.initializers.map fun s =>
          if s.ticket = r.ticket then { s with due := none } else s }
  | initializerEnds {m : Manager} {r : Running} {ending : Ending} (hmem : r ∈ m.initializers)
      (hdue : r.isDue m.now = true) (hending : r.hook.ending = some ending) :
      Change (.act (.initializerActs r.ticket)) m (note { m with
        initializers := m.initializers.filter (·.ticket ≠ r.ticket)
        leaving := m.leaving + 1
        undelivered := m.undelivered ++ TimedFailure.ofEnding m.now .setUp r.name ending }
        (.ended .setUp r.name r.hook.resource ending))
  | retire {m : Manager} {n : Nat} (hleaving : m.leaving = n + 1) :
      Change (.act .retire) m
        (note { m with leaving := n, pending := m.pending - 1 } .retired)
  | closerLost {m : Manager} {s : Shutdown} {before after : List Slot} {closer : Closer}
      {panic : Panic} (hprogress : m.progress = .underWay s)
      (hslots : s.slots = before ++ .waiting closer :: after)
      (htime : s.isInTime m.now = true) (hmake : closer.make = .error panic) :
      Change (.act (.closerEnters before.length)) m (note { m with
        progress := .underWay { s with slots := before ++ .lost closer.name :: after }
        ticket := m.ticket + 1 } (.lost closer.name))
  | closerEnters {m : Manager} {s : Shutdown} {before after : List Slot} {closer : Closer}
      {hook : Hook} (hprogress : m.progress = .underWay s)
      (hslots : s.slots = before ++ .waiting closer :: after)
      (htime : s.isInTime m.now = true) (hmake : closer.make = .ok hook) :
      Change (.act (.closerEnters before.length)) m (note { m with
        progress := .underWay { s with
          slots :=
            before ++ .running ⟨closer.name, hook, hook.due? m.now, m.ticket⟩ :: after }
        ticket := m.ticket + 1 } (.entered .close closer.name hook.resource))
  | closerRests {m : Manager} {s : Shutdown} {before after : List Slot} {r : Running}
      (hprogress : m.progress = .underWay s) (hslots : s.slots = before ++ .running r :: after)
      (htime : s.isInTime m.now = true) (hdue : r.isDue m.now = true)
      (hending : r.hook.ending = none) :
      Change (.act (.closerActs before.length)) m { m with
        progress := .underWay { s with
          slots := before ++ .running { r with due := none } :: after } }
  | closerEnds {m : Manager} {s : Shutdown} {before after : List Slot} {r : Running}
      {ending : Ending} (hprogress : m.progress = .underWay s)
      (hslots : s.slots = before ++ .running r :: after)
      (htime : s.isInTime m.now = true) (hdue : r.isDue m.now = true)
      (hending : r.hook.ending = some ending) :
      Change (.act (.closerActs before.length)) m (note { m with
        progress := .underWay { s with
          slots := before ++ .ended :: after
          ended := s.ended ++ TimedFailure.ofEnding m.now .close r.name ending } }
        (.ended .close r.name r.hook.resource ending))
  | expire {m : Manager} {s : Shutdown} {limit : Duration} (hprogress : m.progress = .underWay s)
      (hlimit : s.limit = some limit) (hopen : s.isUnfinished = true)
      (htime : s.isInTime m.now = false) :
      Change (.act .expire) m (noteAll { m with
        progress := .underWay { s with
          slots := s.slots.map Slot.abort
          aborted := (s.slots.filterMap Slot.unendedName?).map fun name =>
            ⟨.close, name, abortReason limit⟩
          timedOut := true } }
        (.expired limit (s.slots.countP Slot.isOpen) :: s.slots.filterMap Slot.abortion?))
  | conclude {m : Manager} {s : Shutdown} (hprogress : m.progress = .underWay s)
      (hopen : s.isUnfinished = false) :
      Change (.act .conclude) m (note { m with progress := .done s.report }
        (.completed s.report))
  | answer {m : Manager} {call : Call} {value : Answer} (hmem : call ∈ m.calls)
      (hvalue : m.answer? call.kind = some value) :
      Change (.act (.answer call.id)) m { m with
        calls := m.calls.filter (·.id ≠ call.id)
        undelivered := m.remaining call.kind
        returned := m.returned ++ [⟨m.now, call.id, value⟩] }
  | elapse {m : Manager} (millis : Nat) (hquiet : m.isQuietFor millis = true) :
      Change (.elapse millis) m { m with now := m.now + millis }

/-- A step makes changes one after another. -/
abbrev Changes (step : Step) : Manager → Manager → Prop :=
  Relation.ReflTransGen (Change step)

/-! ## What a registration leaves as it is -/

section Register

variable (m : Manager) (source : Option Phase) (phase : Phase) (closer : Closer) (hook : Hook)

@[simp] theorem register_now : (m.register source closer).now = m.now := by
  unfold register
  split <;> rfl

@[simp] theorem register_progress : (m.register source closer).progress = m.progress := by
  unfold register
  split <;> rfl

@[simp] theorem register_initializers :
    (m.register source closer).initializers = m.initializers := by
  unfold register
  split <;> rfl

@[simp] theorem registerFrom_now : (m.registerFrom phase hook).now = m.now := by
  unfold registerFrom
  split <;> simp

@[simp] theorem registerFrom_progress : (m.registerFrom phase hook).progress = m.progress := by
  unfold registerFrom
  split <;> simp

@[simp] theorem registerFrom_initializers :
    (m.registerFrom phase hook).initializers = m.initializers := by
  unfold registerFrom
  split <;> simp

end Register

/-! ## Every step is a sequence of changes -/

variable {m : Manager} {step : Step}

theorem register_changes (source : Option Phase) (closer : Closer)
    (huse : m.progress = .idle → m.InUse) :
    Change step m (m.register source closer) := by
  unfold register
  split
  next hprogress hcollector =>
    exact .queue source closer (huse hprogress) hprogress hcollector
  next hprogress hcollector =>
    exact .loseClosers source closer (huse hprogress) hprogress hcollector
  next hprogress _ =>
    exact .reject source closer hprogress

theorem registerFrom_changes (phase : Phase) (hook : Hook)
    (huse : m.progress = .idle → m.InUse) :
    Changes step m (m.registerFrom phase hook) := by
  unfold registerFrom
  cases hook.registers with
  | none => exact .refl
  | some name => exact .single (register_changes _ _ huse)

theorem withHandle_changes {f : Manager → Manager}
    (h : 0 < m.handles → Changes step m (f m)) : Changes step m (m.withHandle f) := by
  unfold withHandle
  split
  · exact .refl
  next hhandle => exact h (Nat.pos_of_ne_zero hhandle)

theorem withNewCall_changes {id : Nat} {f : Manager → Manager}
    (h : 0 < m.handles → m.hasCall id = false → Changes step m (f m)) :
    Changes step m (m.withNewCall id f) := by
  unfold withNewCall
  split
  · exact .refl
  next hid => exact withHandle_changes fun hhandle => h hhandle (eq_false_of_ne_true hid)

theorem close_changes (id : Nat) (limit : Option Duration)
    (hhandle : 0 < m.handles) (hid : m.hasCall id = false) :
    Change (.act (.close id limit)) m (m.close id limit) := by
  unfold close
  split
  next hprogress hcollector => exact .begin id limit hhandle hid hprogress hcollector
  next hprogress hcollector => exact .beginAlone id limit hhandle hid hprogress hcollector
  next hprogress _ => exact .follow id limit hhandle hid hprogress

theorem collect_changes : Changes (.act .collect) m m.collect := by
  unfold collect
  split
  next hcollector hmailbox => exact .single (.take hcollector hmailbox)
  next hcollector hmailbox => exact .single (.handOver hcollector hmailbox)
  next => exact .refl

theorem discard_changes : Changes (.act .discard) m m.discard := by
  unfold discard
  split
  next hcollector hmailbox =>
    split
    · exact .refl
    next hheld =>
      exact .single (.discard hcollector hmailbox (eq_false_of_ne_true hheld))
  next => exact .refl

theorem launch_changes : Changes (.act .launch) m m.launch := by
  unfold launch
  split
  next hprogress hcollector => exact .single (.launch hprogress hcollector)
  next hprogress hcollector => exact .single (.launchAlone hprogress hcollector)
  next => exact .refl

theorem initializerActs_changes (ticket : Nat) :
    Changes (.act (.initializerActs ticket)) m (m.initializerActs ticket) := by
  unfold initializerActs
  split
  next => exact .refl
  next r hfind =>
    have hmem : r ∈ m.initializers := List.mem_of_find?_eq_some hfind
    have hfound := List.find?_some hfind
    simp only [Bool.and_eq_true, beq_iff_eq] at hfound
    obtain ⟨rfl, hdue⟩ := hfound
    have huse : m.InUse := Or.inr (List.ne_nil_of_mem hmem)
    have hregister : Changes (.act (.initializerActs r.ticket)) m (m.registerFrom .setUp r.hook) :=
      registerFrom_changes _ _ fun _ => huse
    have hmem' : r ∈ (m.registerFrom .setUp r.hook).initializers := by
      rwa [registerFrom_initializers]
    have hdue' : r.isDue (m.registerFrom .setUp r.hook).now = true := by
      rwa [registerFrom_now]
    split
    next hending => exact hregister.tail (.initializerRests hmem' hdue' hending)
    next ending hending => exact hregister.tail (.initializerEnds hmem' hdue' hending)

theorem retire_changes : Changes (.act .retire) m m.retire := by
  unfold retire
  split
  next => exact .refl
  next n hleaving => exact .single (.retire hleaving)

/-- A list around one of its places, before and after the place is set. -/
theorem exists_around_of_getElem? {α : Type*} {l : List α} {k : Nat} {x : α}
    (h : l[k]? = some x) :
    ∃ before after, l = before ++ x :: after ∧ before.length = k ∧
      ∀ y, l.set k y = before ++ y :: after := by
  obtain ⟨hk, hx⟩ := List.getElem?_eq_some_iff.mp h
  refine ⟨l.take k, l.drop (k + 1), ?_, ?_, ?_⟩
  · rw [← hx, ← List.drop_eq_getElem_cons hk, List.take_append_drop]
  · rw [List.length_take, Nat.min_eq_left (Nat.le_of_lt hk)]
  · intro y
    rw [List.set_eq_take_append_cons_drop, if_pos hk]

theorem closerEnters_changes (k : Nat) :
    Changes (.act (.closerEnters k)) m (m.closerEnters k) := by
  unfold closerEnters
  split
  next s hprogress =>
    split
    next closer hslot =>
      obtain ⟨before, after, hslots, rfl, hset⟩ := exists_around_of_getElem? hslot
      simp only [hset]
      split
      next htime =>
        split
        next panic hmake => exact .single (.closerLost hprogress hslots htime hmake)
        next hook hmake => exact .single (.closerEnters hprogress hslots htime hmake)
      next => exact .refl
    next => exact .refl
  next => exact .refl

theorem closerActs_changes (k : Nat) :
    Changes (.act (.closerActs k)) m (m.closerActs k) := by
  unfold closerActs
  split
  next s hprogress =>
    split
    next r hslot =>
      obtain ⟨before, after, hslots, rfl, hset⟩ := exists_around_of_getElem? hslot
      simp only [hset]
      split
      next htime =>
        rw [Bool.and_eq_true] at htime
        have hregister : Changes (.act (.closerActs before.length)) m
            (m.registerFrom .close r.hook) :=
          registerFrom_changes _ _ fun hidle => by simp [hprogress] at hidle
        have hprogress' : (m.registerFrom .close r.hook).progress = .underWay s := by
          rwa [registerFrom_progress]
        have htime' : s.isInTime (m.registerFrom .close r.hook).now = true ∧
            r.isDue (m.registerFrom .close r.hook).now = true := by
          rwa [registerFrom_now]
        split
        next hending =>
          exact hregister.tail (.closerRests hprogress' hslots htime'.1 htime'.2 hending)
        next ending hending =>
          exact hregister.tail (.closerEnds hprogress' hslots htime'.1 htime'.2 hending)
      next => exact .refl
    next => exact .refl
  next => exact .refl

theorem expire_changes : Changes (.act .expire) m m.expire := by
  unfold expire
  split
  next s hprogress =>
    split
    next limit hlimit =>
      split
      next htime =>
        rw [Bool.and_eq_true, Bool.not_eq_true'] at htime
        exact .single (.expire hprogress hlimit htime.1 htime.2)
      next => exact .refl
    next => exact .refl
  next => exact .refl

theorem conclude_changes : Changes (.act .conclude) m m.conclude := by
  unfold conclude
  split
  next s hprogress =>
    split
    next => exact .refl
    next hopen => exact .single (.conclude hprogress (eq_false_of_ne_true hopen))
  next => exact .refl

theorem answer_changes (id : Nat) : Changes (.act (.answer id)) m (m.answer id) := by
  unfold answer
  split
  next => exact .refl
  next call hfind =>
    have hmem : call ∈ m.calls := List.mem_of_find?_eq_some hfind
    have hid : call.id = id := by simpa using List.find?_some hfind
    subst hid
    split
    next => exact .refl
    next value hvalue => exact .single (.answer hmem hvalue)

theorem act_changes (m : Manager) (action : Action) : Changes (.act action) m (m.act action) := by
  cases action with
  | clone =>
      rw [act]
      apply withHandle_changes
      intro hhandle
      exact .single (.clone hhandle)
  | drop =>
      rw [act]
      apply withHandle_changes
      intro hhandle
      exact .single (.drop hhandle)
  | register closer =>
      rw [act]
      apply withHandle_changes
      intro hhandle
      exact .single (register_changes none closer fun _ => Or.inl hhandle)
  | startInitializer name hook =>
      rw [act]
      apply withHandle_changes
      intro hhandle
      exact .single (.start name hook hhandle)
  | close id limit =>
      apply withNewCall_changes
      intro hhandle hid
      exact .single (close_changes id limit hhandle hid)
  | awaitInitialized id =>
      apply withNewCall_changes
      intro hhandle hid
      exact .single (.await id hhandle hid)
  | abandon id => exact .single (.abandon id)
  | collect => exact collect_changes
  | discard => exact discard_changes
  | launch => exact launch_changes
  | initializerActs ticket => exact initializerActs_changes ticket
  | retire => exact retire_changes
  | closerEnters place => exact closerEnters_changes place
  | closerActs place => exact closerActs_changes place
  | expire => exact expire_changes
  | conclude => exact conclude_changes
  | answer id => exact answer_changes id

theorem elapse_changes (m : Manager) (millis : Nat) :
    Changes (.elapse millis) m (m.elapse millis) := by
  unfold elapse
  split
  next hquiet => exact .single (.elapse millis hquiet)
  next => exact .refl

/-- Every step of a run is a sequence of changes. -/
theorem step_changes (m : Manager) (step : Step) : Changes step m (m.step step) := by
  cases step with
  | act action => exact act_changes m action
  | elapse millis => exact elapse_changes m millis

/-! ## What every change does to the history and the time -/

/-- What is told of an instant goes to the end of the history. -/
theorem Change.exists_happenings {step : Step} {m m' : Manager} (hchange : Change step m m') :
    ∃ happenings : List Happening, m'.history = m.history ++ happenings.map (Moment.mk m.now) := by
  cases hchange with
  | queue | loseClosers | reject | start | begin | handOver | discard | initializerEnds | retire
  | closerLost | closerEnters | closerEnds | conclude | launchAlone => exact ⟨[_], rfl⟩
  | beginAlone | expire => exact ⟨_, rfl⟩
  | clone | drop | follow | await | abandon | take | launch | initializerRests | closerRests
  | answer | elapse => exact ⟨[], (List.append_nil _).symm⟩

theorem enabled_eq_nil_of_isQuietFor {millis : Nat} (h : m.isQuietFor millis = true) :
    m.enabled = [] := by
  simp only [isQuietFor, Bool.and_eq_true, List.isEmpty_iff] at h
  exact h.1

/-- Only where nothing is possible does time pass. -/
theorem Change.now_cases {step : Step} {m m' : Manager} (hchange : Change step m m') :
    m'.now = m.now ∨ m.enabled = [] := by
  cases hchange with
  | elapse millis hquiet => exact Or.inr (enabled_eq_nil_of_isQuietFor hquiet)
  | _ => exact Or.inl rfl

theorem Change.now_le {step : Step} {m m' : Manager} (hchange : Change step m m') :
    m.now ≤ m'.now := by
  cases hchange with
  | elapse => exact Nat.le_add_right _ _
  | _ => exact Nat.le_refl _

/-! ## Invariants of runs -/

@[simp] theorem run_nil (m : Manager) : m.run [] = m := rfl

theorem run_cons (m : Manager) (step : Step) (steps : List Step) :
    m.run (step :: steps) = (m.step step).run steps := rfl

theorem run_append (m : Manager) (first second : List Step) :
    m.run (first ++ second) = (m.run first).run second :=
  List.foldl_append

theorem run_concat (m : Manager) (steps : List Step) (step : Step) :
    m.run (steps ++ [step]) = (m.run steps).step step := by
  rw [run_append, run_cons, run_nil]

/-- What every change keeps, a step keeps. -/
theorem step_invariant {P : Manager → Prop} {step : Step}
    (hchange : ∀ {m m' : Manager}, Change step m m' → P m → P m')
    {m : Manager} (h : P m) : P (m.step step) := by
  have hkeep : ∀ {m' : Manager}, Changes step m m' → P m' := by
    intro m' hchanges
    induction hchanges with
    | refl => exact h
    | tail _ hlast ih => exact hchange hlast ih
  exact hkeep (step_changes m step)

/-- What every change of the steps of a run keeps, the run keeps. -/
theorem run_invariant {P : Manager → Prop} {steps : List Step}
    (hchange : ∀ step ∈ steps, ∀ {m m' : Manager}, Change step m m' → P m → P m')
    {m : Manager} (h : P m) : P (m.run steps) := by
  induction steps generalizing m with
  | nil => exact h
  | cons step rest ih =>
      rw [run_cons]
      apply ih
      · intro next hnext
        exact hchange next (List.mem_cons_of_mem _ hnext)
      · exact step_invariant (hchange step List.mem_cons_self) h

/-- A run goes on with the history. -/
theorem run_history (m : Manager) (steps : List Step) :
    ∃ added, (m.run steps).history = m.history ++ added := by
  apply run_invariant (P := fun m' => ∃ added, m'.history = m.history ++ added)
  · rintro step - m₁ m₂ hchange ⟨added, hadded⟩
    obtain ⟨happenings, hhappenings⟩ := hchange.exists_happenings
    exact ⟨added ++ happenings.map (Moment.mk m₁.now), by
      rw [hhappenings, hadded, List.append_assoc]⟩
  · exact ⟨[], (List.append_nil _).symm⟩

end Manager
end Lifecycle
end ServiceKit
