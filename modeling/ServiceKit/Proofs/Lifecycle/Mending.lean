import Mathlib.Tactic.Simps.Basic
import ServiceKit.Proofs.Lifecycle.Forgetting
import ServiceKit.Proofs.Lifecycle.History

/-!
# A manager in which every hook that ends succeeds

Mending a manager makes a success of every end of a hook and empties the lists of failures.  A
closer that panics when it is called, and so has no hook, gets one that succeeds at once.  No step
asks how a hook ended, so mending commutes with all of them.  Only a call that panics is one step
where a hook that succeeds takes two: its task enters it, and it ends.
-/

namespace ServiceKit
namespace Lifecycle

/-! ## What is mended -/

/-- The hook that ends when this one does, and succeeds. -/
@[simps]
def Hook.mend (hook : Hook) : Hook :=
  { hook with ending := hook.ending.map fun _ => .success }

/-- The hook of a mended closer. -/
def Closer.mendedHook (closer : Closer) : Hook :=
  match closer.make with
  | .ok hook => hook.mend
  | .error _ => .immediate

@[simps]
def Closer.mend (closer : Closer) : Closer :=
  { closer with make := .ok closer.mendedHook }

@[simps]
def Running.mend (running : Running) : Running :=
  { running with hook := running.hook.mend }

def Slot.mend : Slot → Slot
  | .waiting closer => .waiting closer.mend
  | .running r => .running r.mend
  | .ended => .ended
  | .lost _ => .ended
  | .aborted => .aborted

@[simps]
def Shutdown.mend (s : Shutdown) : Shutdown :=
  { s with slots := s.slots.map Slot.mend, ended := [], aborted := [] }

/-- The report without its failures. -/
@[simps]
def Report.mend (report : Report) : Report :=
  { report with ended := [], aborted := [] }

@[simp]
def Progress.mend : Progress → Progress
  | .idle => .idle
  | .requested limit => .requested limit
  | .underWay s => .underWay s.mend
  | .done report => .done report.mend

@[simp]
def Command.mend : Command → Command
  | .register closer => .register closer.mend
  | .shutdown => .shutdown

@[simp]
def Collector.mend : Collector → Collector
  | .listening queue => .listening (queue.map Closer.mend)
  | .delivered closers => .delivered (closers.map Closer.mend)
  | .stopped => .stopped

@[simp]
def Answer.mend : Answer → Answer
  | .report outcome => .report outcome.mend
  | .failures _ => .failures []

@[simps]
def Return.mend (r : Return) : Return :=
  { r with answer := r.answer.mend }

/-- What happens instead where hooks end with success. -/
@[simp]
def Happening.mend : Happening → List Happening
  | .queued source closer => [.queued source closer.mend]
  | .rejected source closer => [.rejected source closer.mend]
  | .unsent source closer => [.unsent source closer.mend]
  | .ended phase name resource _ => [.ended phase name resource .success]
  | .handedOver closers => [.handedOver (closers.map Closer.mend)]
  | .lost name => [.entered .close name none, .ended .close name none .success]
  | .completed report => [.completed report.mend]
  | happening => [happening]

@[simp]
def Moment.mend (moment : Moment) : List Moment :=
  moment.happening.mend.map (Moment.mk moment.time)

@[simp]
def Action.mend : Action → Action
  | .register closer => .register closer.mend
  | .startInitializer name hook => .startInitializer name hook.mend
  | action => action

@[simp]
def Manager.Step.mend : Manager.Step → Manager.Step
  | .act action => .act action.mend
  | .elapse millis => .elapse millis

/-- The manager in which every hook that has ended or will end does so with success, and nobody has
been told of failures. -/
@[simps]
def Manager.mend (m : Manager) : Manager :=
  { m with
    mailbox := m.mailbox.map Command.mend
    collector := m.collector.mend
    initializers := m.initializers.map Running.mend
    undelivered := []
    progress := m.progress.mend
    returned := m.returned.map Return.mend
    history := m.history.flatMap Moment.mend }

/-! ## What is mended stays as it is -/

@[simp] theorem Hook.mend_mend (hook : Hook) : hook.mend.mend = hook.mend := by
  simp [mend, Function.comp_def]

@[simp] theorem Closer.mend_mend (closer : Closer) : closer.mend.mend = closer.mend := by
  rw [mend, mend, mendedHook]
  cases closer.make with
  | ok hook => simp [mendedHook]
  | error panic => simp [mendedHook, Hook.immediate, Hook.mend]

@[simp] theorem Running.mend_mend (r : Running) : r.mend.mend = r.mend := by
  simp [mend]

@[simp] theorem Slot.mend_mend (slot : Slot) : slot.mend.mend = slot.mend := by
  cases slot <;> simp [mend]

@[simp] theorem Shutdown.mend_mend (s : Shutdown) : s.mend.mend = s.mend := by
  simp [mend, Function.comp_def]

@[simp] theorem Report.mend_mend (report : Report) : report.mend.mend = report.mend := rfl

@[simp] theorem Progress.mend_mend (progress : Progress) : progress.mend.mend = progress.mend := by
  cases progress <;> simp

@[simp] theorem Command.mend_mend (command : Command) : command.mend.mend = command.mend := by
  cases command <;> simp

@[simp] theorem Collector.mend_mend (collector : Collector) :
    collector.mend.mend = collector.mend := by
  cases collector <;> simp [Function.comp_def]

@[simp] theorem Answer.mend_mend (answer : Answer) : answer.mend.mend = answer.mend := by
  cases answer <;> simp

@[simp] theorem Return.mend_mend (r : Return) : r.mend.mend = r.mend := by
  rw [mend, mend, Answer.mend_mend]

@[simp] theorem Happening.flatMap_mend (happening : Happening) :
    happening.mend.flatMap mend = happening.mend := by
  cases happening <;> simp [Function.comp_def]

@[simp] theorem Moment.flatMap_mend (moment : Moment) :
    moment.mend.flatMap mend = moment.mend := by
  have hmap : ∀ time happenings, (List.map (Moment.mk time) happenings).flatMap Moment.mend =
      (happenings.flatMap Happening.mend).map (Moment.mk time) := by
    intro time happenings
    rw [List.flatMap_map, List.map_flatMap]
    rfl
  rw [mend, hmap, Happening.flatMap_mend]

@[simp] theorem Action.mend_mend (action : Action) : action.mend.mend = action.mend := by
  cases action <;> simp

@[simp] theorem Manager.Step.mend_mend (step : Manager.Step) : step.mend.mend = step.mend := by
  cases step with
  | act action => exact congrArg act action.mend_mend
  | elapse millis => rfl

@[simp] theorem Manager.mend_mend (m : Manager) : m.mend.mend = m.mend := by
  simp only [mend, List.map_map, Function.comp_def, Command.mend_mend, Collector.mend_mend,
    Running.mend_mend, Progress.mend_mend, Return.mend_mend, List.flatMap_assoc,
    Moment.flatMap_mend]

/-! ## What does not depend on how hooks end -/

@[simp] theorem Hook.due?_mend (hook : Hook) (now : Nat) : hook.mend.due? now = hook.due? now := by
  simp [due?]

@[simp] theorem Closer.holdsManager_mend (closer : Closer) :
    closer.mend.holdsManager = closer.holdsManager := by
  cases hmake : closer.make <;> simp [holdsManager, mendedHook, hmake, Hook.immediate]

@[simp] theorem Running.isDue_mend (r : Running) (now : Nat) : r.mend.isDue now = r.isDue now := rfl

@[simp] theorem Slot.isOpen_mend (slot : Slot) : slot.mend.isOpen = slot.isOpen := by
  cases slot <;> rfl

@[simp] theorem Slot.abort_mend (slot : Slot) : slot.mend.abort = slot.abort.mend := by
  cases slot <;> rfl

@[simp] theorem Slot.abortion?_mend (slot : Slot) : slot.mend.abortion? = slot.abortion? := by
  cases slot with
  | waiting closer =>
      cases hmake : closer.make <;>
        simp [mend, abortion?, Closer.mendedHook, hmake, Hook.immediate]
  | running r | ended | lost name | aborted => rfl

@[simp] theorem Shutdown.isInTime_mend (s : Shutdown) (now : Nat) :
    s.mend.isInTime now = s.isInTime now := rfl

@[simp] theorem Shutdown.isUnfinished_mend (s : Shutdown) :
    s.mend.isUnfinished = s.isUnfinished := by
  simp [isUnfinished, Function.comp_def]

theorem Shutdown.report_mend (s : Shutdown) : s.mend.report = s.report.mend := by
  simp [report, Report.mend]

namespace Manager

variable {m : Manager}

theorem state_mend : m.mend.state = m.state := by
  cases hprogress : m.progress <;> simp [state, hprogress]

theorem accepts_mend : m.mend.accepts = m.accepts := by
  cases hprogress : m.progress <;> cases hcollector : m.collector <;>
    simp [accepts, hprogress, hcollector]

theorem isHeld_mend : m.mend.isHeld = m.isHeld := by
  cases hprogress : m.progress <;> cases hcollector : m.collector <;>
    simp [isHeld, hprogress, hcollector, Function.comp_def]

theorem hasCall_mend (id : Nat) : m.mend.hasCall id = m.hasCall id := by
  simp [hasCall, Function.comp_def]

theorem answer?_mend (kind : CallKind) :
    m.mend.answer? kind = (m.answer? kind).map Answer.mend := by
  cases kind with
  | owner => cases hprogress : m.progress <;> simp [answer?, hprogress]
  | follower =>
      cases hprogress : m.progress <;> simp [answer?, hprogress, Report.mend, Report.empty]
  | initialized => by_cases hpending : m.pending = 0 <;> simp [answer?, hpending]

/-! ## What callers do -/

theorem note_mend (happening : Happening) :
    (m.note happening).mend = m.mend.noteAll happening.mend := by
  simp [note, noteAll, mend]

theorem noteAll_singleton (happening : Happening) : m.noteAll [happening] = m.note happening :=
  rfl

theorem noteAll_mend (happenings : List Happening) :
    (m.noteAll happenings).mend = m.mend.noteAll (happenings.flatMap Happening.mend) := by
  simp [noteAll, mend, List.flatMap_map, List.map_flatMap]

theorem register_mend (source : Option Phase) (closer : Closer) :
    (m.register source closer).mend = m.mend.register source closer.mend := by
  cases hprogress : m.progress <;> cases hcollector : m.collector <;>
    simp [register, hprogress, hcollector, note, mend]

theorem registerFrom_mend (phase : Phase) (hook : Hook) :
    (m.registerFrom phase hook).mend = m.mend.registerFrom phase hook.mend := by
  cases hregisters : hook.registers with
  | none => simp [registerFrom, hregisters]
  | some name =>
      -- The registered closer succeeds at once, so it is the same when mended.
      simp only [registerFrom, Hook.mend_registers, hregisters]
      exact register_mend _ _

theorem startInitializer_mend (name : String) (hook : Hook) :
    (m.startInitializer name hook).mend = m.mend.startInitializer name hook.mend := by
  simp [startInitializer, note, mend, Running.mend]

theorem close_mend (id : Nat) (limit : Option Duration) :
    (m.close id limit).mend = m.mend.close id limit := by
  cases hprogress : m.progress <;> cases hcollector : m.collector <;>
    simp [close, hprogress, hcollector, note, noteAll, mend]

/-! ## What the parts of the manager do -/

theorem collect_mend : m.collect.mend = m.mend.collect := by
  cases hcollector : m.collector with
  | listening queue =>
      rcases hmailbox : m.mailbox with _ | ⟨command, rest⟩
      · simp [collect, hcollector, hmailbox]
      · cases command <;> simp [collect, hcollector, hmailbox, note, mend]
  | delivered closers | stopped => simp [collect, hcollector]

theorem discard_mend : m.discard.mend = m.mend.discard := by
  cases hcollector : m.collector with
  | listening queue =>
      rcases hmailbox : m.mailbox with _ | ⟨command, rest⟩
      · simp only [discard, hcollector, hmailbox, mend_collector, Collector.mend, mend_mailbox,
          List.map_nil, isHeld_mend]
        split
        · rfl
        · simp [note, mend]
      · simp [discard, hcollector, hmailbox]
  | delivered closers | stopped => simp [discard, hcollector]

theorem runClosers_mend (limit : Option Duration) (closers : List Closer) :
    (m.runClosers limit closers).mend = m.mend.runClosers limit (closers.map Closer.mend) := by
  simp [runClosers, mend, Shutdown.mend, Slot.mend, Function.comp_def]

theorem launch_mend : m.launch.mend = m.mend.launch := by
  cases hprogress : m.progress <;> cases hcollector : m.collector <;>
    simp [launch, hprogress, hcollector, runClosers_mend, note_mend, noteAll_singleton]

theorem initializerActs_mend (ticket : Nat) :
    (m.initializerActs ticket).mend = m.mend.initializerActs ticket := by
  have hfind : (m.mend.initializers.find? fun r => r.ticket == ticket && r.isDue m.mend.now) =
      (m.initializers.find? fun r => r.ticket == ticket && r.isDue m.now).map Running.mend := by
    simp [List.find?_map, Function.comp_def]
  unfold initializerActs
  rw [hfind]
  cases m.initializers.find? fun r => r.ticket == ticket && r.isDue m.now with
  | none => rfl
  | some r =>
      -- The hook registers before it ends, so the rest is about the manager after that.
      simp only [Option.map_some, Running.mend_hook, ← registerFrom_mend]
      cases hending : r.hook.ending with
      | none =>
          have hrest : ∀ s : Running,
              (if s.ticket = ticket then { s with due := none } else s).mend =
                if s.mend.ticket = ticket then { s.mend with due := none } else s.mend := by
            intro s
            rw [Running.mend_ticket]
            split <;> rfl
          simp [hending, mend, hrest, Function.comp_def]
      | some ending =>
          simp [hending, note, mend, List.filter_map, Function.comp_def]

theorem retire_mend : m.retire.mend = m.mend.retire := by
  cases hleaving : m.leaving <;> simp [retire, hleaving, note, mend]

/-- The task of the closer at a place would panic before it has a hook, if it ran now. -/
def losesAt (m : Manager) (k : Nat) : Bool :=
  match m.progress with
  | .underWay s =>
    match s.slots[k]? with
    | some (.waiting closer) => s.isInTime m.now && !closer.make.isOk
    | _ => false
  | _ => false

theorem losesAt_iff {k : Nat} : m.losesAt k = true ↔ ∃ s closer panic,
    m.progress = .underWay s ∧ s.slots[k]? = some (.waiting closer) ∧
      s.isInTime m.now = true ∧ closer.make = .error panic := by
  unfold losesAt
  constructor
  · intro h
    split at h
    next s hprogress =>
      split at h
      next closer hslot =>
        rw [Bool.and_eq_true] at h
        cases hmake : closer.make with
        | ok hook => simp [hmake, Except.isOk, Except.toBool] at h
        | error panic => exact ⟨s, closer, panic, hprogress, hslot, h.1, hmake⟩
      next => contradiction
    next => contradiction
  · rintro ⟨s, closer, panic, hprogress, hslot, htime, hmake⟩
    simp [hprogress, hslot, htime, hmake, Except.isOk, Except.toBool]

theorem closerEnters_mend {k : Nat} (h : m.losesAt k = false) :
    (m.closerEnters k).mend = m.mend.closerEnters k := by
  unfold closerEnters
  cases hprogress : m.progress with
  | idle | requested limit | done report => simp [hprogress]
  | underWay s =>
      simp only [mend_progress, hprogress, Progress.mend, Shutdown.mend_slots, List.getElem?_map]
      rcases hslot : s.slots[k]? with _ | ⟨closer | r | _ | name | _⟩
      · rfl
      · simp only [Option.map_some, Slot.mend, Shutdown.isInTime_mend, mend_now]
        by_cases htime : s.isInTime m.now = true
        · simp only [htime, if_true, Closer.mend_make]
          cases hmake : closer.make with
          | error panic =>
              rw [losesAt_iff.mpr ⟨s, closer, panic, hprogress, hslot, htime, hmake⟩] at h
              contradiction
          | ok hook =>
              simp [note, mend, Shutdown.mend, Slot.mend, Running.mend, Closer.mendedHook, hmake]
        · simp only [htime, if_false, Bool.false_eq_true]
      all_goals rfl

/-- Where the call of a closer panics, the mended closer is entered and ends. -/
theorem closerEnters_mend_of_loses {k : Nat} (h : m.losesAt k = true) :
    (m.closerEnters k).mend = (m.mend.closerEnters k).closerActs k := by
  obtain ⟨s, closer, panic, hprogress, hslot, htime, hmake⟩ := losesAt_iff.mp h
  have hhook : closer.mendedHook = .immediate := by rw [Closer.mendedHook, hmake]
  have hlength : k < s.slots.length := (List.getElem?_eq_some_iff.mp hslot).1
  have hlost : m.closerEnters k = note { m with
      progress := .underWay { s with slots := s.slots.set k (.lost closer.name) }
      ticket := m.ticket + 1 } (.lost closer.name) := by
    simp only [closerEnters, hprogress, hslot, htime, hmake, if_true]
  have hentered : m.mend.closerEnters k = note { m.mend with
      progress := .underWay { s.mend with
        slots := s.mend.slots.set k (.running ⟨closer.name, .immediate, some m.now, m.ticket⟩) }
      ticket := m.ticket + 1 } (.entered .close closer.name none) := by
    simp only [closerEnters, mend_progress, hprogress, Progress.mend, Shutdown.mend_slots,
      List.getElem?_map, hslot, Option.map_some, Slot.mend, Shutdown.isInTime_mend, mend_now, htime,
      if_true, Closer.mend_make, hhook]
    rfl
  rw [hlost, hentered]
  simp [closerActs, note, mend, Shutdown.isInTime, Running.isDue, registerFrom, Hook.immediate,
    hlength, Shutdown.mend, Slot.mend]
  exact htime

theorem closerActs_mend (k : Nat) : (m.closerActs k).mend = m.mend.closerActs k := by
  unfold closerActs
  cases hprogress : m.progress with
  | idle | requested limit | done report => simp [hprogress]
  | underWay s =>
      simp only [mend_progress, hprogress, Progress.mend, Shutdown.mend_slots, List.getElem?_map]
      rcases hslot : s.slots[k]? with _ | ⟨closer | r | _ | name | _⟩
      · rfl
      · rfl
      · simp only [Option.map_some, Slot.mend, Shutdown.isInTime_mend, mend_now,
          Running.isDue_mend, Running.mend_hook, ← registerFrom_mend]
        by_cases htime : (s.isInTime m.now && r.isDue m.now) = true
        · simp only [htime, if_true]
          cases hending : r.hook.ending with
          | none => simp [hending, mend, Shutdown.mend, Slot.mend, Running.mend]
          | some ending =>
            simp [hending, note, mend, Shutdown.mend, Slot.mend]
        · simp only [htime, if_false, Bool.false_eq_true]
      all_goals rfl

theorem mend_underWay {s t : Shutdown} (h : s.mend = t.mend) :
    ({ m with progress := .underWay s } : Manager).mend =
      ({ m.mend with progress := .underWay t } : Manager).mend := by
  have hmended : ({ m.mend with progress := .underWay t } : Manager).mend =
      { m.mend.mend with progress := .underWay t.mend } := rfl
  rw [hmended, mend_mend, ← h]
  rfl

/-- The closers that the limit aborts are listed among the failures, so here the mended manager has
to be mended again. -/
theorem expire_mend : m.expire.mend = m.mend.expire.mend := by
  unfold expire
  cases hprogress : m.progress with
  | idle | requested limit | done report =>
      simp only [mend_progress, hprogress, Progress.mend, mend_mend]
  | underWay s =>
      cases hlimit : s.limit with
      | none =>
          simp only [mend_progress, hprogress, Progress.mend, Shutdown.mend_limit, hlimit,
            mend_mend]
      | some limit =>
          simp only [mend_progress, hprogress, Progress.mend, Shutdown.mend_limit, hlimit,
            Shutdown.isUnfinished_mend, Shutdown.isInTime_mend, mend_now]
          split
          next =>
            have hcount : s.mend.slots.countP Slot.isOpen = s.slots.countP Slot.isOpen := by
              simp [Function.comp_def]
            have habortions : s.mend.slots.filterMap Slot.abortion? =
                s.slots.filterMap Slot.abortion? := by
              simp
            have hslots : (s.slots.map Slot.abort).map Slot.mend =
                (s.mend.slots.map Slot.abort).map Slot.mend := by
              simp [Function.comp_def]
            rw [noteAll_mend, noteAll_mend, hcount, habortions]
            refine congrArg (noteAll · _) (mend_underWay ?_)
            simp only [Shutdown.mend, hslots]
          next => rw [mend_mend]

theorem conclude_mend : m.conclude.mend = m.mend.conclude := by
  unfold conclude
  cases hprogress : m.progress with
  | idle | requested limit | done report => simp [hprogress]
  | underWay s =>
      simp only [mend_progress, hprogress, Progress.mend, Shutdown.isUnfinished_mend,
        Shutdown.report_mend]
      split
      · rfl
      · simp [note, mend]

/-! ## What calls return -/

theorem remaining_mend (kind : CallKind) : m.mend.remaining kind = [] := by
  cases kind <;> rfl

theorem answer_mend (id : Nat) : (m.answer id).mend = m.mend.answer id := by
  unfold answer
  rw [mend_calls]
  cases m.calls.find? (·.id == id) with
  | none => rfl
  | some call =>
      simp only [answer?_mend]
      cases m.answer? call.kind with
      | none => rfl
      | some value =>
          simp only [Option.map_some, remaining_mend]
          simp [mend, Return.mend]

/-! ## What is possible and when -/

theorem dueInitializers_mend : m.mend.dueInitializers = m.dueInitializers := by
  simp [dueInitializers, List.filter_map, Function.comp_def]

theorem dueCloser_mend (now : Nat) (slot : Slot × Nat) :
    dueCloser now (Prod.map Slot.mend id slot) = dueCloser now slot := by
  obtain ⟨slot, place⟩ := slot
  cases slot <;> rfl

theorem entry_mend (slot : Slot × Nat) : entry (Prod.map Slot.mend id slot) = entry slot := by
  obtain ⟨slot, place⟩ := slot
  cases slot <;> rfl

theorem slotTime?_mend (slot : Slot) : slotTime? slot.mend = slotTime? slot := by
  cases slot <;> rfl

theorem dueClosers_mend : m.mend.dueClosers = m.dueClosers := by
  cases hprogress : m.progress <;>
    simp [dueClosers, hprogress, List.zipIdx_map, dueCloser_mend]

theorem collectorActions_mend : m.mend.collectorActions = m.collectorActions := by
  cases hcollector : m.collector <;> cases hmailbox : m.mailbox <;>
    simp [collectorActions, hcollector, hmailbox, isHeld_mend]

theorem shutdownActions_mend : m.mend.shutdownActions = m.shutdownActions := by
  cases hprogress : m.progress <;> cases hcollector : m.collector <;>
    simp [shutdownActions, hprogress, hcollector, List.zipIdx_map, entry_mend]

theorem returnActions_mend : m.mend.returnActions = m.returnActions := by
  simp [returnActions, answer?_mend]

/-- How hooks have ended does not matter for what is possible. -/
theorem enabled_mend : m.mend.enabled = m.enabled := by
  simp only [enabled, dueActions, dueInitializers_mend, dueClosers_mend, collectorActions_mend,
    shutdownActions_mend, returnActions_mend, mend_leaving]

theorem times_mend : m.mend.times = m.times := by
  have hinitializers : m.mend.initializers.filterMap Running.due =
      m.initializers.filterMap Running.due := by
    simp
  have hshutdown : m.mend.shutdownTimes = m.shutdownTimes := by
    cases hprogress : m.progress <;>
      simp [shutdownTimes, hprogress, slotTime?_mend]
  rw [times, times, hinitializers, hshutdown]

theorem elapse_mend (millis : Nat) : (m.elapse millis).mend = m.mend.elapse millis := by
  have hquiet : m.mend.isQuietFor millis = m.isQuietFor millis := by
    rw [isQuietFor, isQuietFor, enabled_mend, times_mend, mend_now]
  unfold elapse
  rw [hquiet]
  split <;> rfl

/-! ## Steps -/

variable {action : Action}

theorem act_mend_of_ne (hkept : ∀ k, action = .closerEnters k → m.losesAt k = false)
    (hne : action ≠ .expire) : (m.act action).mend = m.mend.act action.mend := by
  cases action with
  | clone | drop =>
      simp only [Action.mend, act]
      apply withHandle_comm mend rfl
      rfl
  | register closer =>
      simp only [Action.mend, act]
      apply withHandle_comm mend rfl
      exact register_mend none closer
  | startInitializer name hook =>
      simp only [Action.mend, act]
      apply withHandle_comm mend rfl
      exact startInitializer_mend name hook
  | close id limit => exact withNewCall_comm mend (hasCall_mend id) rfl (close_mend id limit)
  | awaitInitialized id => exact withNewCall_comm mend (hasCall_mend id) rfl rfl
  | abandon id => rfl
  | collect => exact collect_mend
  | discard => exact discard_mend
  | launch => exact launch_mend
  | initializerActs ticket => exact initializerActs_mend ticket
  | retire => exact retire_mend
  | closerEnters k => exact closerEnters_mend (hkept k rfl)
  | closerActs k => exact closerActs_mend k
  | expire => contradiction
  | conclude => exact conclude_mend
  | answer id => exact answer_mend id

/-- Where no call of a closer panics, a mended manager goes on as the manager does. -/
theorem step_mend {step : Step} (hkept : ∀ k, step = .act (.closerEnters k) → m.losesAt k = false) :
    (m.step step).mend = (m.mend.step step.mend).mend := by
  cases step with
  | elapse millis =>
      have hexact : (m.step (.elapse millis)).mend = m.mend.step (.elapse millis) :=
        elapse_mend millis
      rw [Step.mend, ← hexact, mend_mend]
  | act action =>
      by_cases hexpire : action = .expire
      · subst hexpire
        exact expire_mend
      · have hexact : (m.step (.act action)).mend = m.mend.step (.act action.mend) := by
          refine act_mend_of_ne (fun k hk => hkept k ?_) hexpire
          rw [hk]
        rw [Step.mend, ← hexact, mend_mend]

end Manager
end Lifecycle
end ServiceKit
