import ServiceKit.Lifecycle.Happening

/-!
# Lifecycle managers

A manager starts initializers as they come and keeps closers until its shutdown, which runs them all
at once and waits for them, up to a limit.  Its parts act independently and one step at a time: the
callers that hold handles, a collector that takes registrations from a mailbox in order, the
initializers, and the shutdown with its closers.  An action that is not possible changes nothing.
Time is in milliseconds.
-/

namespace ServiceKit
namespace Lifecycle

/-- What the collector finds in its mailbox. -/
inductive Command where
  | register (closer : Closer)
  | shutdown
  deriving Repr

/-- How far the collector is. -/
inductive Collector where
  /-- It takes commands and keeps the closers in order. -/
  | listening (queue : List Closer)
  /-- It has handed over the closers and stopped; the shutdown has not received them yet. -/
  | delivered (closers : List Closer)
  /-- It has stopped. -/
  | stopped
  deriving Repr

/-- A hook that has been entered and has not ended. -/
structure Running where
  name : String
  hook : Hook
  /-- When the hook registers and ends; `none` if nothing more comes of it. -/
  due : Option Nat
  /-- The turn among what is due at one time. -/
  ticket : Nat
  deriving DecidableEq, Repr

namespace Running

/-- The time of the hook has come. -/
def isDue (running : Running) (now : Nat) : Bool :=
  match running.due with
  | some time => time ≤ now
  | none => false

end Running

/-- A closer in a shutdown. -/
inductive Slot where
  /-- Its task has not run yet. -/
  | waiting (closer : Closer)
  | running (running : Running)
  | ended
  /-- Its task panicked outside a hook. -/
  | lost (name : String)
  | aborted
  deriving Repr

namespace Slot

/-- Something is still to come of the closer. -/
def isOpen : Slot → Bool
  | waiting _ => true
  | running _ => true
  | _ => false

/-- The name of a closer that did not end. -/
def unendedName? : Slot → Option String
  | waiting closer => some closer.name
  | running r => some r.name
  | lost name => some name
  | _ => none

/-- The closer after all tasks are aborted. -/
def abort : Slot → Slot
  | waiting _ => aborted
  | running _ => aborted
  | slot => slot

/-- What aborting the closer means for its hook. -/
def abortion? : Slot → Option Happening
  | waiting closer =>
    match closer.make with
    | .ok hook => some (.aborted closer.name hook.resource false)
    | .error _ => some (.aborted closer.name none false)
  | running r => some (.aborted r.name r.hook.resource true)
  | _ => none

end Slot

/-- A shutdown that runs closers. -/
structure Shutdown where
  limit : Option Duration
  /-- When the limit is reached. -/
  deadline : Option Nat
  /-- The turn of the deadline among what is due at one time. -/
  ticket : Nat
  /-- The closers in the order of registration. -/
  slots : List Slot
  /-- The failures of closers that ended. -/
  ended : List TimedFailure
  /-- The failures of closers that did not end in time. -/
  aborted : List Failure
  timedOut : Bool
  deriving Repr

namespace Shutdown

/-- The limit is not reached yet. -/
def isInTime (shutdown : Shutdown) (now : Nat) : Bool :=
  match shutdown.deadline with
  | some deadline => now < deadline
  | none => true

/-- Some closer has not come to its end. -/
def isUnfinished (shutdown : Shutdown) : Bool :=
  shutdown.slots.any Slot.isOpen

/-- The report of a finished shutdown. -/
def report (shutdown : Shutdown) : Report :=
  ⟨shutdown.slots.length, shutdown.ended, shutdown.aborted, shutdown.timedOut⟩

end Shutdown

/-- How far the shutdown of a manager is. -/
inductive Progress where
  | idle
  /-- It has begun and waits for the closers. -/
  | requested (limit : Option Duration)
  | underWay (shutdown : Shutdown)
  | done (report : Report)
  deriving Repr

/-- What a waiting call waits for. -/
inductive CallKind where
  /-- It began the shutdown and waits for the report. -/
  | owner
  /-- It waits for a shutdown that another call began. -/
  | follower
  /-- It waits until no initializer is pending. -/
  | initialized
  deriving DecidableEq, Repr

/-- A call that has not returned. -/
structure Call where
  id : Nat
  kind : CallKind
  deriving DecidableEq, Repr

/-- What a call returns. -/
inductive Answer where
  | report (report : Report)
  | failures (failures : List TimedFailure)
  deriving DecidableEq, Repr

/-- The return of a call. -/
structure Return where
  time : Nat
  id : Nat
  answer : Answer
  deriving DecidableEq, Repr

/-- A lifecycle manager. -/
structure Manager where
  now : Nat
  /-- The handles that callers hold. -/
  handles : Nat
  mailbox : List Command
  collector : Collector
  /-- The initializers that count as pending. -/
  pending : Nat
  /-- The initializers that have ended and still count as pending. -/
  leaving : Nat
  /-- The initializers that have not ended. -/
  initializers : List Running
  /-- The failures of initializers that no call has returned yet. -/
  undelivered : List TimedFailure
  progress : Progress
  /-- The calls that have not returned, the oldest first. -/
  calls : List Call
  returned : List Return
  /-- The next turn. -/
  ticket : Nat
  history : List Moment
  deriving Repr

namespace Manager

/-- A manager that begins to exist, with one handle. -/
def new (now : Nat) : Manager where
  now := now
  handles := 1
  mailbox := []
  collector := .listening []
  pending := 0
  leaving := 0
  initializers := []
  undelivered := []
  progress := .idle
  calls := []
  returned := []
  ticket := 0
  history := [⟨now, .created⟩]

/-- The state that callers see. -/
def state (m : Manager) : State :=
  match m.progress with
  | .idle => .running
  | .requested _ => .closing
  | .underWay _ => .closing
  | .done _ => .closed

/-- Adds a happening to the history. -/
def note (m : Manager) (happening : Happening) : Manager :=
  { m with history := m.history ++ [⟨m.now, happening⟩] }

/-- Adds happenings to the history. -/
def noteAll (m : Manager) (happenings : List Happening) : Manager :=
  { m with history := m.history ++ happenings.map (Moment.mk m.now) }

/-- A call of this id waits or has returned. -/
def hasCall (m : Manager) (id : Nat) : Bool :=
  m.calls.any (·.id == id) || m.returned.any (·.id == id)

/-- Something refers to the manager: a handle, a call, an initializer, a shutdown, or a closer that
will register another. -/
def isHeld (m : Manager) : Bool :=
  0 < m.handles || !m.calls.isEmpty || 0 < m.pending ||
    (match m.progress with
    | .requested _ => true
    | .underWay _ => true
    | _ => false) ||
    (match m.collector with
    | .listening queue => queue.any Closer.holdsManager
    | _ => false)

/-- A registration now would be accepted. -/
def accepts (m : Manager) : Bool :=
  match m.progress, m.collector with
  | .idle, .listening _ => true
  | _, _ => false

/-- Registers a closer, on behalf of a caller or of a hook. -/
def register (m : Manager) (source : Option Phase) (closer : Closer) : Manager :=
  match m.progress, m.collector with
  | .idle, .listening _ =>
    note { m with mailbox := m.mailbox ++ [.register closer] } (.queued source closer)
  | .idle, _ => m.note (.unsent source closer)
  | _, _ => m.note (.rejected source closer)

/-- Registers the closer that a hook registers before it ends. -/
def registerFrom (m : Manager) (phase : Phase) (hook : Hook) : Manager :=
  match hook.registers with
  | some name => m.register (some phase) (.immediate name)
  | none => m

/-- Starts an initializer.  Its hook counts as entered in this step of the caller, although a task of
its own enters it when it is first polled.  No time passes between the two. -/
def startInitializer (m : Manager) (name : String) (hook : Hook) : Manager :=
  note { m with
    pending := m.pending + 1
    initializers := m.initializers ++ [⟨name, hook, hook.due? m.now, m.ticket⟩]
    ticket := m.ticket + 1 } (.entered .setUp name hook.resource)

/-- The shutdown begins unless it has begun already; the call waits for its end. -/
def close (m : Manager) (id : Nat) (limit : Option Duration) : Manager :=
  match m.progress, m.collector with
  | .idle, .listening _ =>
    note { m with
      progress := .requested limit
      mailbox := m.mailbox ++ [.shutdown]
      calls := m.calls ++ [⟨id, .owner⟩] } .shutdownBegun
  | .idle, _ =>
    noteAll { m with
      progress := .requested limit
      calls := m.calls ++ [⟨id, .owner⟩] } [.shutdownBegun, .collectorGone]
  | _, _ => { m with calls := m.calls ++ [⟨id, .follower⟩] }

/-- A call waits until no initializer is pending. -/
def awaitInitialized (m : Manager) (id : Nat) : Manager :=
  { m with calls := m.calls ++ [⟨id, .initialized⟩] }

/-- A call is dropped before it returns. -/
def abandon (m : Manager) (id : Nat) : Manager :=
  { m with calls := m.calls.filter (·.id ≠ id) }

/-- The collector takes a command: it keeps a closer, or hands all closers over and stops. -/
def collect (m : Manager) : Manager :=
  match m.collector, m.mailbox with
  | .listening queue, .register closer :: rest =>
    { m with collector := .listening (queue ++ [closer]), mailbox := rest }
  | .listening queue, .shutdown :: rest =>
    note { m with collector := .delivered queue, mailbox := rest } (.handedOver queue)
  | _, _ => m

/-- The collector stops because nothing refers to the manager any more. -/
def discard (m : Manager) : Manager :=
  match m.collector, m.mailbox with
  | .listening _, [] =>
    if m.isHeld then m else note { m with collector := .stopped } .discarded
  | _, _ => m

/-- Begins to run closers.  A limit counts as it is, however long. -/
def runClosers (m : Manager) (limit : Option Duration) (closers : List Closer) : Manager :=
  { m with
    progress := .underWay {
      limit := limit
      deadline := limit.map fun d => m.now + d.millisUp
      ticket := m.ticket
      slots := closers.map .waiting
      ended := []
      aborted := []
      timedOut := false }
    collector := .stopped
    ticket := m.ticket + 1 }

/-- The shutdown receives the closers and begins to run them. -/
def launch (m : Manager) : Manager :=
  match m.progress, m.collector with
  | .requested limit, .delivered closers => m.runClosers limit closers
  | .requested limit, .stopped => (m.note .collectorStopped).runClosers limit []
  | _, _ => m

/-- The initializer with a ticket registers and ends, if its time has come. -/
def initializerActs (m : Manager) (ticket : Nat) : Manager :=
  match m.initializers.find? fun r => r.ticket == ticket && r.isDue m.now with
  | none => m
  | some r =>
    let m := m.registerFrom .setUp r.hook
    match r.hook.ending with
    | none =>
      { m with
        initializers :=
          m.initializers.map fun s => if s.ticket = ticket then { s with due := none } else s }
    | some ending =>
      note { m with
        initializers := m.initializers.filter (·.ticket ≠ ticket)
        leaving := m.leaving + 1
        undelivered :=
          m.undelivered ++ TimedFailure.ofEnding m.now .setUp r.name ending }
        (.ended .setUp r.name r.hook.resource ending)

/-- An initializer that has ended stops counting as pending. -/
def retire (m : Manager) : Manager :=
  match m.leaving with
  | 0 => m
  | n + 1 => note { m with leaving := n, pending := m.pending - 1 } .retired

/-- The task of a closer runs for the first time.  It takes a ticket and enters the hook, unless the
call that makes the hook panics. -/
def closerEnters (m : Manager) (k : Nat) : Manager :=
  match m.progress with
  | .underWay s =>
    match s.slots[k]? with
    | some (.waiting closer) =>
      if s.isInTime m.now then
        match closer.make with
        | .error _ =>
          note { m with
            progress := .underWay { s with slots := s.slots.set k (.lost closer.name) }
            ticket := m.ticket + 1 } (.lost closer.name)
        | .ok hook =>
          let running := ⟨closer.name, hook, hook.due? m.now, m.ticket⟩
          note { m with
            progress := .underWay { s with slots := s.slots.set k (.running running) }
            ticket := m.ticket + 1 } (.entered .close closer.name hook.resource)
      else m
    | _ => m
  | _ => m

/-- The hook of a closer registers and ends, if its time has come before the limit is reached. -/
def closerActs (m : Manager) (k : Nat) : Manager :=
  match m.progress with
  | .underWay s =>
    match s.slots[k]? with
    | some (.running r) =>
      if s.isInTime m.now && r.isDue m.now then
        let m := m.registerFrom .close r.hook
        match r.hook.ending with
        | none =>
          { m with
            progress :=
              .underWay { s with slots := s.slots.set k (.running { r with due := none }) } }
        | some ending =>
          note { m with
            progress := .underWay { s with
              slots := s.slots.set k .ended
              ended := s.ended ++ TimedFailure.ofEnding m.now .close r.name ending } }
            (.ended .close r.name r.hook.resource ending)
      else m
    | _ => m
  | _ => m

/-- The limit is reached: every closer that has not ended is aborted. -/
def expire (m : Manager) : Manager :=
  match m.progress with
  | .underWay s =>
    match s.limit with
    | some limit =>
      if s.isUnfinished && !s.isInTime m.now then
        noteAll { m with
          progress := .underWay { s with
            slots := s.slots.map Slot.abort
            aborted :=
              (s.slots.filterMap Slot.unendedName?).map fun name =>
                ⟨.close, name, abortReason limit⟩
            timedOut := true } }
          (.expired limit (s.slots.countP Slot.isOpen) :: s.slots.filterMap Slot.abortion?)
      else m
    | none => m
  | _ => m

/-- The shutdown is complete once every closer has ended or is aborted. -/
def conclude (m : Manager) : Manager :=
  match m.progress with
  | .underWay s =>
    if s.isUnfinished then m
    else note { m with progress := .done s.report } (.completed s.report)
  | _ => m

/-- What a call of a kind would return now. -/
def answer? (m : Manager) (kind : CallKind) : Option Answer :=
  match kind, m.progress with
  | .owner, .done report => some (.report report)
  | .follower, .done _ => some (.report .empty)
  | .initialized, _ => if m.pending = 0 then some (.failures m.undelivered) else none
  | _, _ => none

/-- The failures that remain after a call of a kind has returned. -/
def remaining (m : Manager) (kind : CallKind) : List TimedFailure :=
  match kind with
  | .initialized => []
  | _ => m.undelivered

/-- A call returns, if what it waits for has come. -/
def answer (m : Manager) (id : Nat) : Manager :=
  match m.calls.find? (·.id == id) with
  | none => m
  | some call =>
    match m.answer? call.kind with
    | none => m
    | some value =>
      { m with
        calls := m.calls.filter (·.id ≠ id)
        undelivered := m.remaining call.kind
        returned := m.returned ++ [⟨m.now, id, value⟩] }

/-- What a call returned. -/
def returned? (m : Manager) (id : Nat) : Option Answer :=
  (m.returned.find? (·.id == id)).map Return.answer

/-- The text that describes a manager. -/
def describe (m : Manager) : String :=
  "LifecycleManager \x7b id: <id>, state: " ++ m.state.text ++ ", pending_initializations: " ++
    String.ofList (Numeral.digits m.pending) ++ ", .. \x7d"

end Manager
end Lifecycle
end ServiceKit
