import ServiceKit.Lifecycle.Mock
import ServiceKit.Lifecycle.Signal

/-!
# Scenarios

A scenario is a sequence of operations on managers that are held in numbered slots.  An operation
that waits lets time pass until it is answered.  After each operation everything that is possible at
that time is done, and a snapshot shows the time, the manager of a slot, and what has happened since
the snapshot before.
-/

namespace ServiceKit
namespace Lifecycle

/-- Something to manage. -/
inductive Managed where
  | item (item : Item)
  | mock (resource : MockResource)
  deriving Repr

/-- An operation on the manager of a slot. -/
inductive Operation where
  | startInitializers (items : List Managed)
  | registerClosers (items : List Managed)
  | manage (items : List Managed)
  | awaitInitialized
  | close (limit : Option Duration)
  /-- Asks for the shutdown without waiting for its end. -/
  | closeInBackground (limit : Option Duration)
  /-- Waits for the oldest call in the background that has not been joined. -/
  | join
  /-- Asks which calls in the background have returned. -/
  | joinable
  /-- Waits for the shutdown, but drops the call after some time. -/
  | closeAbandoned (after : Nat)
  | advance (millis : Nat)
  /-- Puts a new manager into the slot. -/
  | create
  /-- Puts another handle of the manager into a slot. -/
  | clone (slot : Nat)
  /-- Empties the slot. -/
  | drop
  /-- Asks if another slot holds the same manager. -/
  | sameManager (slot : Nat)
  | describe
  deriving Repr

/-- The answer to an operation. -/
inductive Reply where
  | done
  | managed (result : Except ServiceError Unit)
  | failures (failures : List TimedFailure)
  | report (report : Report)
  | abandoned
  | finished (calls : List Bool)
  | same (value : Bool)
  | text (value : String)
  /-- The operation would wait for ever, or its slot is empty. -/
  | unanswered

/-- The reply with what a call returned. -/
def Reply.ofAnswer : Option Answer → Reply
  | some (.report r) => .report r
  | some (.failures fs) => .failures fs
  | none => .unanswered

/-- How a hook ended, or how a registration in a hook went. -/
inductive Outcome where
  | succeeded
  | failed
  | panicked
  | registered
  | rejected
  deriving DecidableEq, Repr

/-- The name of an outcome. -/
def Outcome.text : Outcome → String
  | .succeeded => "ok"
  | .failed => "fail"
  | .panicked => "panic"
  | .registered => "registered"
  | .rejected => "rejected"

/-- The outcome of an ending. -/
def Outcome.ofEnding : Ending → Outcome
  | .success => .succeeded
  | .failure _ => .failed
  | .panic _ => .panicked

/-- An observed event of a hook. -/
structure Observation where
  time : Nat
  phase : Phase
  name : String
  outcome : Outcome
  deriving DecidableEq, Repr

namespace Observation

/-- The observation of a moment, if it is one of a hook. -/
def ofMoment? (moment : Moment) : Option Observation :=
  match moment.happening with
  | .ended phase name _ ending => some ⟨moment.time, phase, name, .ofEnding ending⟩
  | .queued (some phase) closer => some ⟨moment.time, phase, closer.name, .registered⟩
  | .rejected (some phase) closer => some ⟨moment.time, phase, closer.name, .rejected⟩
  | .unsent (some phase) closer => some ⟨moment.time, phase, closer.name, .rejected⟩
  | _ => none

/-- The order by time, then phase, then name, then outcome. -/
def le (a b : Observation) : Bool :=
  ((compare a.time b.time).then ((compare a.phase.text b.phase.text).then
    ((compare a.name b.name).then (compare a.outcome.text b.outcome.text)))).isLE

end Observation

/-- What can be seen after an operation. -/
structure Snapshot where
  time : Nat
  /-- The state of the manager, if the slot holds one. -/
  state? : Option State
  /-- Its number of pending initializers. -/
  pending? : Option Nat
  /-- What has been observed since the snapshot before. -/
  observations : List Observation
  deriving Repr

/-- The state of a scenario. -/
structure Scenario where
  world : World
  /-- The managers in slots. -/
  slots : List (Nat × Nat)
  /-- The calls in the background that have not been joined, with their managers. -/
  background : List (Nat × Nat)
  nextCall : Nat
  /-- The number of journal entries that have been shown. -/
  shown : Nat
  /-- The events of the log. -/
  log : List Logging.Event
  /-- The mock resources in the order of their creation. -/
  resources : List MockResource

namespace Scenario

/-- The manager of a slot. -/
def managerIn? (s : Scenario) (slot : Nat) : Option Nat :=
  s.slots.lookup slot

/-- Empties a slot, which drops its handle. -/
def vacate (s : Scenario) (slot : Nat) : Scenario :=
  match s.managerIn? slot with
  | none => s
  | some i =>
    { s with
      world := s.world.act i .drop
      slots := s.slots.filter (·.1 ≠ slot) }

/-- Puts a manager into a slot, in place of any that it holds. -/
def place (s : Scenario) (slot i : Nat) : Scenario :=
  let s := s.vacate slot
  { s with slots := (slot, i) :: s.slots }

/-- Puts a new manager into a slot. -/
def create (s : Scenario) (slot : Nat) : Scenario :=
  let i := s.world.managers.length
  { s with world := s.world.create }.place slot i

/-- The scenario of a single manager in slot zero. -/
def start : Scenario :=
  create ⟨.empty, [], [], 0, 0, [], []⟩ 0

/-- The item of something to manage; a mock resource is created. -/
def takeItem (s : Scenario) : Managed → Scenario × Item
  | .item item => (s, item)
  | .mock resource =>
    ({ s with resources := s.resources ++ [resource] }, resource.item s.resources.length)

/-- The items of things to manage. -/
def takeItems (s : Scenario) : List Managed → Scenario × List Item
  | [] => (s, [])
  | managed :: rest =>
    let (s, item) := s.takeItem managed
    let (s, items) := s.takeItems rest
    (s, item :: items)

/-- Changes a manager by a function with a result. -/
def updateWith (s : Scenario) (i : Nat) (f : Manager → Manager × Except ServiceError Unit) :
    Scenario × Reply :=
  match s.world.managers[i]? with
  | none => (s, .unanswered)
  | some m => ({ s with world := s.world.update i fun m => (f m).1 }, .managed (f m).2)

/-- A new call. -/
def call (s : Scenario) (i : Nat) (action : Nat → Action) : Scenario × Nat :=
  ({ s with world := s.world.act i (action s.nextCall), nextCall := s.nextCall + 1 }, s.nextCall)

/-- A call has returned. -/
def hasReturned (i id : Nat) (w : World) : Bool :=
  (w.returned? i id).isSome

/-- Waits for a call. -/
def await (s : Scenario) (i id : Nat) : Scenario × Reply :=
  let w := World.advanceUntil (hasReturned i id) s.world
  ({ s with world := w }, .ofAnswer (w.returned? i id))

/-- Waits for a call, but drops it some time after it was made.  With no time to wait it returns
only if it can at once. -/
def awaitFor (s : Scenario) (i id after : Nat) : Scenario × Reply :=
  let time := s.world.now + after
  let w :=
    if after = 0 then s.world.act i (.answer id)
    else World.advanceUntilBefore (hasReturned i id) s.world time
  match w.returned? i id with
  | some answer => ({ s with world := w }, .ofAnswer (some answer))
  | none =>
    let w := (w.elapse (time - w.now)).act i (.abandon id)
    ({ s with world := w }, .abandoned)

/-- Performs an operation on a manager. -/
def performOn (s : Scenario) (i : Nat) : Operation → Scenario × Reply
  | .startInitializers items =>
    let (s, items) := s.takeItems items
    ({ s with world := s.world.update i (·.startAll items) }, .done)
  | .registerClosers items =>
    let (s, items) := s.takeItems items
    s.updateWith i (·.registerAll (items.map Item.closer))
  | .manage items =>
    let (s, items) := s.takeItems items
    s.updateWith i (·.manageAll items)
  | .awaitInitialized =>
    let (s, id) := s.call i .awaitInitialized
    s.await i id
  | .close limit =>
    let (s, id) := s.call i fun id => .close id limit
    s.await i id
  | .closeInBackground limit =>
    let (s, id) := s.call i fun id => .close id limit
    ({ s with background := s.background ++ [(i, id)] }, .done)
  | .closeAbandoned after =>
    let (s, id) := s.call i fun id => .close id none
    s.awaitFor i id after
  | .clone slot => ({ s with world := s.world.act i .clone }.place slot i, .done)
  | .sameManager slot => (s, .same (s.managerIn? slot == some i))
  | .describe =>
    match s.world.managers[i]? with
    | some m => (s, .text m.describe)
    | none => (s, .unanswered)
  | _ => (s, .unanswered)

/-- Performs an operation on a slot. -/
def perform (s : Scenario) (slot : Nat) : Operation → Scenario × Reply
  | .advance millis => ({ s with world := s.world.advanceTo (s.world.now + millis) }, .done)
  | .create => (s.create slot, .done)
  | .drop => (s.vacate slot, .done)
  | .join =>
    match s.background with
    | [] => (s, .unanswered)
    | (i, id) :: rest => { s with background := rest }.await i id
  | .joinable =>
    (s, .finished (s.background.map fun call => hasReturned call.1 call.2 s.world))
  | operation =>
    match s.managerIn? slot with
    | some i => s.performOn i operation
    | none => (s, .unanswered)

/-- Does what is possible, adds to the log what has happened, and takes a snapshot. -/
def snapshot (s : Scenario) (slot : Nat) : Scenario × Snapshot :=
  let w := s.world.settle
  let fresh := (w.journal.drop s.shown).map JournalEntry.moment
  let manager? := (s.managerIn? slot).bind (w.managers[·]?)
  ({ s with
      world := w
      shown := w.journal.length
      log := s.log ++ fresh.filterMap (·.happening.event?) },
    { time := w.now
      state? := manager?.map Manager.state
      pending? := manager?.map Manager.pending
      observations := (fresh.filterMap Observation.ofMoment?).mergeSort Observation.le })

/-- Performs an operation on a slot and takes a snapshot. -/
def step (s : Scenario) (slot : Nat) (operation : Operation) : Scenario × Reply × Snapshot :=
  let (s, reply) := s.perform slot operation
  let (s, snapshot) := s.snapshot slot
  (s, reply, snapshot)

/-- Performs operations in order. -/
def runSteps (s : Scenario) : List (Nat × Operation) → Scenario × List (Reply × Snapshot)
  | [] => (s, [])
  | (slot, operation) :: rest =>
    let (s, reply, snapshot) := s.step slot operation
    let (s, results) := s.runSteps rest
    (s, (reply, snapshot) :: results)

/-- A signal arrives for a service that waits for one and then shuts down the manager of slot
zero. -/
def receive (s : Scenario) (signal : Signal) (limit : Duration) : Scenario × Reply × Snapshot :=
  { s with log := s.log ++ [signal.event] }.step 0 (.close (some limit))

end Scenario
end Lifecycle
end ServiceKit
