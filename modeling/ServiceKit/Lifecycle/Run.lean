import ServiceKit.Error
import ServiceKit.Lifecycle.Manager

/-!
# Runs of a manager

The actions of a manager's parts, which take no time, and the passing of time between them.  Time
passes only while nothing is left to do, and never beyond the next thing that is due, so everything
happens at its time.  What remains open is the order of things at one time.
-/

namespace ServiceKit
namespace Lifecycle

/-- An action of a caller or of a part of the manager. -/
inductive Action where
  /-- A caller copies a handle. -/
  | clone
  /-- A caller drops a handle. -/
  | drop
  /-- A caller registers a closer. -/
  | register (closer : Closer)
  /-- A caller starts an initializer. -/
  | startInitializer (name : String) (hook : Hook)
  /-- A caller asks for the shutdown. -/
  | close (id : Nat) (limit : Option Duration)
  /-- A caller waits for the initializers. -/
  | awaitInitialized (id : Nat)
  /-- A caller drops a call. -/
  | abandon (id : Nat)
  | collect
  | discard
  | launch
  | initializerActs (ticket : Nat)
  | retire
  | closerEnters (place : Nat)
  | closerActs (place : Nat)
  | expire
  | conclude
  | answer (id : Nat)
  deriving Repr

/-- The sum of a quantity over a list. -/
def total (quantity : α → Nat) : List α → Nat
  | [] => 0
  | x :: rest => quantity x + total quantity rest

namespace Manager

/-- What a caller does needs a handle. -/
def withHandle (m : Manager) (f : Manager → Manager) : Manager :=
  if m.handles = 0 then m else f m

/-- A call needs a handle, and an id that no other call has. -/
def withNewCall (m : Manager) (id : Nat) (f : Manager → Manager) : Manager :=
  if m.hasCall id then m else m.withHandle f

/-- The manager after an action. -/
def act (m : Manager) : Action → Manager
  | .clone => m.withHandle fun m => { m with handles := m.handles + 1 }
  | .drop => m.withHandle fun m => { m with handles := m.handles - 1 }
  | .register closer => m.withHandle (·.register none closer)
  | .startInitializer name hook => m.withHandle (·.startInitializer name hook)
  | .close id limit => m.withNewCall id (·.close id limit)
  | .awaitInitialized id => m.withNewCall id (·.awaitInitialized id)
  | .abandon id => m.abandon id
  | .collect => m.collect
  | .discard => m.discard
  | .launch => m.launch
  | .initializerActs ticket => m.initializerActs ticket
  | .retire => m.retire
  | .closerEnters place => m.closerEnters place
  | .closerActs place => m.closerActs place
  | .expire => m.expire
  | .conclude => m.conclude
  | .answer id => m.answer id

/-- The actions of initializers whose time has come, with their turns. -/
def dueInitializers (m : Manager) : List (Nat × Action) :=
  (m.initializers.filter (·.isDue m.now)).map fun r => (r.ticket, .initializerActs r.ticket)

/-- The action of a closer whose time has come, with its turn. -/
def dueCloser (now : Nat) (slot : Slot × Nat) : Option (Nat × Action) :=
  match slot.1 with
  | .running r => if r.isDue now then some (r.ticket, .closerActs slot.2) else none
  | _ => none

/-- The actions of closers, or of the limit, whose time has come, with their turns. -/
def dueClosers (m : Manager) : List (Nat × Action) :=
  match m.progress with
  | .underWay s =>
    if s.isInTime m.now then s.slots.zipIdx.filterMap (dueCloser m.now)
    else if s.isUnfinished then [(s.ticket, .expire)]
    else []
  | _ => []

/-- The actions whose time has come, in the order of their turns. -/
def dueActions (m : Manager) : List Action :=
  ((m.dueInitializers ++ m.dueClosers).mergeSort fun a b => a.1 ≤ b.1).map Prod.snd

/-- The first entry of the task of a closer. -/
def entry (slot : Slot × Nat) : Option Action :=
  match slot.1 with
  | .waiting _ => some (.closerEnters slot.2)
  | _ => none

/-- The steps of the shutdown that are possible. -/
def shutdownActions (m : Manager) : List Action :=
  match m.progress with
  | .requested _ =>
    match m.collector with
    | .listening _ => []
    | _ => [.launch]
  | .underWay s =>
    if s.isUnfinished then
      if s.isInTime m.now then s.slots.zipIdx.filterMap entry else []
    else [.conclude]
  | _ => []

/-- The steps of the collector that are possible. -/
def collectorActions (m : Manager) : List Action :=
  match m.collector, m.mailbox with
  | .listening _, _ :: _ => [.collect]
  | .listening _, [] => if m.isHeld then [] else [.discard]
  | _, _ => []

/-- The returns of calls that are possible. -/
def returnActions (m : Manager) : List Action :=
  (m.calls.filter fun call => (m.answer? call.kind).isSome).map fun call => .answer call.id

/-- Everything that is possible now without a caller, in the order in which the program does it. -/
def enabled (m : Manager) : List Action :=
  (if m.leaving = 0 then [] else [.retire]) ++ m.dueActions ++ m.collectorActions ++
    m.shutdownActions ++ m.returnActions

/-- The time at which something more comes of a closer. -/
def slotTime? : Slot → Option Nat
  | .running r => r.due
  | _ => none

/-- The times at which something is due in the shutdown. -/
def shutdownTimes (m : Manager) : List Nat :=
  match m.progress with
  | .underWay s =>
    if s.isUnfinished then s.deadline.toList ++ s.slots.filterMap slotTime? else []
  | _ => []

/-- The times at which something is due. -/
def times (m : Manager) : List Nat :=
  m.initializers.filterMap Running.due ++ m.shutdownTimes

/-- Nothing is possible now, and nothing is due in less than this time. -/
def isQuietFor (m : Manager) (millis : Nat) : Bool :=
  m.enabled.isEmpty && m.times.all (m.now + millis ≤ ·)

/-- Time passes, unless something is possible now or is due in between. -/
def elapse (m : Manager) (millis : Nat) : Manager :=
  if m.isQuietFor millis then { m with now := m.now + millis } else m

/-- A step of a run. -/
inductive Step where
  | act (action : Action)
  | elapse (millis : Nat)
  deriving Repr

/-- The manager after a step. -/
def step (m : Manager) : Step → Manager
  | .act action => m.act action
  | .elapse millis => m.elapse millis

/-- Registers closers one after another, up to the first that is rejected. -/
def registerAll (m : Manager) : List Closer → Manager × Except ServiceError Unit
  | [] => (m, .ok ())
  | closer :: rest =>
    let next := m.act (.register closer)
    if m.accepts then next.registerAll rest else (next, .error .shuttingDown)

/-- Starts the initializers of items. -/
def startAll (m : Manager) : List Item → Manager
  | [] => m
  | item :: rest => (m.act (.startInitializer item.name item.setUp)).startAll rest

/-- Manages both hooks of items one after another, up to the first whose closer is rejected; a
rejected item is not initialized. -/
def manageAll (m : Manager) : List Item → Manager × Except ServiceError Unit
  | [] => (m, .ok ())
  | item :: rest =>
    let next := m.act (.register item.closer)
    if m.accepts then (next.act (.startInitializer item.name item.setUp)).manageAll rest
    else (next, .error .shuttingDown)

/-- The manager after a run. -/
def run (m : Manager) (steps : List Step) : Manager :=
  steps.foldl step m

/-- The work that is left for a running initializer: it can act, and register a closer. -/
def initializerWork (running : Running) : Nat :=
  if running.due.isSome then 6 else 0

/-- The work that is left for a closer in a shutdown. -/
def slotWork : Slot → Nat
  | .waiting _ => 3
  | .running r => if r.due.isSome then 2 else 1
  | _ => 0

/-- The work that is left for the collector. -/
def collectorWork : Collector → Nat
  | .listening queue => 4 + 3 * queue.length
  | .delivered closers => 2 + 3 * closers.length
  | .stopped => 1

/-- The work that is left for the shutdown. -/
def progressWork : Progress → Nat
  | .requested _ => 4
  | .underWay s => 2 + total slotWork s.slots
  | _ => 0

/-- A bound on the number of actions that are possible before time passes: each of them uses up a
part of it. -/
def work (m : Manager) : Nat :=
  4 * m.mailbox.length + m.leaving + total initializerWork m.initializers + m.calls.length +
    collectorWork m.collector + progressWork m.progress

end Manager
end Lifecycle
end ServiceKit
