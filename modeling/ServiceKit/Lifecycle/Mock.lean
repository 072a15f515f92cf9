import ServiceKit.Lifecycle.World

/-!
# Mock resources

A mock resource stands in for a dependency: its hooks take a given time and end in a given way.  The
calls of its hooks are counted when they are entered; the ends of hooks, except those by a panic, are
recorded in an event log.
-/

namespace ServiceKit
namespace Lifecycle

/-- How a mocked hook ends. -/
inductive Behaviour where
  | succeed
  | fail
  | panic
  deriving DecidableEq, Repr

/-- A mocked hook. -/
structure MockHook where
  delay : Nat
  behaviour : Behaviour
  deriving DecidableEq, Repr

/-- The end of a mocked hook of a resource. -/
def Behaviour.ending (phase : Phase) (name : String) : Behaviour → Ending
  | .succeed => .success
  | .fail => .failure [name ++ " failed to " ++ phase.text]
  | .panic => .panic ⟨some (name ++ " panicked during " ++ phase.text)⟩

/-- A mock resource. -/
structure MockResource where
  name : String
  setUp : MockHook
  close : MockHook
  deriving DecidableEq, Repr

namespace MockResource

/-- The script of a mocked hook of the resource with a number. -/
def script (resource : MockResource) (id : Nat) (phase : Phase) (hook : MockHook) : Hook :=
  ⟨hook.delay, none, some (hook.behaviour.ending phase resource.name), some id⟩

/-- The item that a resource is managed as. -/
def item (resource : MockResource) (id : Nat) : Item :=
  ⟨resource.name, resource.script id .setUp resource.setUp,
    resource.script id .close resource.close⟩

end MockResource

/-- The end of a mocked hook, as the event log records it. -/
structure HookEvent where
  time : Nat
  phase : Phase
  name : String
  deriving DecidableEq, Repr

namespace HookEvent

/-- The recorded event of a journal entry, if it is one. -/
def ofEntry? (entry : JournalEntry) : Option HookEvent :=
  match entry.moment.happening with
  | .ended _ _ (some _) (.panic _) => none
  | .ended phase name (some _) _ => some ⟨entry.moment.time, phase, name⟩
  | _ => none

/-- The order by time, then phase, then name. -/
def le (a b : HookEvent) : Bool :=
  ((compare a.time b.time).then ((compare a.phase.text b.phase.text).then
    (compare a.name b.name))).isLE

end HookEvent

namespace World

/-- The event log of all mock resources. -/
def eventLog (w : World) : List HookEvent :=
  w.journal.filterMap HookEvent.ofEntry?

/-- A journal entry is the entry into a hook of a resource. -/
def isCall (id : Nat) (phase : Phase) (entry : JournalEntry) : Bool :=
  match entry.moment.happening with
  | .entered p _ (some resource) => p == phase && resource == id
  | _ => false

/-- The number of times that a hook of a resource was entered. -/
def mockCalls (w : World) (id : Nat) (phase : Phase) : Nat :=
  w.journal.countP (isCall id phase)

end World
end Lifecycle
end ServiceKit
