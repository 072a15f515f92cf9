import ServiceKit.Duration

/-!
# Hooks of managed items

An item has a hook that sets it up and a hook that closes it.  A hook is a script: some time after
it is entered it may register a closer, and then it ends, in one of three ways, or never.  Time is in
milliseconds.
-/

namespace ServiceKit
namespace Lifecycle

/-- Which hook of an item. -/
inductive Phase where
  | setUp
  | close
  deriving DecidableEq, Repr

/-- The name of a phase in texts. -/
def Phase.text : Phase → String
  | .setUp => "initialize"
  | .close => "close"

/-- A panic, with its message if it carries a text. -/
structure Panic where
  message? : Option String
  deriving DecidableEq, Repr

/-- The text of a panic. -/
def Panic.text (panic : Panic) : String :=
  match panic.message? with
  | some message => "panicked: " ++ message
  | none => "panicked"

/-- How a hook ends. -/
inductive Ending where
  | success
  /-- An error with its contexts, the outermost first. -/
  | failure (contexts : List String)
  | panic (value : Panic)
  deriving DecidableEq, Repr

/-- Why a hook failed, if it did. -/
def Ending.reason? : Ending → Option String
  | .success => none
  | .failure contexts => some (": ".intercalate contexts)
  | .panic value => some value.text

/-- The script of a hook. -/
structure Hook where
  /-- The time from the entry until the hook registers and ends. -/
  delay : Nat
  /-- The name of a closer that the hook registers before it ends. -/
  registers : Option String
  /-- How the hook ends; `none` if it never does. -/
  ending : Option Ending
  /-- The mock resource whose hook this is. -/
  resource : Option Nat
  deriving DecidableEq, Repr

namespace Hook

/-- The hook that succeeds at once. -/
def immediate : Hook := ⟨0, none, some .success, none⟩

/-- When a hook entered at `now` registers and ends; `none` if it does neither. -/
def due? (hook : Hook) (now : Nat) : Option Nat :=
  if hook.registers.isSome || hook.ending.isSome then some (now + hook.delay) else none

end Hook

/-- A closer: calling it gives its hook, or fails with a panic before there is one. -/
structure Closer where
  name : String
  make : Except Panic Hook
  deriving Repr

namespace Closer

/-- The closer of a name that succeeds at once. -/
def immediate (name : String) : Closer := ⟨name, .ok .immediate⟩

/-- The hook of a closer needs the manager. -/
def holdsManager (closer : Closer) : Bool :=
  match closer.make with
  | .ok hook => hook.registers.isSome
  | .error _ => false

end Closer

/-- A managed item with both hooks. -/
structure Item where
  name : String
  setUp : Hook
  close : Hook
  deriving DecidableEq, Repr

/-- The closer of an item. -/
def Item.closer (item : Item) : Closer := ⟨item.name, .ok item.close⟩

end Lifecycle
end ServiceKit
