import ServiceKit.Lifecycle.Run

/-!
# Managers on one clock

Several managers that share a clock and a journal of everything that happens in them.  The program's
own order of things at one time is fixed here: whatever is possible is done, the first manager
first, until nothing is; then time passes up to the next thing that is due.
-/

namespace ServiceKit
namespace Lifecycle

/-- A moment of one of several managers. -/
structure JournalEntry where
  manager : Nat
  moment : Moment
  deriving Repr

/-- Several managers on one clock. -/
structure World where
  now : Nat
  managers : List Manager
  /-- Everything that has happened, in order. -/
  journal : List JournalEntry
  deriving Repr

namespace World

/-- The world without managers. -/
def empty : World := ⟨0, [], []⟩

/-- Adds a manager; its place is the number of managers before it. -/
def create (w : World) : World :=
  let m := Manager.new w.now
  { w with
    managers := w.managers ++ [m]
    journal := w.journal ++ m.history.map (JournalEntry.mk w.managers.length) }

/-- Changes a manager, and enters into the journal what happens in it. -/
def update (w : World) (i : Nat) (f : Manager → Manager) : World :=
  match w.managers[i]? with
  | none => w
  | some m =>
    let next := f m
    { w with
      managers := w.managers.set i next
      journal := w.journal ++ (next.history.drop m.history.length).map (JournalEntry.mk i) }

/-- An action of a manager. -/
def act (w : World) (i : Nat) (action : Action) : World :=
  w.update i (·.act action)

/-- The first thing that is possible now. -/
def next? (w : World) : Option (Nat × Action) :=
  w.managers.zipIdx.findSome? fun entry => entry.1.enabled.head?.map fun action => (entry.2, action)

/-- Does what is possible, at most a number of times. -/
def settleWithin : Nat → World → World
  | 0, w => w
  | n + 1, w =>
    match w.next? with
    | none => w
    | some (i, action) => settleWithin n (w.act i action)

/-- Does everything that is possible now. -/
def settle (w : World) : World :=
  settleWithin (total Manager.work w.managers) w

/-- Time passes for all managers, unless something is possible now or is due in between. -/
def elapse (w : World) (millis : Nat) : World :=
  if w.managers.all (·.isQuietFor millis) then
    { w with now := w.now + millis, managers := w.managers.map (·.elapse millis) }
  else w

/-- Time passes up to an instant, and everything possible then is done. -/
def moveTo (w : World) (time : Nat) : World :=
  (w.elapse (time - w.now)).settle

/-- The times at which something is due, in order. -/
def times (w : World) : List Nat :=
  (w.managers.flatMap Manager.times).mergeSort

/-- Moves through times in order until the world is as wanted. -/
def moveThrough (wanted : World → Bool) (w : World) : List Nat → World
  | [] => w
  | time :: rest => if wanted w then w else moveThrough wanted (w.moveTo time) rest

/-- Moves through everything that is due up to an instant, and to the instant. -/
def advanceTo (w : World) (time : Nat) : World :=
  let w := w.settle
  (moveThrough (fun _ => false) w (w.times.filter (· ≤ time))).moveTo time

/-- Moves on until the world is as wanted, which may never come. -/
def advanceUntil (wanted : World → Bool) (w : World) : World :=
  let w := w.settle
  moveThrough wanted w w.times

/-- Moves on until the world is as wanted, but not to an instant or beyond it. -/
def advanceUntilBefore (wanted : World → Bool) (w : World) (time : Nat) : World :=
  let w := w.settle
  moveThrough wanted w (w.times.filter (· < time))

/-- What a call of a manager returned. -/
def returned? (w : World) (i id : Nat) : Option Answer :=
  w.managers[i]?.bind (·.returned? id)

end World
end Lifecycle
end ServiceKit
