import Mathlib.Data.List.Induction
import ServiceKit.Lifecycle.Happening

/-!
# Reading a history

Views of the history of a manager: which closers were accepted and handed over, whether and when the
shutdown began and was complete, which hooks were entered, ended or aborted, and which failures the
ends of hooks gave.  Each of them reads one moment at a time, so what is added to a history adds to
the view.
-/

namespace ServiceKit
namespace Lifecycle

/-- The name and the resource by which a history knows a hook. -/
abbrev HookName := String × Option Nat

/-- The name under which the hook of a closer is entered, if the closer has one. -/
def Closer.hookName (closer : Closer) : HookName :=
  match closer.make with
  | .ok hook => (closer.name, hook.resource)
  | .error _ => (closer.name, none)

namespace TimedFailure

variable {time : Nat} {phase : Phase} {name : String} {ending : Ending}

theorem length_ofEnding_le : (ofEnding time phase name ending).length ≤ 1 := by
  unfold ofEnding
  split <;> simp

theorem time_eq_of_mem_ofEnding {failure : TimedFailure}
    (h : failure ∈ ofEnding time phase name ending) : failure.time = time := by
  unfold ofEnding at h
  split at h
  · rw [List.mem_singleton.mp h]
  · contradiction

@[simp] theorem ofEnding_success : ofEnding time phase name .success = [] :=
  rfl

theorem ofEnding_eq_nil_iff : ofEnding time phase name ending = [] ↔ ending = .success := by
  cases ending <;> simp [ofEnding, Ending.reason?]

end TimedFailure

namespace Happening

/-- The closer of an accepted registration. -/
def accepted? : Happening → Option Closer
  | queued _ closer => some closer
  | _ => none

/-- The closers that are handed over. -/
def handedOver? : Happening → Option (List Closer)
  | handedOver closers => some closers
  | _ => none

/-- The shutdown begins. -/
def isBegin : Happening → Bool
  | shutdownBegun => true
  | _ => false

/-- The shutdown is complete. -/
def isCompletion : Happening → Bool
  | completed _ => true
  | _ => false

/-- The hook of a phase that is entered. -/
def entered? (phase : Phase) : Happening → Option HookName
  | entered p name resource => if p = phase then some (name, resource) else none
  | _ => none

/-- The hook of a phase that ends. -/
def ended? (phase : Phase) : Happening → Option HookName
  | ended p name resource _ => if p = phase then some (name, resource) else none
  | _ => none

/-- The running close hook that is aborted. -/
def aborted? : Happening → Option HookName
  | aborted name resource true => some (name, resource)
  | _ => none

end Happening

/-- The failure that the end of a hook of a phase gives: none or one. -/
def Moment.failures (phase : Phase) (moment : Moment) : List TimedFailure :=
  match moment.happening with
  | .ended p name _ ending =>
    if p = phase then TimedFailure.ofEnding moment.time p name ending else []
  | _ => []

namespace History

variable (history : List Moment) (phase : Phase)

/-- The closers of all accepted registrations, in order. -/
def accepted : List Closer :=
  history.filterMap fun moment => moment.happening.accepted?

/-- What the collector has handed over. -/
def handed : List (List Closer) :=
  history.filterMap fun moment => moment.happening.handedOver?

/-- The shutdown has begun. -/
def begun : Bool :=
  history.any fun moment => moment.happening.isBegin

/-- When the shutdown was complete, if it is. -/
def completedAt : Option Nat :=
  (history.find? fun moment => moment.happening.isCompletion).map Moment.time

/-- The hooks of a phase that were entered, in order. -/
def entered : List HookName :=
  history.filterMap fun moment => moment.happening.entered? phase

/-- The hooks of a phase that ended, in order. -/
def ended : List HookName :=
  history.filterMap fun moment => moment.happening.ended? phase

/-- The close hooks that were aborted while they ran. -/
def aborted : List HookName :=
  history.filterMap fun moment => moment.happening.aborted?

/-- The failures of the hooks of a phase that ended, in the order they ended. -/
def failures : List TimedFailure :=
  history.flatMap (Moment.failures phase)

/-- When the last hook of a phase ended, if any has. -/
def lastEnd : Option Nat :=
  ((history.filter fun moment => (moment.happening.ended? phase).isSome).getLast?).map Moment.time

/-! ## What is added to a history adds to its views -/

variable (h₁ h₂ : List Moment)

@[simp] theorem accepted_append : accepted (h₁ ++ h₂) = accepted h₁ ++ accepted h₂ := by
  simp [accepted]

@[simp] theorem handed_append : handed (h₁ ++ h₂) = handed h₁ ++ handed h₂ := by
  simp [handed]

@[simp] theorem begun_append : begun (h₁ ++ h₂) = (begun h₁ || begun h₂) := by
  simp [begun]

@[simp] theorem completedAt_append :
    completedAt (h₁ ++ h₂) = (completedAt h₁).or (completedAt h₂) := by
  simp [completedAt, List.find?_append, Option.map_or]

@[simp] theorem entered_append :
    entered (h₁ ++ h₂) phase = entered h₁ phase ++ entered h₂ phase := by
  simp [entered]

@[simp] theorem ended_append :
    ended (h₁ ++ h₂) phase = ended h₁ phase ++ ended h₂ phase := by
  simp [ended]

@[simp] theorem aborted_append : aborted (h₁ ++ h₂) = aborted h₁ ++ aborted h₂ := by
  simp [aborted]

@[simp] theorem failures_append :
    failures (h₁ ++ h₂) phase = failures h₁ phase ++ failures h₂ phase := by
  simp [failures]

@[simp] theorem lastEnd_append :
    lastEnd (h₁ ++ h₂) phase = (lastEnd h₂ phase).or (lastEnd h₁ phase) := by
  simp [lastEnd, List.getLast?_append, Option.map_or]

variable (moment : Moment)

@[simp] theorem accepted_singleton :
    accepted [moment] = moment.happening.accepted?.toList := by
  cases h : moment.happening.accepted? <;> simp [accepted, h]

@[simp] theorem handed_singleton :
    handed [moment] = moment.happening.handedOver?.toList := by
  cases h : moment.happening.handedOver? <;> simp [handed, h]

@[simp] theorem begun_singleton : begun [moment] = moment.happening.isBegin := by
  simp [begun]

@[simp] theorem completedAt_singleton :
    completedAt [moment] = if moment.happening.isCompletion then some moment.time else none := by
  unfold completedAt
  cases h : moment.happening.isCompletion <;> simp [h]

@[simp] theorem entered_singleton :
    entered [moment] phase = (moment.happening.entered? phase).toList := by
  cases h : moment.happening.entered? phase <;> simp [entered, h]

@[simp] theorem ended_singleton :
    ended [moment] phase = (moment.happening.ended? phase).toList := by
  cases h : moment.happening.ended? phase <;> simp [ended, h]

@[simp] theorem aborted_singleton :
    aborted [moment] = moment.happening.aborted?.toList := by
  cases h : moment.happening.aborted? <;> simp [aborted, h]

@[simp] theorem failures_singleton :
    failures [moment] phase = moment.failures phase := by
  simp [failures]

@[simp] theorem lastEnd_singleton :
    lastEnd [moment] phase =
      if (moment.happening.ended? phase).isSome then some moment.time else none := by
  unfold lastEnd
  cases h : (moment.happening.ended? phase).isSome <;> simp [h]

attribute [simp] Happening.accepted? Happening.handedOver? Happening.isBegin
  Happening.isCompletion Happening.entered? Happening.ended? Happening.aborted? Moment.failures

/-! ## Laws on what may come after what -/

/-- Every happening of a history is allowed by what came before it. -/
def Each (P : List Moment → Happening → Prop) (history : List Moment) : Prop :=
  ∀ past moment future, history = past ++ moment :: future → P past moment.happening

variable {P : List Moment → Happening → Prop}

theorem each_nil : Each P [] := by
  intro past moment future h
  simp at h

theorem Each.concat {history : List Moment} {moment : Moment}
    (h : Each P history) (hlast : P history moment.happening) :
    Each P (history ++ [moment]) := by
  intro past x future heq
  rcases List.append_eq_append_iff.mp heq with ⟨rest, hpast, hfuture⟩ | ⟨rest, hpast, hfuture⟩
  · cases rest with
    | nil =>
        simp only [List.nil_append, List.cons.injEq, List.append_nil] at hpast hfuture
        rw [hpast, ← hfuture.1]
        exact hlast
    | cons y rest => simp at hfuture
  · cases rest with
    | nil =>
        simp only [List.append_nil, List.nil_append, List.cons.injEq] at hpast hfuture
        rw [← hpast, hfuture.1]
        exact hlast
    | cons y rest =>
        simp only [List.cons_append, List.cons.injEq] at hfuture
        obtain ⟨rfl, -⟩ := hfuture
        exact h past x rest hpast

/-- Happenings of one instant are allowed if each is, whatever of them came before it. -/
theorem Each.append_all {history : List Moment} {time : Nat} {happenings : List Happening}
    (h : Each P history)
    (hall : ∀ before x after, happenings = before ++ x :: after →
      P (history ++ before.map (Moment.mk time)) x) :
    Each P (history ++ happenings.map (Moment.mk time)) := by
  induction happenings using List.reverseRecOn with
  | nil => simpa using h
  | append_singleton front last ih =>
      rw [List.map_append, List.map_singleton, ← List.append_assoc]
      apply Each.concat
      · apply ih
        intro before x after heq
        exact hall before x (after ++ [last]) (by simp [heq])
      · exact hall front last [] rfl

end History
end Lifecycle
end ServiceKit
