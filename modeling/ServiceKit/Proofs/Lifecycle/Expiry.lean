import Mathlib.Data.List.Basic
import ServiceKit.Lifecycle.Manager
import ServiceKit.Proofs.Lifecycle.History

/-!
# What is told when a limit is reached

A history then tells that the limit is reached and which closers are aborted.  The hooks that ran
are told as aborted ones; no view but this one gets anything new.
-/

namespace ServiceKit
namespace Lifecycle

open History

/-- The name of a running hook. -/
def Running.hookName (r : Running) : HookName := (r.name, r.hook.resource)

namespace Slot

/-- The hook of a closer whose task has not run yet. -/
def waitingName? : Slot → Option HookName
  | waiting closer => some closer.hookName
  | _ => none

/-- The hook that runs. -/
def runningName? : Slot → Option HookName
  | running r => some r.hookName
  | _ => none

attribute [simp] waitingName? runningName?

end Slot

/-- What a history tells when the limit is reached. -/
abbrev expiry (limit : Duration) (slots : List Slot) : List Happening :=
  .expired limit (slots.countP Slot.isOpen) :: slots.filterMap Slot.abortion?

section Expiry

variable (limit : Duration) (slots : List Slot) (time : Nat) (phase : Phase)

theorem eq_aborted_of_mem_abortions {slots : List Slot} {x : Happening}
    (hx : x ∈ slots.filterMap Slot.abortion?) :
    ∃ name resource inHook, x = .aborted name resource inHook := by
  obtain ⟨slot, -, hslot⟩ := List.mem_filterMap.mp hx
  unfold Slot.abortion? at hslot
  split at hslot
  · split at hslot
    · exact ⟨_, _, _, (Option.some.inj hslot).symm⟩
    · exact ⟨_, _, _, (Option.some.inj hslot).symm⟩
  · exact ⟨_, _, _, (Option.some.inj hslot).symm⟩
  · contradiction

/-- What holds of the limit being reached and of each abortion holds of all that is told. -/
theorem forall_mem_expiry {P : Happening → Prop} {limit : Duration} {slots : List Slot}
    (hexpired : ∀ remaining, P (.expired limit remaining))
    (haborted : ∀ name resource inHook, P (.aborted name resource inHook)) :
    ∀ x ∈ expiry limit slots, P x := by
  intro x hx
  rcases List.mem_cons.mp hx with rfl | hx
  · exact hexpired _
  · obtain ⟨name, resource, inHook, rfl⟩ := eq_aborted_of_mem_abortions hx
    exact haborted name resource inHook

theorem aborted_expiry :
    aborted ((expiry limit slots).map (Moment.mk time)) =
      slots.filterMap Slot.runningName? := by
  have hexpired : ∀ l, aborted (⟨time, .expired limit (slots.countP Slot.isOpen)⟩ :: l) =
      aborted l := fun _ => rfl
  rw [List.map_cons, hexpired]
  simp only [aborted, List.filterMap_map, List.filterMap_filterMap]
  apply List.filterMap_congr
  intro slot _
  cases slot with
  | waiting closer =>
      cases hmake : closer.make <;>
        simp [Slot.abortion?, hmake]
  | running r => rfl
  | ended | lost | aborted => rfl

theorem entered_expiry : entered ((expiry limit slots).map (Moment.mk time)) phase = [] := by
  rw [entered, List.filterMap_map, List.filterMap_eq_nil_iff]
  exact forall_mem_expiry (fun _ => rfl) (fun _ _ _ => rfl)

theorem ended_expiry : ended ((expiry limit slots).map (Moment.mk time)) phase = [] := by
  rw [ended, List.filterMap_map, List.filterMap_eq_nil_iff]
  exact forall_mem_expiry (fun _ => rfl) (fun _ _ _ => rfl)

theorem accepted_expiry : accepted ((expiry limit slots).map (Moment.mk time)) = [] := by
  rw [accepted, List.filterMap_map, List.filterMap_eq_nil_iff]
  exact forall_mem_expiry (fun _ => rfl) (fun _ _ _ => rfl)

theorem failures_expiry : failures ((expiry limit slots).map (Moment.mk time)) phase = [] := by
  rw [failures, List.flatMap_eq_nil_iff, List.forall_mem_map]
  exact forall_mem_expiry (fun _ => rfl) (fun _ _ _ => rfl)

theorem lastEnd_expiry : lastEnd ((expiry limit slots).map (Moment.mk time)) phase = none := by
  rw [lastEnd, List.filter_map, Option.map_eq_none_iff, List.getLast?_eq_none_iff,
    List.map_eq_nil_iff, List.filter_eq_nil_iff]
  exact forall_mem_expiry (fun _ => by simp) (fun _ _ _ => by simp)

end Expiry

end Lifecycle
end ServiceKit
