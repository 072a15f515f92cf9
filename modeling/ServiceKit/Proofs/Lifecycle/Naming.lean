import ServiceKit.Proofs.Lifecycle.Balance
import ServiceKit.Proofs.Lifecycle.Pending

/-!
# Under which names hooks run

Nothing runs in a manager under a name that no caller has given, but for the closers that hooks
register, which have no resource.
-/

namespace ServiceKit
namespace Lifecycle

open History

/-- A caller gives only such names. -/
def Action.Names (named : HookName → Prop) : Action → Prop
  | register closer => named closer.hookName
  | startInitializer name hook => named (name, hook.resource)
  | _ => True

namespace Manager

variable {m : Manager} {action : Action} {closer other : Closer} {named : HookName → Prop}

/-! ## Which closers are accepted -/

theorem mem_accepted_register {source : Option Phase}
    (h : closer ∈ accepted (m.register source other).history) :
    closer ∈ accepted m.history ∨ closer = other := by
  unfold register at h
  split at h
  · simpa [note] using h
  · simpa [note] using Or.inl h
  · simpa [note] using Or.inl h

theorem mem_accepted_registerFrom {phase : Phase} {hook : Hook}
    (h : closer ∈ accepted (m.registerFrom phase hook).history) :
    closer ∈ accepted m.history ∨ ∃ name, closer = .immediate name := by
  unfold registerFrom at h
  split at h
  next name _ => exact (mem_accepted_register h).imp_right fun heq => ⟨name, heq⟩
  next => exact .inl h

theorem accepted_close (m : Manager) (id : Nat) (limit : Option Duration) :
    accepted (m.close id limit).history = accepted m.history := by
  unfold close
  split <;> simp [note, noteAll, accepted]

theorem accepted_expire (m : Manager) : accepted m.expire.history = accepted m.history := by
  unfold expire
  repeat' split
  case isTrue => simp only [noteAll, accepted_append, accepted_expiry, List.append_nil]
  all_goals rfl

theorem accepted_note {happening : Happening} (h : happening.accepted? = none) :
    accepted (m.note happening).history = accepted m.history := by
  rw [note, accepted_append, accepted_singleton, h]
  exact List.append_nil _

/-- A closer is accepted that a caller registers or that a hook registers, and no other. -/
theorem mem_accepted_act (h : closer ∈ accepted (m.act action).history) :
    closer ∈ accepted m.history ∨ action = .register closer ∨ ∃ name, closer = .immediate name := by
  cases action with
  | register other =>
      simp only [act, withHandle] at h
      split at h
      · exact .inl h
      · rcases mem_accepted_register h with h | rfl
        · exact .inl h
        · exact .inr (.inl rfl)
  | initializerActs ticket =>
      simp only [act, initializerActs] at h
      split at h
      · exact .inl h
      · split at h
        · exact (mem_accepted_registerFrom h).imp_right .inr
        · rw [accepted_note rfl] at h
          exact (mem_accepted_registerFrom h).imp_right .inr
  | closerActs place =>
      simp only [act, closerActs] at h
      repeat' split at h
      all_goals first | exact .inl h | skip
      · exact (mem_accepted_registerFrom h).imp_right .inr
      · rw [accepted_note rfl] at h
        exact (mem_accepted_registerFrom h).imp_right .inr
  | close id limit =>
      simp only [act, withNewCall, withHandle] at h
      repeat' split at h
      · exact .inl h
      · exact .inl h
      · exact .inl (by rwa [accepted_close] at h)
  | expire => exact .inl (by rwa [act, accepted_expire] at h)
  | clone | drop | startInitializer | awaitInitialized =>
      simp only [act, withHandle, withNewCall] at h
      repeat' split at h
      all_goals exact .inl (by simpa [startInitializer, awaitInitialized, note] using h)
  | abandon | collect | discard | launch | retire | closerEnters | conclude | answer =>
      simp only [act, abandon, collect, discard, launch, retire, closerEnters, conclude,
        answer] at h
      repeat' split at h
      all_goals exact .inl (by simpa [note, runClosers] using h)

/-! ## The names -/

/-- Every hook that is or can be entered has such a name. -/
structure Names (named : HookName → Prop) (m : Manager) : Prop where
  accepted : ∀ closer ∈ accepted m.history, named closer.hookName
  setUp : ∀ x ∈ entered m.history .setUp, named x

theorem names_new (named : HookName → Prop) (start : Nat) : (new start).Names named :=
  ⟨nofun, nofun⟩

theorem Names.act (hnone : ∀ name, named (name, none)) (haction : action.Names named)
    (h : m.Names named) : (m.act action).Names named where
  accepted := by
    intro closer hcloser
    rcases mem_accepted_act hcloser with hcloser | rfl | ⟨name, rfl⟩
    · exact h.accepted closer hcloser
    · exact haction
    · exact hnone name
  setUp := by
    intro x hx
    have hentered := entered_step m (.act action)
    rw [Manager.step] at hentered
    rw [hentered, List.mem_append] at hx
    rcases hx with hx | hx
    · exact h.setUp x hx
    · unfold startedBy at hx
      split at hx
      next name hook heq =>
        cases heq
        split at hx
        · contradiction
        · rw [List.map_singleton, List.mem_singleton] at hx
          rwa [hx]
      next => contradiction

variable {phase : Phase} {x : HookName}

/-- Every hook that is entered was given its name. -/
theorem Names.entered (h : m.Names named) (hbalanced : m.Balanced)
    (hx : x ∈ entered m.history phase) : named x := by
  cases phase with
  | setUp => exact h.setUp x hx
  | close =>
      obtain ⟨closer, hcloser, rfl⟩ := List.mem_map.mp (hbalanced.subperm.subset hx)
      exact h.accepted closer hcloser

/-- Every hook that ends was entered. -/
theorem Names.ended (h : m.Names named) (hbalanced : m.Balanced)
    (hx : x ∈ ended m.history phase) : named x := by
  have hended : 0 < (History.ended m.history phase).count x := List.count_pos_iff.mpr hx
  have hentered : 0 < (History.entered m.history phase).count x := by
    cases phase with
    | setUp =>
        have hsetUp := hbalanced.setUp x
        omega
    | close =>
        have hclose := hbalanced.close x
        omega
  exact h.entered hbalanced (List.count_pos_iff.mp hentered)

end Manager
end Lifecycle
end ServiceKit
