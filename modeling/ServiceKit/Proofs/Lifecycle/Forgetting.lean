import Mathlib.Data.List.Basic
import ServiceKit.Lifecycle.Run

/-!
# A manager without one of its calls

Calls wait beside the manager.  What it does when one of them is forgotten is what it does anyway:
forgetting the call of an id commutes with every operation that neither makes nor drops it.
-/

namespace ServiceKit
namespace Lifecycle
namespace Manager

/-- The manager without the call of an id: nobody waits for it, and nobody has what it returned.
Everything else is as it was. -/
def forget (m : Manager) (id : Nat) : Manager :=
  { m with
    calls := m.calls.filter (·.id ≠ id)
    returned := m.returned.filter (·.id ≠ id) }

@[simp] theorem forget_progress (m : Manager) (id : Nat) :
    (m.forget id).progress = m.progress := rfl

@[simp] theorem forget_now (m : Manager) (id : Nat) : (m.forget id).now = m.now := rfl

@[simp] theorem forget_initializers (m : Manager) (id : Nat) :
    (m.forget id).initializers = m.initializers := rfl

@[simp] theorem forget_ticket (m : Manager) (id : Nat) : (m.forget id).ticket = m.ticket := rfl

variable {m : Manager} {id other : Nat}

/-! ## What callers do -/

theorem hasCall_forget (hne : other ≠ id) : (m.forget id).hasCall other = m.hasCall other := by
  have hother : other = id ↔ False := by simp [hne]
  simp only [hasCall, forget, List.any_filter]
  congr 1
  · congr 1
    funext call
    by_cases hcall : call.id = other <;> simp [hcall, hother]
  · congr 1
    funext r
    by_cases hr : r.id = other <;> simp [hr, hother]

/-- What commutes with an operation commutes with it where it needs a handle. -/
theorem withHandle_comm (view : Manager → Manager) {f g : Manager → Manager}
    (hhandles : (view m).handles = m.handles) (h : view (f m) = g (view m)) :
    view (m.withHandle f) = (view m).withHandle g := by
  unfold withHandle
  rw [hhandles, ← h]
  split <;> rfl

theorem withNewCall_comm (view : Manager → Manager) {f g : Manager → Manager}
    (hcall : (view m).hasCall other = m.hasCall other)
    (hhandles : (view m).handles = m.handles) (h : view (f m) = g (view m)) :
    view (m.withNewCall other f) = (view m).withNewCall other g := by
  unfold withNewCall
  rw [hcall]
  split
  · rfl
  · exact withHandle_comm view hhandles h

theorem register_forget (source : Option Phase) (closer : Closer) :
    (m.register source closer).forget id = (m.forget id).register source closer := by
  simp only [register, forget]
  split <;> rfl

theorem registerFrom_forget (phase : Phase) (hook : Hook) :
    (m.registerFrom phase hook).forget id = (m.forget id).registerFrom phase hook := by
  unfold registerFrom
  split
  · exact register_forget _ _
  · rfl

theorem close_forget (limit : Option Duration) (hne : other ≠ id) :
    (m.close other limit).forget id = (m.forget id).close other limit := by
  simp only [close, forget]
  split <;> simp [note, noteAll, hne]

theorem awaitInitialized_forget (hne : other ≠ id) :
    (m.awaitInitialized other).forget id = (m.forget id).awaitInitialized other := by
  simp [awaitInitialized, forget, hne]

theorem abandon_forget : (m.abandon other).forget id = (m.forget id).abandon other := by
  simp only [abandon, forget]
  rw [List.filter_comm]

/-! ## What the parts of the manager do -/

theorem collect_forget : (m.collect).forget id = (m.forget id).collect := by
  simp only [collect, forget]
  split <;> rfl

theorem launch_forget : (m.launch).forget id = (m.forget id).launch := by
  simp only [launch, forget]
  split <;> rfl

theorem initializerActs_forget (ticket : Nat) :
    (m.initializerActs ticket).forget id = (m.forget id).initializerActs ticket := by
  unfold initializerActs
  simp only [forget_now, forget_initializers, ← registerFrom_forget]
  split
  · rfl
  · split <;> rfl

theorem retire_forget : (m.retire).forget id = (m.forget id).retire := by
  simp only [retire, forget]
  split <;> rfl

theorem closerEnters_forget (k : Nat) :
    (m.closerEnters k).forget id = (m.forget id).closerEnters k := by
  unfold closerEnters
  simp only [forget_progress, forget_now, forget_ticket]
  split
  next s hprogress =>
    split
    next closer hslot =>
      by_cases htime : s.isInTime m.now = true
      · simp only [htime, if_true]
        split <;> rfl
      · simp only [htime, if_false, Bool.false_eq_true]
    next => rfl
  next => rfl

theorem closerActs_forget (k : Nat) :
    (m.closerActs k).forget id = (m.forget id).closerActs k := by
  unfold closerActs
  simp only [forget_progress, forget_now, ← registerFrom_forget]
  split
  next s hprogress =>
    split
    next r hslot =>
      by_cases htime : (s.isInTime m.now && r.isDue m.now) = true
      · simp only [htime, if_true]
        split <;> rfl
      · simp only [htime, if_false, Bool.false_eq_true]
    next => rfl
  next => rfl

theorem expire_forget : (m.expire).forget id = (m.forget id).expire := by
  unfold expire
  simp only [forget_progress, forget_now]
  split
  next s hprogress =>
    split
    next limit hlimit =>
      by_cases htime : (s.isUnfinished && !s.isInTime m.now) = true
      · simp only [htime, if_true]
        rfl
      · simp only [htime, if_false, Bool.false_eq_true]
    next => rfl
  next => rfl

theorem conclude_forget : (m.conclude).forget id = (m.forget id).conclude := by
  unfold conclude
  simp only [forget_progress]
  split
  next s hprogress =>
    by_cases hopen : s.isUnfinished = true
    · simp only [hopen, if_true]
    · simp only [hopen, if_false, Bool.false_eq_true]
      rfl
  next => rfl

/-! ## What other calls return -/

theorem answer_forget (hne : other ≠ id) :
    (m.answer other).forget id = (m.forget id).answer other := by
  have hfind : (m.forget id).calls.find? (·.id == other) = m.calls.find? (·.id == other) := by
    simp only [forget, List.find?_filter]
    congr 1
    funext call
    by_cases hcall : call.id = other
    · simp [hcall, hne]
    · simp [hcall]
  unfold answer
  rw [hfind]
  split
  next => rfl
  next call hcall =>
    have hvalue : (m.forget id).answer? call.kind = m.answer? call.kind := rfl
    rw [hvalue]
    split
    next => rfl
    next value hanswer =>
      have hremaining : (m.forget id).remaining call.kind = m.remaining call.kind := rfl
      have hkept : [Return.mk m.now other value].filter (·.id ≠ id) = [⟨m.now, other, value⟩] := by
        simp [hne]
      rw [hremaining]
      simp only [forget, List.filter_append, hkept]
      rw [List.filter_comm]

end Manager
end Lifecycle
end ServiceKit
