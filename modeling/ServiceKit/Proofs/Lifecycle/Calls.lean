import Mathlib.Data.List.Nodup
import ServiceKit.Proofs.Lifecycle.Change

/-!
# Telling calls apart

No two calls of a run have the same id, whether they wait or have returned.
-/

namespace ServiceKit
namespace Lifecycle
namespace Manager

/-- No two calls have the same id. -/
def Identified (m : Manager) : Prop :=
  (m.calls.map Call.id ++ m.returned.map Return.id).Nodup

theorem identified_new (start : Nat) : (new start).Identified :=
  List.nodup_nil

theorem hasCall_eq_false_iff {m : Manager} {id : Nat} :
    m.hasCall id = false ↔ id ∉ m.calls.map Call.id ++ m.returned.map Return.id := by
  simp [hasCall]

/-- A new call joins those that wait. -/
theorem Identified.join {m m' : Manager} {id : Nat} {kind : CallKind} (h : m.Identified)
    (hid : m.hasCall id = false) (hcalls : m'.calls = m.calls ++ [⟨id, kind⟩])
    (hreturned : m'.returned = m.returned) : m'.Identified := by
  unfold Identified
  rw [hcalls, hreturned, List.map_append, List.append_assoc, List.map_singleton,
    List.singleton_append, List.nodup_middle, List.nodup_cons]
  exact ⟨hasCall_eq_false_iff.mp hid, h⟩

theorem Identified.find? {m : Manager} {call : Call} (h : m.Identified) (hmem : call ∈ m.calls) :
    m.calls.find? (·.id == call.id) = some call := by
  have hnodup : (m.calls.map Call.id).Nodup := (List.nodup_append.mp h).1
  obtain ⟨before, after, heq⟩ := List.append_of_mem hmem
  rw [heq, List.map_append, List.map_cons, List.nodup_middle, List.nodup_cons] at hnodup
  rw [heq, List.find?_append]
  have hnone : before.find? (·.id == call.id) = none := by
    rw [List.find?_eq_none]
    intro other hother hsame
    apply hnodup.1
    rw [← beq_iff_eq.mp hsame]
    exact List.mem_append_left _ (List.mem_map_of_mem hother)
  simp [hnone]

theorem Identified.change {step : Step} {m m' : Manager} (hchange : Change step m m')
    (h : m.Identified) : m'.Identified := by
  cases hchange with
  | begin _ _ _ hid | beginAlone _ _ _ hid | follow _ _ _ hid | await _ _ hid =>
      exact h.join hid rfl rfl
  | abandon id =>
      unfold Identified
      exact h.sublist ((List.filter_sublist.map _).append_right _)
  | @answer _ call value hmem =>
      have hsub : ((m.calls.filter (·.id ≠ call.id)).map Call.id ++
          m.returned.map Return.id).Nodup :=
        h.sublist ((List.filter_sublist.map _).append_right _)
      unfold Identified
      rw [List.map_append, List.map_singleton, ← List.append_assoc, List.nodup_append]
      refine ⟨hsub, List.nodup_singleton _, ?_⟩
      intro id hmem' other hother
      rw [List.mem_singleton.mp hother]
      rintro rfl
      rcases List.mem_append.mp hmem' with hwaiting | hreturned
      · obtain ⟨c, hc, hsame⟩ := List.mem_map.mp hwaiting
        have hne := (List.mem_filter.mp hc).2
        simp [hsame] at hne
      · exact (List.nodup_append.mp h).2.2 call.id (List.mem_map_of_mem hmem) _ hreturned rfl
  | clone | drop | queue | loseClosers | reject | start | take | handOver | discard | launch
  | launchAlone | initializerRests | initializerEnds | retire | closerLost | closerEnters
  | closerRests | closerEnds | expire | conclude | elapse =>
      exact h

theorem act_close {m : Manager} {id : Nat} {limit : Option Duration} (hhandle : 0 < m.handles)
    (hid : m.hasCall id = false) : m.act (.close id limit) = m.close id limit := by
  simp [act, withNewCall, withHandle, hid, Nat.ne_of_gt hhandle]

theorem act_awaitInitialized {m : Manager} {id : Nat} (hhandle : 0 < m.handles)
    (hid : m.hasCall id = false) : m.act (.awaitInitialized id) = m.awaitInitialized id := by
  simp [act, withNewCall, withHandle, hid, Nat.ne_of_gt hhandle]

/-! ## What calls wait for -/

theorem answer?_owner {m : Manager} {value : Answer} (h : m.answer? .owner = some value) :
    ∃ report, m.progress = .done report ∧ value = .report report := by
  cases hprogress : m.progress with
  | done report =>
      simp only [answer?, hprogress, Option.some.injEq] at h
      exact ⟨report, rfl, h.symm⟩
  | idle | requested | underWay => simp [answer?, hprogress] at h

theorem answer?_follower {m : Manager} {value : Answer} (h : m.answer? .follower = some value) :
    ∃ report, m.progress = .done report ∧ value = .report .empty := by
  cases hprogress : m.progress with
  | done report =>
      simp only [answer?, hprogress, Option.some.injEq] at h
      exact ⟨report, rfl, h.symm⟩
  | idle | requested | underWay => simp [answer?, hprogress] at h

theorem answer?_initialized {m : Manager} {value : Answer}
    (h : m.answer? .initialized = some value) :
    m.pending = 0 ∧ value = .failures m.undelivered := by
  by_cases hpending : m.pending = 0
  · rw [answer?, if_pos hpending] at h
    exact ⟨hpending, (Option.some.inj h).symm⟩
  · simp [answer?, hpending] at h

/-! ## What becomes of a call -/

theorem Identified.eq_of_id_eq {m : Manager} (h : m.Identified) {call other : Call}
    (hcall : call ∈ m.calls) (hother : other ∈ m.calls) (hid : call.id = other.id) :
    call = other := by
  have hfind : m.calls.find? (·.id == call.id) = some call := h.find? hcall
  rw [hid, h.find? hother] at hfind
  exact (Option.some.inj hfind).symm

theorem Identified.return_eq {m : Manager} (h : m.Identified) {r other : Return}
    (hr : r ∈ m.returned) (hother : other ∈ m.returned) (hid : r.id = other.id) : r = other :=
  List.inj_on_of_nodup_map (List.nodup_append.mp h).2.1 hr hother hid

/-- A call that waits has not returned. -/
theorem Identified.id_ne_of_waiting {m : Manager} (h : m.Identified) {call : Call} {r : Return}
    (hcall : call ∈ m.calls) (hr : r ∈ m.returned) : r.id ≠ call.id := by
  intro hid
  exact (List.nodup_append.mp h).2.2 call.id (List.mem_map_of_mem hcall) r.id
    (List.mem_map_of_mem hr) hid.symm

/-- What has returned stays returned. -/
theorem Change.mem_returned {step : Step} {m m' : Manager} (hchange : Change step m m')
    {r : Return} (hr : r ∈ m.returned) : r ∈ m'.returned := by
  cases hchange with
  | answer => exact List.mem_append_left _ hr
  | _ => exact hr

/-- What returns is what a call waited for. -/
theorem Change.returned_cases {step : Step} {m m' : Manager} (hchange : Change step m m')
    {r : Return} (hr : r ∈ m'.returned) :
    r ∈ m.returned ∨ ∃ call ∈ m.calls, r.id = call.id ∧ m.answer? call.kind = some r.answer ∧
      r.time = m.now ∧ m'.progress = m.progress ∧ m'.history = m.history := by
  cases hchange with
  | @answer _ call value hmem hvalue =>
      rcases List.mem_append.mp hr with hr | hr
      · exact Or.inl hr
      · rw [List.mem_singleton.mp hr]
        exact Or.inr ⟨call, hmem, rfl, hvalue, rfl, rfl, rfl⟩
  | _ => exact Or.inl hr

/-- A call that nobody abandons waits on or returns what it waited for. -/
theorem Identified.waits_or_returns {step : Step} {m m' : Manager} {id : Nat} {kind : CallKind}
    (h : m.Identified) (hchange : Change step m m') (hkept : step ≠ .act (.abandon id))
    (hcall : ⟨id, kind⟩ ∈ m.calls) :
    ⟨id, kind⟩ ∈ m'.calls ∨
      ∃ value, m.answer? kind = some value ∧ m' = { m with
        calls := m.calls.filter (·.id ≠ id)
        undelivered := m.remaining kind
        returned := m.returned ++ [⟨m.now, id, value⟩] } := by
  cases hchange with
  | begin | beginAlone | follow | await => exact Or.inl (List.mem_append_left _ hcall)
  | abandon other =>
      have hne : id ≠ other := by
        rintro rfl
        exact hkept rfl
      exact Or.inl (List.mem_filter.mpr ⟨hcall, by simpa using hne⟩)
  | @answer _ call value hmem hvalue =>
      by_cases hid : call.id = id
      · obtain rfl : call = ⟨id, kind⟩ := h.eq_of_id_eq hmem hcall hid
        exact Or.inr ⟨value, hvalue, rfl⟩
      · exact Or.inl (List.mem_filter.mpr ⟨hcall, by simpa using Ne.symm hid⟩)
  | _ => exact Or.inl hcall

end Manager
end Lifecycle
end ServiceKit
