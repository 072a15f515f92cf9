import Mathlib.Data.List.Nodup
import ServiceKit.Proofs.Lifecycle.Change

/-!
# Counting initializers

The count of pending initializers is the number of those that run and of those that have ended and
not left yet.  No two of them have the same turn, so an action of a turn concerns one of them.
-/

namespace ServiceKit
namespace Lifecycle
namespace Manager

/-- The count of pending initializers is right, and their turns tell them apart. -/
structure Counted (m : Manager) : Prop where
  pending_eq : m.pending = m.initializers.length + m.leaving
  tickets_nodup : (m.initializers.map Running.ticket).Nodup
  tickets_lt : ∀ r ∈ m.initializers, r.ticket < m.ticket

theorem counted_new (start : Nat) : (new start).Counted where
  pending_eq := rfl
  tickets_nodup := List.nodup_nil
  tickets_lt := by simp [new]

/-- Taking the one initializer of a turn out leaves the others as they were. -/
theorem Counted.exists_around {m : Manager} {r : Running} (h : m.Counted)
    (hmem : r ∈ m.initializers) :
    ∃ before after, m.initializers = before ++ r :: after ∧
      m.initializers.filter (·.ticket ≠ r.ticket) = before ++ after := by
  obtain ⟨before, after, heq⟩ := List.append_of_mem hmem
  refine ⟨before, after, heq, ?_⟩
  have hnodup := h.tickets_nodup
  rw [heq, List.map_append, List.map_cons, List.nodup_middle, List.nodup_cons] at hnodup
  have hother : ∀ s ∈ before ++ after, s.ticket ≠ r.ticket := by
    intro s hs hticket
    apply hnodup.1
    rw [← List.map_append, ← hticket]
    exact List.mem_map_of_mem hs
  rw [heq, List.filter_append, List.filter_cons_of_neg (by simp), ← List.filter_append]
  exact List.filter_eq_self.mpr fun s hs => by simpa using hother s hs

theorem Counted.initializers_eq_nil {m : Manager} (h : m.Counted) (hpending : m.pending = 0) :
    m.initializers = [] := by
  have heq := h.pending_eq
  rw [hpending] at heq
  exact List.length_eq_zero_iff.mp (by omega)

theorem Counted.change {step : Step} {m m' : Manager} (hchange : Change step m m')
    (h : m.Counted) : m'.Counted := by
  cases hchange with
  | start name hook _ =>
      refine ⟨?_, ?_, ?_⟩
      · have := h.pending_eq
        simp only [startInitializer, note, List.length_append, List.length_singleton]
        omega
      · simp only [startInitializer, note, List.map_append, List.map_singleton]
        rw [List.nodup_append]
        refine ⟨h.tickets_nodup, List.nodup_singleton _, ?_⟩
        intro a ha b hb
        obtain ⟨r, hr, rfl⟩ := List.mem_map.mp ha
        rw [List.mem_singleton.mp hb]
        exact Nat.ne_of_lt (h.tickets_lt r hr)
      · intro r hr
        simp only [startInitializer, note, List.mem_append, List.mem_singleton] at hr ⊢
        rcases hr with hr | rfl
        · exact Nat.lt_succ_of_lt (h.tickets_lt r hr)
        · exact Nat.lt_succ_self _
  | @initializerRests _ r _ _ _ =>
      have hticket : ∀ s : Running,
          (if s.ticket = r.ticket then { s with due := none } else s).ticket = s.ticket := by
        intro s
        split <;> rfl
      refine ⟨?_, ?_, ?_⟩
      · simpa using h.pending_eq
      · simpa [Function.comp_def, hticket] using h.tickets_nodup
      · intro t ht
        obtain ⟨s, hs, rfl⟩ := List.mem_map.mp ht
        rw [hticket]
        exact h.tickets_lt s hs
  | @initializerEnds _ r _ hmem _ _ =>
      obtain ⟨before, after, heq, hfilter⟩ := h.exists_around hmem
      refine ⟨?_, ?_, ?_⟩
      · have := h.pending_eq
        simp only [note, hfilter]
        simp only [heq, List.length_append, List.length_cons] at this ⊢
        omega
      · simp only [note]
        exact h.tickets_nodup.sublist (List.filter_sublist.map _)
      · intro s hs
        exact h.tickets_lt s (List.mem_of_mem_filter hs)
  | retire hleaving =>
      refine ⟨?_, h.tickets_nodup, h.tickets_lt⟩
      have := h.pending_eq
      simp only [note]
      omega
  | launch | launchAlone | closerLost | closerEnters =>
      exact ⟨h.pending_eq, h.tickets_nodup, fun r hr => Nat.lt_succ_of_lt (h.tickets_lt r hr)⟩
  | clone | drop | queue | loseClosers | reject | begin | beginAlone | follow | await | abandon
  | take | handOver | discard | closerRests | closerEnds | expire | conclude | answer | elapse =>
      exact ⟨h.pending_eq, h.tickets_nodup, h.tickets_lt⟩

end Manager
end Lifecycle
end ServiceKit
