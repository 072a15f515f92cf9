import ServiceKit.Proofs.Lifecycle.Sound

/-!
# What is possible now

The actions that are possible without a caller, each with what makes it possible.  Every one of them
uses up a part of the work that is left, so only finitely many of them happen at one time.
-/

namespace ServiceKit
namespace Lifecycle
namespace Manager

/-- An action is possible now without a caller. -/
inductive Ready (m : Manager) : Action → Prop where
  | retire (hleaving : m.leaving ≠ 0) : Ready m .retire
  | initializer {r : Running} (hmem : r ∈ m.initializers) (hdue : r.isDue m.now = true) :
      Ready m (.initializerActs r.ticket)
  | closer {s : Shutdown} {r : Running} {k : Nat} (hprogress : m.progress = .underWay s)
      (htime : s.isInTime m.now = true) (hslot : s.slots[k]? = some (.running r))
      (hdue : r.isDue m.now = true) : Ready m (.closerActs k)
  | expire {s : Shutdown} (hprogress : m.progress = .underWay s)
      (htime : s.isInTime m.now = false) (hopen : s.isUnfinished = true) : Ready m .expire
  | collect {queue : List Closer} {command : Command} {rest : List Command}
      (hcollector : m.collector = .listening queue) (hmailbox : m.mailbox = command :: rest) :
      Ready m .collect
  | discard {queue : List Closer} (hcollector : m.collector = .listening queue)
      (hmailbox : m.mailbox = []) (hheld : m.isHeld = false) : Ready m .discard
  | launch {limit : Option Duration} (hprogress : m.progress = .requested limit)
      (hcollector : ∀ queue, m.collector ≠ .listening queue) : Ready m .launch
  | enter {s : Shutdown} {closer : Closer} {k : Nat} (hprogress : m.progress = .underWay s)
      (htime : s.isInTime m.now = true) (hslot : s.slots[k]? = some (.waiting closer)) :
      Ready m (.closerEnters k)
  | conclude {s : Shutdown} (hprogress : m.progress = .underWay s)
      (hopen : s.isUnfinished = false) : Ready m .conclude
  | answer {call : Call} (hmem : call ∈ m.calls) (hvalue : (m.answer? call.kind).isSome = true) :
      Ready m (.answer call.id)

/-! ## The possible actions are the listed ones -/

variable {m : Manager} {action : Action}

theorem mem_dueActions :
    action ∈ m.dueActions ↔ ∃ turn, (turn, action) ∈ m.dueInitializers ++ m.dueClosers := by
  simp only [dueActions, List.mem_map, List.mem_mergeSort, Prod.exists, exists_eq_right]

theorem ready_of_mem_dueInitializers {turn : Nat} (h : (turn, action) ∈ m.dueInitializers) :
    m.Ready action := by
  obtain ⟨r, hr, heq⟩ := List.mem_map.mp h
  obtain ⟨hmem, hdue⟩ := List.mem_filter.mp hr
  obtain ⟨-, rfl⟩ := Prod.mk.inj heq
  exact .initializer hmem hdue

theorem ready_of_mem_dueClosers {turn : Nat} (h : (turn, action) ∈ m.dueClosers) :
    m.Ready action := by
  unfold dueClosers at h
  split at h
  next s hprogress =>
    split at h
    next htime =>
      obtain ⟨⟨slot, k⟩, hslot, heq⟩ := List.mem_filterMap.mp h
      rw [List.mem_zipIdx_iff_getElem?] at hslot
      unfold dueCloser at heq
      split at heq
      next r hr =>
        split at heq
        next hdue =>
          obtain ⟨-, rfl⟩ := Prod.mk.inj (Option.some.inj heq)
          obtain rfl : slot = .running r := hr
          exact .closer hprogress htime hslot hdue
        next => contradiction
      next => contradiction
    next htime =>
      split at h
      next hopen =>
        obtain ⟨-, rfl⟩ := Prod.mk.inj (List.mem_singleton.mp h)
        exact .expire hprogress (eq_false_of_ne_true htime) hopen
      next => contradiction
  next => contradiction

theorem ready_of_mem_dueActions (h : action ∈ m.dueActions) : m.Ready action := by
  obtain ⟨turn, hturn⟩ := mem_dueActions.mp h
  rcases List.mem_append.mp hturn with hturn | hturn
  · exact ready_of_mem_dueInitializers hturn
  · exact ready_of_mem_dueClosers hturn

theorem ready_of_mem_collectorActions (h : action ∈ m.collectorActions) : m.Ready action := by
  unfold collectorActions at h
  split at h
  next hcollector hmailbox =>
    rw [List.mem_singleton.mp h]
    exact .collect hcollector hmailbox
  next hcollector hmailbox =>
    split at h
    next => contradiction
    next hheld =>
      rw [List.mem_singleton.mp h]
      exact .discard hcollector hmailbox (eq_false_of_ne_true hheld)
  next => contradiction

theorem ready_of_mem_shutdownActions (h : action ∈ m.shutdownActions) : m.Ready action := by
  unfold shutdownActions at h
  split at h
  next hprogress =>
    split at h
    next => contradiction
    next hcollector =>
      rw [List.mem_singleton.mp h]
      exact .launch hprogress hcollector
  next s hprogress =>
    split at h
    next =>
      split at h
      next htime =>
        obtain ⟨⟨slot, k⟩, hslot, heq⟩ := List.mem_filterMap.mp h
        rw [List.mem_zipIdx_iff_getElem?] at hslot
        unfold entry at heq
        split at heq
        next closer hcloser =>
          obtain rfl := Option.some.inj heq
          obtain rfl : slot = .waiting closer := hcloser
          exact .enter hprogress htime hslot
        next => contradiction
      next => contradiction
    next hopen =>
      rw [List.mem_singleton.mp h]
      exact .conclude hprogress (eq_false_of_ne_true hopen)
  next => contradiction

theorem ready_of_mem_enabled (h : action ∈ m.enabled) : m.Ready action := by
  simp only [enabled, List.mem_append] at h
  rcases h with (((h | h) | h) | h) | h
  · split at h
    · contradiction
    · rw [List.mem_singleton.mp h]
      exact .retire ‹_›
  · exact ready_of_mem_dueActions h
  · exact ready_of_mem_collectorActions h
  · exact ready_of_mem_shutdownActions h
  · obtain ⟨call, hcall, rfl⟩ := List.mem_map.mp h
    obtain ⟨hmem, hvalue⟩ := List.mem_filter.mp hcall
    exact .answer hmem hvalue

theorem Ready.mem_enabled (h : m.Ready action) : action ∈ m.enabled := by
  simp only [enabled, List.mem_append]
  cases h with
  | retire hleaving =>
      simp [hleaving]
  | @initializer r hmem hdue =>
      refine Or.inl (Or.inl (Or.inl (Or.inr (mem_dueActions.mpr ⟨r.ticket, ?_⟩))))
      exact List.mem_append_left _ (List.mem_map_of_mem (List.mem_filter.mpr ⟨hmem, hdue⟩))
  | @closer s r k hprogress htime hslot hdue =>
      refine Or.inl (Or.inl (Or.inl (Or.inr (mem_dueActions.mpr ⟨r.ticket, ?_⟩))))
      refine List.mem_append_right _ ?_
      simp only [dueClosers, hprogress, htime, if_true, List.mem_filterMap]
      refine ⟨(.running r, k), List.mem_zipIdx_iff_getElem?.mpr hslot, ?_⟩
      simp [dueCloser, hdue]
  | @expire s hprogress htime hopen =>
      refine Or.inl (Or.inl (Or.inl (Or.inr (mem_dueActions.mpr ⟨s.ticket, ?_⟩))))
      simp [dueClosers, hprogress, htime, hopen]
  | collect hcollector hmailbox =>
      refine Or.inl (Or.inl (Or.inr ?_))
      simp [collectorActions, hcollector, hmailbox]
  | discard hcollector hmailbox hheld =>
      refine Or.inl (Or.inl (Or.inr ?_))
      simp [collectorActions, hcollector, hmailbox, hheld]
  | launch hprogress hcollector =>
      refine Or.inl (Or.inr ?_)
      simp only [shutdownActions, hprogress]
      exact List.mem_singleton_self _
  | @enter s closer k hprogress htime hslot =>
      refine Or.inl (Or.inr ?_)
      have hopen : s.isUnfinished = true :=
        Shutdown.isUnfinished_of_mem (List.mem_of_getElem? hslot) rfl
      simp only [shutdownActions, hprogress, hopen, htime, if_true, List.mem_filterMap]
      exact ⟨(.waiting closer, k), List.mem_zipIdx_iff_getElem?.mpr hslot, rfl⟩
  | conclude hprogress hopen =>
      refine Or.inl (Or.inr ?_)
      simp [shutdownActions, hprogress, hopen]
  | @answer call hmem hvalue =>
      refine Or.inr (List.mem_map.mpr ⟨call, ?_, rfl⟩)
      exact List.mem_filter.mpr ⟨hmem, hvalue⟩

/-- The listed actions are those that are possible. -/
theorem mem_enabled_iff : action ∈ m.enabled ↔ m.Ready action :=
  ⟨ready_of_mem_enabled, Ready.mem_enabled⟩

end Manager
end Lifecycle
end ServiceKit
