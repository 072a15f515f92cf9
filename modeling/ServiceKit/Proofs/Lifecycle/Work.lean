import ServiceKit.Proofs.Lifecycle.Ready

/-!
# Every possible action uses up work

The work that is left bounds the number of actions that are possible before time passes.
Initializers and closers act once after they are entered, and the registration that such an action
may add to the mailbox is part of the work of the one that makes it.
-/

namespace ServiceKit
namespace Lifecycle

/-! ## Sums over lists -/

section Total

variable {α : Type*} {quantity : α → Nat}

@[simp] theorem total_nil : total quantity [] = 0 := rfl

@[simp] theorem total_cons (x : α) (l : List α) :
    total quantity (x :: l) = quantity x + total quantity l := rfl

@[simp] theorem total_append (l₁ l₂ : List α) :
    total quantity (l₁ ++ l₂) = total quantity l₁ + total quantity l₂ := by
  induction l₁ with
  | nil => simp
  | cons x l₁ ih => simp [ih, Nat.add_assoc]

theorem total_map_le {f : α → α} (h : ∀ x, quantity (f x) ≤ quantity x) (l : List α) :
    total quantity (l.map f) ≤ total quantity l := by
  induction l with
  | nil => exact Nat.le_refl 0
  | cons x l ih => exact Nat.add_le_add (h x) ih

theorem total_eq_mul {n : Nat} {l : List α} (h : ∀ x ∈ l, quantity x = n) :
    total quantity l = n * l.length := by
  induction l with
  | nil => rfl
  | cons x l ih =>
      have hx : quantity x = n := h x List.mem_cons_self
      have hl : total quantity l = n * l.length := ih fun y hy => h y (List.mem_cons_of_mem _ hy)
      rw [total_cons, hx, hl, List.length_cons, Nat.mul_succ, Nat.add_comm]

theorem le_total_of_mem (quantity : α → Nat) {x : α} {l : List α} (h : x ∈ l) :
    quantity x ≤ total quantity l := by
  obtain ⟨before, after, rfl⟩ := List.append_of_mem h
  rw [total_append, total_cons]
  omega

end Total

namespace Manager

/-! ## The work of the parts -/

variable {m : Manager}

theorem initializerWork_of_isDue {r : Running} (h : r.isDue m.now = true) :
    initializerWork r = 6 := by
  unfold Running.isDue at h
  unfold initializerWork
  cases hdue : r.due with
  | none => simp [hdue] at h
  | some time => rfl

theorem slotWork_of_isDue {r : Running} (h : r.isDue m.now = true) :
    slotWork (.running r) = 2 := by
  unfold Running.isDue at h
  cases hdue : r.due with
  | none => simp [hdue] at h
  | some time => simp [slotWork, hdue]

theorem slotWork_running_le (r : Running) : slotWork (.running r) ≤ 2 := by
  simp only [slotWork]
  split <;> omega

theorem slotWork_abort (slot : Slot) : slotWork slot.abort = 0 := by
  cases slot <;> rfl

theorem one_le_slotWork {slot : Slot} (h : slot.isOpen = true) : 1 ≤ slotWork slot := by
  cases slot with
  | waiting closer => simp [slotWork]
  | running r =>
      simp only [slotWork]
      split <;> omega
  | ended | lost | aborted => contradiction

/-- What a registration adds to the work is the command in the mailbox. -/
theorem registerFrom_work_le (phase : Phase) (hook : Hook) :
    (m.registerFrom phase hook).work ≤ m.work + 4 := by
  unfold registerFrom
  split
  · unfold register
    split
    · simp [work, note]
      omega
    · exact Nat.le_add_right m.work 4
    · exact Nat.le_add_right m.work 4
  · exact Nat.le_add_right m.work 4

/-- Initializers that rest have less work left, and the others as much as before. -/
theorem total_rest_le (ticket : Nat) (l : List Running) :
    total initializerWork
      (l.map fun s => if s.ticket = ticket then { s with due := none } else s) ≤
      total initializerWork l := by
  apply total_map_le
  intro s
  split
  · exact Nat.zero_le _
  · exact Nat.le_refl _

/-! ## What each action uses up -/

theorem initializerActs_work_lt (hcounted : m.Counted) {r : Running} (hmem : r ∈ m.initializers)
    (hdue : r.isDue m.now = true) : (m.initializerActs r.ticket).work < m.work := by
  unfold initializerActs
  split
  next hnone =>
    have hfound := List.find?_eq_none.mp hnone r hmem
    simp [hdue] at hfound
  next t hfind =>
    have ht : t ∈ m.initializers := List.mem_of_find?_eq_some hfind
    have hfound := List.find?_some hfind
    simp only [Bool.and_eq_true, beq_iff_eq] at hfound
    obtain ⟨before, after, heq, hfilter⟩ := hcounted.exists_around ht
    rw [hfound.1] at hfilter
    have hbefore : total initializerWork m.initializers =
        total initializerWork before + (6 + total initializerWork after) := by
      rw [heq, total_append, total_cons, initializerWork_of_isDue hfound.2]
    have hregister := registerFrom_work_le (m := m) .setUp t.hook
    split
    · have hleft := total_rest_le r.ticket before
      have hright := total_rest_le r.ticket after
      have hzero : initializerWork { t with due := none, ticket := r.ticket } = 0 := rfl
      simp only [work, registerFrom_initializers] at hregister ⊢
      rw [hbefore] at hregister ⊢
      simp only [heq, List.map_append, List.map_cons, total_append, total_cons, hfound.1, if_true]
      omega
    · simp only [work, note, registerFrom_initializers] at hregister ⊢
      rw [hbefore] at hregister ⊢
      rw [hfilter, total_append]
      omega

/-- The work of a shutdown in which one place changes. -/
theorem work_lt_of_replace {m m' : Manager} {s s' : Shutdown} {before after : List Slot}
    {old : Slot} (slot : Slot) (hprogress : m.progress = .underWay s)
    (hslots : s.slots = before ++ old :: after) (hprogress' : m'.progress = .underWay s')
    (hslots' : s'.slots = before ++ slot :: after) (hwork : slotWork slot < slotWork old)
    (hmailbox : m'.mailbox = m.mailbox) (hleaving : m'.leaving = m.leaving)
    (hinitializers : m'.initializers = m.initializers) (hcalls : m'.calls = m.calls)
    (hcollector : m'.collector = m.collector) : m'.work < m.work := by
  simp only [work, hprogress, hprogress', hmailbox, hleaving, hinitializers, hcalls, hcollector,
    progressWork, hslots, hslots', total_append, total_cons]
  omega

theorem closerEnters_work_lt {s : Shutdown} {closer : Closer} {k : Nat}
    (hprogress : m.progress = .underWay s) (htime : s.isInTime m.now = true)
    (hslot : s.slots[k]? = some (.waiting closer)) : (m.closerEnters k).work < m.work := by
  obtain ⟨before, after, hslots, -, hset⟩ := exists_around_of_getElem? hslot
  simp only [closerEnters, hprogress, hslot, htime, if_true, hset]
  split
  · refine work_lt_of_replace (.lost closer.name) hprogress hslots rfl rfl ?_
      rfl rfl rfl rfl rfl
    simp [slotWork]
  · next hook _ =>
    refine work_lt_of_replace _ hprogress hslots rfl rfl ?_ rfl rfl rfl rfl rfl
    exact Nat.lt_succ_of_le (slotWork_running_le _)

/-- After the shutdown has begun a registration leaves everything but the history as it is. -/
theorem registerFrom_of_begun (phase : Phase) (hook : Hook) (hprogress : m.progress ≠ .idle) :
    ∃ history, m.registerFrom phase hook = { m with history := history } := by
  unfold registerFrom
  split
  · unfold register
    split
    · contradiction
    · contradiction
    · exact ⟨_, rfl⟩
  · exact ⟨_, rfl⟩

theorem closerActs_work_lt {s : Shutdown} {r : Running} {k : Nat}
    (hprogress : m.progress = .underWay s) (htime : s.isInTime m.now = true)
    (hslot : s.slots[k]? = some (.running r)) (hdue : r.isDue m.now = true) :
    (m.closerActs k).work < m.work := by
  obtain ⟨before, after, hslots, -, hset⟩ := exists_around_of_getElem? hslot
  obtain ⟨history, hregister⟩ := registerFrom_of_begun (m := m) .close r.hook (by simp [hprogress])
  have htwo : slotWork (.running r) = 2 := slotWork_of_isDue hdue
  simp only [closerActs, hprogress, hslot, htime, hdue, Bool.and_self, if_true, hset, hregister]
  split
  · refine work_lt_of_replace (.running { r with due := none }) hprogress hslots rfl rfl ?_
      rfl rfl rfl rfl rfl
    rw [htwo]
    exact Nat.lt_succ_self 1
  · refine work_lt_of_replace .ended hprogress hslots rfl rfl ?_ rfl rfl rfl rfl rfl
    rw [htwo]
    exact Nat.zero_lt_two

theorem expire_work_lt (hpunctual : m.Punctual) {s : Shutdown}
    (hprogress : m.progress = .underWay s) (htime : s.isInTime m.now = false)
    (hopen : s.isUnfinished = true) : m.expire.work < m.work := by
  have hlimit : ∃ limit, s.limit = some limit := by
    cases hlimit : s.limit with
    | some limit => exact ⟨limit, rfl⟩
    | none =>
        have hdeadline : s.deadline = none := hpunctual.limited s hprogress hlimit
        simp [Shutdown.isInTime, hdeadline] at htime
  obtain ⟨limit, hlimit⟩ := hlimit
  obtain ⟨slot, hmem, hslot⟩ := List.any_eq_true.mp hopen
  have hsome : 1 ≤ total slotWork s.slots :=
    Nat.le_trans (one_le_slotWork hslot) (le_total_of_mem _ hmem)
  have hnone : total slotWork (s.slots.map Slot.abort) = 0 := by
    have hall : ∀ slot ∈ s.slots.map Slot.abort, slotWork slot = 0 := by
      intro slot hslot
      obtain ⟨old, -, rfl⟩ := List.mem_map.mp hslot
      exact slotWork_abort old
    rw [total_eq_mul hall, Nat.zero_mul]
  simp only [expire, hprogress, hlimit, hopen, htime, Bool.not_false, Bool.and_self, if_true,
    noteAll, work, progressWork, hnone]
  omega

theorem collect_work_lt {queue : List Closer} {command : Command} {rest : List Command}
    (hcollector : m.collector = .listening queue) (hmailbox : m.mailbox = command :: rest) :
    m.collect.work < m.work := by
  cases command with
  | register closer =>
      simp only [collect, hcollector, hmailbox, work, collectorWork, List.length_cons,
        List.length_append, List.length_nil]
      omega
  | shutdown =>
      simp only [collect, hcollector, hmailbox, work, note, collectorWork, List.length_cons]
      omega

theorem discard_work_lt {queue : List Closer} (hcollector : m.collector = .listening queue)
    (hmailbox : m.mailbox = []) (hheld : m.isHeld = false) : m.discard.work < m.work := by
  simp only [discard, hcollector, hmailbox, hheld, Bool.false_eq_true, if_false, work, note,
    collectorWork]
  omega

theorem launch_work_lt {limit : Option Duration} (hprogress : m.progress = .requested limit)
    (hcollector : ∀ queue, m.collector ≠ .listening queue) : m.launch.work < m.work := by
  cases hwhere : m.collector with
  | listening queue => exact absurd hwhere (hcollector queue)
  | delivered closers =>
      have hslots : total slotWork (closers.map Slot.waiting) = 3 * closers.length := by
        rw [total_eq_mul (n := 3) (by simp [slotWork]), List.length_map]
      simp only [launch, hprogress, hwhere, runClosers, work, progressWork, collectorWork, hslots]
      omega
  | stopped =>
      simp only [launch, hprogress, hwhere, runClosers, note, work, progressWork, collectorWork,
        List.map_nil, total_nil]
      omega

theorem conclude_work_lt {s : Shutdown} (hprogress : m.progress = .underWay s)
    (hopen : s.isUnfinished = false) : m.conclude.work < m.work := by
  simp only [conclude, hprogress, hopen, Bool.false_eq_true, if_false, work, note, progressWork]
  omega

theorem answer_work_lt (hidentified : m.Identified) {call : Call} (hmem : call ∈ m.calls)
    (hvalue : (m.answer? call.kind).isSome = true) : (m.answer call.id).work < m.work := by
  obtain ⟨value, hvalue⟩ := Option.isSome_iff_exists.mp hvalue
  have hfewer : (m.calls.filter (·.id ≠ call.id)).length < m.calls.length :=
    List.length_filter_lt_length_iff_exists.mpr ⟨call, hmem, by simp⟩
  simp only [answer, hidentified.find? hmem, hvalue, work]
  omega

theorem retire_work_lt (hleaving : m.leaving ≠ 0) : m.retire.work < m.work := by
  unfold retire
  split
  next hzero => exact absurd hzero hleaving
  next n hn =>
    simp only [work, note, hn]
    omega

/-- Every action that is possible uses up a part of the work that is left. -/
theorem work_lt_of_ready {action : Action} (hsound : m.Sound) (h : m.Ready action) :
    (m.act action).work < m.work := by
  cases h with
  | retire hleaving => exact retire_work_lt hleaving
  | initializer hmem hdue => exact initializerActs_work_lt hsound.counted hmem hdue
  | closer hprogress htime hslot hdue => exact closerActs_work_lt hprogress htime hslot hdue
  | expire hprogress htime hopen => exact expire_work_lt hsound.punctual hprogress htime hopen
  | collect hcollector hmailbox => exact collect_work_lt hcollector hmailbox
  | discard hcollector hmailbox hheld => exact discard_work_lt hcollector hmailbox hheld
  | launch hprogress hcollector => exact launch_work_lt hprogress hcollector
  | enter hprogress htime hslot => exact closerEnters_work_lt hprogress htime hslot
  | conclude hprogress hopen => exact conclude_work_lt hprogress hopen
  | answer hmem hvalue => exact answer_work_lt hsound.identified hmem hvalue

end Manager
end Lifecycle
end ServiceKit
