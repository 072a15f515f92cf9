import ServiceKit.Proofs.Lifecycle.Handover
import ServiceKit.Proofs.Lifecycle.Plan

/-!
# Accounting for every closer

While a shutdown runs, each of its places says what has become of one closer: it waits at the start,
runs until its time, has ended in time, or is late.  The failures that the shutdown has collected
are those of the closers that have ended.
-/

namespace ServiceKit
namespace Lifecycle

open History

/-- What a place of a shutdown means for its closer; `expired` says that the limit has been
reached. -/
def Slot.Keeps (plan : Plan) (now : Nat) (expired : Bool) : Slot → Closer → Prop
  | waiting c, closer => expired = false ∧ c = closer ∧ now = plan.start
  | running r, closer => expired = false ∧ r.name = closer.name ∧ closer.make = .ok r.hook ∧
      (r.due = r.hook.due? plan.start ∨ r.hook.ending = none)
  | ended, closer => plan.endsInTime closer = true
  | lost name, closer => name = closer.name ∧ ∃ panic, closer.make = .error panic
  | aborted, closer => expired = true ∧ plan.endsInTime closer = false

namespace Plan

/-- The failures of a closer that has ended. -/
def collected (plan : Plan) (slot : Slot) (closer : Closer) : List TimedFailure :=
  match slot with
  | .ended => plan.failuresOf closer
  | _ => []

/-- The failures of the closers that have ended. -/
def tally (plan : Plan) (slots : List Slot) : List TimedFailure :=
  (List.zipWith plan.collected slots plan.closers).flatten

/-- A shutdown that runs goes to plan. -/
structure Keeps (plan : Plan) (now : Nat) (s : Shutdown) : Prop where
  limit : s.limit = plan.limit
  deadline : s.deadline = plan.deadline
  places : List.Forall₂ (Slot.Keeps plan now s.timedOut) s.slots plan.closers
  ended : s.ended.Perm (plan.tally s.slots)
  aborted : s.aborted = if s.timedOut then plan.abortions else []
  late : s.timedOut = true → ∃ closer ∈ plan.closers, plan.overruns closer = true

/-- A report goes to plan.  A closer that panicked before it had a hook is missing from it unless
the limit was reached. -/
structure Settles (plan : Plan) (report : Report) : Prop where
  closersRun : report.closersRun = plan.closers.length
  ended : report.ended.Perm plan.failures
  aborted : report.aborted = if report.timedOut then plan.abortions else []
  late : report.timedOut = true → ∃ closer ∈ plan.closers, plan.overruns closer = true
  lost : report.timedOut = false →
    ∀ closer ∈ plan.late, ∃ panic, closer.make = .error panic

variable {plan : Plan} {now : Nat}

/-! ## Splitting the account at one place -/

/-- A relation between two lists splits at a place of the first. -/
theorem exists_around_of_forall₂ {α β : Type*} {R : α → β → Prop} {before after : List α} {x : α}
    {l : List β} (h : List.Forall₂ R (before ++ x :: after) l) :
    ∃ first y last, l = first ++ y :: last ∧ before.length = first.length ∧ R x y := by
  induction before generalizing l with
  | nil =>
      cases h with
      | cons hx _ => exact ⟨[], _, _, rfl, rfl, hx⟩
  | cons a before ih =>
      cases h with
      | cons _ hrest =>
          obtain ⟨first, y, last, rfl, hlength, hxy⟩ := ih hrest
          exact ⟨_ :: first, y, last, rfl, congrArg Nat.succ hlength, hxy⟩

theorem exists_mem_of_forall₂ {α β : Type*} {R : α → β → Prop} {l : List α} {l' : List β} {x : α}
    (h : List.Forall₂ R l l') (hmem : x ∈ l) : ∃ y ∈ l', R x y := by
  obtain ⟨before, after, rfl⟩ := List.append_of_mem hmem
  obtain ⟨first, y, last, rfl, -, hxy⟩ := exists_around_of_forall₂ h
  exact ⟨y, List.mem_append_right _ List.mem_cons_self, hxy⟩

/-- A list of lists in pairs, split at one place. -/
theorem flatten_zipWith_around {α β γ : Type*} (f : α → β → List γ) {before after : List α}
    {x : α} {first last : List β} {y : β} (hlength : before.length = first.length) :
    (List.zipWith f (before ++ x :: after) (first ++ y :: last)).flatten =
      (List.zipWith f before first).flatten ++
        (f x y ++ (List.zipWith f after last).flatten) := by
  simp [List.zipWith_append hlength]

/-- Lists in pairs, put together, where the first of a pair adds nothing. -/
theorem flatten_zipWith_eq {α β γ : Type*} {f : α → β → List γ} {g : β → List γ} {l : List α}
    {l' : List β} (h : List.Forall₂ (fun x y => f x y = g y) l l') :
    (List.zipWith f l l').flatten = l'.flatMap g := by
  induction h with
  | nil => rfl
  | cons hhead _ ih => rw [List.zipWith_cons_cons, List.flatten_cons, List.flatMap_cons, hhead, ih]

theorem flatMap_filter {α β : Type*} (p : α → Bool) (f : α → List β) (l : List α) :
    (l.filter p).flatMap f = l.flatMap fun x => if p x then f x else [] := by
  induction l with
  | nil => rfl
  | cons x l ih => cases hx : p x <;> simp [hx, ih]

theorem tally_around {before after : List Slot} {slot : Slot} {first last : List Closer}
    {closer : Closer} (hclosers : plan.closers = first ++ closer :: last)
    (hlength : before.length = first.length) :
    plan.tally (before ++ slot :: after) = (List.zipWith plan.collected before first).flatten ++
      (plan.collected slot closer ++ (List.zipWith plan.collected after last).flatten) := by
  rw [tally, hclosers, flatten_zipWith_around _ hlength]

/-- A place that gave nothing and gives nothing leaves the tally. -/
theorem tally_replace {before after : List Slot} {old slot : Slot} {R : Slot → Closer → Prop}
    (h : List.Forall₂ R (before ++ old :: after) plan.closers) (hold : old ≠ .ended)
    (hslot : slot ≠ .ended) :
    plan.tally (before ++ slot :: after) = plan.tally (before ++ old :: after) := by
  obtain ⟨first, closer, last, hclosers, hlength, -⟩ := exists_around_of_forall₂ h
  have hnone : ∀ x : Slot, x ≠ .ended → plan.collected x closer = [] := by
    intro x hx
    cases x with
    | ended => exact absurd rfl hx
    | waiting | running | lost | aborted => rfl
  rw [tally_around hclosers hlength, tally_around hclosers hlength, hnone old hold,
    hnone slot hslot]

/-! ## What happens to the account -/

theorem Keeps.isInTime_eq {s : Shutdown} (h : plan.Keeps now s) (time : Nat) :
    s.isInTime time = plan.isInTime time := by
  have hdeadline : s.deadline = plan.deadline := h.deadline
  cases hcase : plan.deadline with
  | none => simp [Shutdown.isInTime, isInTime, hdeadline, hcase]
  | some deadline => simp [Shutdown.isInTime, isInTime, hdeadline, hcase]

/-- Each place with its membership, since what is due at a place is not overdue. -/
theorem Keeps.places_mem {s : Shutdown} (h : plan.Keeps now s) :
    List.Forall₂ (fun slot closer => slot ∈ s.slots ∧ slot.Keeps plan now s.timedOut closer)
      s.slots plan.closers :=
  (List.forall₂_and_left _ _).mpr ⟨fun _ hmem => hmem, h.places⟩

theorem Keeps.replace {s : Shutdown} {before after : List Slot} {old slot : Slot}
    (h : plan.Keeps now s) (hslots : s.slots = before ++ old :: after) (hold : old ≠ .ended)
    (hslot : slot ≠ .ended)
    (hreplace : ∀ closer, old.Keeps plan now s.timedOut closer →
      slot.Keeps plan now s.timedOut closer) :
    plan.Keeps now { s with slots := before ++ slot :: after } := by
  have hplaces := h.places
  have hended := h.ended
  rw [hslots] at hplaces hended
  refine ⟨h.limit, h.deadline, ?_, ?_, h.aborted, h.late⟩
  · exact forall₂_replace hplaces fun closer _ => hreplace closer
  · rwa [tally_replace hplaces hold hslot]

/-- The end of a closer that ends in time is when the plan says. -/
theorem eq_of_isDue {r : Running} {closer : Closer} {ending : Ending}
    (hkeeps : (Slot.running r).Keeps plan now false closer) (hdue : r.isDue now = true)
    (hpunctual : ∀ time, r.due = some time → now ≤ time)
    (hending : r.hook.ending = some ending) : now = plan.start + r.hook.delay := by
  obtain ⟨-, -, -, hwhen | hnever⟩ := hkeeps
  · have htime : r.due = some (plan.start + r.hook.delay) := by
      rw [hwhen, Hook.due?, hending]
      simp
    have hnow : r.due = some now := Running.due_eq_of_isDue hdue hpunctual
    exact Option.some.inj (hnow.symm.trans htime)
  · rw [hending] at hnever
    contradiction

theorem Keeps.ends {s : Shutdown} {before after : List Slot} {r : Running} {ending : Ending}
    (h : plan.Keeps now s) (hslots : s.slots = before ++ .running r :: after)
    (htime : s.isInTime now = true) (hdue : r.isDue now = true)
    (hpunctual : ∀ time, r.due = some time → now ≤ time)
    (hending : r.hook.ending = some ending) :
    plan.Keeps now { s with
      slots := before ++ .ended :: after
      ended := s.ended ++ TimedFailure.ofEnding now .close r.name ending } := by
  have hplaces := h.places
  have hended := h.ended
  rw [hslots] at hplaces hended
  obtain ⟨first, closer, last, hclosers, hlength, hkeeps⟩ := exists_around_of_forall₂ hplaces
  have hover : s.timedOut = false := hkeeps.1
  rw [hover] at hkeeps
  have hnow : now = plan.start + r.hook.delay := eq_of_isDue hkeeps hdue hpunctual hending
  refine ⟨h.limit, h.deadline, ?_, ?_, h.aborted, h.late⟩
  · refine forall₂_replace hplaces fun closer _ hruns => ?_
    change plan.endsInTime closer = true
    rw [endsInTime_of_ok hruns.2.2.1 hending, ← hnow, ← h.isInTime_eq]
    exact htime
  · rw [tally_around hclosers hlength] at hended ⊢
    have hfailure : plan.collected .ended closer =
        TimedFailure.ofEnding now .close r.name ending := by
      rw [hkeeps.2.1, hnow]
      exact failuresOf_of_ok hkeeps.2.2.1 hending
    rw [hfailure]
    -- the tally has the failure at the place of the closer, the shutdown at the end
    have hmore := hended.append_right (TimedFailure.ofEnding now .close r.name ending)
    rw [List.append_assoc] at hmore
    exact hmore.trans (List.perm_append_comm.append_left _)

/-- A closer that is still open when the deadline has come is late. -/
theorem not_endsInTime_of_isOpen {slot : Slot} {closer : Closer} {expired : Bool}
    (hkeeps : slot.Keeps plan now expired closer) (hopen : slot.isOpen = true)
    (htime : plan.isInTime now = false)
    (hpunctual : ∀ r, slot = .running r → ∀ time, r.due = some time → now ≤ time) :
    plan.endsInTime closer = false := by
  have hlater : ∀ {hook : Hook}, closer.make = .ok hook →
      (hook.ending.isSome = true → now ≤ plan.start + hook.delay) →
      plan.endsInTime closer = false := by
    intro hook hmake hle
    cases hending : hook.ending with
    | none => simp [endsInTime, Closer.ending?, hmake, hending]
    | some ending =>
        rw [endsInTime_of_ok hmake hending, ← Bool.not_eq_true]
        intro hin
        rw [isInTime_of_le (hle (by simp [hending])) hin] at htime
        contradiction
  cases slot with
  | waiting c =>
      obtain ⟨-, rfl, rfl⟩ := hkeeps
      cases hmake : c.make with
      | error panic => exact endsInTime_of_error hmake
      | ok hook => exact hlater hmake fun _ => Nat.le_add_right _ _
  | running r =>
      obtain ⟨-, -, hmake, hwhen | hnever⟩ := hkeeps
      · refine hlater hmake fun hsome => hpunctual r rfl _ ?_
        rw [hwhen, Hook.due?, if_pos (by simp [hsome])]
      · exact hlater hmake fun hsome => by simp [hnever] at hsome
  | ended | lost | aborted => contradiction

/-- A closer that is still open when the deadline has come is not lost. -/
theorem not_loses_of_isOpen {slot : Slot} {closer : Closer} {expired : Bool}
    (hkeeps : slot.Keeps plan now expired closer) (hopen : slot.isOpen = true)
    (htime : plan.isInTime now = false) : plan.loses closer = false := by
  cases slot with
  | waiting c =>
      obtain ⟨-, -, rfl⟩ := hkeeps
      exact loses_of_not_isInTime htime closer
  | running r => exact loses_of_ok hkeeps.2.2.1
  | ended | lost | aborted => contradiction

/-! ## The limit is reached -/

theorem tally_abort (slots : List Slot) :
    plan.tally (slots.map Slot.abort) = plan.tally slots := by
  have hsame : (fun slot closer => plan.collected (Slot.abort slot) closer) = plan.collected := by
    funext slot closer
    cases slot <;> rfl
  rw [tally, tally, List.zipWith_map_left, hsame]

/-- Aborting a place keeps its account, if its closer is late while it is open. -/
theorem keeps_abort {slot : Slot} {closer : Closer} {expired : Bool}
    (hkeeps : slot.Keeps plan now expired closer)
    (hlate : slot.isOpen = true → plan.endsInTime closer = false) :
    slot.abort.Keeps plan now true closer := by
  cases slot with
  | waiting | running => exact ⟨rfl, hlate rfl⟩
  | ended => exact hkeeps
  | lost => exact hkeeps
  | aborted => exact ⟨rfl, hkeeps.2⟩

/-- Before the limit is reached, a place has not ended just when its closer is late. -/
theorem unendedName?_eq {slot : Slot} {closer : Closer} (hkeeps : slot.Keeps plan now false closer)
    (hlate : slot.isOpen = true → plan.endsInTime closer = false) :
    slot.unendedName? = if plan.endsInTime closer then none else some closer.name := by
  cases slot with
  | waiting c =>
      obtain ⟨-, rfl, -⟩ := hkeeps
      simp [hlate rfl, Slot.unendedName?]
  | running r =>
      obtain ⟨-, hname, -⟩ := hkeeps
      simp [hlate rfl, Slot.unendedName?, hname]
  | ended =>
      have hin : plan.endsInTime closer = true := hkeeps
      simp [hin, Slot.unendedName?]
  | lost name =>
      obtain ⟨rfl, panic, hmake⟩ := hkeeps
      simp [endsInTime_of_error hmake, Slot.unendedName?]
  | aborted => exact absurd hkeeps.1 (by simp)

/-- The closers that have not ended when the limit is reached are the late ones. -/
theorem filterMap_unendedName {slots : List Slot} {closers : List Closer}
    (h : List.Forall₂ (fun slot closer => slot.unendedName? =
      if plan.endsInTime closer then none else some closer.name) slots closers) :
    slots.filterMap Slot.unendedName? =
      (closers.filter fun closer => !plan.endsInTime closer).map Closer.name := by
  induction h with
  | nil => rfl
  | @cons slot closer slots closers hhead _ ih =>
      rw [List.filterMap_cons, hhead]
      cases hin : plan.endsInTime closer <;> simp [hin, ih]

/-- The closers of the places that are still open when the deadline has come are late. -/
theorem Keeps.late_of_isOpen {s : Shutdown} (h : plan.Keeps now s)
    (htime : s.isInTime now = false)
    (hpunctual : ∀ r, .running r ∈ s.slots → ∀ time, r.due = some time → now ≤ time)
    (slot : Slot) (closer : Closer)
    (hslot : slot ∈ s.slots ∧ slot.Keeps plan now s.timedOut closer)
    (hopen : slot.isOpen = true) : plan.endsInTime closer = false := by
  apply not_endsInTime_of_isOpen hslot.2 hopen (h.isInTime_eq now ▸ htime)
  rintro r rfl
  exact hpunctual r hslot.1

/-- While some place is open the limit has not been reached. -/
theorem Keeps.timedOut_eq_false {s : Shutdown} (h : plan.Keeps now s)
    (hopen : s.isUnfinished = true) : s.timedOut = false := by
  obtain ⟨slot, hmem, hslot⟩ := List.any_eq_true.mp hopen
  obtain ⟨closer, -, hkeeps⟩ := exists_mem_of_forall₂ h.places hmem
  cases slot with
  | waiting | running => exact hkeeps.1
  | ended | lost | aborted => contradiction

theorem Keeps.expire {s : Shutdown} {limit : Duration} (h : plan.Keeps now s)
    (hlimit : s.limit = some limit) (hopen : s.isUnfinished = true)
    (htime : s.isInTime now = false)
    (hpunctual : ∀ r, .running r ∈ s.slots → ∀ time, r.due = some time → now ≤ time) :
    plan.Keeps now { s with
      slots := s.slots.map Slot.abort
      aborted := (s.slots.filterMap Slot.unendedName?).map fun name =>
        ⟨.close, name, abortReason limit⟩
      timedOut := true } := by
  have hplanLimit : plan.limit = some limit := h.limit.symm.trans hlimit
  have hplaces := h.places_mem
  have hlate := h.late_of_isOpen htime hpunctual
  have hbefore : s.timedOut = false := h.timedOut_eq_false hopen
  -- some place is open, so its closer is late
  obtain ⟨unended, hmem, hisOpen⟩ := List.any_eq_true.mp hopen
  obtain ⟨closer, hcloser, hkeeps⟩ := exists_mem_of_forall₂ hplaces hmem
  have hoverruns : plan.overruns closer = true := overruns_iff.mpr
    ⟨hlate _ _ hkeeps hisOpen, not_loses_of_isOpen hkeeps.2 hisOpen (h.isInTime_eq now ▸ htime)⟩
  refine ⟨h.limit, h.deadline, ?_, ?_, ?_, fun _ => ⟨closer, hcloser, hoverruns⟩⟩
  · rw [List.forall₂_map_left_iff]
    refine hplaces.imp fun slot closer hslot => ?_
    exact keeps_abort hslot.2 (hlate _ _ hslot)
  · rw [tally_abort]
    exact h.ended
  · have hnames : List.Forall₂ (fun slot closer => slot.unendedName? =
        if plan.endsInTime closer then none else some closer.name) s.slots plan.closers := by
      refine hplaces.imp fun slot closer hslot => ?_
      exact unendedName?_eq (hbefore ▸ hslot.2) (hlate _ _ hslot)
    rw [filterMap_unendedName hnames, List.map_map, if_pos rfl, abortions, abortionsOf, hplanLimit]
    rfl

/-! ## The shutdown comes to its end -/

theorem Keeps.settles {s : Shutdown} (h : plan.Keeps now s) (hopen : s.isUnfinished = false) :
    plan.Settles s.report := by
  have hplaces := h.places_mem
  have hclosed : ∀ slot ∈ s.slots, slot.isOpen = false := fun slot hmem =>
    Shutdown.not_isOpen_of_mem hopen hmem
  refine ⟨h.places.length_eq, ?_, h.aborted, h.late, ?_⟩
  · have htally : plan.tally s.slots = plan.failures := by
      rw [failures, flatMap_filter]
      refine flatten_zipWith_eq (hplaces.imp fun slot closer hslot => ?_)
      cases slot with
      | waiting | running => exact absurd (hclosed _ hslot.1) (by simp [Slot.isOpen])
      | ended =>
          have hin : plan.endsInTime closer = true := hslot.2
          simp [collected, hin]
      | lost name =>
          obtain ⟨-, -, panic, hmake⟩ := hslot
          simp [collected, endsInTime_of_error hmake]
      | aborted => simp [collected, hslot.2.2]
    have hended := h.ended
    rwa [htally] at hended
  · intro hover closer hlate
    obtain ⟨hcloser, hnot⟩ := mem_late.mp hlate
    obtain ⟨slot, -, hmem, hkeeps⟩ := exists_mem_of_forall₂ hplaces.flip hcloser
    cases slot with
    | waiting | running => exact absurd (hclosed _ hmem) (by simp [Slot.isOpen])
    | ended =>
        have hin : plan.endsInTime closer = true := hkeeps
        rw [hin] at hnot
        contradiction
    | lost name => exact hkeeps.2
    | aborted =>
        have : s.timedOut = true := hkeeps.1
        rw [show s.timedOut = false from hover] at this
        contradiction

/-- Time passes only when every closer has entered its hook. -/
theorem Keeps.elapse {s : Shutdown} (h : plan.Keeps now s) (later : Nat)
    (hentered : ∀ closer, .waiting closer ∉ s.slots) : plan.Keeps later s := by
  refine ⟨h.limit, h.deadline, ?_, h.ended, h.aborted, h.late⟩
  have hplaces := h.places_mem
  refine hplaces.imp fun slot closer hslot => ?_
  cases slot with
  | waiting c => exact absurd hslot.1 (hentered c)
  | running | ended | lost | aborted => exact hslot.2

end Plan
end Lifecycle
end ServiceKit
