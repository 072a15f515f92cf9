import ServiceKit.Proofs.Lifecycle.Account

/-!
# What becomes of each closer

A closer of a shutdown is entered when the shutdown begins, and ends at its own time or is aborted
when the limit is reached.  When all this happens depends on the closer, the begin and the limit
alone.
-/

namespace ServiceKit
namespace Lifecycle

open History

/-- A closer does something, or something is done to it. -/
def Happening.concernsCloser : Happening → Bool
  | entered .close _ _ => true
  | ended .close _ _ _ => true
  | lost _ => true
  | aborted _ _ _ => true
  | _ => false

/-- What a history tells of closers. -/
def History.closings (history : List Moment) : List Moment :=
  history.filter fun moment => moment.happening.concernsCloser

/-- The moments before a time. -/
def History.before (time : Nat) (moments : List Moment) : List Moment :=
  moments.filter fun moment => moment.time < time

@[simp] theorem History.closings_append (h₁ h₂ : List Moment) :
    closings (h₁ ++ h₂) = closings h₁ ++ closings h₂ :=
  List.filter_append ..

theorem History.before_append (time : Nat) (h₁ h₂ : List Moment) :
    before time (h₁ ++ h₂) = before time h₁ ++ before time h₂ :=
  List.filter_append ..

/-- The place belongs to a closer that has done something and has not come to its end. -/
def Slot.hasBegun : Slot → Bool
  | running _ => true
  | lost _ => true
  | _ => false

namespace Plan

variable (plan : Plan)

/-- What becomes of a hook that was entered when the shutdown began. -/
def finish (closer : Closer) (hook : Hook) : List Moment :=
  if plan.endsInTime closer then
    hook.ending.toList.map fun ending =>
      ⟨plan.start + hook.delay, .ended .close closer.name hook.resource ending⟩
  else
    plan.deadline.toList.map fun deadline =>
      ⟨deadline, .aborted closer.name hook.resource true⟩

/-- What becomes of a closer. -/
def fate (closer : Closer) : List Moment :=
  if plan.isInTime plan.start then
    match closer.make with
    | .ok hook =>
      ⟨plan.start, .entered .close closer.name hook.resource⟩ :: plan.finish closer hook
    | .error _ => [⟨plan.start, .lost closer.name⟩]
  else [⟨plan.start, .aborted closer.hookName.1 closer.hookName.2 false⟩]

/-- What has become of a closer, given its place. -/
def told : Slot → Closer → List Moment
  | .waiting _, _ => []
  | .running r, closer => [⟨plan.start, .entered .close closer.name r.hook.resource⟩]
  | .lost _, closer => [⟨plan.start, .lost closer.name⟩]
  | .ended, closer => plan.fate closer
  | .aborted, closer => plan.fate closer

/-- What has become of the closers, given their places. -/
def toldAll (slots : List Slot) : List Moment :=
  (List.zipWith plan.told slots plan.closers).flatten

variable {plan} {now : Nat}

/-! ## Times of a fate -/

theorem start_le_deadline {deadline : Nat} (h : plan.deadline = some deadline) :
    plan.start ≤ deadline := by
  obtain ⟨limit, -, rfl⟩ := Option.map_eq_some_iff.mp h
  exact Nat.le_add_right _ _

/-- A closer that ends in time has a hook that ends then. -/
theorem exists_ending_of_endsInTime {closer : Closer} (h : plan.endsInTime closer = true) :
    ∃ hook ending, closer.make = .ok hook ∧ hook.ending = some ending ∧
      plan.isInTime (plan.start + hook.delay) = true := by
  cases hmake : closer.make with
  | error panic => simp [endsInTime_of_error hmake] at h
  | ok hook =>
      cases hending : hook.ending with
      | none => simp [endsInTime, Closer.ending?, hmake, hending] at h
      | some ending => exact ⟨hook, ending, rfl, hending, endsInTime_of_ok hmake hending ▸ h⟩

theorem isInTime_start_of_endsInTime {closer : Closer} (h : plan.endsInTime closer = true) :
    plan.isInTime plan.start = true := by
  obtain ⟨hook, ending, -, -, htime⟩ := exists_ending_of_endsInTime h
  exact isInTime_of_le (Nat.le_add_right _ _) htime

theorem fate_of_endsInTime {closer : Closer} {hook : Hook} {ending : Ending}
    (hmake : closer.make = .ok hook) (hending : hook.ending = some ending)
    (h : plan.endsInTime closer = true) :
    plan.fate closer = [⟨plan.start, .entered .close closer.name hook.resource⟩,
      ⟨plan.start + hook.delay, .ended .close closer.name hook.resource ending⟩] := by
  simp [fate, finish, isInTime_start_of_endsInTime h, hmake, hending, h]

/-- Nothing becomes of a closer before the shutdown begins. -/
theorem start_le_of_mem_fate {closer : Closer} {moment : Moment}
    (h : moment ∈ plan.fate closer) : plan.start ≤ moment.time := by
  unfold fate at h
  split at h
  · split at h
    next hook hmake =>
      rcases List.mem_cons.mp h with rfl | h
      · exact Nat.le_refl _
      · unfold finish at h
        split at h
        · obtain ⟨ending, -, rfl⟩ := List.mem_map.mp h
          exact Nat.le_add_right _ _
        · obtain ⟨deadline, hdeadline, rfl⟩ := List.mem_map.mp h
          exact start_le_deadline (Option.mem_toList.mp hdeadline)
    next =>
      obtain rfl := List.mem_singleton.mp h
      exact Nat.le_refl _
  · obtain rfl := List.mem_singleton.mp h
    exact Nat.le_refl _

/-! ## What the places tell -/

/-- Where one place tells more, all together do. -/
theorem toldAll_replace {R : Slot → Closer → Prop} {before after : List Slot} {old slot : Slot}
    {more : List Moment} (h : List.Forall₂ R (before ++ old :: after) plan.closers)
    (hmore : ∀ closer, R old closer → plan.told slot closer = plan.told old closer ++ more) :
    (plan.toldAll (before ++ slot :: after)).Perm
      (plan.toldAll (before ++ old :: after) ++ more) := by
  obtain ⟨first, closer, last, hclosers, hlength, hold⟩ := exists_around_of_forall₂ h
  rw [toldAll, toldAll, hclosers, flatten_zipWith_around _ hlength,
    flatten_zipWith_around _ hlength, hmore closer hold]
  simp only [List.append_assoc]
  exact (List.perm_append_comm.append_left _).append_left _

/-- Where every place tells more, all together do. -/
theorem flatten_zipWith_perm {α β γ : Type*} {f g : α → β → List γ} {more : α → Option γ}
    {l : List α} {l' : List β}
    (h : List.Forall₂ (fun x y => g x y = f x y ++ (more x).toList) l l') :
    (List.zipWith g l l').flatten.Perm
      ((List.zipWith f l l').flatten ++ l.filterMap more) := by
  induction h with
  | nil => exact .refl _
  | @cons x y l l' hhead _ ih =>
      have hmore : (x :: l).filterMap more = (more x).toList ++ l.filterMap more := by
        cases hx : more x <;> simp [hx]
      rw [List.zipWith_cons_cons, List.zipWith_cons_cons, List.flatten_cons, List.flatten_cons,
        hhead, hmore, List.append_assoc, List.append_assoc]
      exact ((ih.append_left _).trans (List.perm_append_comm_assoc _ _ _)).append_left _

/-! ## A shutdown that runs -/

/-- A shutdown that runs goes to plan, and what is told of closers is what its places tell. -/
structure Tracks (plan : Plan) (now : Nat) (closings : List Moment) (s : Shutdown) : Prop where
  keeps : plan.Keeps now s
  begun : ∀ slot ∈ s.slots, slot.hasBegun = true → plan.isInTime plan.start = true
  told : closings.Perm (plan.toldAll s.slots)

variable {closings : List Moment} {s : Shutdown}

theorem Tracks.isInTime_eq (h : plan.Tracks now closings s) (time : Nat) :
    s.isInTime time = plan.isInTime time :=
  h.keeps.isInTime_eq time

/-- A closer waits for its entry only when the shutdown begins. -/
theorem Tracks.now_eq_of_waiting (h : plan.Tracks now closings s) {before after : List Slot}
    {closer : Closer} (hslots : s.slots = before ++ .waiting closer :: after) :
    now = plan.start := by
  have hmem : .waiting closer ∈ s.slots := hslots ▸ List.mem_append_right _ List.mem_cons_self
  obtain ⟨other, -, -, -, hnow⟩ := exists_mem_of_forall₂ h.keeps.places hmem
  exact hnow

theorem Tracks.replace (h : plan.Tracks now closings s) {before after : List Slot}
    {old slot : Slot} {more : List Moment} (hslots : s.slots = before ++ old :: after)
    (hold : old ≠ .ended) (hslot : slot ≠ .ended)
    (hbegun : slot.hasBegun = true → plan.isInTime plan.start = true)
    (hreplace : ∀ closer, old.Keeps plan now s.timedOut closer →
      slot.Keeps plan now s.timedOut closer)
    (hmore : ∀ closer, old.Keeps plan now s.timedOut closer →
      plan.told slot closer = plan.told old closer ++ more) :
    plan.Tracks now (closings ++ more) { s with slots := before ++ slot :: after } := by
  have hplaces : List.Forall₂ (Slot.Keeps plan now s.timedOut)
      (before ++ old :: after) plan.closers := hslots ▸ h.keeps.places
  refine ⟨h.keeps.replace hslots hold hslot hreplace, ?_, ?_⟩
  · intro other hother hbegun'
    rcases List.mem_append.mp hother with hmem | hmem
    · exact h.begun other (hslots ▸ List.mem_append_left _ hmem) hbegun'
    · rcases List.mem_cons.mp hmem with rfl | hmem
      · exact hbegun hbegun'
      · exact h.begun other (hslots ▸ List.mem_append_right _ (List.mem_cons_of_mem _ hmem)) hbegun'
  · have htold := h.told
    rw [hslots] at htold
    exact (htold.append_right more).trans (toldAll_replace hplaces hmore).symm

theorem Tracks.ends (h : plan.Tracks now closings s) {before after : List Slot} {r : Running}
    {ending : Ending} (hslots : s.slots = before ++ .running r :: after)
    (htime : s.isInTime now = true) (hdue : r.isDue now = true)
    (hpunctual : ∀ time, r.due = some time → now ≤ time)
    (hending : r.hook.ending = some ending) :
    plan.Tracks now (closings ++ [⟨now, .ended .close r.name r.hook.resource ending⟩])
      { s with
        slots := before ++ .ended :: after
        ended := s.ended ++ TimedFailure.ofEnding now .close r.name ending } := by
  have hplaces : List.Forall₂ (Slot.Keeps plan now s.timedOut)
      (before ++ .running r :: after) plan.closers := hslots ▸ h.keeps.places
  refine ⟨h.keeps.ends hslots htime hdue hpunctual hending, ?_, ?_⟩
  · intro other hother hbegun
    rcases List.mem_append.mp hother with hmem | hmem
    · exact h.begun other (hslots ▸ List.mem_append_left _ hmem) hbegun
    · rcases List.mem_cons.mp hmem with rfl | hmem
      · contradiction
      · exact h.begun other (hslots ▸ List.mem_append_right _ (List.mem_cons_of_mem _ hmem)) hbegun
  · have htold := h.told
    rw [hslots] at htold
    refine (htold.append_right _).trans (toldAll_replace hplaces ?_).symm
    intro closer hruns
    have hover : s.timedOut = false := hruns.1
    rw [hover] at hruns
    have hnow : now = plan.start + r.hook.delay := eq_of_isDue hruns hdue hpunctual hending
    have hin : plan.endsInTime closer = true := by
      rw [endsInTime_of_ok hruns.2.2.1 hending]
      rw [← hnow, ← h.isInTime_eq]
      exact htime
    rw [Plan.told, Plan.told, fate_of_endsInTime hruns.2.2.1 hending hin, hruns.2.1, hnow]
    rfl

/-- The deadline of an open shutdown is the time at which it has come. -/
theorem eq_of_deadline {deadline : Nat} (hdeadline : plan.deadline = some deadline)
    (htime : plan.isInTime now = false) (hle : now ≤ deadline) : now = deadline := by
  simp only [isInTime, hdeadline, decide_eq_false_iff_not] at htime
  omega

/-- Aborting an open place when the deadline has come completes the fate of its closer. -/
theorem told_abort {slot : Slot} {closer : Closer} {deadline : Nat}
    (hkeeps : slot.Keeps plan now false closer) (hdeadline : plan.deadline = some deadline)
    (hnow : now = deadline)
    (hbegun : slot.hasBegun = true → plan.isInTime plan.start = true)
    (hlate : slot.isOpen = true → plan.endsInTime closer = false) :
    plan.told slot.abort closer =
      plan.told slot closer ++ (slot.abortion?.map (Moment.mk now)).toList := by
  cases slot with
  | waiting c =>
      obtain ⟨-, rfl, hstart⟩ := hkeeps
      have hnot : plan.isInTime plan.start = false := by
        simp [isInTime, hdeadline, ← hstart, hnow]
      cases hmake : c.make with
      | ok hook =>
          simp [Slot.abort, Slot.abortion?, told, fate, hnot, hmake, hstart, Closer.hookName]
      | error panic =>
          simp [Slot.abort, Slot.abortion?, told, fate, hnot, hmake, hstart, Closer.hookName]
  | running r =>
      obtain ⟨-, hname, hmake, -⟩ := hkeeps
      simp [Slot.abort, Slot.abortion?, told, fate, finish, hbegun rfl, hmake, hname, hlate rfl,
        hdeadline, hnow]
  | ended => simp [Slot.abort, Slot.abortion?]
  | lost name => simp [Slot.abort, Slot.abortion?]
  | aborted => simp [Slot.abort, Slot.abortion?]

theorem Tracks.expire {limit : Duration} (h : plan.Tracks now closings s)
    (hlimit : s.limit = some limit) (hopen : s.isUnfinished = true)
    (htime : s.isInTime now = false)
    (hpunctual : ∀ r, .running r ∈ s.slots → ∀ time, r.due = some time → now ≤ time)
    (hdeadline : ∀ time, s.deadline = some time → now ≤ time) :
    plan.Tracks now (closings ++ (s.slots.filterMap Slot.abortion?).map (Moment.mk now)) { s with
      slots := s.slots.map Slot.abort
      aborted := (s.slots.filterMap Slot.unendedName?).map fun name =>
        ⟨.close, name, abortReason limit⟩
      timedOut := true } := by
  have hbefore : s.timedOut = false := h.keeps.timedOut_eq_false hopen
  have hlate := h.keeps.late_of_isOpen htime hpunctual
  refine ⟨h.keeps.expire hlimit hopen htime hpunctual, ?_, ?_⟩
  · intro slot hslot hbegun
    obtain ⟨old, hold, rfl⟩ := List.mem_map.mp hslot
    cases old with
    | lost name => exact h.begun _ hold rfl
    | waiting | running | ended | aborted => contradiction
  · obtain ⟨deadline, htimeout⟩ : ∃ deadline, plan.deadline = some deadline :=
      ⟨_, by rw [deadline, ← h.keeps.limit, hlimit, Option.map_some]⟩
    have hnow : now = deadline := eq_of_deadline htimeout (h.keeps.isInTime_eq now ▸ htime)
      (hdeadline _ (h.keeps.deadline.trans htimeout))
    have hpairs : List.Forall₂ (fun slot closer => plan.told slot.abort closer =
        plan.told slot closer ++ (slot.abortion?.map (Moment.mk now)).toList)
        s.slots plan.closers := by
      refine h.keeps.places_mem.imp fun slot closer hslot => ?_
      have hkeeps := hslot.2
      rw [hbefore] at hkeeps
      exact told_abort hkeeps htimeout hnow (h.begun slot hslot.1) (hlate _ _ hslot)
    have htold := flatten_zipWith_perm hpairs
    rw [← List.map_filterMap] at htold
    rw [toldAll, List.zipWith_map_left]
    exact (h.told.append_right _).trans htold.symm

/-- Time passes only when every closer has entered its hook. -/
theorem Tracks.elapse (h : plan.Tracks now closings s) (later : Nat)
    (hentered : ∀ closer, .waiting closer ∉ s.slots) : plan.Tracks later closings s :=
  ⟨h.keeps.elapse later hentered, h.begun, h.told⟩

/-! ## What is told so far -/

/-- The place of a closer that has come to its end tells its fate. -/
theorem told_of_not_isOpen {slot : Slot} {closer : Closer} {expired : Bool}
    (hkeeps : slot.Keeps plan now expired closer)
    (hbegun : slot.hasBegun = true → plan.isInTime plan.start = true)
    (hclosed : slot.isOpen = false) : plan.told slot closer = plan.fate closer := by
  cases slot with
  | waiting | running => contradiction
  | ended | aborted => rfl
  | lost name =>
      obtain ⟨-, panic, hmake⟩ := hkeeps
      simp [told, fate, hbegun rfl, hmake]

/-- What a place tells before a time that is not later is what becomes of its closer before it. -/
theorem before_told {slot : Slot} {closer : Closer} {expired : Bool} {time : Nat}
    (hkeeps : slot.Keeps plan now expired closer) (hle : time ≤ now)
    (hbegun : slot.hasBegun = true → plan.isInTime plan.start = true)
    (hpunctual : ∀ r, slot = .running r → ∀ due, r.due = some due → now ≤ due)
    (hdeadline : slot.isOpen = true → ∀ deadline, plan.deadline = some deadline →
      now ≤ deadline) :
    before time (plan.told slot closer) = before time (plan.fate closer) := by
  cases slot with
  | waiting c =>
      obtain ⟨-, rfl, hstart⟩ := hkeeps
      have hnone : before time (plan.fate c) = [] := by
        rw [before, List.filter_eq_nil_iff]
        intro moment hmoment
        have hlater := start_le_of_mem_fate hmoment
        simp only [decide_eq_true_eq]
        omega
      rw [hnone]
      rfl
  | running r =>
      obtain ⟨-, hname, hmake, hdue⟩ := hkeeps
      have hnone : before time (plan.finish closer r.hook) = [] := by
        rw [before, List.filter_eq_nil_iff]
        intro moment hmoment
        have hlater : now ≤ moment.time := by
          unfold finish at hmoment
          split at hmoment
          · obtain ⟨ending, hending, rfl⟩ := List.mem_map.mp hmoment
            rw [Option.mem_toList] at hending
            rcases hdue with hdue | hnever
            · exact hpunctual r rfl _ (by simp [hdue, Hook.due?, hending])
            · simp [hnever] at hending
          · obtain ⟨deadline, hmem, rfl⟩ := List.mem_map.mp hmoment
            exact hdeadline rfl deadline (Option.mem_toList.mp hmem)
        simp only [decide_eq_true_eq]
        omega
      simp only [told, fate, hbegun rfl, hmake, if_true]
      rw [before] at hnone ⊢
      rw [before, List.filter_cons, List.filter_cons, hnone]
      rfl
  | ended | lost | aborted => rw [told_of_not_isOpen hkeeps hbegun rfl]

/-- Up to a time that is not later, the fates of all closers are told. -/
theorem Tracks.before_closings (h : plan.Tracks now closings s) {time : Nat} (hle : time ≤ now)
    (hpunctual : ∀ r, .running r ∈ s.slots → ∀ due, r.due = some due → now ≤ due)
    (hdeadline : s.isUnfinished = true → ∀ deadline, s.deadline = some deadline →
      now ≤ deadline) :
    (before time closings).Perm (before time (plan.closers.flatMap plan.fate)) := by
  have hpairs : List.Forall₂ (fun slot closer =>
      before time (plan.told slot closer) = before time (plan.fate closer))
      s.slots plan.closers := by
    refine h.keeps.places_mem.imp fun slot closer hslot => ?_
    apply before_told hslot.2 hle (h.begun slot hslot.1)
    · rintro r rfl
      exact hpunctual r hslot.1
    · intro hopen deadline hsome
      exact hdeadline (List.any_eq_true.mpr ⟨slot, hslot.1, hopen⟩) deadline
        (h.keeps.deadline.trans hsome)
  have htold : before time (plan.toldAll s.slots) =
      before time (plan.closers.flatMap plan.fate) := by
    rw [before, toldAll, List.filter_flatten, List.map_zipWith, before, List.filter_flatMap]
    exact flatten_zipWith_eq hpairs
  exact (h.told.filter _).trans (.of_eq htold)

/-- Where every closer has come to its end, all fates are told. -/
theorem Tracks.perm_fates (h : plan.Tracks now closings s) (hopen : s.isUnfinished = false) :
    closings.Perm (plan.closers.flatMap plan.fate) := by
  refine h.told.trans (.of_eq (flatten_zipWith_eq ?_))
  refine h.keeps.places_mem.imp fun slot closer hslot => ?_
  exact told_of_not_isOpen hslot.2 (h.begun slot hslot.1)
    (Shutdown.not_isOpen_of_mem hopen hslot.1)

/-- A shutdown with closers that did not reach its limit had time to begin them. -/
theorem Tracks.isInTime_start (h : plan.Tracks now closings s) (hopen : s.isUnfinished = false)
    (hover : s.timedOut = false) {closer : Closer} (hcloser : closer ∈ plan.closers) :
    plan.isInTime plan.start = true := by
  have hcloser' : closer ∈ plan.closers := hcloser
  obtain ⟨slot, -, hmem, hkeeps⟩ := exists_mem_of_forall₂ h.keeps.places_mem.flip hcloser'
  have hclosed : slot.isOpen = false := Shutdown.not_isOpen_of_mem hopen hmem
  cases slot with
  | waiting | running => contradiction
  | ended => exact isInTime_start_of_endsInTime hkeeps
  | lost => exact h.begun _ hmem rfl
  | aborted =>
      have hexpired : s.timedOut = true := hkeeps.1
      rw [hover] at hexpired
      contradiction

end Plan
end Lifecycle
end ServiceKit
