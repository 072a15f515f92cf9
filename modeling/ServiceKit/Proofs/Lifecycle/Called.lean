import Mathlib.Algebra.BigOperators.Group.Finset.Basic
import ServiceKit.Lifecycle.Mock
import ServiceKit.Proofs.Lifecycle.Closing
import ServiceKit.Proofs.Lifecycle.Reporting

/-!
# Counting the closers that are called

The report of a shutdown counts the closers that the collector handed over.  With no limit, and
with every limit that leaves any time at all, each of them is called once, so the report counts the
calls, and the hooks that are entered if every closer has one.  A limit of zero is reached before
the first call: no closer is called then, and the report counts them all the same.
-/

namespace ServiceKit
namespace Lifecycle

open History

/-- Calling the closer gives a hook. -/
def Closer.hasHook (closer : Closer) : Bool :=
  closer.make.isOk

/-- The closer that is called, whether its call gives a hook or panics. -/
def Happening.called? : Happening → Option String
  | entered .close name _ => some name
  | lost name => some name
  | _ => none

namespace History

/-- The closers that were called, in order. -/
def called (history : List Moment) : List String :=
  history.filterMap fun moment => moment.happening.called?

/-- How often the close hook of a mock resource was entered. -/
def closeCalls (history : List Moment) (id : Nat) : Nat :=
  history.countP fun moment => World.isCall id .close ⟨0, moment⟩

variable {history : List Moment}

/-- A view of closers does not need the rest of a history. -/
theorem filterMap_closings {β : Type*} {view : Moment → Option β}
    (hview : ∀ moment, moment.happening.concernsCloser = false → view moment = none) :
    (closings history).filterMap view = history.filterMap view := by
  rw [closings, List.filterMap_filter]
  refine List.filterMap_congr fun moment _ => ?_
  cases hconcerns : moment.happening.concernsCloser with
  | true => rfl
  | false => exact (hview moment hconcerns).symm

theorem not_called_of_not_concerning {happening : Happening}
    (h : happening.concernsCloser = false) :
    happening.called? = none ∧ happening.entered? .close = none := by
  cases happening with
  | entered phase | ended phase =>
      cases phase with
      | setUp => exact ⟨rfl, rfl⟩
      | close => contradiction
  | lost => contradiction
  | _ => exact ⟨rfl, rfl⟩

theorem closeCalls_eq (history : List Moment) (id : Nat) :
    closeCalls history id = ((entered history .close).filterMap Prod.snd).count id := by
  rw [closeCalls, entered, List.filterMap_filterMap, List.count_filterMap]
  apply List.countP_congr
  rintro ⟨time, happening⟩ -
  cases happening with
  | entered phase name resource =>
      cases phase with
      | setUp => cases resource <;> simp [World.isCall]
      | close => cases resource <;> simp [World.isCall]
  | _ => simp [World.isCall]

/-- If every hook that was entered is of one of some resources, their calls are all calls. -/
theorem sum_closeCalls {ids : Finset Nat}
    (hids : ∀ hook ∈ entered history .close, ∃ id ∈ ids, hook.2 = some id) :
    ∑ id ∈ ids, closeCalls history id = (entered history .close).length := by
  have hmem : ∀ id ∈ ((entered history .close).filterMap Prod.snd : Multiset Nat), id ∈ ids := by
    intro id hid
    obtain ⟨hook, hhook, hsome⟩ := List.mem_filterMap.mp hid
    obtain ⟨other, hother, heq⟩ := hids hook hhook
    rw [hsome, Option.some.injEq] at heq
    rwa [heq]
  have hlength : ((entered history .close).filterMap Prod.snd).length =
      (entered history .close).length := by
    rw [List.filterMap_length_eq_length]
    intro hook hhook
    obtain ⟨id, -, heq⟩ := hids hook hhook
    rw [heq]
    rfl
  rw [← hlength, ← Multiset.coe_card, ← Multiset.sum_count_eq_card hmem]
  refine Finset.sum_congr rfl fun id _ => ?_
  rw [Multiset.coe_count, closeCalls_eq]

end History

namespace Plan

variable {plan : Plan} {closer : Closer} {history : List Moment} {report : Report}

/-! ## The calls of a plan -/

theorem millisUp_eq_zero_iff {limit : Duration} : limit.millisUp = 0 ↔ limit = ⟨0⟩ := by
  rw [Duration.millisUp, Duration.mk.injEq]
  omega

/-- There is time to call the closers unless the limit is zero. -/
theorem isInTime_start_iff :
    plan.isInTime plan.start = true ↔ plan.limit ≠ some ⟨0⟩ := by
  rw [isInTime, deadline]
  cases plan.limit with
  | none => simp
  | some limit =>
      rw [ne_eq, Option.some.injEq, ← millisUp_eq_zero_iff]
      simp [Nat.pos_iff_ne_zero]

/-- Once a hook is entered, its closer is not called again. -/
theorem not_called_of_mem_finish {hook : Hook} {moment : Moment}
    (h : moment ∈ plan.finish closer hook) :
    moment.happening.called? = none ∧ moment.happening.entered? .close = none := by
  unfold finish at h
  split at h
  · obtain ⟨ending, -, rfl⟩ := List.mem_map.mp h
    exact ⟨rfl, rfl⟩
  · obtain ⟨deadline, -, rfl⟩ := List.mem_map.mp h
    exact ⟨rfl, rfl⟩

theorem called_fate (closer : Closer) :
    called (plan.fate closer) = if plan.isInTime plan.start then [closer.name] else [] := by
  unfold fate
  split
  · cases hmake : closer.make with
    | ok hook =>
        have hfinish : called (plan.finish closer hook) = [] :=
          List.filterMap_eq_nil_iff.mpr fun _ h => (not_called_of_mem_finish h).1
        exact congrArg (closer.name :: ·) hfinish
    | error panic => rfl
  · rfl

theorem entered_fate (closer : Closer) :
    entered (plan.fate closer) .close = if plan.isInTime plan.start then
      if closer.hasHook then [closer.hookName] else [] else [] := by
  unfold fate
  split
  · cases hmake : closer.make with
    | ok hook =>
        have hfinish : entered (plan.finish closer hook) .close = [] :=
          List.filterMap_eq_nil_iff.mpr fun _ h => (not_called_of_mem_finish h).2
        rw [Closer.hasHook, Closer.hookName, hmake]
        exact congrArg ((closer.name, hook.resource) :: ·) hfinish
    | error panic =>
        rw [Closer.hasHook, hmake]
        rfl
  · rfl

/-! ## The calls of a shutdown that has come to its end -/

/-- Once all fates are told, a view that shows something of them only if there was time to call the
closers shows it of every closer. -/
theorem filterMap_perm {β : Type*} {view : Moment → Option β} {shown : Closer → List β}
    (hview : ∀ moment, moment.happening.concernsCloser = false → view moment = none)
    (hfate : ∀ closer, (plan.fate closer).filterMap view =
      if plan.isInTime plan.start then shown closer else [])
    (h : (closings history).Perm (plan.closers.flatMap plan.fate)) :
    (history.filterMap view).Perm
      (if plan.isInTime plan.start then plan.closers.flatMap shown else []) := by
  have hfates : (plan.closers.flatMap fun closer => (plan.fate closer).filterMap view) =
      if plan.isInTime plan.start then plan.closers.flatMap shown else [] := by
    by_cases hstart : plan.isInTime plan.start = true
    · simp only [hfate, if_pos hstart]
    · simp only [hfate, if_neg hstart]
      exact List.flatMap_eq_nil_iff.mpr fun _ _ => rfl
  rw [← hfates, ← filterMap_closings hview, ← List.filterMap_flatMap]
  exact h.filterMap view

/-- Every closer has been called once, if there was time for it. -/
theorem called_perm (h : (closings history).Perm (plan.closers.flatMap plan.fate)) :
    (called history).Perm
      (if plan.isInTime plan.start then plan.closers.map Closer.name else []) := by
  rw [List.map_eq_flatMap]
  exact filterMap_perm (fun _ h => (not_called_of_not_concerning h).1) called_fate h

/-- The hook of every closer that has one has been entered, if there was time for it. -/
theorem entered_perm (h : (closings history).Perm (plan.closers.flatMap plan.fate)) :
    (entered history .close).Perm
      (if plan.isInTime plan.start then
        (plan.closers.filter Closer.hasHook).map Closer.hookName else []) := by
  rw [List.map_eq_flatMap, flatMap_filter]
  exact filterMap_perm (fun _ h => (not_called_of_not_concerning h).2) entered_fate h

theorem hasHook_of_resource {id : Nat} (h : closer.hookName.2 = some id) :
    closer.hasHook = true := by
  rw [Closer.hookName] at h
  split at h
  next hook hmake =>
    rw [Closer.hasHook, hmake]
    rfl
  next => contradiction

/-- What a report counts, against the calls that a history tells of. -/
structure CountsCalls (plan : Plan) (history : List Moment) (report : Report) : Prop where
  /-- Unless the limit is zero, every closer is called once, and the report counts the calls. -/
  calls : plan.limit ≠ some ⟨0⟩ →
    (called history).Perm (plan.closers.map Closer.name) ∧
      report.closersRun = (called history).length
  /-- The hooks that are entered then are those of the closers that have one, so the report counts
  the hooks if all of them have. -/
  hooks : plan.limit ≠ some ⟨0⟩ →
    (entered history .close).Perm ((plan.closers.filter Closer.hasHook).map Closer.hookName) ∧
      ((∀ closer ∈ plan.closers, closer.hasHook = true) →
        report.closersRun = (entered history .close).length)
  /-- If the closers are those of mock resources, the report counts the calls of the resources. -/
  resources : plan.limit ≠ some ⟨0⟩ → ∀ ids : Finset Nat,
    (∀ closer ∈ plan.closers, ∃ id ∈ ids, closer.hookName.2 = some id) →
      report.closersRun = ∑ id ∈ ids, closeCalls history id
  /-- If the limit is zero, no closer is called, although the report counts all of them. -/
  zero : plan.limit = some ⟨0⟩ →
    called history = [] ∧ entered history .close = [] ∧ report.closersRun = plan.closers.length

theorem Settles.countsCalls (hsettles : plan.Settles report)
    (hfates : (closings history).Perm (plan.closers.flatMap plan.fate)) :
    plan.CountsCalls history report := by
  have hrun : report.closersRun = plan.closers.length := hsettles.closersRun
  have hcalled := called_perm hfates
  have hentered := entered_perm hfates
  by_cases hlimit : plan.limit = some ⟨0⟩
  · have hover : ¬ plan.isInTime plan.start = true :=
      fun hin => isInTime_start_iff.mp hin hlimit
    rw [if_neg hover] at hcalled hentered
    exact {
      calls := absurd hlimit
      hooks := absurd hlimit
      resources := absurd hlimit
      zero := fun _ => ⟨List.perm_nil.mp hcalled, List.perm_nil.mp hentered, hrun⟩ }
  · rw [if_pos (isInTime_start_iff.mpr hlimit)] at hcalled hentered
    have hall : (∀ closer ∈ plan.closers, closer.hasHook = true) →
        report.closersRun = (entered history .close).length := by
      intro hhooks
      rw [hrun, hentered.length_eq, List.length_map, List.filter_eq_self.mpr hhooks]
    refine ⟨fun _ => ⟨hcalled, ?_⟩, fun _ => ⟨hentered, hall⟩, ?_, fun h => absurd h hlimit⟩
    · rw [hrun, hcalled.length_eq, List.length_map]
    · intro _ ids hids
      have hhooks : ∀ closer ∈ plan.closers, closer.hasHook = true := by
        intro closer hcloser
        obtain ⟨id, -, hid⟩ := hids closer hcloser
        exact hasHook_of_resource hid
      rw [hall hhooks, sum_closeCalls]
      intro hook hhook
      obtain ⟨closer, hcloser, rfl⟩ := List.mem_map.mp (hentered.mem_iff.mp hhook)
      exact hids closer (List.mem_of_mem_filter hcloser)

theorem Governs.countsCalls {m : Manager} (h : plan.Governs m) (hdone : m.progress = .done report) :
    plan.CountsCalls m.history report :=
  (h.done report hdone).1.countsCalls (h.done report hdone).2.1

end Plan

namespace Manager

/-- The report of a shutdown counts the closers that were called, unless the limit is zero. -/
theorem close_countsCalls (start : Nat) (before after : List Step) (id : Nat)
    (limit : Option Duration) (hbegins : BeginsAfter start before id)
    (hkept : .act (.abandon id) ∉ after) :
    let plan := ((new start).run before).plan limit
    let m := (new start).run (before ++ .act (.close id limit) :: after)
    called ((new start).run before).history = [] ∧
    entered ((new start).run before).history .close = [] ∧
    (∀ report, m.progress = .done report → plan.CountsCalls m.history report) ∧
    (∀ r ∈ m.returned, r.id = id →
      ∃ report, r.answer = .report report ∧ plan.CountsCalls m.history report) ∧
    ((limit = none → ∀ closer ∈ plan.closers, ∀ hook, closer.make = .ok hook →
        hook.ending.isSome = true) →
      Inevitable (fun m' => ∃ r ∈ m'.returned, r.id = id ∧
        ∃ report, r.answer = .report report ∧ plan.CountsCalls m'.history report) m) := by
  intro plan m
  have hsound : m.Sound := sound_run start _
  have hserves : plan.Serves id m :=
    serves_run start before after id limit hbegins.handle hbegins.fresh hbegins.running hkept
  have hnone : closings ((new start).run before).history = [] :=
    (sound_run start before).closings_eq_nil (state_eq_running_iff.mp hbegins.running)
  refine ⟨?_, ?_, fun report hdone => hserves.governs.countsCalls hdone, ?_, ?_⟩
  · rw [called, ← filterMap_closings fun _ h => (not_called_of_not_concerning h).1, hnone]
    rfl
  · rw [entered, ← filterMap_closings fun _ h => (not_called_of_not_concerning h).2, hnone]
    rfl
  · intro r hr hrId
    obtain ⟨report, hanswer, hdone⟩ := hserves.exists_done hsound hr hrId
    exact ⟨report, hanswer, hserves.governs.countsCalls hdone⟩
  · intro hends
    apply (hserves.inevitable hsound (recorded_run start _) hends).mono
    rintro m' ⟨hsound, -, hserves, r, hr, hrId⟩
    obtain ⟨report, hanswer, hdone⟩ := hserves.exists_done hsound hr hrId
    exact ⟨r, hr, hrId, report, hanswer, hserves.governs.countsCalls hdone⟩

/-- One hook ends in time, one never does, and one call panics, all within half a millisecond. -/
theorem close_countsCalls_three :
    let before : List Step := [
      .act (.register ⟨"pool", .ok ⟨0, none, some .success, some 4⟩⟩),
      .act (.register ⟨"feed", .ok ⟨0, none, none, some 9⟩⟩),
      .act (.register ⟨"cache", .error ⟨some "gone"⟩⟩)]
    let after : List Step := [.act .collect, .act .collect, .act .collect, .act .collect,
      .act .launch, .act (.closerEnters 0), .act (.closerEnters 1), .act (.closerEnters 2),
      .act (.closerActs 0), .elapse 1, .act .expire, .act .conclude, .act (.answer 1)]
    let m := (new 5).run (before ++ .act (.close 1 (some ⟨500000⟩)) :: after)
    ∃ r ∈ m.returned, ∃ report, r.answer = .report report ∧
      report.closersRun = (called m.history).length ∧
      (called m.history).Perm ["pool", "feed", "cache"] ∧
      (entered m.history .close).Perm [("pool", some 4), ("feed", some 9)] := by
  intro before after m
  obtain ⟨-, -, -, hreturned, -⟩ :=
    close_countsCalls 5 before after 1 (some ⟨500000⟩) ⟨rfl, by decide, rfl⟩ (by simp [after])
  have hr : m.returned = [⟨6, 1, .report ⟨3, [], [
      ⟨.close, "feed", "aborted after 500µs shutdown timeout"⟩,
      ⟨.close, "cache", "aborted after 500µs shutdown timeout"⟩], true⟩⟩] := by
    decide +kernel
  have hmem : _ ∈ m.returned := hr ▸ List.mem_singleton_self _
  obtain ⟨report, hanswer, hcounts⟩ := hreturned _ hmem rfl
  obtain ⟨hcalled, hrun⟩ := hcounts.calls (by decide)
  exact ⟨_, hmem, report, hanswer, hrun, hcalled, (hcounts.hooks (by decide)).1⟩

/-- A limit of zero is reached before anything is called: the mock resource is not closed, and the
report counts its closer. -/
theorem counted_uncalled :
    let resource : MockResource := ⟨"a", ⟨0, .succeed⟩, ⟨0, .succeed⟩⟩
    let m := (new 0).run [.act (.register (resource.item 0).closer), .act (.close 1 (some ⟨0⟩)),
      .act .collect, .act .collect, .act .launch, .act .expire, .act .conclude, .act (.answer 1)]
    m.returned =
      [⟨0, 1, .report ⟨1, [], [⟨.close, "a", "aborted after 0ns shutdown timeout"⟩], true⟩⟩] ∧
    entered m.history .close = [] ∧ closeCalls m.history 0 = 0 := by
  intro resource m
  refine ⟨?_, ?_, ?_⟩
  · decide +kernel
  · decide +kernel
  · decide +kernel

end Manager
end Lifecycle
end ServiceKit
