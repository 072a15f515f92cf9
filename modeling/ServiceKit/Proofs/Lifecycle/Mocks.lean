import ServiceKit.Proofs.Lifecycle.Called
import ServiceKit.Proofs.Lifecycle.Dispatch
import ServiceKit.Proofs.Lifecycle.Naming
import ServiceKit.Proofs.Lifecycle.Worlds

/-!
# Counted calls and recorded ends

However mock resources are managed, and by however many managers, every counted call of a hook has
been recorded in the event log, has panicked, was aborted by the limit of a shutdown, or runs.
-/

namespace ServiceKit
namespace Lifecycle

open History

/-! ## Counting -/

/-- What is counted alike one by one is counted alike together. -/
theorem countP_eq_of_count {p : HookName → Bool} {l l' : List HookName}
    (h : ∀ x, p x = true → l.count x = l'.count x) : l.countP p = l'.countP p := by
  rw [List.countP_eq_length_filter, List.countP_eq_length_filter]
  refine (List.perm_iff_count.mpr fun x => ?_).length_eq
  by_cases hx : p x = true
  · rw [List.count_filter hx, List.count_filter hx, h x hx]
  · rw [List.count_eq_zero_of_not_mem fun hmem => hx (List.mem_filter.mp hmem).2,
      List.count_eq_zero_of_not_mem fun hmem => hx (List.mem_filter.mp hmem).2]

/-- What is counted is counted as one thing or as the other. -/
theorem countP_eq_add_countP {α : Type*} {p q r : α → Bool} {l : List α}
    (h : ∀ x ∈ l, (p x).toNat = (q x).toNat + (r x).toNat) :
    l.countP p = l.countP q + l.countP r := by
  induction l with
  | nil => rfl
  | cons x l ih =>
      rw [List.forall_mem_cons] at h
      have htail := ih h.2
      have hhead := h.1
      simp only [List.countP_cons]
      cases hp : p x <;> cases hq : q x <;> cases hr : r x <;> simp [hp, hq, hr] at hhead ⊢ <;>
        omega

/-! ## The account of one manager -/

namespace Happening

/-- The hook of a phase that ends by a panic. -/
def panicked? (phase : Phase) : Happening → Option HookName
  | ended p name resource (.panic _) => if p = phase then some (name, resource) else none
  | _ => none

/-- The hook of a phase that is aborted while it runs: only close hooks are. -/
def stopped? (phase : Phase) (happening : Happening) : Option HookName :=
  match phase with
  | .setUp => none
  | .close => happening.aborted?

/-- The closer of an accepted registration, by the name of its hook. -/
def registered? (happening : Happening) : Option HookName :=
  happening.accepted?.map Closer.hookName

end Happening

namespace Manager

/-- The hooks of a phase that run. -/
def runningHooks (m : Manager) : Phase → List HookName
  | .setUp => m.initializers.map Running.hookName
  | .close => m.progress.running

/-- Every hook that was entered has ended, was aborted, or runs. -/
theorem Balanced.countP_entered {m : Manager} (h : m.Balanced) (p : HookName → Bool)
    (phase : Phase) :
    (entered m.history phase).countP p = (ended m.history phase).countP p +
      (m.history.filterMap fun moment => moment.happening.stopped? phase).countP p +
        (m.runningHooks phase).countP p := by
  rw [← List.countP_append, ← List.countP_append]
  refine countP_eq_of_count fun x _ => ?_
  rw [List.count_append, List.count_append]
  cases phase with
  | setUp =>
      have hnone : (m.history.filterMap fun moment => moment.happening.stopped? .setUp) = [] :=
        List.filterMap_eq_nil_iff.mpr fun _ _ => rfl
      rw [hnone, List.count_nil]
      exact h.setUp x
  | close => exact h.close x

/-- Every accepted closer of a resource is called, is passed over, or is still to be called. -/
theorem Dispatches.countP_accepted {m : Manager} (h : m.Dispatches) {p : HookName → Bool}
    (hp : ∀ x, p x = true → x.2 ≠ none) :
    ((accepted m.history).map Closer.hookName).countP p =
      (entered m.history .close).countP p + (passedOver m.history).countP p +
        m.uncalled.countP p := by
  rw [← List.countP_append, ← List.countP_append]
  refine countP_eq_of_count fun x hx => ?_
  rw [List.count_append, List.count_append]
  exact h x (hp x hx)

end Manager

/-! ## The account of a mock resource -/

/-- A hook is one of a mock resource. -/
def isOf (id : Nat) (x : HookName) : Bool :=
  x.2 == some id

namespace World

/-- How often the journal tells something of a mock resource. -/
def tellings (w : World) (view : Happening → Option HookName) (id : Nat) : Nat :=
  w.journal.countP fun entry => ((view entry.moment.happening).map (isOf id)).getD false

/-- The hooks of a resource that panicked. -/
def panics (w : World) (id : Nat) (phase : Phase) : Nat :=
  w.tellings (Happening.panicked? phase) id

/-- The hooks of a resource that were aborted after they were entered. -/
def stops (w : World) (id : Nat) (phase : Phase) : Nat :=
  w.tellings (Happening.stopped? phase) id

/-- The hooks of a resource that run. -/
def runs (w : World) (id : Nat) (phase : Phase) : Nat :=
  total (fun m => (m.runningHooks phase).countP (isOf id)) w.managers

/-- The accepted registrations of the closer of a resource. -/
def registrations (w : World) (id : Nat) : Nat :=
  w.tellings Happening.registered? id

/-- The closers of a resource that were aborted before their hooks were entered. -/
def passes (w : World) (id : Nat) : Nat :=
  w.tellings Happening.passedOver? id

/-- The closers of a resource that have not come to their turn. -/
def waits (w : World) (id : Nat) : Nat :=
  total (fun m => m.uncalled.countP (isOf id)) w.managers

/-- The events of a name and phase in the event log. -/
def events (w : World) (name : String) (phase : Phase) : Nat :=
  w.eventLog.countP fun event => event.name == name && event.phase == phase

/-- The calls and registrations of a mock resource are accounted for. -/
structure CountsHooks (w : World) (id : Nat) (name : String) : Prop where
  calls : ∀ phase, w.mockCalls id phase =
    w.events name phase + w.panics id phase + w.stops id phase + w.runs id phase
  /-- A closer that is aborted before its hook is entered is not called. -/
  closers : w.registrations id = w.mockCalls id .close + w.passes id + w.waits id

end World

/-! ## How mock resources are managed -/

/-- What a caller manages is a mock resource, under its number, or belongs to none. -/
def Action.Manages (resources : List MockResource) : Action → Prop
  | register closer => closer.hookName.2 = none ∨
      ∃ (id : Nat) (resource : MockResource), resources[id]? = some resource ∧
        closer = (resource.item id).closer
  | startInitializer name hook => hook.resource = none ∨
      ∃ (id : Nat) (resource : MockResource), resources[id]? = some resource ∧
        name = resource.name ∧ hook = (resource.item id).setUp
  | _ => True

/-- What a step manages is a mock resource or belongs to none. -/
def World.Step.Manages (resources : List MockResource) : World.Step → Prop
  | .act _ action => action.Manages resources
  | _ => True

/-- A hook with the number of a mock resource has its name. -/
def IsNamed (resources : List MockResource) (x : HookName) : Prop :=
  ∀ id, x.2 = some id →
    ∃ resource : MockResource, resources[id]? = some resource ∧ x.1 = resource.name

variable {resources : List MockResource} {w : World} {m : Manager} {id : Nat} {phase : Phase}

theorem isNamed_none (name : String) : IsNamed resources (name, none) := nofun

theorem Action.Manages.names {action : Action} (h : action.Manages resources) :
    action.Names (IsNamed resources) := by
  cases action with
  | register closer =>
      rcases h with hnone | ⟨id, resource, hresource, rfl⟩
      · intro id hid
        rw [hnone] at hid
        contradiction
      · intro other hother
        cases hother
        exact ⟨resource, hresource, rfl⟩
  | startInitializer name hook =>
      rcases h with hnone | ⟨id, resource, hresource, rfl, rfl⟩
      · intro id hid
        rw [hnone] at hid
        contradiction
      · intro other hother
        cases hother
        exact ⟨resource, hresource, rfl⟩
  | _ => trivial

namespace World

theorem names_step {step : World.Step} (hmanages : step.Manages resources)
    (h : ∀ m ∈ w.managers, m.Names (IsNamed resources)) :
    ∀ m ∈ (w.step step).managers, m.Names (IsNamed resources) := by
  cases step with
  | create =>
      intro m hm
      rcases List.mem_append.mp hm with hm | hm
      · exact h m hm
      · rw [List.mem_singleton.mp hm]
        exact Manager.names_new _ _
  | act i action =>
      rw [step]
      cases hget : w.managers[i]? with
      | none => rwa [act_of_getElem?_eq_none hget]
      | some m =>
          obtain ⟨happenings, -, hact⟩ := exists_act hget action
          rw [hact]
          intro other hother
          rcases List.mem_or_eq_of_mem_set hother with hother | rfl
          · exact h other hother
          · exact (h m (List.mem_of_getElem? hget)).act isNamed_none hmanages.names
  | elapse millis =>
      rw [step]
      obtain hsame | ⟨hquiet, helapse⟩ := w.elapse_cases millis
      · rwa [hsame]
      · rw [helapse, List.forall_mem_map]
        intro m hm
        rw [hquiet m hm]
        exact ⟨(h m hm).accepted, (h m hm).setUp⟩

theorem names_run {steps : List World.Step} (hmanages : ∀ step ∈ steps, step.Manages resources) :
    ∀ m ∈ (empty.run steps).managers, m.Names (IsNamed resources) := by
  refine run_invariant (P := fun w => ∀ m ∈ w.managers, m.Names (IsNamed resources)) ?_ nofun
  exact fun step hstep _ h => names_step (hmanages step hstep) h

/-! ## What the managers tell together -/

theorem Coherent.tellings_eq (h : w.Coherent) (view : Happening → Option HookName) (id : Nat) :
    w.tellings view id = total (fun m =>
      (m.history.filterMap fun moment => view moment.happening).countP (isOf id)) w.managers := by
  simp only [List.countP_filterMap]
  exact h.countP_journal fun moment => ((view moment.happening).map (isOf id)).getD false

theorem mockCalls_eq (w : World) (id : Nat) (phase : Phase) :
    w.mockCalls id phase = w.tellings (Happening.entered? phase) id := by
  refine List.countP_congr fun entry _ => ?_
  obtain ⟨i, time, happening⟩ := entry
  cases happening with
  | entered p name resource =>
      by_cases hphase : p = phase <;> cases resource <;> simp [isCall, isOf, hphase]
  | _ => simp [isCall]

/-- Every hook that was entered has ended, was aborted, or runs. -/
theorem Coherent.mockCalls_eq (h : w.Coherent) (id : Nat) (phase : Phase) :
    w.mockCalls id phase =
      w.tellings (Happening.ended? phase) id + w.stops id phase + w.runs id phase := by
  rw [World.mockCalls_eq, stops, h.tellings_eq, h.tellings_eq, h.tellings_eq, runs, ← total_add,
    ← total_add]
  refine total_congr fun m hm => ?_
  obtain ⟨start, steps, rfl⟩ := h.run m hm
  exact (Manager.balanced_run start steps).countP_entered (isOf id) phase

theorem ne_none_of_isOf {x : HookName} (h : isOf id x = true) : x.2 ≠ none := by
  intro hnone
  rw [isOf, hnone] at h
  contradiction

theorem filterMap_registered (history : List Moment) :
    (history.filterMap fun moment => moment.happening.registered?) =
      (accepted history).map Closer.hookName := by
  rw [accepted, List.map_filterMap]
  rfl

theorem Coherent.registrations_eq (h : w.Coherent) (id : Nat) :
    w.registrations id = w.mockCalls id .close + w.passes id + w.waits id := by
  rw [World.mockCalls_eq, registrations, passes, h.tellings_eq, h.tellings_eq, h.tellings_eq, waits,
    ← total_add, ← total_add]
  refine total_congr fun m hm => ?_
  obtain ⟨start, steps, rfl⟩ := h.run m hm
  rw [filterMap_registered]
  exact (Manager.dispatches_run start steps).countP_accepted fun _ => ne_none_of_isOf

theorem eq_of_name_eq (hnames : (resources.map MockResource.name).Nodup) {other : Nat}
    {resource resource' : MockResource} (hresource : resources[id]? = some resource)
    (hother : resources[other]? = some resource') (hname : resource.name = resource'.name) :
    id = other := by
  have hid : (resources.map MockResource.name)[id]? = some resource.name := by
    rw [List.getElem?_map, hresource, Option.map_some]
  have hother : (resources.map MockResource.name)[other]? = some resource.name := by
    rw [List.getElem?_map, hother, Option.map_some, hname]
  have hlt : id < (resources.map MockResource.name).length := (List.getElem?_eq_some_iff.mp hid).1
  exact (List.getElem?_inj hlt hnames).mp (hid.trans hother.symm)

/-- The end of a hook of a mock resource is a panic or an event under its name. -/
theorem tells_ended {resource : MockResource} (hnames : (resources.map MockResource.name).Nodup)
    (hresource : resources[id]? = some resource) {entry : JournalEntry}
    (hnamed : ∀ x, entry.moment.happening.ended? phase = some x → IsNamed resources x) :
    (((entry.moment.happening.ended? phase).map (isOf id)).getD false).toNat =
      (((HookEvent.ofEntry? entry).map fun event =>
        event.name == resource.name && event.phase == phase).getD false).toNat +
      (((entry.moment.happening.panicked? phase).map (isOf id)).getD false).toNat := by
  obtain ⟨i, time, happening⟩ := entry
  cases happening with
  | ended p name number ending =>
      by_cases hphase : p = phase
      · cases number with
        | none => cases ending <;> simp [HookEvent.ofEntry?, Happening.panicked?, hphase, isOf]
        | some other =>
            obtain ⟨resource', hother, rfl⟩ :=
              hnamed (name, some other) (by simp [hphase]) other rfl
            have hsame : (resource'.name == resource.name) = (other == id) := by
              rw [Bool.eq_iff_iff, beq_iff_eq, beq_iff_eq]
              refine ⟨fun hname => eq_of_name_eq hnames hother hresource hname, ?_⟩
              rintro rfl
              exact congrArg MockResource.name (Option.some.inj (hother.symm.trans hresource))
            cases ending <;>
              simp [HookEvent.ofEntry?, Happening.panicked?, hphase, isOf, hsame]
      · have hother : (p == phase) = false := beq_eq_false_iff_ne.mpr hphase
        cases number <;> cases ending <;>
          simp [HookEvent.ofEntry?, Happening.panicked?, hphase, hother]
  | _ => rfl

/-- Every end of a hook of a mock resource is recorded under its name, but for those by a panic. -/
theorem tellings_ended_eq {resource : MockResource}
    (hnames : (resources.map MockResource.name).Nodup) (hresource : resources[id]? = some resource)
    (hnamed : ∀ entry ∈ w.journal, ∀ x, entry.moment.happening.ended? phase = some x →
      IsNamed resources x) :
    w.tellings (Happening.ended? phase) id = w.events resource.name phase + w.panics id phase := by
  rw [events, eventLog, List.countP_filterMap]
  exact countP_eq_add_countP fun entry hentry =>
    tells_ended hnames hresource (hnamed entry hentry)

theorem Coherent.isNamed_of_ended (h : w.Coherent)
    (hnames : ∀ m ∈ w.managers, m.Names (IsNamed resources)) {entry : JournalEntry}
    (hentry : entry ∈ w.journal) {x : HookName}
    (hx : entry.moment.happening.ended? phase = some x) : IsNamed resources x := by
  have hmoment : entry.moment ∈ w.managers.flatMap Manager.history :=
    h.journal.subset (List.mem_map_of_mem hentry)
  obtain ⟨m, hm, hmoment⟩ := List.mem_flatMap.mp hmoment
  have hended : x ∈ ended m.history phase := List.mem_filterMap.mpr ⟨entry.moment, hmoment, hx⟩
  have hm' := hnames m hm
  obtain ⟨start, steps, rfl⟩ := h.run m hm
  exact hm'.ended (Manager.balanced_run start steps) hended

end World
end Lifecycle
end ServiceKit
