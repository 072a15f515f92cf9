import ServiceKit.Lifecycle.Scenario
import ServiceKit.Proofs.Lifecycle.Recording

/-!
# The counters and the event log in scenarios

The order of things that a scenario fixes is one of many: each of its operations is a run of its
world.  So whatever is proved of all runs holds after every operation of a scenario, as the account
of the calls of its mock resources.
-/

namespace ServiceKit
namespace Lifecycle

variable {resources later : List MockResource} {action : Action} {w w' w'' : World} {i : Nat}

/-! ## Runs that manage mock resources -/

/-- What can happen without a caller manages nothing. -/
theorem Action.manages_of_not_callers (h : action.isCallers = false) :
    action.Manages resources := by
  cases action with
  | register | startInitializer => contradiction
  | _ => trivial

/-- A resource keeps its number when resources are added. -/
theorem getElem?_of_isPrefix {id : Nat} {resource : MockResource} (hmore : resources <+: later)
    (h : resources[id]? = some resource) : later[id]? = some resource := by
  obtain ⟨added, rfl⟩ := hmore
  exact (List.getElem?_append_left (List.getElem?_eq_some_iff.mp h).1).trans h

theorem Action.Manages.mono (hmore : resources <+: later) (h : action.Manages resources) :
    action.Manages later := by
  cases action with
  | register closer =>
      refine h.imp_right ?_
      rintro ⟨id, resource, hresource, hcloser⟩
      exact ⟨id, resource, getElem?_of_isPrefix hmore hresource, hcloser⟩
  | startInitializer name hook =>
      refine h.imp_right ?_
      rintro ⟨id, resource, hresource, hname, hhook⟩
      exact ⟨id, resource, getElem?_of_isPrefix hmore hresource, hname, hhook⟩
  | _ => trivial

/-- A manager comes of another by actions that manage mock resources of a list. -/
def Manager.Leads (resources : List MockResource) (m m' : Manager) : Prop :=
  ∃ actions : List Action,
    (∀ action ∈ actions, action.Manages resources) ∧ m' = m.run (actions.map .act)

namespace World

/-- A world comes of another by steps that manage mock resources of a list. -/
def Leads (resources : List MockResource) (w w' : World) : Prop :=
  ∃ steps : List World.Step, (∀ step ∈ steps, step.Manages resources) ∧ w' = w.run steps

theorem Leads.refl (w : World) : w.Leads resources w :=
  ⟨[], List.forall_mem_nil _, rfl⟩

theorem Leads.trans (h : Leads resources w w') (h' : Leads resources w' w'') :
    Leads resources w w'' := by
  obtain ⟨steps, hsteps, rfl⟩ := h
  obtain ⟨steps', hsteps', rfl⟩ := h'
  exact ⟨steps ++ steps', List.forall_mem_append.mpr ⟨hsteps, hsteps'⟩, (run_append _ _ _).symm⟩

theorem Leads.mono (hmore : resources <+: later) (h : Leads resources w w') :
    Leads later w w' := by
  obtain ⟨steps, hsteps, rfl⟩ := h
  refine ⟨steps, fun step hstep => ?_, rfl⟩
  have hmanages := hsteps step hstep
  cases step with
  | act i action => exact Action.Manages.mono hmore hmanages
  | _ => trivial

theorem leads_step (step : World.Step) (h : step.Manages resources) :
    Leads resources w (w.step step) :=
  ⟨[step], List.forall_mem_singleton.mpr h, rfl⟩

theorem leads_act (h : action.Manages resources) : Leads resources w (w.act i action) :=
  leads_step (.act i action) h

theorem leads_elapse (millis : Nat) : Leads resources w (w.elapse millis) :=
  leads_step (.elapse millis) trivial

theorem leads_create (w : World) : Leads resources w w.create :=
  leads_step .create trivial

/-! ## What a world does by itself -/

theorem mem_enabled_of_next? (h : w.next? = some (i, action)) :
    ∃ m ∈ w.managers, action ∈ m.enabled := by
  obtain ⟨entry, hentry, hsome⟩ := List.exists_of_findSome?_eq_some h
  obtain ⟨first, hfirst, heq⟩ := Option.map_eq_some_iff.mp hsome
  cases heq
  exact ⟨entry.1, (List.mem_zipIdx' hentry).2 ▸ List.getElem_mem _, List.mem_of_head? hfirst⟩

theorem leads_settleWithin (n : Nat) (w : World) : Leads resources w (settleWithin n w) := by
  induction n generalizing w with
  | zero => exact .refl w
  | succ n ih =>
      unfold settleWithin
      split
      next => exact .refl w
      next i action hnext =>
        obtain ⟨m, -, henabled⟩ := mem_enabled_of_next? hnext
        have hcallers : action.isCallers = false := (Manager.mem_enabled_iff.mp henabled).isCallers
        exact (leads_act (Action.manages_of_not_callers hcallers)).trans (ih _)

theorem leads_settle (w : World) : Leads resources w w.settle :=
  leads_settleWithin _ w

theorem leads_moveTo (w : World) (time : Nat) : Leads resources w (w.moveTo time) :=
  (leads_elapse _).trans (leads_settle _)

theorem leads_moveThrough (wanted : World → Bool) (times : List Nat) (w : World) :
    Leads resources w (moveThrough wanted w times) := by
  induction times generalizing w with
  | nil => exact .refl w
  | cons time rest ih =>
      unfold moveThrough
      split
      · exact .refl w
      · exact (leads_moveTo w time).trans (ih _)

theorem leads_advanceTo (w : World) (time : Nat) : Leads resources w (w.advanceTo time) :=
  ((leads_settle w).trans (leads_moveThrough _ _ _)).trans (leads_moveTo _ time)

theorem leads_advanceUntil (wanted : World → Bool) (w : World) :
    Leads resources w (advanceUntil wanted w) :=
  (leads_settle w).trans (leads_moveThrough _ _ _)

theorem leads_advanceUntilBefore (wanted : World → Bool) (w : World) (time : Nat) :
    Leads resources w (advanceUntilBefore wanted w time) :=
  (leads_settle w).trans (leads_moveThrough _ _ _)

/-! ## What a caller does with many items -/

/-- An action before others of the same manager. -/
theorem update_act {m : Manager} (h : w.managers[i]? = some m) (steps : List Manager.Step) :
    (w.act i action).update i (·.run steps) = w.update i (·.run (.act action :: steps)) := by
  obtain ⟨happenings, hhistory, hact⟩ := exists_act h action
  obtain ⟨added, hadded⟩ := (m.act action).run_history steps
  have hown : ((m.act action).run steps).history.drop (m.act action).history.length = added := by
    rw [hadded, List.drop_left]
  have hall : ((m.act action).run steps).history.drop m.history.length =
      happenings.map (Moment.mk m.now) ++ added := by
    rw [hadded, hhistory, List.append_assoc, List.drop_left]
  simp only [update, h, getElem?_act h action, Manager.run_cons, Manager.step, hown, hall]
  rw [hact, List.set_set, List.map_append, List.append_assoc]

/-- Actions of one manager, one after another. -/
theorem run_acts {m : Manager} (h : w.managers[i]? = some m) (actions : List Action) :
    w.run (actions.map (.act i)) = w.update i (·.run (actions.map .act)) := by
  induction actions generalizing w m with
  | nil =>
      obtain ⟨hi, heq⟩ := List.getElem?_eq_some_iff.mp h
      simp [update, h, ← heq, Manager.run]
  | cons action rest ih =>
      rw [List.map_cons, run_cons, World.step, ih (getElem?_act h action), update_act h,
        List.map_cons]

theorem leads_update {f : Manager → Manager} (h : ∀ m, Manager.Leads resources m (f m)) :
    Leads resources w (w.update i f) := by
  cases hget : w.managers[i]? with
  | none =>
      have hsame : w.update i f = w := by simp only [update, hget]
      rw [hsame]
      exact .refl w
  | some m =>
      obtain ⟨actions, hactions, hrun⟩ := h m
      refine ⟨actions.map (.act i), List.forall_mem_map.mpr hactions, ?_⟩
      rw [run_acts hget]
      simp only [update, hget, hrun]

end World

/-- An item is that of a mock resource, under its number, or its hooks belong to none. -/
def Item.IsManaged (resources : List MockResource) (item : Item) : Prop :=
  (item.setUp.resource = none ∧ item.close.resource = none) ∨
    ∃ (id : Nat) (resource : MockResource),
      resources[id]? = some resource ∧ item = resource.item id

theorem Item.IsManaged.mono {item : Item} (hmore : resources <+: later)
    (h : item.IsManaged resources) : item.IsManaged later := by
  refine h.imp_right ?_
  rintro ⟨id, resource, hresource, hitem⟩
  exact ⟨id, resource, getElem?_of_isPrefix hmore hresource, hitem⟩

theorem Item.IsManaged.register {item : Item} (h : item.IsManaged resources) :
    (Action.register item.closer).Manages resources := by
  rcases h with ⟨-, hclose⟩ | ⟨id, resource, hresource, rfl⟩
  · exact .inl hclose
  · exact .inr ⟨id, resource, hresource, rfl⟩

theorem Item.IsManaged.startInitializer {item : Item} (h : item.IsManaged resources) :
    (Action.startInitializer item.name item.setUp).Manages resources := by
  rcases h with ⟨hsetUp, -⟩ | ⟨id, resource, hresource, rfl⟩
  · exact .inl hsetUp
  · exact .inr ⟨id, resource, hresource, rfl, rfl⟩

namespace Manager

variable {m m' : Manager} {items : List Item}

theorem Leads.refl (m : Manager) : m.Leads resources m :=
  ⟨[], List.forall_mem_nil _, rfl⟩

theorem Leads.of_act (haction : action.Manages resources)
    (h : (m.act action).Leads resources m') : m.Leads resources m' := by
  obtain ⟨actions, hactions, rfl⟩ := h
  exact ⟨action :: actions, List.forall_mem_cons.mpr ⟨haction, hactions⟩, rfl⟩

theorem leads_startAll (h : ∀ item ∈ items, item.IsManaged resources) (m : Manager) :
    m.Leads resources (m.startAll items) := by
  induction items generalizing m with
  | nil => exact .refl m
  | cons item rest ih =>
      rw [List.forall_mem_cons] at h
      exact .of_act h.1.startInitializer (ih h.2 _)

theorem leads_registerAll (h : ∀ item ∈ items, item.IsManaged resources) (m : Manager) :
    m.Leads resources (m.registerAll (items.map Item.closer)).1 := by
  induction items generalizing m with
  | nil => exact .refl m
  | cons item rest ih =>
      rw [List.forall_mem_cons] at h
      rw [List.map_cons, registerAll]
      split
      · exact .of_act h.1.register (ih h.2 _)
      · exact .of_act h.1.register (.refl _)

theorem leads_manageAll (h : ∀ item ∈ items, item.IsManaged resources) (m : Manager) :
    m.Leads resources (m.manageAll items).1 := by
  induction items generalizing m with
  | nil => exact .refl m
  | cons item rest ih =>
      rw [List.forall_mem_cons] at h
      rw [manageAll]
      split
      · exact .of_act h.1.register (.of_act h.1.startInitializer (ih h.2 _))
      · exact .of_act h.1.register (.refl _)

end Manager

/-! ## Operations -/

/-- Hooks that do not belong to a mock resource belong to none. -/
def Managed.IsOwn : Managed → Prop
  | .item own => own.setUp.resource = none ∧ own.close.resource = none
  | .mock _ => True

def Operation.IsOwn : Operation → Prop
  | .startInitializers items => ∀ managed ∈ items, managed.IsOwn
  | .registerClosers items => ∀ managed ∈ items, managed.IsOwn
  | .manage items => ∀ managed ∈ items, managed.IsOwn
  | _ => True

namespace Scenario

variable {s s' s'' : Scenario} {slot : Nat}

/-- A scenario goes on with a run of its world, and may have more mock resources. -/
structure Leads (s s' : Scenario) : Prop where
  resources : s.resources <+: s'.resources
  world : World.Leads s'.resources s.world s'.world

theorem Leads.refl (s : Scenario) : s.Leads s :=
  ⟨List.prefix_rfl, .refl _⟩

theorem Leads.trans (h : s.Leads s') (h' : s'.Leads s'') : s.Leads s'' where
  resources := h.resources.trans h'.resources
  world := (h.world.mono h'.resources).trans h'.world

theorem leads_vacate (s : Scenario) (slot : Nat) : s.Leads (s.vacate slot) := by
  unfold vacate
  split
  · exact .refl s
  · exact ⟨List.prefix_rfl, World.leads_act trivial⟩

theorem leads_place (s : Scenario) (slot i : Nat) : s.Leads (s.place slot i) :=
  (leads_vacate s slot).trans ⟨List.prefix_rfl, .refl _⟩

theorem leads_create (s : Scenario) (slot : Nat) : s.Leads (s.create slot) := by
  have hcreated : s.Leads { s with world := s.world.create } :=
    ⟨List.prefix_rfl, World.leads_create _⟩
  exact hcreated.trans (leads_place _ slot _)

theorem leads_takeItem (s : Scenario) {managed : Managed} (h : managed.IsOwn) :
    s.Leads (s.takeItem managed).1 ∧
      (s.takeItem managed).2.IsManaged (s.takeItem managed).1.resources := by
  cases managed with
  | item item => exact ⟨.refl s, .inl h⟩
  | mock resource =>
      exact ⟨⟨List.prefix_append _ _, .refl _⟩,
        .inr ⟨_, resource, List.getElem?_concat_length, rfl⟩⟩

theorem leads_takeItems {items : List Managed} (h : ∀ managed ∈ items, managed.IsOwn)
    (s : Scenario) : s.Leads (s.takeItems items).1 ∧
      ∀ item ∈ (s.takeItems items).2, item.IsManaged (s.takeItems items).1.resources := by
  induction items generalizing s with
  | nil => exact ⟨.refl s, List.forall_mem_nil _⟩
  | cons managed rest ih =>
      rw [List.forall_mem_cons] at h
      obtain ⟨hfirst, hitem⟩ := leads_takeItem s h.1
      obtain ⟨hrest, hitems⟩ := ih h.2 (s.takeItem managed).1
      exact ⟨hfirst.trans hrest, List.forall_mem_cons.mpr ⟨hitem.mono hrest.resources, hitems⟩⟩

theorem leads_call (s : Scenario) (i : Nat) (action : Nat → Action)
    (h : ∀ id, (action id).Manages s.resources) : s.Leads (s.call i action).1 :=
  ⟨List.prefix_rfl, World.leads_act (h _)⟩

theorem leads_await (s : Scenario) (i id : Nat) : s.Leads (s.await i id).1 :=
  ⟨List.prefix_rfl, World.leads_advanceUntil _ _⟩

theorem leads_awaitFor (s : Scenario) (i id after : Nat) : s.Leads (s.awaitFor i id after).1 := by
  have hwaited : World.Leads s.resources s.world
      (if after = 0 then s.world.act i (.answer id)
        else World.advanceUntilBefore (hasReturned i id) s.world (s.world.now + after)) := by
    split
    · exact World.leads_act trivial
    · exact World.leads_advanceUntilBefore _ _ _
  unfold awaitFor
  dsimp only
  split
  · exact ⟨List.prefix_rfl, hwaited⟩
  · exact ⟨List.prefix_rfl, (hwaited.trans (World.leads_elapse _)).trans (World.leads_act trivial)⟩

theorem leads_updateWith (s : Scenario) (i : Nat)
    {f : Manager → Manager × Except ServiceError Unit}
    (h : ∀ m, Manager.Leads s.resources m (f m).1) :
    s.Leads (s.updateWith i f).1 := by
  unfold updateWith
  split
  · exact .refl s
  · exact ⟨List.prefix_rfl, World.leads_update h⟩

theorem leads_performOn (s : Scenario) (i : Nat) {operation : Operation} (h : operation.IsOwn) :
    s.Leads (s.performOn i operation).1 := by
  cases operation with
  | startInitializers items =>
      obtain ⟨htaken, hitems⟩ := leads_takeItems h s
      exact htaken.trans ⟨List.prefix_rfl, World.leads_update (Manager.leads_startAll hitems)⟩
  | registerClosers items =>
      obtain ⟨htaken, hitems⟩ := leads_takeItems h s
      exact htaken.trans (leads_updateWith _ i (Manager.leads_registerAll hitems))
  | manage items =>
      obtain ⟨htaken, hitems⟩ := leads_takeItems h s
      exact htaken.trans (leads_updateWith _ i (Manager.leads_manageAll hitems))
  | awaitInitialized =>
      have hcalled := leads_call s i .awaitInitialized fun _ => trivial
      exact hcalled.trans (leads_await _ i s.nextCall)
  | close limit =>
      have hcalled := leads_call s i (fun id => .close id limit) fun _ => trivial
      exact hcalled.trans (leads_await _ i s.nextCall)
  | closeInBackground limit =>
      have hcalled := leads_call s i (fun id => .close id limit) fun _ => trivial
      exact ⟨hcalled.resources, hcalled.world⟩
  | closeAbandoned after =>
      have hcalled := leads_call s i (fun id => .close id none) fun _ => trivial
      exact hcalled.trans (leads_awaitFor _ i s.nextCall after)
  | clone slot =>
      have hcloned : s.Leads { s with world := s.world.act i .clone } :=
        ⟨List.prefix_rfl, World.leads_act trivial⟩
      exact hcloned.trans (leads_place _ slot i)
  | describe =>
      cases hget : s.world.managers[i]? with
      | none | some =>
          simp only [performOn, hget]
          exact .refl s
  | _ => exact .refl s

theorem leads_perform (s : Scenario) (slot : Nat) {operation : Operation} (h : operation.IsOwn) :
    s.Leads (s.perform slot operation).1 := by
  cases operation with
  | advance millis => exact ⟨List.prefix_rfl, World.leads_advanceTo _ _⟩
  | create => exact leads_create s slot
  | drop => exact leads_vacate s slot
  | join =>
      cases hbackground : s.background with
      | nil =>
          simp only [perform, hbackground]
          exact .refl s
      | cons call rest =>
          have hjoined : s.Leads { s with background := rest } := ⟨List.prefix_rfl, .refl _⟩
          simp only [perform, hbackground]
          exact hjoined.trans (leads_await _ _ _)
  | joinable => exact .refl s
  | _ =>
      cases hslot : s.managerIn? slot with
      | none =>
          simp only [perform, hslot]
          exact .refl s
      | some i =>
          simp only [perform, hslot]
          exact leads_performOn s i h

theorem leads_snapshot (s : Scenario) (slot : Nat) : s.Leads (s.snapshot slot).1 :=
  ⟨List.prefix_rfl, World.leads_settle _⟩

theorem leads_step (s : Scenario) (slot : Nat) {operation : Operation} (h : operation.IsOwn) :
    s.Leads (s.step slot operation).1 :=
  (leads_perform s slot h).trans (leads_snapshot _ slot)

/-- The operations of a scenario are a run of its world. -/
theorem leads_runSteps {operations : List (Nat × Operation)}
    (h : ∀ entry ∈ operations, entry.2.IsOwn) (s : Scenario) :
    s.Leads (s.runSteps operations).1 := by
  induction operations generalizing s with
  | nil => exact .refl s
  | cons entry rest ih =>
      rw [List.forall_mem_cons] at h
      exact (leads_step s entry.1 h.1).trans (ih h.2 _)

/-- After all operations the counted calls of mock resources with distinct names are accounted for,
and the event log is in the order of time. -/
theorem runSteps_start_countsHooks {operations : List (Nat × Operation)}
    (h : ∀ entry ∈ operations, entry.2.IsOwn)
    (hnames : ((start.runSteps operations).1.resources.map MockResource.name).Nodup) :
    let s := (start.runSteps operations).1
    (∀ id resource, s.resources[id]? = some resource → s.world.CountsHooks id resource.name) ∧
      s.world.eventLog.Pairwise fun a b => a.time ≤ b.time := by
  intro s
  have hleads : Leads ⟨.empty, [], [], 0, 0, [], []⟩ s :=
    (leads_create _ 0).trans (leads_runSteps h start)
  obtain ⟨steps, hmanages, hworld⟩ := hleads.world
  have hcoherent : s.world.Coherent := hworld ▸ World.coherent_run steps
  have hmanagers : ∀ m ∈ s.world.managers, m.Names (IsNamed s.resources) := by
    rw [hworld]
    exact World.names_run hmanages
  exact ⟨fun id resource hresource => hcoherent.countsHooks hnames hmanagers hresource,
    hcoherent.eventLog_pairwise⟩

end Scenario
end Lifecycle
end ServiceKit
