import ServiceKit.Proofs.Lifecycle.Handover

/-!
# Managing several items in one call

A call that manages items does one thing after another, and anything may happen in between: it asks
for the registration of a closer and, if it manages both hooks of the items, starts the initializer
of each item whose closer was accepted.  The items whose closers are accepted come first, nothing of
a rejected item is started, and whatever was started is closed by the shutdown.
-/

namespace ServiceKit
namespace Lifecycle

open History

/-- An item of a call that manages items: its closer, and its initializer if the call manages both
hooks. -/
structure Charge where
  closer : Closer
  setUp : Option (String × Hook)

/-- What a call that manages both hooks does with an item. -/
def Item.charge (item : Item) : Charge := ⟨item.closer, some (item.name, item.setUp)⟩

/-- What a call that manages close hooks does with a closer. -/
def Closer.charge (closer : Closer) : Charge := ⟨closer, none⟩

namespace Charge

/-- What is told of the initializer of an item when it is started. -/
def entries (item : Charge) : List Happening :=
  item.setUp.toList.map fun setUp => .entered .setUp setUp.1 setUp.2.resource

/-- What is told of an item whose closer is accepted. -/
def happenings (item : Charge) : List Happening :=
  .queued none item.closer :: item.entries

end Charge

/-- Where a call that manages items is. -/
inductive Point where
  /-- It registers the next closer. -/
  | registering (left : List Charge)
  /-- The last closer was accepted, and the initializer of its item is started next. -/
  | starting (name : String) (hook : Hook) (left : List Charge)
  | finished
  /-- The closer of an item was rejected. -/
  | refused (item : Charge) (left : List Charge)

namespace Point

/-- Where a call goes on after the closer of an item was accepted. -/
def afterAccepting (item : Charge) (left : List Charge) : Point :=
  match item.setUp with
  | some (name, hook) => starting name hook left
  | none => registering left

/-- The items whose closers were not accepted. -/
def left : Point → List Charge
  | registering left => left
  | starting _ _ left => left
  | finished => []
  | refused item left => item :: left

/-- What remains to be told of the items whose closers were accepted. -/
def owed : Point → List Happening
  | starting name hook _ => [.entered .setUp name hook.resource]
  | _ => []

/-- What is told of the item whose closer was rejected. -/
def refusal : Point → List Happening
  | refused item _ => [.rejected none item.closer]
  | _ => []

/-- What the call returned, if it has returned. -/
def result? : Point → Option (Except ServiceError Unit)
  | finished => some (.ok ())
  | refused _ _ => some (.error .shuttingDown)
  | _ => none

@[simp] theorem left_afterAccepting (item : Charge) (left : List Charge) :
    (afterAccepting item left).left = left := by
  unfold afterAccepting
  split <;> rfl

@[simp] theorem owed_afterAccepting (item : Charge) (left : List Charge) :
    (afterAccepting item left).owed = item.entries := by
  unfold afterAccepting
  split <;> simp_all [owed, Charge.entries]

@[simp] theorem refusal_afterAccepting (item : Charge) (left : List Charge) :
    (afterAccepting item left).refusal = [] := by
  unfold afterAccepting
  split <;> rfl

/-- A bound on the number of turns until the call returns. -/
def turns : Point → Nat
  | registering left => 2 * left.length + 1
  | starting _ _ left => 2 * left.length + 2
  | _ => 0

theorem turns_afterAccepting (item : Charge) (left : List Charge) :
    (afterAccepting item left).turns ≤ 2 * left.length + 2 := by
  unfold afterAccepting
  split <;> simp [turns]

end Point

/-- A call that manages items, with the manager. -/
structure Managing where
  manager : Manager
  point : Point
  /-- The items whose closers were accepted. -/
  taken : List Charge
  /-- What the call did, as the history tells it. -/
  told : List Moment

/-- Who takes the next turn: the call or someone else. -/
inductive Turn where
  | own
  | other (step : Manager.Step)

/-- It is the turn of the call. -/
def Turn.isOwn : Turn → Bool
  | own => true
  | other _ => false

namespace Manager

/-- What someone else does during a call.  The call holds a handle, so not all handles can be
dropped. -/
def besides (m : Manager) : Step → Manager
  | .act .drop => if m.handles = 1 then m else m.act .drop
  | step => m.step step

/-- Manages items one after another, up to the first whose closer is rejected, with nobody else
taking turns. -/
def performAll (m : Manager) : List Charge → Manager × Except ServiceError Unit
  | [] => (m, .ok ())
  | item :: rest =>
    let next := m.act (.register item.closer)
    if m.accepts then
      match item.setUp with
      | some (name, hook) => (next.act (.startInitializer name hook)).performAll rest
      | none => next.performAll rest
    else (next, .error .shuttingDown)

/-- A call that is about to manage items. -/
def managing (m : Manager) (items : List Charge) : Managing :=
  ⟨m, .registering items, [], []⟩

end Manager

namespace Managing

/-- The call acts on the manager. -/
def act (c : Managing) (action : Action) : Managing :=
  let next := c.manager.act action
  { c with
    manager := next
    told := c.told ++ next.history.drop c.manager.history.length }

/-- The call takes a turn. -/
def own (c : Managing) : Managing :=
  match c.point with
  | .registering [] => { c with point := .finished }
  | .registering (item :: left) =>
    let next := c.act (.register item.closer)
    if c.manager.accepts then
      { next with
        point := .afterAccepting item left
        taken := c.taken ++ [item] }
    else { next with point := .refused item left }
  | .starting name hook left =>
    { c.act (.startInitializer name hook) with point := .registering left }
  | _ => c

/-- A turn is taken. -/
def turn (c : Managing) : Turn → Managing
  | .own => c.own
  | .other step => { c with manager := c.manager.besides step }

/-- Turns are taken one after another. -/
def run (c : Managing) (turns : List Turn) : Managing :=
  turns.foldl turn c

end Managing

namespace Manager

variable {m : Manager}

/-! ## Alone -/

theorem performAll_map_item (items : List Item) :
    m.performAll (items.map Item.charge) = m.manageAll items := by
  induction items generalizing m with
  | nil => rfl
  | cons item rest ih =>
      simp only [List.map_cons, performAll, manageAll, Item.charge, ih]

theorem performAll_map_closer (closers : List Closer) :
    m.performAll (closers.map Closer.charge) = m.registerAll closers := by
  induction closers generalizing m with
  | nil => rfl
  | cons closer rest ih =>
      simp only [List.map_cons, performAll, registerAll, Closer.charge, ih]

/-! ## What others do during the call -/

theorem Change.handles_pos {step : Step} {m m' : Manager} (hchange : Change step m m')
    (hkept : step ≠ .act .drop) (h : 0 < m.handles) : 0 < m'.handles := by
  cases hchange with
  | drop => exact absurd rfl hkept
  | clone => exact Nat.succ_pos _
  | _ => exact h

theorem besides_handles (step : Step) (h : 0 < m.handles) : 0 < (m.besides step).handles := by
  unfold besides
  split
  next =>
    split
    · exact h
    next hmore =>
      have hact : (m.act .drop).handles = m.handles - 1 := by
        simp [act, withHandle, Nat.ne_of_gt h]
      omega
  next hkept =>
    apply step_invariant (P := fun m => 0 < m.handles) _ h
    intro m m' hchange
    exact hchange.handles_pos fun heq => hkept heq

theorem besides_eq_run (m : Manager) (step : Step) : ∃ steps, m.besides step = m.run steps := by
  unfold besides
  split
  next =>
    split
    · exact ⟨[], rfl⟩
    · exact ⟨[.act .drop], rfl⟩
  next => exact ⟨[step], rfl⟩

end Manager

namespace Managing

variable {c : Managing} {items : List Charge}

theorem own_of_result (h : c.point.result? ≠ none) : c.own = c := by
  unfold own
  split <;> simp_all [Point.result?]

theorem run_cons (c : Managing) (turn : Turn) (rest : List Turn) :
    c.run (turn :: rest) = (c.turn turn).run rest := rfl

theorem run_replicate_succ (n : Nat) :
    c.run (List.replicate (n + 1) .own) = c.own.run (List.replicate n .own) := rfl

theorem run_own_of_result (h : c.point.result? ≠ none) (n : Nat) :
    c.run (List.replicate n .own) = c := by
  induction n with
  | zero => rfl
  | succ n ih => rw [run_replicate_succ, own_of_result h, ih]

/-- With nobody else taking turns the call does what it does as a whole. -/
theorem run_own (m : Manager) (items taken : List Charge) (told : List Moment) (n : Nat)
    (hn : 2 * items.length + 1 ≤ n) :
    ((Managing.mk m (.registering items) taken told).run (List.replicate n .own)).manager =
        (m.performAll items).1 ∧
      ((Managing.mk m (.registering items) taken told).run
        (List.replicate n .own)).point.result? = some (m.performAll items).2 := by
  induction items generalizing m taken told n with
  | nil =>
      obtain ⟨n, rfl⟩ := Nat.exists_eq_add_of_le' hn
      rw [List.length_nil, run_replicate_succ, run_own_of_result (by simp [own, Point.result?])]
      exact ⟨rfl, rfl⟩
  | cons item rest ih =>
      rw [List.length_cons] at hn
      obtain ⟨n, rfl⟩ := Nat.exists_eq_add_of_le' (show 2 ≤ n by omega)
      rw [Manager.performAll]
      by_cases haccepts : m.accepts = true
      · cases hsetUp : item.setUp with
        | none =>
            rw [run_replicate_succ]
            simpa [own, act, haccepts, hsetUp, Point.afterAccepting] using ih _ _ _ (n + 1) (by omega)
        | some setUp =>
            rw [run_replicate_succ, run_replicate_succ]
            simpa [own, act, haccepts, hsetUp, Point.afterAccepting] using ih _ _ _ n (by omega)
      · rw [run_replicate_succ, run_own_of_result (by simp [own, haccepts, Point.result?])]
        simp [own, act, haccepts, Point.result?]

/-! ## What one turn keeps -/

@[simp] theorem act_taken (c : Managing) (action : Action) : (c.act action).taken = c.taken := rfl

/-- What a call has done so far fits the items it was given. -/
structure Fits (items : List Charge) (c : Managing) : Prop where
  sound : c.manager.Sound
  handle : 0 < c.manager.handles
  split : c.taken ++ c.point.left = items
  told : c.told.map Moment.happening ++ c.point.owed =
    c.taken.flatMap Charge.happenings ++ c.point.refusal
  recorded : c.told.Sublist c.manager.history
  refused : c.point.refusal ≠ [] → begun c.manager.history = true

/-- The call does something that is told by one happening. -/
structure Tells (c : Managing) (action : Action) (happening : Happening) : Prop where
  history : (c.manager.act action).history =
    c.manager.history ++ [⟨c.manager.now, happening⟩]
  sound : (c.manager.act action).Sound
  handle : 0 < (c.manager.act action).handles

theorem Fits.tells (h : Fits items c) {action : Action} {happening : Happening}
    (hkept : action ≠ .drop)
    (hhistory : (c.manager.act action).history =
      c.manager.history ++ [⟨c.manager.now, happening⟩]) : Tells c action happening where
  history := hhistory
  sound := h.sound.step (.act action)
  handle := by
    have hhandle := Manager.besides_handles (.act action) h.handle
    unfold Manager.besides at hhandle
    split at hhandle
    next heq => exact absurd (Manager.Step.act.inj heq) hkept
    next => exact hhandle

theorem Tells.told_eq {action : Action} {happening : Happening} (h : Tells c action happening) :
    (c.act action).told.map Moment.happening = c.told.map Moment.happening ++ [happening] := by
  simp [act, h.history]

theorem Tells.recorded {action : Action} {happening : Happening} (h : Tells c action happening)
    (hrecorded : c.told.Sublist c.manager.history) :
    (c.act action).told.Sublist (c.manager.act action).history := by
  simpa [act, h.history] using hrecorded

theorem Fits.tells_register (h : Fits items c) (closer : Closer) :
    Tells c (.register closer)
      (if c.manager.accepts then .queued none closer else .rejected none closer) := by
  apply h.tells (by simp)
  have hact : c.manager.act (.register closer) = c.manager.register none closer := by
    simp [Manager.act, Manager.withHandle, Nat.ne_of_gt h.handle]
  rw [hact, h.sound.register_history none closer (Or.inl (Or.inl h.handle)),
    h.sound.accepts_eq h.handle]
  cases begun c.manager.history <;> rfl

theorem Fits.tells_start (h : Fits items c) (name : String) (hook : Hook) :
    Tells c (.startInitializer name hook) (.entered .setUp name hook.resource) := by
  apply h.tells (by simp)
  simp [Manager.act, Manager.withHandle, Nat.ne_of_gt h.handle, Manager.startInitializer,
    Manager.note]

theorem Fits.accept (h : Fits items c) {item : Charge} {left : List Charge}
    (hpoint : c.point = .registering (item :: left)) (haccepts : c.manager.accepts = true) :
    Fits items c.own := by
  have htells : Tells c (.register item.closer) (.queued none item.closer) := by
    simpa [haccepts] using h.tells_register item.closer
  have hitems : c.taken ++ item :: left = items := by simpa [hpoint, Point.left] using h.split
  have htold : c.told.map Moment.happening = c.taken.flatMap Charge.happenings := by
    simpa [hpoint, Point.owed, Point.refusal] using h.told
  have hown : c.own = { c.act (.register item.closer) with
      point := .afterAccepting item left, taken := c.taken ++ [item] } := by
    simp [own, hpoint, haccepts]
  rw [hown]
  exact {
    sound := htells.sound
    handle := htells.handle
    split := by simpa using hitems
    told := by simp [htells.told_eq, htold, Charge.happenings]
    recorded := htells.recorded h.recorded
    refused := fun hne => absurd (Point.refusal_afterAccepting item left) hne }

theorem Fits.refuse (h : Fits items c) {item : Charge} {left : List Charge}
    (hpoint : c.point = .registering (item :: left)) (haccepts : c.manager.accepts = false) :
    Fits items c.own := by
  have htells : Tells c (.register item.closer) (.rejected none item.closer) := by
    simpa [haccepts] using h.tells_register item.closer
  have hbegun : begun c.manager.history = true := by
    simpa [haccepts] using h.sound.accepts_eq h.handle
  have hown : c.own = { c.act (.register item.closer) with point := .refused item left } := by
    simp [own, hpoint, haccepts]
  rw [hown]
  exact {
    sound := htells.sound
    handle := htells.handle
    split := by simpa [hpoint, Point.left] using h.split
    told := by
      have htold := h.told
      simp only [hpoint, Point.owed, Point.refusal, List.append_nil] at htold
      simp only [htells.told_eq, htold, Point.owed, Point.refusal, List.append_nil]
      rfl
    recorded := htells.recorded h.recorded
    refused := by
      intro _
      simp [act, htells.history, hbegun] }

theorem Fits.start (h : Fits items c) {name : String} {hook : Hook} {left : List Charge}
    (hpoint : c.point = .starting name hook left) : Fits items c.own := by
  have htells := h.tells_start name hook
  have hown : c.own = { c.act (.startInitializer name hook) with
      point := .registering left } := by
    simp [own, hpoint]
  rw [hown]
  exact {
    sound := htells.sound
    handle := htells.handle
    split := by simpa [hpoint, Point.left] using h.split
    told := by
      have htold := h.told
      simp only [hpoint, Point.owed, Point.refusal, List.append_nil] at htold
      simp only [htells.told_eq, Point.owed, Point.refusal, List.append_nil]
      exact htold
    recorded := htells.recorded h.recorded
    refused := fun hne => absurd rfl hne }

theorem Fits.own (h : Fits items c) : Fits items c.own := by
  cases hpoint : c.point with
  | registering left =>
      cases left with
      | nil =>
          have hown : c.own = { c with point := .finished } := by simp [Managing.own, hpoint]
          rw [hown]
          obtain ⟨hsound, hhandle, hitems, htold, hrecorded, -⟩ := h
          rw [hpoint] at hitems htold
          exact ⟨hsound, hhandle, hitems, htold, hrecorded, fun hne => absurd rfl hne⟩
      | cons item left =>
          cases haccepts : c.manager.accepts with
          | true => exact h.accept hpoint haccepts
          | false => exact h.refuse hpoint haccepts
  | starting name hook left => exact h.start hpoint
  | finished | refused item left =>
      rw [own_of_result (by simp [hpoint, Point.result?])]
      exact h

theorem Fits.other (h : Fits items c) (step : Manager.Step) :
    Fits items { c with manager := c.manager.besides step } := by
  obtain ⟨steps, hrun⟩ := c.manager.besides_eq_run step
  obtain ⟨added, hadded⟩ := Manager.run_history c.manager steps
  have hhistory : (c.manager.besides step).history = c.manager.history ++ added := by
    rw [hrun, hadded]
  exact {
    sound := hrun ▸ h.sound.run steps
    handle := Manager.besides_handles step h.handle
    split := h.split
    told := h.told
    recorded := by
      rw [hhistory]
      exact h.recorded.trans (List.sublist_append_left _ _)
    refused := by
      intro hrefused
      rw [hhistory, begun_append, h.refused hrefused, Bool.true_or] }

theorem fits_managing {m : Manager} (hsound : m.Sound) (hhandle : 0 < m.handles)
    (items : List Charge) : Fits items (m.managing items) where
  sound := hsound
  handle := hhandle
  split := rfl
  told := rfl
  recorded := List.nil_sublist _
  refused := fun hne => absurd rfl hne

theorem Fits.run (h : Fits items c) (turns : List Turn) : Fits items (c.run turns) := by
  induction turns generalizing c with
  | nil => exact h
  | cons turn rest ih =>
      cases turn with
      | own => exact ih h.own
      | other step => exact ih (h.other step)

/-! ## The call returns -/

theorem turns_own (c : Managing) : c.own.point.turns ≤ c.point.turns - 1 := by
  obtain ⟨m, point, taken, told⟩ := c
  cases point with
  | registering left =>
      cases left with
      | nil => exact Nat.zero_le _
      | cons item left =>
          have hnext := Point.turns_afterAccepting item left
          have hnow : (Point.registering (item :: left)).turns = 2 * left.length + 3 := rfl
          simp only [own]
          split
          · simp only [hnow]
            omega
          · exact Nat.zero_le _
  | starting name hook left => simp [own, Point.turns]
  | finished | refused => exact Nat.zero_le _

theorem turns_run (c : Managing) (turns : List Turn) :
    (c.run turns).point.turns ≤ c.point.turns - turns.countP Turn.isOwn := by
  induction turns generalizing c with
  | nil => exact Nat.le_refl _
  | cons turn rest ih =>
      rw [run_cons, List.countP_cons]
      have hrest := ih (c.turn turn)
      cases turn with
      | own =>
          have hown := c.turns_own
          simp only [Managing.turn, Turn.isOwn, if_true] at hrest ⊢
          omega
      | other step => simpa [Managing.turn, Turn.isOwn] using hrest

theorem result?_ne_none_of_turns (h : c.point.turns = 0) : c.point.result? ≠ none := by
  cases hpoint : c.point <;> simp_all [Point.turns, Point.result?]

/-! ## What is accepted is closed -/

theorem exists_sublist_of_forall₂ {α β : Type*} {R : α → β → Prop} {l : List α} {l₁ l₂ : List β}
    (h : List.Forall₂ R l l₂) (hsublist : l₁.Sublist l₂) :
    ∃ k : List α, k.Sublist l ∧ List.Forall₂ R k l₁ := by
  induction hsublist generalizing l with
  | slnil => exact ⟨[], List.nil_sublist _, .nil⟩
  | cons y _ ih =>
      cases h with
      | cons hxy hrest =>
          obtain ⟨k, hk, hpairs⟩ := ih hrest
          exact ⟨k, hk.cons _, hpairs⟩
  | cons_cons y _ ih =>
      cases h with
      | cons hxy hrest =>
          obtain ⟨k, hk, hpairs⟩ := ih hrest
          exact ⟨_, hk.cons_cons _, .cons hxy hpairs⟩

end Managing

namespace Manager

/-- Closers are among those that the shutdown runs, or will be. -/
structure Secured (closers : List Closer) (m : Manager) : Prop where
  accepted : closers.Sublist (accepted m.history)
  /-- While the collector listens they are queued or on their way to it. -/
  queued : ∀ queue, m.collector = .listening queue → ∃ waiting,
    (m.mailbox = waiting.map .register ∨ m.mailbox = waiting.map .register ++ [.shutdown]) ∧
      closers.Sublist (queue ++ waiting)
  handed : ∀ all ∈ handed m.history, closers.Sublist all
  places : ∀ s, m.progress = .underWay s →
    ∃ places, places.Sublist s.slots ∧ List.Forall₂ Slot.Holds places closers
  /-- A shutdown that has begun does come to have them. -/
  received : begun m.history = true →
    Inevitable (fun m => ∃ all, Received all m ∧ closers.Sublist all) m

theorem Sound.secured (hsound : m.Sound) {closers : List Closer}
    (h : closers.Sublist (accepted m.history)) : Secured closers m where
  accepted := h
  queued := by
    intro queue hcollector
    obtain ⟨waiting, ⟨-, hmailbox, hsummary⟩ | ⟨_, -, hmailbox, hsummary⟩⟩ :=
      hsound.staged.of_collecting hcollector
    · have haccepted : accepted m.history = queue ++ waiting := congrArg Summary.accepted hsummary
      exact ⟨waiting, Or.inl hmailbox, haccepted ▸ h⟩
    · have haccepted : accepted m.history = queue ++ waiting := congrArg Summary.accepted hsummary
      exact ⟨waiting, Or.inr hmailbox, haccepted ▸ h⟩
  handed := by
    intro all hall
    rcases hsound.handed_cases with hnone | hhanded
    · simp [hnone] at hall
    · rw [hhanded, List.mem_singleton] at hall
      exact hall ▸ h
  places := fun s hprogress =>
    Managing.exists_sublist_of_forall₂ (hsound.staged.of_underWay hprogress).2.2.1 h
  received := by
    intro hbegun
    exact (hsound.inevitable_received hbegun).mono fun _ hreceived => ⟨_, hreceived, h⟩

end Manager

namespace Managing

variable {c : Managing} {items : List Charge}

/-- What a view shows of a call is what it shows of the items whose closers were accepted, less what
is owed, and of the rejection. -/
theorem Fits.filterMap_told (h : Fits items c) {β : Type*} (view : Happening → Option β) :
    c.told.filterMap (fun moment => view moment.happening) ++ c.point.owed.filterMap view =
      c.taken.flatMap (fun item => item.happenings.filterMap view) ++
        c.point.refusal.filterMap view := by
  have htold := congrArg (List.filterMap view) h.told
  rw [List.filterMap_append, List.filterMap_append, List.filterMap_map,
    List.filterMap_flatMap] at htold
  exact htold

theorem Fits.accepted_told (h : Fits items c) :
    accepted c.told = c.taken.map Charge.closer := by
  have howed : c.point.owed.filterMap Happening.accepted? = [] := by
    cases c.point <;> rfl
  have hrefusal : c.point.refusal.filterMap Happening.accepted? = [] := by
    cases c.point <;> rfl
  have hall : ∀ item : Charge,
      item.happenings.filterMap Happening.accepted? = [item.closer] := by
    intro item
    cases hsetUp : item.setUp <;>
      simp [Charge.happenings, Charge.entries, hsetUp, Happening.accepted?]
  have htold := h.filterMap_told Happening.accepted?
  rw [howed, hrefusal, List.append_nil, List.append_nil] at htold
  simp only [hall, ← List.map_eq_flatMap] at htold
  exact htold

theorem Fits.secured (h : Fits items c) (later : List Manager.Step) :
    Manager.Secured (c.taken.map Charge.closer) (c.manager.run later) := by
  apply (h.sound.run later).secured
  obtain ⟨added, hadded⟩ := Manager.run_history c.manager later
  rw [hadded, accepted_append, ← h.accepted_told]
  exact (h.recorded.filterMap _).trans (List.sublist_append_left _ _)

/-! ## The contract of managing items -/

/-- What a call did after some turns: the items whose closers were accepted come first, and the
initializers of exactly these are started. -/
structure TakesFirst (m : Manager) (items : List Charge) (turns : List Turn) (c : Managing) :
    Prop where
  split : c.taken ++ c.point.left = items
  /-- Each item whose closer was accepted is told of once, first the closer and then, if the call
  manages both hooks, the start of the initializer; of the others at most the rejection is told. -/
  told : c.told.map Moment.happening ++ c.point.owed =
    c.taken.flatMap Charge.happenings ++ c.point.refusal
  recorded : c.told.Sublist c.manager.history
  ok : c.point.result? = some (.ok ()) → c.taken = items
  error : ∀ e, c.point.result? = some (.error e) →
    e = .shuttingDown ∧ c.taken ≠ items ∧ begun c.manager.history = true
  /-- The call never waits for others. -/
  returns : 2 * items.length + 1 ≤ turns.countP Turn.isOwn → c.point.result? ≠ none
  /-- Without others it does what the call does as a whole. -/
  alone : ∀ n, turns = List.replicate n .own → 2 * items.length + 1 ≤ n →
    c.manager = (m.performAll items).1 ∧ c.point.result? = some (m.performAll items).2
  /-- Whatever happens later, the shutdown runs the closers that were accepted. -/
  secured : ∀ later, Manager.Secured (c.taken.map Charge.closer) (c.manager.run later)

/-- However others take their turns, a call that manages items takes the first of them, up to the
one whose closer is rejected because the shutdown has begun. -/
theorem run_takesFirst (start : Nat) (before : List Manager.Step) (items : List Charge)
    (turns : List Turn) (hhandle : 0 < ((Manager.new start).run before).handles) :
    TakesFirst ((Manager.new start).run before) items turns
      ((((Manager.new start).run before).managing items).run turns) := by
  have hsound : ((Manager.new start).run before).Sound := Manager.sound_run start before
  generalize (Manager.new start).run before = m at *
  have hfits : Fits items ((m.managing items).run turns) :=
    (fits_managing hsound hhandle items).run turns
  exact {
    split := hfits.split
    told := hfits.told
    recorded := hfits.recorded
    ok := by
      intro hok
      have hsplit := hfits.split
      cases hpoint : ((m.managing items).run turns).point with
      | finished => simpa [hpoint, Point.left] using hsplit
      | registering | starting | refused => simp [hpoint, Point.result?] at hok
    error := by
      intro e herror
      have hsplit := hfits.split
      cases hpoint : ((m.managing items).run turns).point with
      | refused item left =>
          simp only [hpoint, Point.left, Point.result?, Option.some.injEq, Except.error.injEq]
            at hsplit herror
          refine ⟨herror.symm, ?_, hfits.refused (by simp [hpoint, Point.refusal])⟩
          intro hall
          rw [hall] at hsplit
          simp at hsplit
      | registering | starting | finished => simp [hpoint, Point.result?] at herror
    returns := by
      intro hmany
      have hturns := turns_run (m.managing items) turns
      rw [Manager.managing, Point.turns] at hturns
      exact result?_ne_none_of_turns (by rw [Manager.managing]; omega)
    alone := by
      rintro n rfl hn
      exact run_own m items [] [] n hn
    secured := hfits.secured }

/-- The shutdown begins after the second of three items has been accepted and before its initializer
is started. -/
theorem run_takesFirst_two :
    let item : String → Item := fun name => ⟨name, ⟨4, none, some .success, none⟩, .immediate⟩
    let items := [item "pool", item "cache", item "feed"].map Item.charge
    let turns := [.own, .own, .other (.act .collect), .own, .other (.act (.close 1 none)),
      .other (.act .drop), .own, .other (.act .collect), .own]
    TakesFirst ((Manager.new 0).run []) items turns
      ((((Manager.new 0).run []).managing items).run turns) := by
  intro item items turns
  exact run_takesFirst 0 [] items turns (by decide)

end Managing
end Lifecycle
end ServiceKit
