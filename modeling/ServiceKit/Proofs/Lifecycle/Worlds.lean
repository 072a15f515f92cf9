import ServiceKit.Lifecycle.World
import ServiceKit.Proofs.Lifecycle.Inevitable

/-!
# Runs of several managers

Managers on one clock run side by side: a step of the world is a step of one of them, the creation
of one, or the passing of time for all.  Each manager makes a run of its own, and the journal is
made of the histories of all managers, in the order of time.
-/

namespace ServiceKit
namespace Lifecycle

namespace Manager

variable {m : Manager} {step : Step}

/-- What an action tells, it tells of the present. -/
theorem exists_history_act (m : Manager) (action : Action) :
    ∃ happenings : List Happening,
      (m.act action).history = m.history ++ happenings.map (Moment.mk m.now) := by
  have hkeep : ∀ {m' : Manager}, Changes (.act action) m m' → m'.now = m.now ∧
      ∃ happenings : List Happening,
        m'.history = m.history ++ happenings.map (Moment.mk m.now) := by
    intro m' hchanges
    induction hchanges with
    | refl => exact ⟨rfl, [], (List.append_nil _).symm⟩
    | @tail between last _ hlast ih =>
        obtain ⟨hnow, told, htold⟩ := ih
        obtain ⟨happenings, hhappenings⟩ := hlast.exists_happenings
        refine ⟨?_, told ++ happenings, ?_⟩
        · rw [← hnow]
          cases hlast <;> rfl
        · rw [hhappenings, htold, hnow, List.map_append, List.append_assoc]
  exact (hkeep (act_changes m action)).2

theorem elapse_eq {millis : Nat} (hquiet : m.isQuietFor millis = true) :
    m.elapse millis = { m with now := m.now + millis } :=
  if_pos hquiet

end Manager

namespace World

/-- A step of several managers. -/
inductive Step where
  /-- A manager begins to exist. -/
  | create
  /-- An action of the manager in a place. -/
  | act (i : Nat) (action : Action)
  | elapse (millis : Nat)
  deriving Repr

/-- The world after a step. -/
def step (w : World) : Step → World
  | .create => w.create
  | .act i action => w.act i action
  | .elapse millis => w.elapse millis

/-- The world after a run. -/
def run (w : World) (steps : List Step) : World :=
  steps.foldl step w

variable {w : World} {m : Manager} {i : Nat}

@[simp] theorem run_nil (w : World) : w.run [] = w := rfl

theorem run_cons (w : World) (first : Step) (rest : List Step) :
    w.run (first :: rest) = (w.step first).run rest := rfl

theorem run_append (w : World) (first second : List Step) :
    w.run (first ++ second) = (w.run first).run second :=
  List.foldl_append

/-- What every step keeps, a run keeps. -/
theorem run_invariant {P : World → Prop} {steps : List Step}
    (hstep : ∀ step ∈ steps, ∀ w, P w → P (w.step step)) (h : P w) : P (w.run steps) := by
  induction steps generalizing w with
  | nil => exact h
  | cons first rest ih =>
      rw [run_cons]
      exact ih (fun next hnext => hstep next (List.mem_cons_of_mem first hnext))
        (hstep first List.mem_cons_self w h)

/-- The history of the manager in a place, which is empty before there is one. -/
def historyOf (w : World) (i : Nat) : List Moment :=
  (w.managers[i]?.map Manager.history).getD []

/-! ## One manager among others -/

/-- An action in a place without a manager changes nothing. -/
theorem act_of_getElem?_eq_none (h : w.managers[i]? = none) (action : Action) :
    w.act i action = w := by
  simp only [act, update, h]

/-- An action changes one manager, and the journal tells what the manager tells. -/
theorem exists_act (h : w.managers[i]? = some m) (action : Action) :
    ∃ happenings : List Happening,
      (m.act action).history = m.history ++ happenings.map (Moment.mk m.now) ∧
      w.act i action = { w with
        managers := w.managers.set i (m.act action)
        journal := w.journal ++ (happenings.map (Moment.mk m.now)).map (JournalEntry.mk i) } := by
  obtain ⟨happenings, hhistory⟩ := m.exists_history_act action
  refine ⟨happenings, hhistory, ?_⟩
  simp only [act, update, h, hhistory, List.drop_left]

theorem getElem?_act (h : w.managers[i]? = some m) (action : Action) :
    (w.act i action).managers[i]? = some (m.act action) := by
  obtain ⟨happenings, -, hact⟩ := exists_act h action
  rw [hact, List.getElem?_set_self', h]
  rfl

/-- Time passes for all managers or for none. -/
theorem elapse_cases (w : World) (millis : Nat) : w.elapse millis = w ∨
    (∀ m ∈ w.managers, m.elapse millis = { m with now := m.now + millis }) ∧
      w.elapse millis =
        { w with now := w.now + millis, managers := w.managers.map (·.elapse millis) } := by
  unfold elapse
  split
  next hquiet =>
    rw [List.all_eq_true] at hquiet
    exact .inr ⟨fun m hm => Manager.elapse_eq (hquiet m hm), rfl⟩
  next => exact .inl rfl

/-- Every manager goes on by itself. -/
theorem exists_step (h : w.managers[i]? = some m) (step : Step) :
    ∃ own, (w.step step).managers[i]? = some (m.run own) := by
  cases step with
  | create =>
      have hi : i < w.managers.length := (List.getElem?_eq_some_iff.mp h).1
      exact ⟨[], (List.getElem?_append_left hi).trans h⟩
  | act j action =>
      rw [step]
      cases hj : w.managers[j]? with
      | none => exact ⟨[], by rw [act_of_getElem?_eq_none hj, h, Manager.run_nil]⟩
      | some other =>
          obtain ⟨happenings, -, hact⟩ := exists_act hj action
          by_cases hij : j = i
          · subst hij
            exact ⟨[.act action], getElem?_act h action⟩
          · exact ⟨[], by rw [hact, List.getElem?_set_ne hij, h, Manager.run_nil]⟩
  | elapse millis =>
      rw [step]
      obtain hsame | ⟨-, helapse⟩ := w.elapse_cases millis
      · exact ⟨[], by rw [hsame, h, Manager.run_nil]⟩
      · exact ⟨[.elapse millis], by rw [helapse, List.getElem?_map, h]; rfl⟩

theorem exists_run (h : w.managers[i]? = some m) (steps : List Step) :
    ∃ own, (w.run steps).managers[i]? = some (m.run own) := by
  induction steps generalizing w m with
  | nil => exact ⟨[], h⟩
  | cons first rest ih =>
      obtain ⟨own, hown⟩ := exists_step h first
      obtain ⟨later, hlater⟩ := ih hown
      exact ⟨own ++ later, by rw [run_cons, Manager.run_append, hlater]⟩

/-! ## The journal -/

/-- The clock of a world is that of all its managers, each of which makes a run, and the journal is
made of their histories, in the order of time. -/
structure Coherent (w : World) : Prop where
  now : ∀ m ∈ w.managers, m.now = w.now
  run : ∀ m ∈ w.managers, ∃ start steps, m = (Manager.new start).run steps
  journal : (w.journal.map JournalEntry.moment).Perm (w.managers.flatMap Manager.history)
  chronological : w.journal.Pairwise fun a b => a.moment.time ≤ b.moment.time
  past : ∀ entry ∈ w.journal, entry.moment.time ≤ w.now

theorem coherent_empty : empty.Coherent where
  now := nofun
  run := nofun
  journal := .refl _
  chronological := .nil
  past := nofun

/-- A world goes on with what is told of the present, by one manager. -/
theorem Coherent.tell {managers : List Manager} {told : List Moment} (h : w.Coherent)
    (hnow : ∀ m ∈ managers, m.now = w.now)
    (hrun : ∀ m ∈ managers, ∃ start steps, m = (Manager.new start).run steps)
    (hhistory : (w.managers.flatMap Manager.history ++ told).Perm
      (managers.flatMap Manager.history))
    (htold : ∀ moment ∈ told, moment.time = w.now) (i : Nat) :
    Coherent { w with
      managers := managers
      journal := w.journal ++ told.map (JournalEntry.mk i) } := by
  have hadded : ∀ entry ∈ told.map (JournalEntry.mk i), entry.moment.time = w.now := by
    intro entry hentry
    obtain ⟨moment, hmoment, rfl⟩ := List.mem_map.mp hentry
    exact htold moment hmoment
  refine ⟨hnow, hrun, ?_, ?_, ?_⟩
  · rw [List.map_append, List.map_map]
    change (w.journal.map JournalEntry.moment ++ told.map id).Perm _
    rw [List.map_id]
    exact (h.journal.append_right told).trans hhistory
  · rw [List.pairwise_append]
    refine ⟨h.chronological, List.pairwise_of_forall_mem_list fun a ha b hb => ?_,
      fun a ha b hb => ?_⟩
    · exact Nat.le_of_eq ((hadded a ha).trans (hadded b hb).symm)
    · exact Nat.le_trans (h.past a ha) (Nat.le_of_eq (hadded b hb).symm)
  · intro entry hentry
    rcases List.mem_append.mp hentry with hentry | hentry
    · exact h.past entry hentry
    · exact Nat.le_of_eq (hadded entry hentry)

theorem Coherent.create (h : w.Coherent) : w.create.Coherent := by
  refine h.tell ?_ ?_ ?_ ?_ w.managers.length
  · intro m hm
    rcases List.mem_append.mp hm with hm | hm
    · exact h.now m hm
    · rw [List.mem_singleton.mp hm]
      rfl
  · intro m hm
    rcases List.mem_append.mp hm with hm | hm
    · exact h.run m hm
    · exact ⟨w.now, [], List.mem_singleton.mp hm⟩
  · rw [List.flatMap_append, List.flatMap_singleton]
  · intro moment hmoment
    rw [List.mem_singleton.mp hmoment]

theorem Coherent.act (h : w.Coherent) (i : Nat) (action : Action) : (w.act i action).Coherent := by
  cases hget : w.managers[i]? with
  | none => rwa [act_of_getElem?_eq_none hget]
  | some m =>
      obtain ⟨happenings, hhistory, hact⟩ := exists_act hget action
      have hm : m ∈ w.managers := List.mem_of_getElem? hget
      rw [hact]
      refine h.tell ?_ ?_ ?_ ?_ i
      · intro other hother
        rcases List.mem_or_eq_of_mem_set hother with hother | rfl
        · exact h.now other hother
        · rw [Manager.act_now, h.now m hm]
      · intro other hother
        rcases List.mem_or_eq_of_mem_set hother with hother | rfl
        · exact h.run other hother
        · obtain ⟨start, steps, rfl⟩ := h.run m hm
          exact ⟨start, steps ++ [.act action], by rw [Manager.run_concat, Manager.step]⟩
      · obtain ⟨before, after, hmanagers, -, hset⟩ := Manager.exists_around_of_getElem? hget
        rw [hset, hmanagers]
        simp only [List.flatMap_append, List.flatMap_cons, hhistory, List.append_assoc]
        refine (List.Perm.append_left _ (List.Perm.append_left _ ?_))
        exact List.perm_append_comm
      · intro moment hmoment
        obtain ⟨happening, -, rfl⟩ := List.mem_map.mp hmoment
        exact h.now m hm

theorem Coherent.elapse (h : w.Coherent) (millis : Nat) : (w.elapse millis).Coherent := by
  obtain hsame | ⟨hquiet, helapse⟩ := w.elapse_cases millis
  · rwa [hsame]
  · rw [helapse]
    refine ⟨?_, ?_, ?_, h.chronological, fun entry hentry =>
      Nat.le_add_right_of_le (h.past entry hentry)⟩
    · rw [List.forall_mem_map]
      intro m hm
      rw [hquiet m hm, h.now m hm]
    · rw [List.forall_mem_map]
      intro m hm
      obtain ⟨start, steps, rfl⟩ := h.run m hm
      exact ⟨start, steps ++ [.elapse millis], by rw [Manager.run_concat, Manager.step]⟩
    · refine h.journal.trans (.of_eq ?_)
      rw [List.flatMap_map]
      refine List.flatMap_congr fun m hm => ?_
      rw [hquiet m hm]

theorem Coherent.step (h : w.Coherent) (step : Step) : (w.step step).Coherent := by
  cases step with
  | create => exact h.create
  | act i action => exact h.act i action
  | elapse millis => exact h.elapse millis

theorem coherent_run (steps : List Step) : (empty.run steps).Coherent :=
  run_invariant (fun step _ _ h => h.step step) coherent_empty

/-- What a step tells the histories of the managers, the journal tells too, at the time of the
step. -/
structure Tells (w w' : World) (told : List JournalEntry) : Prop where
  journal : w'.journal = w.journal ++ told
  present : ∀ entry ∈ told, entry.moment.time = w.now
  histories : ∀ i, w'.historyOf i =
    w.historyOf i ++ (told.filter (·.manager == i)).map JournalEntry.moment

theorem tells_nil {w' : World} (hjournal : w'.journal = w.journal)
    (hhistories : ∀ i, w'.historyOf i = w.historyOf i) : w.Tells w' [] :=
  ⟨by rw [hjournal, List.append_nil], nofun, fun i => by rw [hhistories]; simp⟩

/-- Entries of a manager are told of it and of no other. -/
theorem moments_of_entries (i j : Nat) (moments : List Moment) :
    ((moments.map (JournalEntry.mk i)).filter (·.manager == j)).map JournalEntry.moment =
      if i = j then moments else [] := by
  rw [List.filter_map, List.map_map]
  change ((moments.filter fun _ => i == j).map id) = _
  by_cases hij : i = j <;> simp [hij]

theorem historyOf_create (w : World) (i : Nat) : w.create.historyOf i =
    w.historyOf i ++ if w.managers.length = i then (Manager.new w.now).history else [] := by
  have hmanagers : w.create.managers = w.managers ++ [Manager.new w.now] := rfl
  rw [historyOf, historyOf, hmanagers]
  rcases Nat.lt_trichotomy i w.managers.length with hlt | rfl | hlt
  · rw [List.getElem?_append_left hlt, if_neg (Nat.ne_of_gt hlt), List.append_nil]
  · simp
  · rw [List.getElem?_eq_none, List.getElem?_eq_none (Nat.le_of_lt hlt), if_neg (Nat.ne_of_lt hlt)]
    · rfl
    · rw [List.length_append]
      exact hlt

theorem Coherent.exists_tells (h : w.Coherent) (step : Step) :
    ∃ told, w.Tells (w.step step) told := by
  cases step with
  | create =>
      refine ⟨_, rfl, fun entry hentry => ?_, fun i => ?_⟩
      · rw [List.mem_singleton.mp hentry]
      · rw [moments_of_entries, World.step, historyOf_create]
  | act i action =>
      rw [World.step]
      cases hget : w.managers[i]? with
      | none =>
          rw [act_of_getElem?_eq_none hget]
          exact ⟨[], tells_nil rfl fun _ => rfl⟩
      | some m =>
          obtain ⟨happenings, hhistory, hact⟩ := exists_act hget action
          rw [hact]
          refine ⟨_, rfl, fun entry hentry => ?_, fun j => ?_⟩
          · simp only [List.mem_map] at hentry
            obtain ⟨moment, ⟨happening, -, rfl⟩, rfl⟩ := hentry
            exact h.now m (List.mem_of_getElem? hget)
          · rw [moments_of_entries, historyOf, historyOf]
            by_cases hij : i = j
            · subst hij
              simp [List.getElem?_set_self', hget, hhistory]
            · simp [List.getElem?_set_ne hij, hij]
  | elapse millis =>
      rw [World.step]
      obtain hsame | ⟨hquiet, helapse⟩ := w.elapse_cases millis
      · rw [hsame]
        exact ⟨[], tells_nil rfl fun _ => rfl⟩
      · rw [helapse]
        refine ⟨[], tells_nil rfl fun i => ?_⟩
        rw [historyOf, historyOf, List.getElem?_map]
        cases hget : w.managers[i]? with
        | none => rfl
        | some m =>
            simp only [Option.map_some, hquiet m (List.mem_of_getElem? hget)]

/-! ## Sums over the managers -/

section Total

variable {α : Type*} {f g : α → Nat} {l : List α} {x : α}

theorem total_add (f g : α → Nat) (l : List α) :
    total (fun x => f x + g x) l = total f l + total g l := by
  induction l with
  | nil => rfl
  | cons x l ih =>
      rw [total_cons, total_cons, total_cons, ih]
      omega

theorem total_congr (h : ∀ x ∈ l, f x = g x) : total f l = total g l := by
  induction l with
  | nil => rfl
  | cons x l ih =>
      rw [List.forall_mem_cons] at h
      rw [total_cons, total_cons, h.1, ih h.2]

/-- What only one manager has, all have together. -/
theorem total_eq_of_getElem? (h : l[i]? = some x)
    (hothers : ∀ j y, j ≠ i → l[j]? = some y → f y = 0) : total f l = f x := by
  induction l generalizing i with
  | nil => contradiction
  | cons y l ih =>
      cases i with
      | zero =>
          obtain rfl : y = x := Option.some.inj h
          have hrest : total f l = 0 := by
            rw [total_eq_mul (n := 0) fun z hz => ?_, Nat.zero_mul]
            obtain ⟨j, hj⟩ := List.getElem?_of_mem hz
            exact hothers (j + 1) z (Nat.succ_ne_zero j) hj
          rw [total_cons, hrest, Nat.add_zero]
      | succ k =>
          rw [total_cons, hothers 0 y (Nat.succ_ne_zero k).symm rfl, Nat.zero_add]
          exact ih h fun j z hj hz => hothers (j + 1) z (fun heq => hj (Nat.succ.inj heq)) hz

end Total

/-- What the journal tells, the managers tell together. -/
theorem Coherent.countP_journal (h : w.Coherent) (p : Moment → Bool) :
    w.journal.countP (fun entry => p entry.moment) =
      total (fun m => m.history.countP p) w.managers := by
  have htotal : ∀ managers : List Manager, (managers.flatMap Manager.history).countP p =
      total (fun m => m.history.countP p) managers := by
    intro managers
    induction managers with
    | nil => rfl
    | cons m rest ih => rw [List.flatMap_cons, List.countP_append, ih, total_cons]
  rw [← htotal, ← h.journal.countP_eq, List.countP_map]
  rfl

end World
end Lifecycle
end ServiceKit
