import ServiceKit.Proofs.Lifecycle.Delivery
import ServiceKit.Proofs.Lifecycle.Managing
import ServiceKit.Proofs.Lifecycle.SetUps

/-!
# The count of pending initializers

In every state of a run the count is the number of initializers that were started less the number of
those that have ended.  An initializer is taken off the count only after it has ended and its failure
is recorded, one at a time and never below zero, and an item whose closer is rejected is counted
nowhere.
-/

namespace ServiceKit
namespace Lifecycle

open History

/-- The name under which a history tells of an initializer that was started. -/
def Start.hookName (start : Start) : HookName := (start.name, start.hook.resource)

/-- The name under which a history tells of the initializer of an item, if it has one. -/
def Charge.setUpName? (item : Charge) : Option HookName :=
  item.setUp.map fun setUp => (setUp.1, setUp.2.resource)

/-- An initializer is taken off the count. -/
def Happening.isRetirement : Happening → Bool
  | retired => true
  | _ => false

namespace History

/-- The number of initializers that were taken off the count. -/
def retirements (history : List Moment) : Nat :=
  history.countP fun moment => moment.happening.isRetirement

@[simp] theorem retirements_append (h₁ h₂ : List Moment) :
    retirements (h₁ ++ h₂) = retirements h₁ + retirements h₂ :=
  List.countP_append

@[simp] theorem retirements_singleton (moment : Moment) :
    retirements [moment] = if moment.happening.isRetirement then 1 else 0 :=
  List.countP_singleton ..

theorem retirements_expiry (limit : Duration) (slots : List Slot) (time : Nat) :
    retirements ((expiry limit slots).map (Moment.mk time)) = 0 := by
  rw [retirements, List.countP_map, List.countP_eq_zero]
  exact forall_mem_expiry (fun _ => Bool.false_ne_true) (fun _ _ _ => Bool.false_ne_true)

end History

attribute [simp] Happening.isRetirement

/-- How the initializers of a manager are counted. -/
structure Census where
  /-- Those that were started. -/
  started : Nat
  /-- Those that have ended. -/
  ended : Nat
  /-- Those that were taken off the count. -/
  retired : Nat
  /-- The count of pending ones. -/
  pending : Nat

namespace Manager

variable {m m' : Manager} {step : Step}

/-- The initializers of a manager as its history and its count tell of them. -/
def census (m : Manager) : Census where
  started := (entered m.history .setUp).length
  ended := (ended m.history .setUp).length
  retired := retirements m.history
  pending := m.pending

/-! ## Starts -/

/-- Only a start tells of an initializer that is entered. -/
theorem Change.entered_setUp (hchange : Change step m m')
    (hstart : ∀ name hook, step ≠ .act (.startInitializer name hook)) :
    entered m'.history .setUp = entered m.history .setUp := by
  cases hchange with
  | start name hook => exact absurd rfl (hstart name hook)
  | expire => simp only [noteAll, entered_append, entered_expiry, List.append_nil]
  | beginAlone => simp [noteAll, entered]
  | queue | loseClosers | reject | begin | handOver | discard | launchAlone | initializerEnds
  | retire | closerLost | closerEnters | closerEnds | conclude => simp [note, runClosers]
  | clone | drop | follow | await | abandon | take | launch | initializerRests | closerRests
  | answer | elapse => rfl

theorem entered_step (m : Manager) (step : Step) :
    entered (m.step step).history .setUp =
      entered m.history .setUp ++ (m.startedBy step).map Start.hookName := by
  by_cases hstart : ∃ name hook, step = .act (.startInitializer name hook)
  · obtain ⟨name, hook, rfl⟩ := hstart
    simp only [Manager.step, act, withHandle, startedBy]
    split
    · simp
    · simp [startInitializer, note, Start.hookName]
  · -- a step can be several changes, and none of them is a start
    have hnone : ∀ name hook, step ≠ .act (.startInitializer name hook) :=
      fun name hook heq => hstart ⟨name, hook, heq⟩
    rw [startedBy_eq_nil hnone, List.map_nil, List.append_nil]
    apply step_invariant (P := fun m' => entered m'.history .setUp = entered m.history .setUp) _ rfl
    intro m₁ m₂ hchange hsame
    rw [hchange.entered_setUp hnone, hsame]

theorem entered_run (m : Manager) (steps : List Step) :
    entered (m.run steps).history .setUp =
      entered m.history .setUp ++ (m.started steps).map Start.hookName := by
  induction steps generalizing m with
  | nil => rw [run_nil, started, List.map_nil, List.append_nil]
  | cons step rest ih =>
      rw [run_cons, ih, entered_step, started, List.map_append, List.append_assoc]

/-! ## Ends -/

/-- The initializers that have ended are those that were taken off the count and those that still
leave. -/
def Tallied (m : Manager) : Prop :=
  (ended m.history .setUp).length = retirements m.history + m.leaving

theorem Tallied.change (hchange : Change step m m') (h : m.Tallied) : m'.Tallied := by
  unfold Tallied at h ⊢
  cases hchange with
  | initializerEnds =>
      simp only [note, ended_append, ended_singleton, Happening.ended?, if_true,
        Option.toList_some, List.length_append, List.length_cons, List.length_nil,
        retirements_append, retirements_singleton, Happening.isRetirement, Bool.false_eq_true,
        if_false, Nat.add_zero]
      omega
  | retire hleaving =>
      simp only [note, ended_append, ended_singleton, Happening.ended?, Option.toList_none,
        List.append_nil, retirements_append, retirements_singleton, Happening.isRetirement,
        if_true]
      omega
  | expire =>
      simp only [noteAll, ended_append, ended_expiry, retirements_append, retirements_expiry,
        List.append_nil, Nat.add_zero]
      exact h
  | beginAlone => simpa [noteAll, ended, retirements] using h
  | queue | loseClosers | reject | start | begin | handOver | discard | launchAlone | closerLost
  | closerEnters | closerEnds | conclude => simpa [note, startInitializer, runClosers] using h
  | clone | drop | follow | await | abandon | take | launch | initializerRests | closerRests
  | answer | elapse => exact h

theorem tallied_run (start : Nat) (steps : List Step) : ((new start).run steps).Tallied :=
  run_invariant (fun _ _ _ _ => Tallied.change) rfl

/-- Whoever is not counted has ended. -/
theorem Counted.pending_add_retirements (h : m.Counted) (hbalanced : m.Balanced)
    (htallied : m.Tallied) :
    m.pending + retirements m.history = (entered m.history .setUp).length := by
  -- those that run and those that leave are counted, and those that leave or left have ended
  have hlength := hbalanced.perm_entered.length_eq
  have hpending := h.pending_eq
  rw [List.length_append, List.length_map] at hlength
  unfold Tallied at htallied
  omega

/-! ## The count -/

/-- Only a retirement takes an initializer off the count. -/
theorem Change.pending_le (hchange : Change step m m') (hstep : step ≠ .act .retire) :
    m.pending ≤ m'.pending := by
  cases hchange with
  | retire => exact absurd rfl hstep
  | start => exact Nat.le_succ _
  | _ => exact Nat.le_refl _

theorem pending_le_step (hstep : step ≠ .act .retire) : m.pending ≤ (m.step step).pending := by
  apply step_invariant (P := fun m' => m.pending ≤ m'.pending) _ (Nat.le_refl _)
  intro m₁ m₂ hchange hle
  exact Nat.le_trans hle (hchange.pending_le hstep)

theorem step_retire (hleaving : m.leaving ≠ 0) :
    m.step (.act .retire) =
      note { m with leaving := m.leaving - 1, pending := m.pending - 1 } .retired := by
  obtain ⟨n, hn⟩ := Nat.exists_eq_succ_of_ne_zero hleaving
  simp only [Manager.step, act, retire]
  rw [hn]
  rfl

/-- While an initializer leaves, it is counted, so taking it off the count does not stop at zero. -/
theorem Counted.pending_step_retire (h : m.Counted) (hleaving : m.leaving ≠ 0) :
    (m.step (.act .retire)).pending + 1 = m.pending := by
  have hpending := h.pending_eq
  rw [step_retire hleaving]
  simp only [note]
  omega

/-- What a step tells that takes an initializer off the count. -/
theorem Tallied.of_pending_lt (h : m.Tallied) (hlt : (m.step step).pending < m.pending) :
    step = .act .retire ∧ m.leaving ≠ 0 ∧
      (m.step step).history = m.history ++ [⟨m.now, .retired⟩] ∧
      retirements m.history < (ended m.history .setUp).length := by
  have hstep : step = .act .retire := by
    by_contra hne
    exact absurd hlt (Nat.not_lt.mpr (pending_le_step hne))
  subst hstep
  have hleaving : m.leaving ≠ 0 := by
    intro hzero
    simp [Manager.step, act, retire, hzero] at hlt
  unfold Tallied at h
  refine ⟨rfl, hleaving, ?_, by omega⟩
  rw [step_retire hleaving]
  rfl

/-- Whether a registration is accepted or not, it changes no count. -/
theorem census_act_register (closer : Closer) : (m.act (.register closer)).census = m.census := by
  rw [act, withHandle]
  split
  · rfl
  · unfold register
    split
    · simp [census, note]
    · simp [census, note]
    · simp [census, note]

end Manager

/-! ## Calls that manage items -/

namespace Managing

variable {c : Managing} {items : List Charge}

theorem own_eq_run (c : Managing) : ∃ steps, c.own.manager = c.manager.run steps := by
  unfold own
  split
  · exact ⟨[], rfl⟩
  next item left _ =>
    refine ⟨[.act (.register item.closer)], ?_⟩
    split <;> rfl
  next name hook left _ => exact ⟨[.act (.startInitializer name hook)], rfl⟩
  · exact ⟨[], rfl⟩

/-- A call and those beside it make a run of the manager. -/
theorem run_eq_run (c : Managing) (turns : List Turn) :
    ∃ steps, (c.run turns).manager = c.manager.run steps := by
  induction turns generalizing c with
  | nil => exact ⟨[], rfl⟩
  | cons turn rest ih =>
      obtain ⟨later, hlater⟩ := ih (c.turn turn)
      obtain ⟨first, hfirst⟩ : ∃ first, (c.turn turn).manager = c.manager.run first := by
        cases turn with
        | own => exact c.own_eq_run
        | other step => exact c.manager.besides_eq_run step
      exact ⟨first ++ later, by rw [run_cons, hlater, hfirst, Manager.run_append]⟩

/-- The call starts the initializers of the items whose closers were accepted, the last of them
perhaps in its next turn. -/
theorem Fits.entered_told (h : Fits items c) :
    entered c.told .setUp ++ c.point.owed.filterMap (Happening.entered? .setUp) =
      c.taken.filterMap Charge.setUpName? := by
  have hrefusal : c.point.refusal.filterMap (Happening.entered? .setUp) = [] := by
    cases c.point <;> rfl
  have hall : ∀ item : Charge,
      item.happenings.filterMap (Happening.entered? .setUp) = item.setUpName?.toList := by
    rintro ⟨closer, setUp⟩
    cases setUp <;> rfl
  rw [entered, h.filterMap_told, hrefusal, List.append_nil]
  simp only [hall]
  exact (List.filterMap_eq_flatMap_toList ..).symm

/-- The turn in which the closer of an item is rejected changes no count. -/
theorem census_own {item : Charge} {left : List Charge}
    (hpoint : c.own.point = .refused item left) : c.own.manager.census = c.manager.census := by
  cases hnow : c.point with
  | registering items =>
      cases items with
      | nil => simp [own, hnow] at hpoint
      | cons next rest =>
          have hmanager : c.own.manager = c.manager.act (.register next.closer) := by
            simp only [own, hnow]
            split <;> rfl
          rw [hmanager, Manager.census_act_register]
  | starting name hook rest => simp [own, hnow] at hpoint
  | finished | refused next rest => rw [own_of_result (by simp [hnow, Point.result?])]

/-- A call counts the initializers of the items whose closers were accepted, and nothing of one
whose closer was rejected. -/
structure CountsAccepted (m : Manager) (c : Managing) : Prop where
  /-- What is said of the states of runs is said of every state during the call. -/
  reached : ∃ steps, c.manager = m.run steps
  started : entered c.told .setUp ++ c.point.owed.filterMap (Happening.entered? .setUp) =
    c.taken.filterMap Charge.setUpName?
  /-- The turn in which a closer is rejected counts nothing, and no turn follows it. -/
  refused : ∀ item left, c.own.point = .refused item left →
    c.own.manager.census = c.manager.census ∧ c.own.own = c.own

theorem Fits.countsAccepted {m : Manager} (h : Fits items c)
    (hreached : ∃ steps, c.manager = m.run steps) : CountsAccepted m c where
  reached := hreached
  started := h.entered_told
  refused := by
    intro item left hpoint
    refine ⟨census_own hpoint, own_of_result ?_⟩
    rw [hpoint]
    exact Option.some_ne_none _

end Managing

namespace Manager

/-- What the count of pending initializers says in a state in which these have been started. -/
structure CountsPending (starts : List Start) (m : Manager) : Prop where
  entered_eq : entered m.history .setUp = starts.map Start.hookName
  /-- The count is what was started less what has ended and left. -/
  pending_eq : m.pending + retirements m.history = starts.length
  ended_eq : (ended m.history .setUp).length = retirements m.history + m.leaving
  /-- Every initializer that runs is counted, and what does not run has ended. -/
  running : m.initializers.length ≤ m.pending ∧ (entered m.history .setUp).Perm
    (ended m.history .setUp ++ m.initializers.map Running.hookName)
  /-- An initializer that has ended and not left yet has ended just now. -/
  leaving_now : m.leaving ≠ 0 → lastEnd m.history .setUp = some m.now
  /-- When all that is possible now has been done, whatever has ended is off the count. -/
  settled : m.enabled = [] → m.pending + (ended m.history .setUp).length = starts.length
  /-- Taking an initializer off the count never stops at zero. -/
  retires : m.leaving ≠ 0 → (m.step (.act .retire)).pending + 1 = m.pending
  /-- The count goes down one at a time, and the one that goes has ended before. -/
  uncounts : ∀ step, (m.step step).pending < m.pending →
    (m.step step).pending + 1 = m.pending ∧
      (m.step step).history = m.history ++ [⟨m.now, .retired⟩] ∧
      retirements m.history < (ended m.history .setUp).length
  /-- The failures of all that have ended are recorded, whichever of them are off the count. -/
  recorded : m.returned.flatMap Return.failures ++ m.undelivered = failures m.history .setUp
  managed : 0 < m.handles → ∀ items turns,
    Managing.CountsAccepted m ((m.managing items).run turns)

/-- In every state of every run the count is that of the initializers that were started and have not
ended. -/
theorem run_countsPending (start : Nat) (steps : List Step) :
    CountsPending ((new start).started steps) ((new start).run steps) := by
  have hsound : ((new start).run steps).Sound := sound_run start steps
  have hbalanced : ((new start).run steps).Balanced := balanced_run start steps
  have htallied : ((new start).run steps).Tallied := tallied_run start steps
  have hrecent : ((new start).run steps).Recent := recent_run start steps
  have hrecorded : ((new start).run steps).Recorded := recorded_run start steps
  have hentered : entered ((new start).run steps).history .setUp =
      ((new start).started steps).map Start.hookName := by
    rw [entered_run]
    rfl
  generalize (new start).started steps = starts at *
  generalize (new start).run steps = m at *
  have hpending : m.pending + retirements m.history = starts.length := by
    rw [hsound.counted.pending_add_retirements hbalanced htallied, hentered, List.length_map]
  exact {
    entered_eq := hentered
    pending_eq := hpending
    ended_eq := htallied
    running := by
      refine ⟨?_, hbalanced.perm_entered⟩
      rw [hsound.counted.pending_eq]
      exact Nat.le_add_right _ _
    leaving_now := hrecent
    settled := by
      intro hnone
      rw [htallied, leaving_eq_zero_of_enabled_eq_nil hnone, Nat.add_zero, hpending]
    retires := hsound.counted.pending_step_retire
    uncounts := by
      intro step hlt
      obtain ⟨rfl, hleaving, hhistory, hfewer⟩ := htallied.of_pending_lt hlt
      exact ⟨hsound.counted.pending_step_retire hleaving, hhistory, hfewer⟩
    recorded := hrecorded.setUp
    managed := fun hhandle items turns =>
      ((Managing.fits_managing hsound hhandle items).run turns).countsAccepted
        (Managing.run_eq_run _ turns) }

end Manager
end Lifecycle
end ServiceKit
