import ServiceKit.Proofs.Lifecycle.Course

/-!
# When initializers end

An initializer ends at the time of its own script, whatever else the manager does.  So the ends that
a history tells are those of the initializers that were started, up to now.
-/

namespace ServiceKit
namespace Lifecycle

open History

/-- An initializer that was started at a time. -/
structure Start where
  time : Nat
  name : String
  hook : Hook

/-- The end of an initializer that was started, if it ends. -/
def Start.end? (start : Start) : Option Moment :=
  start.hook.ending.map fun ending =>
    ⟨start.time + start.hook.delay, .ended .setUp start.name start.hook.resource ending⟩

/-- The end of a running initializer that is still to come, if one is. -/
def Running.end? (r : Running) : Option Moment :=
  match r.due, r.hook.ending with
  | some time, some ending => some ⟨time, .ended .setUp r.name r.hook.resource ending⟩
  | _, _ => none

/-- The ends of initializers that a history tells. -/
def History.setUpEnds (history : List Moment) : List Moment :=
  history.filter fun moment => (moment.happening.ended? .setUp).isSome

@[simp] theorem History.setUpEnds_append (h₁ h₂ : List Moment) :
    setUpEnds (h₁ ++ h₂) = setUpEnds h₁ ++ setUpEnds h₂ :=
  List.filter_append ..

theorem History.setUpEnds_expiry (limit : Duration) (slots : List Slot) (time : Nat) :
    setUpEnds ((expiry limit slots).map (Moment.mk time)) = [] := by
  rw [setUpEnds, List.filter_eq_nil_iff]
  intro moment hmoment
  obtain ⟨x, hx, rfl⟩ := List.mem_map.mp hmoment
  exact forall_mem_expiry (P := fun x => ¬ (x.ended? .setUp).isSome = true)
    (fun _ => by simp [Happening.ended?]) (fun _ _ _ => by simp [Happening.ended?]) x hx

theorem Running.end?_of_due {name : String} {hook : Hook} {time ticket : Nat} :
    (Running.mk name hook (hook.due? time) ticket).end? = (Start.mk time name hook).end? := by
  cases hending : hook.ending with
  | none => simp [Running.end?, Start.end?, hending]
  | some ending => simp [Running.end?, Start.end?, Hook.due?, hending]

namespace Manager

/-- The initializer that a step starts, if it starts one. -/
def startedBy (m : Manager) : Step → List Start
  | .act (.startInitializer name hook) => if m.handles = 0 then [] else [⟨m.now, name, hook⟩]
  | _ => []

/-- The initializers that are started in a run. -/
def started (m : Manager) : List Step → List Start
  | [] => []
  | step :: rest => m.startedBy step ++ (m.step step).started rest

variable {m m' : Manager} {starts : List Start}

theorem startedBy_eq_nil {step : Step}
    (hstart : ∀ name hook, step ≠ .act (.startInitializer name hook)) : m.startedBy step = [] := by
  unfold startedBy
  split
  next name hook => exact absurd rfl (hstart name hook)
  next => rfl

/-- The ends that are told and those that are to come are the ends of what was started. -/
def Foretold (starts : List Start) (m : Manager) : Prop :=
  (setUpEnds m.history ++ m.initializers.filterMap Running.end?).Perm
    (starts.filterMap Start.end?)

theorem Foretold.keep (h : Foretold starts m)
    (hcoming : m'.initializers.filterMap Running.end? = m.initializers.filterMap Running.end?)
    (htold : setUpEnds m'.history = setUpEnds m.history) : Foretold starts m' := by
  rw [Foretold, hcoming, htold]
  exact h

theorem setUpEnds_note {happening : Happening} (h : happening.ended? .setUp = none) :
    setUpEnds (m.note happening).history = setUpEnds m.history := by
  have hnot : ¬ (happening.ended? .setUp).isSome = true := by rw [h]; exact Bool.false_ne_true
  have hnone : setUpEnds [⟨m.now, happening⟩] = [] := List.filter_cons_of_neg hnot
  rw [note, setUpEnds_append, hnone, List.append_nil]

theorem Foretold.change {step : Step} (hsound : m.Sound) (hchange : Change step m m')
    (hstart : ∀ name hook, step ≠ .act (.startInitializer name hook))
    (h : Foretold starts m) : Foretold starts m' := by
  cases hchange with
  | start name hook => exact absurd rfl (hstart name hook)
  | @initializerRests _ r hmem hdue hending =>
      -- No end was to come of the one that rests, and none is.
      have hends : ∀ s ∈ m.initializers,
          (if s.ticket = r.ticket then { s with due := none } else s).end? = s.end? := by
        intro s hs
        split
        next hticket =>
          obtain rfl : s = r := List.inj_on_of_nodup_map hsound.counted.tickets_nodup hs hmem hticket
          simp [Running.end?, hending]
        next => rfl
      refine h.keep ?_ rfl
      rw [List.filterMap_map]
      exact List.filterMap_congr hends
  | @initializerEnds _ r ending hmem hdue hending =>
      obtain ⟨before, after, heq, hfilter⟩ := hsound.counted.exists_around hmem
      have hend : r.end? = some ⟨m.now, .ended .setUp r.name r.hook.resource ending⟩ := by
        rw [Running.end?, Running.due_eq_of_isDue hdue (hsound.punctual.initializers r hmem),
          hending]
      rw [Foretold, heq, List.filterMap_append, List.filterMap_cons_some hend] at h
      have htold : setUpEnds
          (m.history ++ [⟨m.now, .ended .setUp r.name r.hook.resource ending⟩]) =
            setUpEnds m.history ++ [⟨m.now, .ended .setUp r.name r.hook.resource ending⟩] :=
        setUpEnds_append ..
      rw [Foretold, note, htold, hfilter, List.filterMap_append, List.append_assoc,
        List.singleton_append]
      exact (List.perm_middle.symm.append_left (setUpEnds m.history)).trans h
  | beginAlone =>
      refine h.keep rfl ?_
      rw [noteAll, setUpEnds_append]
      exact List.append_nil _
  | expire =>
      refine h.keep rfl ?_
      rw [noteAll, setUpEnds_append, setUpEnds_expiry, List.append_nil]
  | queue | loseClosers | reject | begin | handOver | discard | retire | closerLost | closerEnters
  | closerEnds | conclude | launchAlone => exact h.keep rfl (setUpEnds_note rfl)
  | clone | drop | follow | await | abandon | take | launch | closerRests | answer | elapse =>
      exact h.keep rfl rfl

theorem Foretold.start {name : String} {hook : Hook} (h : Foretold starts m) :
    Foretold (starts ++ [⟨m.now, name, hook⟩]) (m.startInitializer name hook) := by
  have hlast : [(Running.mk name hook (hook.due? m.now) m.ticket)].filterMap Running.end? =
      [Start.mk m.now name hook].filterMap Start.end? := by
    simp only [List.filterMap_cons, Running.end?_of_due, List.filterMap_nil]
  rw [Foretold, startInitializer, setUpEnds_note rfl]
  simp only [note, List.filterMap_append]
  rw [← List.append_assoc, hlast]
  exact h.append_right _

theorem Foretold.step (hsound : m.Sound) (h : Foretold starts m) (step : Step) :
    Foretold (starts ++ m.startedBy step) (m.step step) := by
  -- Only a start adds to what is foretold, and every other change keeps it.
  by_cases hstart : ∃ name hook, step = .act (.startInitializer name hook)
  · obtain ⟨name, hook, rfl⟩ := hstart
    simp only [Manager.step, act, withHandle, startedBy]
    split
    · rwa [List.append_nil]
    · exact h.start
  · have hnone : ∀ name hook, step ≠ .act (.startInitializer name hook) :=
      fun name hook heq => hstart ⟨name, hook, heq⟩
    rw [startedBy_eq_nil hnone, List.append_nil]
    apply hsound.step_invariant _ h
    intro m m' hsound hchange h
    exact h.change hsound hchange hnone

theorem Foretold.run (hsound : m.Sound) (h : Foretold starts m) (steps : List Step) :
    Foretold (starts ++ m.started steps) (m.run steps) := by
  induction steps generalizing m starts with
  | nil => rwa [started, List.append_nil, run_nil]
  | cons step rest ih =>
      rw [started, run_cons, ← List.append_assoc]
      exact ih (hsound.step step) (h.step hsound step)

/-- Of the initializers that a run starts, exactly those that end have ended when their time is
over. -/
theorem setUpEnds_run (start : Nat) (steps : List Step) {time : Nat}
    (hle : time ≤ ((new start).run steps).now) :
    (before time (setUpEnds ((new start).run steps).history)).Perm
      (before time (((new start).started steps).filterMap Start.end?)) := by
  have hsound : ((new start).run steps).Sound := sound_run start steps
  have hnew : Foretold [] (new start) := .refl _
  have hlater : before time (((new start).run steps).initializers.filterMap Running.end?) = [] := by
    rw [before, List.filter_eq_nil_iff]
    intro moment hmem
    obtain ⟨r, hr, hend⟩ := List.mem_filterMap.mp hmem
    unfold Running.end? at hend
    split at hend
    next due ending hdue hending =>
      obtain rfl := Option.some.inj hend
      have hge : ((new start).run steps).now ≤ due := hsound.punctual.initializers r hr due hdue
      simp only [decide_eq_true_eq]
      omega
    next => contradiction
  have hrun := (hnew.run (sound_new start) steps).filter fun moment => moment.time < time
  rw [List.filter_append] at hrun
  change (before time _ ++ before time _).Perm (before time _) at hrun
  rwa [hlater, List.append_nil, List.nil_append] at hrun

end Manager
end Lifecycle
end ServiceKit
