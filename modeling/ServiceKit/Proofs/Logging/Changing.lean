import ServiceKit.Logging.Session
import ServiceKit.Proofs.Logging.BareLevel
import ServiceKit.Proofs.Logging.Names

/-!
# Changing the level while events are written

The clones of a handle share one filter and one level.  Whoever changes the level, by name or not,
changes it for all of them and for every event from then on, and what the change itself reports is
already subject to the new filter.  So the report of an unknown name is always written: it is as
important as the fallback level lets pass.
-/

namespace ServiceKit
namespace Logging

/-- A change of the level. -/
inductive LevelChange where
  | byName (name : String)
  | direct (level : Level)

namespace LevelChange

/-- The level that a change sets. -/
def level : LevelChange → Level
  | byName name => Level.orFallback name
  | direct level => level

/-- What a change reports: that it was made, and the name if it is unknown. -/
def reports : LevelChange → List Event
  | byName name =>
    match Level.ofName? name with
    | some level => [Session.changedEvent level]
    | none => [Session.changedEvent Level.fallback, Session.unrecognizedEvent name]
  | direct level => [Session.changedEvent level]

/-- Changes the level and gives the level set. -/
def apply (session : Session) : LevelChange → Session × Level
  | byName name => session.setLevelName name
  | direct level => (session.setLevel level, level)

end LevelChange

/-- One use of logging that is set up. -/
inductive Use where
  /-- A handle is cloned. -/
  | clone (handle : Nat)
  /-- The level is changed through a handle. -/
  | change (handle : Nat) (change : LevelChange)
  /-- An event happens. -/
  | emit (target : String) (event : Event)

namespace Use

/-- The level that a use sets, if it sets one. -/
def level? : Use → Option Level
  | change _ made => some made.level
  | _ => none

/-- The events of a use, with their targets. -/
def events : Use → List (String × Event)
  | clone _ => []
  | change _ made => made.reports.map fun event => (ownTarget, event)
  | emit target event => [(target, event)]

end Use

/-- Logging that is set up, and how many handles share it. -/
structure Shared where
  session : Session
  handles : Nat

namespace Shared

/-- Changes the level through a handle, if there is this handle, and gives the level set. -/
def change? (shared : Shared) (handle : Nat) (change : LevelChange) : Option (Shared × Level) :=
  if handle < shared.handles then
    let (session, level) := change.apply shared.session
    some ({ shared with session := session }, level)
  else none

/-- The level that a handle shows, if there is this handle. -/
def level? (shared : Shared) (handle : Nat) : Option Level :=
  if handle < shared.handles then shared.session.level? else none

/-- Logging after a use. -/
def use (shared : Shared) : Use → Shared
  | .clone handle =>
    if handle < shared.handles then { shared with handles := shared.handles + 1 } else shared
  | .change handle change =>
    match shared.change? handle change with
    | some (shared, _) => shared
    | none => shared
  | .emit target event => { shared with session := shared.session.emit target event }

/-- Logging after several uses. -/
def run (shared : Shared) (uses : List Use) : Shared :=
  uses.foldl use shared

end Shared

/-- Uses go through handles that there are: so many to begin with, and the clones made since. -/
inductive Possible : Nat → List Use → Prop where
  | nil {handles : Nat} : Possible handles []
  | clone {handles handle : Nat} {uses : List Use} (hhandle : handle < handles)
      (hrest : Possible (handles + 1) uses) : Possible handles (.clone handle :: uses)
  | change {handles handle : Nat} {uses : List Use} (hhandle : handle < handles)
      (change : LevelChange) (hrest : Possible handles uses) :
      Possible handles (.change handle change :: uses)
  | emit {handles : Nat} {uses : List Use} (target : String) (event : Event)
      (hrest : Possible handles uses) : Possible handles (.emit target event :: uses)

/-- The level set last. -/
def lastSet (uses : List Use) : Option Level :=
  (uses.filterMap Use.level?).getLast?

/-- The threshold in force after uses: that of the level set last, the first one until then. -/
def thresholdAfter (first : Threshold) (uses : List Use) : Threshold :=
  match lastSet uses with
  | some level => level.threshold
  | none => first

/-- The records of those events that pass a threshold. -/
def admitted (threshold : Threshold) (events : List (String × Event)) : List Record :=
  (events.filter fun e => threshold.passes e.2.severity).map fun e => ⟨e.1, e.2, []⟩

/-- What uses write: the events of each that pass the threshold in force after it. -/
def transcript (first : Threshold) : List Use → List Record
  | [] => []
  | use :: rest =>
    admitted (thresholdAfter first [use]) use.events ++ transcript (thresholdAfter first [use]) rest

/-- The threshold that a set-up begins with: that of the configured level, or the one given from
outside as a bare level. -/
inductive Begins (level : Level) : Option String → Threshold → Prop where
  | configured : Begins level none level.threshold
  | given {s : String} {threshold : Threshold} (hs : BareLevel threshold s) :
      Begins level (some s) threshold

/-- What a set-up reports: a level name that is unknown, and that logging is set up. -/
def setUpReports (settings : Settings) : List (String × Event) :=
  (settings.unrecognized.toList.map Session.unrecognizedEvent ++
    [Session.setUpEvent settings]).map fun event => (ownTarget, event)

/-- Logging is set up with a threshold for all targets, and no span is entered. -/
structure Tuned (settings : Settings) (threshold : Threshold) (level : Level)
    (session : Session) : Prop where
  logger : session.logger = some ⟨settings, .ofThreshold threshold, level⟩
  spans : session.spans = []

variable {settings : Settings} {threshold : Threshold} {level : Level} {session : Session}
  {shared : Shared} {use : Use} {uses : List Use} {handle : Nat}

/-! ## One event -/

theorem admitted_append (events more : List (String × Event)) :
    admitted threshold (events ++ more) = admitted threshold events ++ admitted threshold more := by
  simp [admitted]

theorem admitted_singleton (threshold : Threshold) (target : String) (event : Event) :
    admitted threshold [(target, event)] =
      if threshold.passes event.severity then [⟨target, event, []⟩] else [] := by
  cases hpasses : threshold.passes event.severity <;> simp [admitted, hpasses]

theorem emit_logger (session : Session) (target : String) (event : Event) :
    (session.emit target event).logger = session.logger := by
  rw [Session.emit]
  split <;> rfl

theorem emit_spans (session : Session) (target : String) (event : Event) :
    (session.emit target event).spans = session.spans := by
  rw [Session.emit]
  split <;> rfl

namespace Tuned

theorem emit (h : Tuned settings threshold level session) (target : String) (event : Event) :
    Tuned settings threshold level (session.emit target event) where
  logger := (emit_logger session target event).trans h.logger
  spans := (emit_spans session target event).trans h.spans

/-- An event is written exactly if it passes the threshold. -/
theorem written_emit (h : Tuned settings threshold level session) (target : String)
    (event : Event) : (session.emit target event).written =
      session.written ++ admitted threshold [(target, event)] := by
  have henabled : session.enabled target event.severity = threshold.passes event.severity := by
    rw [Session.enabled, h.logger]
    exact passes_ofThreshold threshold target event.severity
  have hspans : session.openSpans = [] := by
    rw [Session.openSpans, h.spans]
    rfl
  rw [Session.emit, henabled, hspans, admitted_singleton]
  split
  next => rfl
  next => exact (List.append_nil _).symm

/-! ## One change -/

theorem setLevel (h : Tuned settings threshold level session) (next : Level) :
    Tuned settings next.threshold next (session.setLevel next) ∧
      (session.setLevel next).written = session.written ++
        admitted next.threshold [(ownTarget, Session.changedEvent next)] := by
  rw [Session.setLevel, h.logger]
  have hnext : Tuned settings next.threshold next
      { session with logger := some ⟨settings, .ofThreshold next.threshold, next⟩ } :=
    ⟨rfl, h.spans⟩
  exact ⟨hnext.emit .., hnext.written_emit ..⟩

/-- A name to report is written if errors pass. -/
theorem report (h : Tuned settings threshold level session) (name : Option String) :
    Tuned settings threshold level (session.reportUnrecognized name) ∧
      (session.reportUnrecognized name).written = session.written ++ admitted threshold
        ((name.toList.map Session.unrecognizedEvent).map fun event => (ownTarget, event)) := by
  cases name with
  | none => exact ⟨h, (List.append_nil _).symm⟩
  | some name => exact ⟨h.emit .., h.written_emit ..⟩

/-- A change sets the threshold before it reports. -/
theorem change (h : Tuned settings threshold level session) (made : LevelChange) :
    Tuned settings made.level.threshold made.level (made.apply session).1 ∧
      (made.apply session).1.written = session.written ++
        admitted made.level.threshold (made.reports.map fun event => (ownTarget, event)) ∧
      (made.apply session).2 = made.level := by
  cases made with
  | direct next =>
      obtain ⟨hnext, hwritten⟩ := h.setLevel next
      exact ⟨hnext, hwritten, rfl⟩
  | byName name =>
      rw [LevelChange.apply, LevelChange.level, LevelChange.reports, Session.setLevelName,
        Level.orFallback]
      cases Level.ofName? name with
      | some next =>
          obtain ⟨hnext, hwritten⟩ := h.setLevel next
          exact ⟨hnext, hwritten, rfl⟩
      | none =>
          -- the name is reported after the change, so the fallback level decides about it
          obtain ⟨hnext, hwritten⟩ := h.setLevel Level.fallback
          obtain ⟨hreported, hreport⟩ := hnext.report (some name)
          refine ⟨hreported, ?_, rfl⟩
          dsimp only [Option.getD_none]
          rw [hreport, hwritten, List.append_assoc, ← admitted_append]
          rfl

end Tuned

/-! ## One use -/

theorem change?_of_lt (hhandle : handle < shared.handles) (made : LevelChange) :
    shared.change? handle made = some ({ shared with session := (made.apply shared.session).1 },
      (made.apply shared.session).2) :=
  if_pos hhandle

theorem use_change (hhandle : handle < shared.handles) (made : LevelChange) :
    shared.use (.change handle made) =
      { shared with session := (made.apply shared.session).1 } := by
  rw [Shared.use, change?_of_lt hhandle]

theorem use_clone (hhandle : handle < shared.handles) :
    shared.use (.clone handle) = { shared with handles := shared.handles + 1 } :=
  if_pos hhandle

/-- The first of several possible uses is possible, and the others are after it. -/
theorem Possible.cons (h : Possible shared.handles (use :: uses)) :
    Possible shared.handles [use] ∧ Possible (shared.use use).handles uses := by
  cases h with
  | clone hhandle hrest =>
      rw [use_clone hhandle]
      exact ⟨.clone hhandle .nil, hrest⟩
  | change hhandle made hrest =>
      rw [use_change hhandle]
      exact ⟨.change hhandle made .nil, hrest⟩
  | emit target event hrest => exact ⟨.emit target event .nil, hrest⟩

/-- A use sets the level and the threshold together and writes what passes the new threshold. -/
theorem Tuned.step (huse : Possible shared.handles [use])
    (h : Tuned settings threshold level shared.session) :
    Tuned settings (thresholdAfter threshold [use]) ((lastSet [use]).getD level)
        (shared.use use).session ∧
      (shared.use use).session.written =
        shared.session.written ++ admitted (thresholdAfter threshold [use]) use.events := by
  cases huse with
  | clone hhandle =>
      rw [use_clone hhandle]
      exact ⟨h, (List.append_nil _).symm⟩
  | change hhandle made =>
      rw [use_change hhandle]
      obtain ⟨hnext, hwritten, -⟩ := h.change made
      exact ⟨hnext, hwritten⟩
  | emit target event => exact ⟨h.emit .., h.written_emit ..⟩

/-- A change through a handle gives the level that it sets. -/
theorem Tuned.exists_change? (h : Tuned settings threshold level shared.session)
    (hhandle : handle < shared.handles) (made : LevelChange) :
    ∃ next, shared.change? handle made = some (next, made.level) ∧
      next.session.written = shared.session.written ++
        admitted made.level.threshold (made.reports.map fun event => (ownTarget, event)) := by
  obtain ⟨-, hwritten, hlevel⟩ := h.change made
  refine ⟨{ shared with session := (made.apply shared.session).1 }, ?_, hwritten⟩
  rw [change?_of_lt hhandle, hlevel]

theorem Tuned.exists_change?_of_named {name : String} {named : Level}
    (h : Tuned settings threshold level shared.session) (hhandle : handle < shared.handles)
    (hnamed : Level.Named name named) :
    ∃ next, shared.change? handle (.byName name) = some (next, named) ∧
      next.session.written = shared.session.written ++
        admitted named.threshold [(ownTarget, Session.changedEvent named)] := by
  have hchange := h.exists_change? hhandle (.byName name)
  rw [LevelChange.level, LevelChange.reports, Level.orFallback,
    Level.ofName?_eq_some_iff.mpr hnamed] at hchange
  exact hchange

/-- The fallback level mutes the report of its own change and lets that of the unknown name pass. -/
theorem Tuned.exists_change?_of_not_isName {name : String}
    (h : Tuned settings threshold level shared.session) (hhandle : handle < shared.handles)
    (hunknown : ¬ Level.IsName name) :
    ∃ next, shared.change? handle (.byName name) = some (next, Level.fallback) ∧
      next.session.written = shared.session.written ++
        [⟨ownTarget, Session.unrecognizedEvent name, []⟩] := by
  have hchange := h.exists_change? hhandle (.byName name)
  rw [LevelChange.level, LevelChange.reports, Level.orFallback,
    Level.ofName?_eq_none_iff.mpr hunknown] at hchange
  exact hchange

/-! ## A run -/

theorem lastSet_cons : lastSet (use :: uses) = (lastSet uses).or (lastSet [use]) := by
  cases hlevel : use.level? with
  | none => simp [lastSet, hlevel]
  | some level => simp [lastSet, hlevel, List.getLast?_cons]

theorem getD_lastSet_cons : (lastSet (use :: uses)).getD level =
    (lastSet uses).getD ((lastSet [use]).getD level) := by
  rw [lastSet_cons]
  cases lastSet uses <;> rfl

theorem thresholdAfter_cons : thresholdAfter threshold (use :: uses) =
    thresholdAfter (thresholdAfter threshold [use]) uses := by
  rw [thresholdAfter, lastSet_cons, thresholdAfter, thresholdAfter]
  cases lastSet uses <;> rfl

/-- Through a run the threshold and the level are those set last, and what is written grows by the
transcript. -/
theorem Tuned.run (huses : Possible shared.handles uses)
    (h : Tuned settings threshold level shared.session) :
    Tuned settings (thresholdAfter threshold uses) ((lastSet uses).getD level)
        (shared.run uses).session ∧
      (shared.run uses).session.written =
        shared.session.written ++ transcript threshold uses := by
  -- each use hands its threshold and its level on, so both are general
  induction uses generalizing shared threshold level with
  | nil => exact ⟨h, (List.append_nil _).symm⟩
  | cons use uses ih =>
      obtain ⟨huse, hrest⟩ := huses.cons
      obtain ⟨hnext, hwritten⟩ := h.step huse
      obtain ⟨hlast, htranscript⟩ := ih hrest hnext
      rw [thresholdAfter_cons, getD_lastSet_cons]
      refine ⟨hlast, ?_⟩
      rw [hwritten, List.append_assoc] at htranscript
      exact htranscript

/-! ## From the set-up on -/

theorem Begins.firstFilter_eq {outside : Option String} (h : Begins level outside threshold) :
    Session.firstFilter outside level = .ofThreshold threshold := by
  cases h with
  | configured => rfl
  | given hs => rw [Session.firstFilter, Option.bind_some, hs.filter, Option.getD_some]

theorem Begins.setUp {outside : Option String} {storage : Storage}
    (h : Begins settings.level outside threshold)
    (hsetUp : (Session.start outside storage).setUp settings = (session, .ok level)) :
    Tuned settings threshold settings.level session ∧
      session.written = admitted threshold (setUpReports settings) := by
  rw [Session.setUp] at hsetUp
  split at hsetUp
  next => cases hsetUp
  next opened _ =>
    dsimp only [Session.start] at hsetUp
    rw [h.firstFilter_eq] at hsetUp
    have hbegun : Tuned settings threshold settings.level
        ⟨outside, opened, some ⟨settings, .ofThreshold threshold, settings.level⟩, [], []⟩ :=
      ⟨rfl, rfl⟩
    obtain ⟨hreported, hreport⟩ := hbegun.report settings.unrecognized
    cases hsetUp
    refine ⟨hreported.emit .., ?_⟩
    rw [hreported.written_emit, hreport, List.append_assoc, ← admitted_append, setUpReports,
      List.map_append]
    rfl

/-- From the set-up on, through any clones of the handle, what is written is what passes the
threshold in force: the first one until a level is set, then that of the level set last.  Every
clone shows this level, and an unknown name is reported whatever was muted before. -/
theorem run_writesWhatPasses {outside : Option String} {storage : Storage} {first : Threshold}
    (hfirst : Begins settings.level outside first)
    (hsetUp : (Session.start outside storage).setUp settings = (session, .ok level))
    (huses : Possible 1 uses) :
    let after := Shared.run ⟨session, 1⟩ uses
    session.written = admitted first (setUpReports settings) ∧
      after.session.written = session.written ++ transcript first uses ∧
      (∀ target event, (after.use (.emit target event)).session.written =
        after.session.written ++
          if (thresholdAfter first uses).passes event.severity then [⟨target, event, []⟩]
          else []) ∧
      ∀ handle < after.handles,
        after.level? handle = some ((lastSet uses).getD settings.level) ∧
        ∀ name,
          (∀ named, Level.Named name named → ∃ next,
            after.change? handle (.byName name) = some (next, named) ∧
            next.session.written = after.session.written ++
              admitted named.threshold [(ownTarget, Session.changedEvent named)]) ∧
          (¬ Level.IsName name → ∃ next,
            after.change? handle (.byName name) = some (next, .error) ∧
            next.session.written = after.session.written ++
              [⟨ownTarget, ⟨.error, "Unrecognized log level",
                [("level", .text name), ("fallback", .text "ERROR")]⟩, []⟩]) := by
  intro after
  obtain ⟨hbegun, hwritten⟩ := hfirst.setUp hsetUp
  have hpossible : Possible (Shared.mk session 1).handles uses := huses
  obtain ⟨htuned, htranscript⟩ := hbegun.run hpossible
  refine ⟨hwritten, htranscript, fun target event => ?_, fun handle hhandle =>
    ⟨?_, fun name => ⟨fun named hnamed => htuned.exists_change?_of_named hhandle hnamed,
      fun hunknown => htuned.exists_change?_of_not_isName hhandle hunknown⟩⟩⟩
  · rw [← admitted_singleton]
    exact htuned.written_emit target event
  · rw [Shared.level?, if_pos hhandle, Session.level?, htuned.logger]
    rfl

/-- Everything is muted from outside, and a clone of the handle sets an unknown name. -/
theorem run_writesWhatPasses_chatty :
    let session := ((Session.start (some "off") .standard).setUp .default).1
    let after := Shared.run ⟨session, 1⟩
      [.clone 0, .change 1 (.byName "chatty"), .emit "app" ⟨.warn, "muted", []⟩]
    after.session.written = [⟨ownTarget, Session.unrecognizedEvent "chatty", []⟩] ∧
      after.level? 0 = some .error := by
  intro session after
  have hfirst : Begins Settings.default.level (some "off") .off := .given (.name (by decide))
  have huses : Possible 1 [.clone 0, .change 1 (.byName "chatty"),
      .emit "app" ⟨.warn, "muted", []⟩] :=
    .clone (by decide) (.change (by decide) _ (.emit _ _ .nil))
  obtain ⟨hbegun, hwritten, -, hhandle⟩ := run_writesWhatPasses hfirst
    (show (Session.start (some "off") .standard).setUp .default = (session, .ok .info) from rfl)
    huses
  obtain ⟨hlevel, -⟩ := hhandle 0 (by decide)
  refine ⟨?_, hlevel⟩
  rw [hwritten, hbegun]
  decide

end Logging
end ServiceKit
