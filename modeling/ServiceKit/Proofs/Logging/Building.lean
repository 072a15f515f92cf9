import Mathlib.Data.List.Forall2
import Mathlib.Data.List.Induction
import Mathlib.Data.List.Infix
import ServiceKit.Proofs.Logging.Names

/-!
# Settings built step by step

Of the changes of one field the last counts, whatever else is changed before, between or after them.
So changes of different fields may be made in any order.  A level name that is not known is
remembered exactly as long as it was the last to set the level, and the fallback level is set
meanwhile.
-/

namespace ServiceKit
namespace Logging

/-- A text that names a level is ASCII: no other letter becomes one in upper case. -/
theorem Level.Named.toNat_lt {s : String} {level : Level} (h : Named s level) :
    ∀ c ∈ s.toList, c.toNat < 128 := by
  have hnames : ∀ name ∈ level.names, name.toList.all fun c => c.toNat < 128 := by
    cases level <;> decide
  intro c hc
  have hupper : c.toUpper.toNat < 128 := by
    have hall := List.all_eq_true.mp (hnames _ h) c.toUpper
    rw [String.toList_ofList] at hall
    exact of_decide_eq_true (hall (List.mem_map_of_mem hc))
  unfold Char.toUpper at hupper
  split at hupper
  next hlower =>
    have hle : c.toNat ≤ 122 := hlower.2
    omega
  next => exact hupper

theorem Level.Named.unique {s : String} {level other : Level} (h : Named s level)
    (hother : Named s other) : level = other := by
  rw [← ofName?_eq_some_iff] at h hother
  exact Option.some.inj (h.symm.trans hother)

namespace Settings

/-- What a change sets. -/
inductive Field where
  | serviceName
  | level
  | output
  | json
  deriving DecidableEq

/-- The field that a change sets; the level is set directly or by its name. -/
def Change.field : Change → Field
  | serviceName _ => .serviceName
  | level _ => .level
  | levelName _ => .level
  | output _ => .output
  | json => .json

/-- The settings after several changes. -/
def applyAll (settings : Settings) (changes : List Change) : Settings :=
  changes.foldl apply settings

/-- The last change of a field among several. -/
def lastChange? (field : Field) (changes : List Change) : Option Change :=
  (changes.filter (·.field = field)).getLast?

/-- The value that is left by the last change of it, or the initial one. -/
inductive Leaves {α : Type*} (initial : α) (set : α → Change) : Option Change → α → Prop where
  | unchanged : Leaves initial set none initial
  | set (value : α) : Leaves initial set (some (set value)) value

/-- The level that is left by the last change of it. -/
inductive LeavesLevel : Option Change → Level → Prop where
  | unchanged : LeavesLevel none .info
  | level (level : Level) : LeavesLevel (some (.level level)) level
  | named {name : String} {level : Level} (h : Level.Named name level) :
      LeavesLevel (some (.levelName name)) level
  | fallback {name : String} (h : ¬ Level.IsName name) :
      LeavesLevel (some (.levelName name)) .error

/-- Settings are what changes have made of the defaults: each field is as its own last change left
it. -/
structure Reflects (changes : List Change) (settings : Settings) : Prop where
  unrecognized : ∀ name, settings.unrecognized = some name ↔
    lastChange? .level changes = some (.levelName name) ∧ ¬ Level.IsName name
  level : LeavesLevel (lastChange? .level changes) settings.level
  serviceName : Leaves "service" .serviceName (lastChange? .serviceName changes)
    settings.serviceName
  output : Leaves .stdout .output (lastChange? .output changes) settings.output
  json : settings.json = true ↔ .json ∈ changes

variable {changes others : List Change} {change : Change} {settings : Settings} {field : Field}

/-! ## One more change -/

/-- A level set by its name: no other field changes. -/
theorem withLevelName_eq (settings : Settings) (name : String) :
    settings.withLevelName name = { settings with
      level := Level.orFallback name
      unrecognized := if (Level.ofName? name).isSome then none else some name } := by
  rw [withLevelName, Level.orFallback]
  cases Level.ofName? name <;> rfl

/-- Changes of different fields may be made in either order. -/
theorem apply_comm (settings : Settings) {a b : Change} (h : a.field ≠ b.field) :
    (settings.apply a).apply b = (settings.apply b).apply a := by
  cases a <;> cases b <;> simp [Change.field] at h <;> simp only [apply, withLevelName_eq] <;> rfl

theorem applyAll_concat (settings : Settings) (changes : List Change) (change : Change) :
    settings.applyAll (changes ++ [change]) = (settings.applyAll changes).apply change :=
  List.foldl_concat ..

theorem lastChange?_concat_self (changes : List Change) (change : Change) :
    lastChange? change.field (changes ++ [change]) = some change := by
  simp [lastChange?]

theorem lastChange?_concat_of_ne (changes : List Change) (h : change.field ≠ field) :
    lastChange? field (changes ++ [change]) = lastChange? field changes := by
  simp [lastChange?, h]

/-- What a change of a field establishes and changes of other fields leave alone holds of the last
change of the field, if it holds of the defaults. -/
theorem holds_of_lastChange? {P : Option Change → Settings → Prop} (field : Field)
    (hdefault : P none default)
    (hself : ∀ (settings : Settings) (change : Change), change.field = field →
      P (some change) (settings.apply change))
    (hother : ∀ (settings : Settings) (change : Change) last, change.field ≠ field →
      P last settings → P last (settings.apply change)) (changes : List Change) :
    P (lastChange? field changes) (default.applyAll changes) := by
  induction changes using List.reverseRecOn with
  | nil => exact hdefault
  | append_singleton changes change ih =>
      rw [applyAll_concat]
      by_cases hfield : change.field = field
      · rw [← hfield, lastChange?_concat_self]
        exact hself _ change hfield
      · rw [lastChange?_concat_of_ne changes hfield]
        exact hother _ change _ hfield ih

/-! ## What each field is -/

theorem unrecognized_applyAll (changes : List Change) (name : String) :
    (default.applyAll changes).unrecognized = some name ↔
      lastChange? .level changes = some (.levelName name) ∧ ¬ Level.IsName name := by
  apply holds_of_lastChange? (P := fun last settings =>
    settings.unrecognized = some name ↔ last = some (.levelName name) ∧ ¬ Level.IsName name) .level
  · simp [default]
  · intro settings change hfield
    cases change with
    | level level => simp [apply, withLevel]
    | levelName other =>
        by_cases hother : Level.IsName other
        · obtain ⟨level, hnamed⟩ := id hother
          rw [apply, withLevelName_of_named hnamed]
          simp only [Option.some.injEq, Change.levelName.injEq, reduceCtorEq, false_iff, not_and,
            not_not]
          rintro rfl
          exact hother
        · rw [apply, withLevelName_of_not_isName hother]
          simp only [Option.some.injEq, Change.levelName.injEq, iff_self_and]
          rintro rfl
          exact hother
    | serviceName | output | json => contradiction
  · intro settings change last hfield h
    cases change with
    | serviceName | output | json => exact h
    | level | levelName => contradiction

theorem level_applyAll (changes : List Change) :
    LeavesLevel (lastChange? .level changes) (default.applyAll changes).level := by
  apply holds_of_lastChange? (P := fun last settings => LeavesLevel last settings.level) .level
  · exact .unchanged
  · intro settings change hfield
    cases change with
    | level level => exact .level level
    | levelName name =>
        by_cases hname : Level.IsName name
        · obtain ⟨level, hnamed⟩ := hname
          rw [apply, withLevelName_of_named hnamed]
          exact .named hnamed
        · rw [apply, withLevelName_of_not_isName hname]
          exact .fallback hname
    | serviceName | output | json => contradiction
  · intro settings change last hfield h
    cases change with
    | serviceName | output | json => exact h
    | level | levelName => contradiction

theorem serviceName_applyAll (changes : List Change) :
    Leaves "service" .serviceName (lastChange? .serviceName changes)
      (default.applyAll changes).serviceName := by
  apply holds_of_lastChange? (P := fun last settings =>
    Leaves "service" .serviceName last settings.serviceName) .serviceName
  · exact .unchanged
  · intro settings change hfield
    cases change with
    | serviceName name => exact .set name
    | level | levelName | output | json => contradiction
  · intro settings change last hfield h
    cases change with
    | levelName name =>
        rw [apply, withLevelName_eq]
        exact h
    | level | output | json => exact h
    | serviceName => contradiction

theorem output_applyAll (changes : List Change) :
    Leaves .stdout .output (lastChange? .output changes) (default.applyAll changes).output := by
  apply holds_of_lastChange? (P := fun last settings =>
    Leaves .stdout .output last settings.output) .output
  · exact .unchanged
  · intro settings change hfield
    cases change with
    | output output => exact .set output
    | serviceName | level | levelName | json => contradiction
  · intro settings change last hfield h
    cases change with
    | levelName name =>
        rw [apply, withLevelName_eq]
        exact h
    | serviceName | level | json => exact h
    | output => contradiction

theorem isSome_lastChange?_json (changes : List Change) :
    (lastChange? .json changes).isSome ↔ .json ∈ changes := by
  rw [lastChange?, List.getLast?_isSome]
  constructor
  · intro hne
    obtain ⟨change, hchange⟩ := List.exists_mem_of_ne_nil _ hne
    obtain ⟨hmem, hfield⟩ := List.mem_filter.mp hchange
    cases change with
    | json => exact hmem
    | serviceName | level | levelName | output => simp [Change.field] at hfield
  · exact fun hmem => List.ne_nil_of_mem (List.mem_filter.mpr ⟨hmem, rfl⟩)

theorem json_applyAll (changes : List Change) :
    (default.applyAll changes).json = true ↔ .json ∈ changes := by
  rw [← isSome_lastChange?_json]
  apply holds_of_lastChange? (P := fun last settings =>
    settings.json = true ↔ last.isSome = true) .json
  · simp [default]
  · intro settings change hfield
    cases change with
    | json => simp [apply, withJson]
    | serviceName | level | levelName | output => contradiction
  · intro settings change last hfield h
    cases change with
    | serviceName | level | output => exact h
    | levelName name =>
        rw [apply, withLevelName_eq]
        exact h
    | json => contradiction

theorem reflects_applyAll (changes : List Change) :
    Reflects changes (default.applyAll changes) where
  unrecognized := unrecognized_applyAll changes
  level := level_applyAll changes
  serviceName := serviceName_applyAll changes
  output := output_applyAll changes
  json := json_applyAll changes

/-! ## Every sequence of changes -/

theorem Leaves.unique {α : Type*} {initial value other : α} {set : α → Change}
    (hset : Function.Injective set) {last : Option Change} (h : Leaves initial set last value)
    (hother : Leaves initial set last other) : value = other := by
  cases h with
  | unchanged =>
      cases hother with
      | unchanged => rfl
  | set =>
      generalize hlast : some (set value) = last at hother
      cases hother with
      | unchanged => contradiction
      | set => exact hset (Option.some.inj hlast)

theorem LeavesLevel.unique {last : Option Change} {level other : Level}
    (h : LeavesLevel last level) (hother : LeavesLevel last other) : level = other := by
  cases h with
  | unchanged =>
      cases hother with
      | unchanged => rfl
  | level level =>
      cases hother with
      | level => rfl
  | named hnamed =>
      cases hother with
      | named hname => exact hnamed.unique hname
      | fallback hnot => exact absurd ⟨_, hnamed⟩ hnot
  | fallback hnot =>
      cases hother with
      | named hnamed => exact absurd ⟨_, hnamed⟩ hnot
      | fallback => rfl

/-- The last change of each field decides what the settings are. -/
theorem Reflects.unique {other : Settings} (h : Reflects changes settings)
    (hother : Reflects others other)
    (hlast : ∀ field, lastChange? field changes = lastChange? field others) :
    settings = other := by
  have hunrecognized : settings.unrecognized = other.unrecognized := by
    apply Option.ext
    intro name
    rw [h.unrecognized, hother.unrecognized, hlast]
  have hlevel : settings.level = other.level := (hlast _ ▸ h.level).unique hother.level
  have hname : settings.serviceName = other.serviceName :=
    (hlast _ ▸ h.serviceName).unique (fun _ _ => Change.serviceName.inj) hother.serviceName
  have houtput : settings.output = other.output :=
    (hlast _ ▸ h.output).unique (fun _ _ => Change.output.inj) hother.output
  have hjson : settings.json = other.json := by
    rw [Bool.eq_iff_iff, h.json, hother.json, ← isSome_lastChange?_json, hlast,
      isSome_lastChange?_json]
  cases settings
  cases other
  simp_all

/-- Among changes of any fields, two of different fields next to each other may change places. -/
theorem applyAll_swap (settings : Settings) (before after : List Change) {a b : Change}
    (h : a.field ≠ b.field) :
    settings.applyAll (before ++ a :: b :: after) =
      settings.applyAll (before ++ b :: a :: after) := by
  simp only [applyAll, List.foldl_append, List.foldl_cons, apply_comm _ h]

/-- The state after each change is what the changes up to it have made of the first one. -/
theorem states_eq (settings : Settings) (changes : List Change) :
    settings.states changes = changes.inits.map settings.applyAll := by
  induction changes generalizing settings with
  | nil => rfl
  | cons change rest ih =>
      rw [states, ih, List.inits_cons, List.map_cons, List.map_map]
      rfl

/-- Settings changed step by step from the defaults reflect the changes at every step, whatever the
changes are: only the last one of each field counts, so changes of different fields may be made in
either order.  No text with a letter beyond ASCII is the name of a level. -/
theorem states_reflect (changes : List Change) :
    List.Forall₂ Reflects changes.inits (default.states changes) ∧
      (∀ others, (∀ field, lastChange? field others = lastChange? field changes) →
        default.applyAll others = default.applyAll changes) ∧
      (∀ (settings : Settings) before a b after, changes = before ++ a :: b :: after →
        a.field ≠ b.field →
          settings.applyAll (before ++ b :: a :: after) = settings.applyAll changes) ∧
      ∀ name, Level.IsName name → ∀ c ∈ name.toList, c.toNat < 128 := by
  refine ⟨?_, ?_, ?_, ?_⟩
  · rw [states_eq, List.forall₂_map_right_iff, List.forall₂_same]
    intro made _
    exact reflects_applyAll made
  · intro others hlast
    exact (reflects_applyAll others).unique (reflects_applyAll changes) hlast
  · rintro settings before a b after rfl hfield
    exact (applyAll_swap settings before after hfield).symm
  · rintro name ⟨level, hnamed⟩
    exact hnamed.toNat_lt

/-- An unknown name is remembered while other fields are changed, before or after it. -/
theorem states_reflect_loud :
    let changes : List Change := [.levelName "LOUD", .json, .serviceName "notes"]
    (default.applyAll changes).unrecognized = some "LOUD" ∧
      default.applyAll [.json, .serviceName "notes", .levelName "LOUD"] =
        default.applyAll changes ∧
      default.applyAll [.json, .levelName "LOUD", .serviceName "notes"] =
        default.applyAll changes ∧
      ¬ Level.IsName "ınfo" := by
  intro changes
  obtain ⟨-, hlast, hswap, hascii⟩ := states_reflect changes
  refine ⟨by decide, hlast _ ?_, hswap default [] _ _ [.serviceName "notes"] rfl nofun, ?_⟩
  · intro field
    cases field <;> rfl
  · intro hname
    exact absurd (hascii _ hname 'ı' (by decide)) (by decide)

end Settings
end Logging
end ServiceKit
