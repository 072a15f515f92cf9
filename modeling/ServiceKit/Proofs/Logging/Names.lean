import ServiceKit.Logging.Settings

/-!
# Names of levels

A text names a level whatever the case of its ASCII letters, one level by two names.  A text that
names none stands for the fallback level and is remembered in the settings.
-/

namespace ServiceKit
namespace Logging
namespace Level

/-- What a level is called in upper case. -/
def names : Level → List String
  | off => ["OFF"]
  | service => ["SERVICE"]
  | critical => ["CRITICAL"]
  | error => ["ERROR"]
  | warn => ["WARN", "WARNING"]
  | info => ["INFO"]
  | debug => ["DEBUG"]

/-- A text names a level: with its ASCII letters in upper case it is one of the level's names. -/
def Named (s : String) (level : Level) : Prop :=
  String.ofList (s.toList.map Char.toUpper) ∈ level.names

/-- A text is the name of some level. -/
def IsName (s : String) : Prop :=
  ∃ level, Named s level

variable {s : String} {level : Level}

theorem ofUpperName?_eq_some_iff : ofUpperName? s = some level ↔ s ∈ level.names := by
  constructor
  · fun_cases ofUpperName? s <;> rintro ⟨⟩ <;> simp_all [names]
  · intro hs
    cases level <;> simp only [names, List.mem_cons, List.not_mem_nil, or_false] at hs
    case warn => rcases hs with rfl | rfl <;> decide
    all_goals subst hs; decide

theorem ofName?_eq_some_iff : ofName? s = some level ↔ Named s level :=
  ofUpperName?_eq_some_iff

theorem ofName?_eq_none_iff : ofName? s = none ↔ ¬ IsName s := by
  simp only [Option.eq_none_iff_forall_ne_some, IsName, not_exists, ne_eq, ofName?_eq_some_iff]

end Level

namespace Settings

variable {settings : Settings} {name : String} {level : Level}

theorem withLevelName_of_named (h : Level.Named name level) :
    settings.withLevelName name = { settings with level := level, unrecognized := none } := by
  rw [withLevelName, Level.ofName?_eq_some_iff.mpr h]

theorem withLevelName_of_not_isName (h : ¬ Level.IsName name) :
    settings.withLevelName name =
      { settings with level := Level.fallback, unrecognized := some name } := by
  rw [withLevelName, Level.ofName?_eq_none_iff.mpr h]

end Settings
end Logging
end ServiceKit
