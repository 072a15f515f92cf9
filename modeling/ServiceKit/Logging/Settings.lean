import ServiceKit.Logging.Level
import ServiceKit.Logging.Output

/-!
# Logging settings

What logging is set up with, changed step by step from the defaults.  A level name that is not known
sets the fallback level and is remembered, until the level is set again.
-/

namespace ServiceKit
namespace Logging

/-- What logging is set up with. -/
structure Settings where
  serviceName : String
  level : Level
  output : Output
  json : Bool
  /-- The level name that the last setting of the level did not know. -/
  unrecognized : Option String
  deriving DecidableEq, Repr

namespace Settings

/-- The settings of a service that configures nothing. -/
def default : Settings :=
  ⟨"service", .info, .stdout, false, none⟩

/-- Sets the name of the service. -/
def withServiceName (settings : Settings) (name : String) : Settings :=
  { settings with serviceName := name }

/-- Sets the level. -/
def withLevel (settings : Settings) (level : Level) : Settings :=
  { settings with level := level, unrecognized := none }

/-- Sets the level by its name. -/
def withLevelName (settings : Settings) (name : String) : Settings :=
  match Level.ofName? name with
  | some level => { settings with level := level, unrecognized := none }
  | none => { settings with level := Level.fallback, unrecognized := some name }

/-- Sets the output. -/
def withOutput (settings : Settings) (output : Output) : Settings :=
  { settings with output := output }

/-- Turns lines into JSON records. -/
def withJson (settings : Settings) : Settings :=
  { settings with json := true }

/-- One change of the settings. -/
inductive Change where
  | serviceName (name : String)
  | level (level : Level)
  | levelName (name : String)
  | output (output : Output)
  | json
  deriving DecidableEq, Repr

/-- The settings after a change. -/
def apply (settings : Settings) : Change → Settings
  | .serviceName name => settings.withServiceName name
  | .level level => settings.withLevel level
  | .levelName name => settings.withLevelName name
  | .output output => settings.withOutput output
  | .json => settings.withJson

/-- The settings before and after each of several changes. -/
def states (settings : Settings) : List Change → List Settings
  | [] => [settings]
  | change :: rest => settings :: (settings.apply change).states rest

end Settings
end Logging
end ServiceKit
