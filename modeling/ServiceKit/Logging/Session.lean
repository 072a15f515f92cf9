import ServiceKit.Logging.Filter
import ServiceKit.Logging.Record
import ServiceKit.Logging.Settings

/-!
# Logging of a process

A process sets up logging at most once.  From then on its events are written where they pass the
filter.  The filter is the one given from outside, if it is well formed, or that of the configured
level, until the level is changed; a change replaces it.  A level name that is not known is reported
at a severity that the fallback level lets pass.
-/

namespace ServiceKit
namespace Logging

/-- The target of this library's own events. -/
def ownTarget : String := "service_common::logging"

/-- The error of a second set-up. -/
def alreadySetUp : ServiceError :=
  .logging "a global default trace dispatcher has already been set"

/-- Logging that is set up: the handle that changes it shares its filter and level. -/
structure Logger where
  settings : Settings
  filter : Filter
  /-- The level last set, or the configured one. -/
  level : Level
  deriving DecidableEq, Repr

/-- The logging of a process. -/
structure Session where
  /-- The filter given from outside. -/
  outside : Option String
  storage : Storage
  logger : Option Logger
  /-- The spans entered and not yet left, the innermost first; `none` for one that was created
  disabled. -/
  spans : List (Option Span)
  /-- What has been written, oldest first. -/
  written : List Record
  deriving DecidableEq, Repr

namespace Session

/-- A process that has not set up logging. -/
def start (outside : Option String) (storage : Storage) : Session :=
  ⟨outside, storage, none, [], []⟩

/-- The filter that a set-up begins with. -/
def firstFilter (outside : Option String) (level : Level) : Filter :=
  (outside.bind Filter.read?).getD (.ofThreshold level.threshold)

/-- The enabled spans, the outermost first. -/
def openSpans (session : Session) : List Span :=
  session.spans.reverse.filterMap id

/-- Events of this target and severity are written. -/
def enabled (session : Session) (target : String) (severity : Severity) : Bool :=
  match session.logger with
  | none => false
  | some logger => logger.filter.passes target severity

/-- Writes an event if it passes the filter. -/
def emit (session : Session) (target : String) (event : Event) : Session :=
  if session.enabled target event.severity then
    { session with written := session.written ++ [⟨target, event, session.openSpans⟩] }
  else session

/-- The report of a level name that is not known. -/
def unrecognizedEvent (name : String) : Event :=
  ⟨.error, "Unrecognized log level",
    [("level", .text name), ("fallback", .text Level.fallback.name)]⟩

/-- The report of a changed level. -/
def changedEvent (level : Level) : Event :=
  ⟨.debug, "Log level changed", [("level", .text level.name)]⟩

/-- The report of a set-up. -/
def setUpEvent (settings : Settings) : Event :=
  ⟨.debug, "Logging initialized",
    [("service", .text settings.serviceName), ("level", .text settings.level.name),
      ("output", .text settings.output.describe)]⟩

/-- Reports a level name if there is one to report. -/
def reportUnrecognized (session : Session) (name : Option String) : Session :=
  match name with
  | none => session
  | some name => session.emit ownTarget (unrecognizedEvent name)

/-- Sets up logging.  The output is opened first, so a second set-up opens its file and fails. -/
def setUp (session : Session) (settings : Settings) : Session × Except ServiceError Level :=
  match settings.output.openIn session.storage with
  | .error e => (session, .error e)
  | .ok storage =>
    let session := { session with storage := storage }
    match session.logger with
    | some _ => (session, .error alreadySetUp)
    | none =>
      let logger := ⟨settings, firstFilter session.outside settings.level, settings.level⟩
      let session := { session with logger := some logger }
      let session := session.reportUnrecognized settings.unrecognized
      (session.emit ownTarget (setUpEvent settings), .ok settings.level)

/-- Changes the level; nothing happens before logging is set up. -/
def setLevel (session : Session) (level : Level) : Session :=
  match session.logger with
  | none => session
  | some logger =>
    let logger := { logger with filter := .ofThreshold level.threshold, level := level }
    let session := { session with logger := some logger }
    session.emit ownTarget (changedEvent level)

/-- Changes the level by its name and gives the level set; a name that is not known is reported
after the change. -/
def setLevelName (session : Session) (name : String) : Session × Level :=
  match Level.ofName? name with
  | some level => (session.setLevel level, level)
  | none =>
    ((session.setLevel Level.fallback).reportUnrecognized (some name), Level.fallback)

/-- The level last set, or the configured one. -/
def level? (session : Session) : Option Level :=
  session.logger.map Logger.level

/-- The span that carries the name of the service. -/
def serviceSpan (name : String) : Span :=
  ⟨"service", [("service", .text name)]⟩

/-- Creates the span of a service and enters it.  The span stays disabled if its severity does not
pass the filter when it is created. -/
def enter (session : Session) (serviceName : String) : Session × Bool :=
  let enabled := session.enabled ownTarget .error
  let span := if enabled then some (serviceSpan serviceName) else none
  ({ session with spans := span :: session.spans }, enabled)

/-- Leaves the innermost span. -/
def leave (session : Session) : Session :=
  { session with spans := session.spans.tail }

/-- The lines that have arrived at a place. -/
def linesAt (session : Session) (place : Destination) : List Line :=
  match session.logger with
  | none => []
  | some logger =>
    if logger.settings.output.destination session.storage = place then
      session.written.flatMap (Record.lines logger.settings.json logger.settings.output.isTerminal)
    else []

/-- The lines that have been added to a file. -/
def linesInFile (session : Session) (path : String) : List Line :=
  session.linesAt ((Output.file path).destination session.storage)

end Session
end Logging
end ServiceKit
