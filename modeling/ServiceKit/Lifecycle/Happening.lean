import ServiceKit.Lifecycle.Report
import ServiceKit.Logging.Record

/-!
# What happens in a manager

The history of a manager is a list of happenings with their times.  Some of them are logged.
-/

namespace ServiceKit
namespace Lifecycle

/-- Something that happens in a manager. -/
inductive Happening where
  /-- The manager begins to exist. -/
  | created
  /-- A registration is accepted; `source` is the phase of the hook that made it, if one did. -/
  | queued (source : Option Phase) (closer : Closer)
  /-- A registration is rejected because the shutdown has begun. -/
  | rejected (source : Option Phase) (closer : Closer)
  /-- A registration fails because the collector is gone. -/
  | unsent (source : Option Phase) (closer : Closer)
  /-- A hook is entered. -/
  | entered (phase : Phase) (name : String) (resource : Option Nat)
  /-- A hook ends. -/
  | ended (phase : Phase) (name : String) (resource : Option Nat) (ending : Ending)
  /-- An initializer that has ended is no longer counted as pending. -/
  | retired
  /-- The shutdown begins. -/
  | shutdownBegun
  /-- The shutdown begins, but the collector is gone. -/
  | collectorGone
  /-- The collector hands over the closers. -/
  | handedOver (closers : List Closer)
  /-- The collector stopped without handing over closers. -/
  | collectorStopped
  /-- A closer panics before it has a hook. -/
  | lost (name : String)
  /-- The limit of the shutdown is reached with this many closers left. -/
  | expired (limit : Duration) (remaining : Nat)
  /-- A closer is aborted; `inHook` says that its hook was running. -/
  | aborted (name : String) (resource : Option Nat) (inHook : Bool)
  /-- The shutdown is complete. -/
  | completed (report : Report)
  /-- The collector discards its closers because no handle is left. -/
  | discarded
  deriving Repr

namespace Happening

/-- The logged event of the end of a hook. -/
def endEvent (phase : Phase) (name : String) (ending : Ending) : Logging.Event :=
  match ending.reason? with
  | none =>
    ⟨.debug, "Lifecycle hook completed", [("phase", .text phase.text), ("name", .text name)]⟩
  | some reason =>
    ⟨.error, "Lifecycle hook failed",
      [("phase", .text phase.text), ("name", .text name), ("reason", .text reason)]⟩

/-- The logged event of a happening, if there is one. -/
def event? : Happening → Option Logging.Event
  | created => some ⟨.debug, "Lifecycle manager started", []⟩
  | queued _ closer => some ⟨.debug, "Queued closer", [("name", .text closer.name)]⟩
  | rejected _ closer =>
    some ⟨.warn, "Rejected closer registered after shutdown began", [("name", .text closer.name)]⟩
  | unsent _ closer => some ⟨.debug, "Queued closer", [("name", .text closer.name)]⟩
  | entered .setUp name _ => some ⟨.debug, "Starting initialization", [("name", .text name)]⟩
  | entered .close _ _ => none
  | ended phase name _ ending => some (endEvent phase name ending)
  | retired => none
  | shutdownBegun => some ⟨.info, "Initiating shutdown", []⟩
  | collectorGone => some ⟨.warn, "Closer collector is gone", []⟩
  | handedOver closers => some ⟨.info, "Shutting down", [("closers", .number closers.length)]⟩
  | collectorStopped => some ⟨.warn, "Closer collector stopped before shutdown", []⟩
  | lost _ => some ⟨.warn, "Closer task failed", []⟩
  | expired limit remaining =>
    some ⟨.warn, "Shutdown timeout reached, aborting remaining closers",
      [("timeout", .text limit.text), ("remaining", .number remaining)]⟩
  | aborted _ _ _ => none
  | completed report =>
    some ⟨.info, "Shutdown complete",
      [("closers", .number report.closersRun), ("failures", .number report.failures.length),
        ("timed_out", .flag report.timedOut)]⟩
  | discarded =>
    some ⟨.debug, "All manager handles dropped, discarding queued closers", []⟩

end Happening

/-- A happening with its time. -/
structure Moment where
  time : Nat
  happening : Happening
  deriving Repr

end Lifecycle
end ServiceKit
