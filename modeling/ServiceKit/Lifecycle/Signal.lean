import ServiceKit.Logging.Record

/-!
# Signals

The signals that make a service shut down.
-/

namespace ServiceKit
namespace Lifecycle

/-- A signal to shut down. -/
inductive Signal where
  | terminate
  | interrupt
  deriving DecidableEq, Repr

/-- The logged event of a signal. -/
def Signal.event : Signal → Logging.Event
  | .terminate => ⟨.info, "Received SIGTERM, initiating shutdown", []⟩
  | .interrupt => ⟨.info, "Received Ctrl+C, initiating shutdown", []⟩

end Lifecycle
end ServiceKit
