/-!
# Severities

The severity of an event, and thresholds that let events of some severities pass.
-/

namespace ServiceKit
namespace Logging

/-- How important an event is. -/
inductive Severity where
  | error
  | warn
  | info
  | debug
  | trace
  deriving DecidableEq, Repr

namespace Severity

/-- The place of a severity, the most important first. -/
def rank : Severity → Nat
  | error => 1
  | warn => 2
  | info => 3
  | debug => 4
  | trace => 5

/-- The upper-case name. -/
def name : Severity → String
  | error => "ERROR"
  | warn => "WARN"
  | info => "INFO"
  | debug => "DEBUG"
  | trace => "TRACE"

end Severity

/-- The least important severity that still passes. -/
inductive Threshold where
  | off
  | upTo (severity : Severity)
  deriving DecidableEq, Repr

namespace Threshold

/-- The place of a threshold: the rank of its severity, zero for none. -/
def rank : Threshold → Nat
  | off => 0
  | upTo severity => severity.rank

/-- An event of this severity passes. -/
def passes (threshold : Threshold) (severity : Severity) : Bool :=
  severity.rank ≤ threshold.rank

/-- The lower-case name. -/
def name : Threshold → String
  | off => "off"
  | upTo severity => String.ofList (severity.name.toList.map Char.toLower)

end Threshold
end Logging
end ServiceKit
