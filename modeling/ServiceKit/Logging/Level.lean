import ServiceKit.Error
import ServiceKit.Logging.Severity
import ServiceKit.Number.Decimal

/-!
# Verbosity levels

The levels that a service can be configured with, from silent to everything, their names, and the
threshold that each sets.  Names are compared without regard to the case of ASCII letters.
-/

namespace ServiceKit
namespace Logging

/-- How much a service logs. -/
inductive Level where
  | off
  | service
  | critical
  | error
  | warn
  | info
  | debug
  deriving DecidableEq, Repr

namespace Level

/-- The place of a level, the most silent first. -/
def rank : Level → Nat
  | off => 0
  | service => 1
  | critical => 2
  | error => 3
  | warn => 4
  | info => 5
  | debug => 6

/-- The order of levels by verbosity. -/
def compare (a b : Level) : Ordering :=
  Ord.compare a.rank b.rank

/-- The upper-case name. -/
def name : Level → String
  | off => "OFF"
  | service => "SERVICE"
  | critical => "CRITICAL"
  | error => "ERROR"
  | warn => "WARN"
  | info => "INFO"
  | debug => "DEBUG"

/-- The threshold that a level sets. -/
def threshold : Level → Threshold
  | off => .off
  | service => .upTo .error
  | critical => .upTo .error
  | error => .upTo .error
  | warn => .upTo .warn
  | info => .upTo .info
  | debug => .upTo .debug

/-- The level with an upper-case name. -/
def ofUpperName? (s : String) : Option Level :=
  if s = "OFF" then some off
  else if s = "SERVICE" then some service
  else if s = "CRITICAL" then some critical
  else if s = "ERROR" then some error
  else if s = "WARN" ∨ s = "WARNING" then some warn
  else if s = "INFO" then some info
  else if s = "DEBUG" then some debug
  else none

/-- The level with a name in any case of its ASCII letters. -/
def ofName? (s : String) : Option Level :=
  ofUpperName? (String.ofList (s.toList.map Char.toUpper))

/-- The level with a name, or the error that shows the name. -/
def read (s : String) : Except ServiceError Level :=
  match ofName? s with
  | some level => .ok level
  | none => .error (.invalidConfig ("unknown log level " ++ Text.quoted s))

/-- The level used in place of an unknown one. -/
def fallback : Level := error

/-- The level with a name, the fallback if there is none. -/
def orFallback (s : String) : Level :=
  (ofName? s).getD fallback

/-- A value found where a level name is expected. -/
inductive Found where
  | null
  | flag (value : Bool)
  | integer (value : Int)
  | decimal (value : Binary64)
  | text (value : String)
  | sequence
  | map

/-- A description of a value that is no text. -/
def Found.describe : Found → String
  | .null => "null"
  | .flag value => "boolean \x60" ++ (if value then "true" else "false") ++ "\x60"
  | .integer value => "integer \x60" ++ String.ofList (Numeral.write value) ++ "\x60"
  | .decimal value => "floating point \x60" ++ String.ofList (Decimal.write value) ++ "\x60"
  | .text value => "string " ++ Text.quoted value
  | .sequence => "sequence"
  | .map => "map"

/-- The level that a value names, or the reason why it names none. -/
def ofFound : Found → Except String Level
  | .text s => (read s).mapError ServiceError.message
  | found => .error ("invalid type: " ++ found.describe ++ ", expected a string")

end Level
end Logging
end ServiceKit
