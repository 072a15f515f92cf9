import ServiceKit.Duration
import ServiceKit.Text.Quoted

/-!
# Errors of the service library

One type for everything that can go wrong, with its wording, and which errors are worth another
attempt.
-/

namespace ServiceKit

/-- What went wrong. -/
inductive ServiceError where
  /-- A required environment variable is not set. -/
  | missingVariable (name : String)
  /-- An environment variable is set to a value that cannot be used. -/
  | invalidVariable (name value reason : String)
  /-- An environment variable that must not be zero is zero. -/
  | zeroVariable (name : String)
  /-- A registration came after the shutdown began. -/
  | shuttingDown
  /-- An operation took too long. -/
  | timedOut (after : Duration)
  /-- A dependency does not answer. -/
  | unavailable (detail : String)
  /-- A setting makes no sense. -/
  | invalidConfig (detail : String)
  /-- The operating system refused an operation. -/
  | io (detail : String)
  /-- Logging could not be set up. -/
  | logging (detail : String)
  /-- Anything else. -/
  | internal (detail : String)
  deriving DecidableEq, Repr

namespace ServiceError

/-- The wording of an error. -/
def message : ServiceError → String
  | missingVariable name => "Environment variable " ++ name ++ " is not set"
  | invalidVariable name value reason =>
    "Environment variable " ++ name ++ " has invalid value " ++ Text.quoted value ++ ": " ++ reason
  | zeroVariable name => "Environment variable " ++ name ++ " must not be zero"
  | shuttingDown => "Lifecycle manager is shutting down"
  | timedOut after => "Operation timed out after " ++ after.text
  | unavailable detail => "Service unavailable: " ++ detail
  | invalidConfig detail => "Invalid configuration: " ++ detail
  | io detail => "I/O error: " ++ detail
  | logging detail => "Logging initialization failed: " ++ detail
  | internal detail => "Internal error: " ++ detail

/-- Another attempt may succeed: a dependency was away or slow. -/
def isRetryable : ServiceError → Bool
  | unavailable _ => true
  | timedOut _ => true
  | _ => false

end ServiceError
end ServiceKit
