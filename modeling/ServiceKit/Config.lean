import ServiceKit.Env.File
import ServiceKit.Env.Reader
import ServiceKit.Logging.Settings

/-!
# Service configuration

The settings that a service reads from six variables of its environment, with their defaults.  The
variables are read in a fixed order and the first error decides; only then the values are checked.
-/

namespace ServiceKit

/-- The configuration of a service. -/
structure ServiceConfig where
  serviceName : String
  /-- The level as it is written, known or not. -/
  logLevel : String
  logOutput : Logging.Output
  logJson : Bool
  shutdownTimeout : Duration
  readyMaxRetries : Nat
  deriving DecidableEq, Repr

namespace ServiceConfig

/-- Refuses a blank service name and a zero timeout. -/
def check (config : ServiceConfig) : Except ServiceError ServiceConfig :=
  if Text.trim config.serviceName.toList = [] then
    .error (.invalidConfig "service name must not be empty")
  else if config.shutdownTimeout.nanos = 0 then
    .error (.invalidConfig "shutdown timeout must be greater than 0")
  else .ok config

/-- Reads the configuration from an environment. -/
def load (env : Environment) : Except ServiceError ServiceConfig := do
  let logJson ← env.readOr Reading.flag "LOG_JSON" false
  let seconds ← env.readOr (Reading.integer (.unsigned 64)) "SHUTDOWN_TIMEOUT" 30
  let retries ← env.readOr (Reading.integer (.unsigned 32)) "READY_MAX_RETRIES" 5
  check {
    serviceName := env.textOr "SERVICE_NAME" "service"
    logLevel := env.textOr "LOG_LEVEL" "INFO"
    logOutput := .ofSetting (env.textOr "LOG_OUTPUT" "stdout")
    logJson := logJson
    shutdownTimeout := .ofSeconds seconds.toNat
    readyMaxRetries := retries.toNat }

/-- Reads the configuration of a process, whose variables an environment file fills in if there is
one; `none` is a panic at a value that cannot be set. -/
def loadProcess (vars : Variables) (file : Option EnvFile) :
    Option (Except ServiceError ServiceConfig) :=
  match file with
  | none => some (load vars.processEnvironment)
  | some file => (vars.ofProcess.withFile? file).map fun filled => load filled.processEnvironment

/-- The logging settings of a configuration. -/
def logging (config : ServiceConfig) : Logging.Settings :=
  let settings :=
    ((Logging.Settings.default.withServiceName config.serviceName).withLevelName
      config.logLevel).withOutput config.logOutput
  if config.logJson then settings.withJson else settings

end ServiceConfig
end ServiceKit
