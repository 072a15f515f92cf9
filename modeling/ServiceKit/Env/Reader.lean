import ServiceKit.Env.Reading
import ServiceKit.Environment
import ServiceKit.Text.Blank
import ServiceKit.Text.Pieces

/-!
# Typed variables

Required variables, variables with a default, and lists.  A variable that is set but cannot be read
is an error even where a default is given; only the lossy readers never fail.
-/

namespace ServiceKit

/-- The reading that takes its reasons from the wording of errors. -/
def Reading.ofResult (read : String → Except ServiceError α) : Reading α := fun s =>
  (read s).mapError ServiceError.message

namespace Environment

/-- Reads a value; the error shows the variable and its text. -/
def readValue (read : Reading α) (name value : String) : Except ServiceError α :=
  (read value).mapError fun reason => .invalidVariable name value reason

/-- The text of a variable that must be set. -/
def require (env : Environment) (name : String) : Except ServiceError String := do
  match ← env.text? name with
  | some value => .ok value
  | none => .error (.missingVariable name)

/-- The value of a variable that must be set. -/
def requireRead (env : Environment) (read : Reading α) (name : String) :
    Except ServiceError α := do
  readValue read name (← env.require name)

/-- The integers that variables hold. -/
def integers : IntRange := IntRange.signed 64

/-- An integer that must be set. -/
def requireInt (env : Environment) (name : String) : Except ServiceError Int :=
  env.requireRead (Reading.integer integers) name

/-- An integer that must be set and must not be zero. -/
def requireIntNonZero (env : Environment) (name : String) : Except ServiceError Int := do
  let value ← env.requireInt name
  if value = 0 then .error (.zeroVariable name) else .ok value

/-- A decimal number that must be set. -/
def requireDecimal (env : Environment) (name : String) : Except ServiceError Binary64 :=
  env.requireRead Reading.decimal name

/-- A decimal number that must be set and must not be zero. -/
def requireDecimalNonZero (env : Environment) (name : String) :
    Except ServiceError Binary64 := do
  let value ← env.requireDecimal name
  if value.isZero then .error (.zeroVariable name) else .ok value

/-- The text of a variable, read lossily, or a fallback if it is not set. -/
def textOr (env : Environment) (name fallback : String) : String :=
  match env.get? name with
  | some bytes => lossy bytes
  | none => fallback

/-- The value of a variable, or a default if it is not set. -/
def readOr (env : Environment) (read : Reading α) (name : String) (default : α) :
    Except ServiceError α := do
  match ← env.text? name with
  | some value => readValue read name value
  | none => .ok default

/-- The items of a text between commas, trimmed of blanks; those that become empty are dropped. -/
def items (s : String) : List String :=
  (((Text.pieces ',' s.toList).map Text.trim).filter fun item => item ≠ []).map String.ofList

/-- The items of a variable, read lossily; none if it is not set. -/
def list (env : Environment) (name : String) : List String :=
  match env.get? name with
  | some bytes => items (lossy bytes)
  | none => []

end Environment
end ServiceKit
