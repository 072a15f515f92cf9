import ServiceKit.Number.Decimal

/-!
# Readings of a text as a value

A reading turns the text of a variable into a value or gives the reason why it cannot.
-/

namespace ServiceKit

/-- Turns a text into a value, or gives the reason why it is none. -/
abbrev Reading (α : Type) := String → Except String α

namespace Reading

/-- Reads an integer of a range. -/
def integer (range : IntRange) : Reading Int := fun s =>
  (Numeral.read range s.toList).mapError NumeralError.message

/-- Reads a decimal number. -/
def decimal : Reading Binary64 := fun s =>
  (Decimal.read s.toList).mapError DecimalError.message

/-- Reads `true` or `false`. -/
def flag : Reading Bool := fun s =>
  if s = "true" then .ok true
  else if s = "false" then .ok false
  else .error "provided string was not \x60true\x60 or \x60false\x60"

/-- Reads a single character. -/
def character : Reading Char := fun s =>
  match s.toList with
  | [] => .error "cannot parse char from empty string"
  | [c] => .ok c
  | _ => .error "too many characters in string"

/-- Takes the text as it is. -/
def text : Reading String := .ok

end Reading
end ServiceKit
