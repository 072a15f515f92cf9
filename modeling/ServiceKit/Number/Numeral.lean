/-!
# Integer numerals

Reading decimal integers into a closed range.  The characters are met from left to right and the
first problem decides: a character that is no digit, or a digit that takes the value out of the
range.  A leading plus sign is always allowed, a minus sign where the range has negative numbers.
-/

namespace ServiceKit

/-- A closed range of integers. -/
structure IntRange where
  least : Int
  greatest : Int
  deriving DecidableEq, Repr

namespace IntRange

/-- The numbers of `bits` bits, without a sign. -/
def unsigned (bits : Nat) : IntRange :=
  ⟨0, Int.ofNat (Nat.pow 2 bits) - 1⟩

/-- The numbers of `bits` bits in two's complement. -/
def signed (bits : Nat) : IntRange :=
  ⟨-Int.ofNat (Nat.pow 2 (bits - 1)), Int.ofNat (Nat.pow 2 (bits - 1)) - 1⟩

/-- The range has negative numbers. -/
def hasNegative (range : IntRange) : Bool :=
  range.least < 0

end IntRange

/-- Why a text is no integer of a range. -/
inductive NumeralError where
  | empty
  | invalidDigit
  | tooLarge
  | tooSmall
  deriving DecidableEq, Repr

/-- The wording of the reason. -/
def NumeralError.message : NumeralError → String
  | .empty => "cannot parse integer from empty string"
  | .invalidDigit => "invalid digit found in string"
  | .tooLarge => "number too large to fit in target type"
  | .tooSmall => "number too small to fit in target type"

namespace Numeral

/-- The value of a decimal digit. -/
def digit? (c : Char) : Option Nat :=
  if '0' ≤ c ∧ c ≤ '9' then some (c.toNat - 48) else none

/-- Reads digits after the number `acc`, upwards to at most `greatest`. -/
def readUp (greatest : Int) : Int → List Char → Except NumeralError Int
  | acc, [] => .ok acc
  | acc, c :: cs =>
    match digit? c with
    | none => .error .invalidDigit
    | some d =>
      if greatest < acc * 10 + d then .error .tooLarge else readUp greatest (acc * 10 + d) cs

/-- Reads digits after the number `acc`, downwards to at least `least`. -/
def readDown (least : Int) : Int → List Char → Except NumeralError Int
  | acc, [] => .ok acc
  | acc, c :: cs =>
    match digit? c with
    | none => .error .invalidDigit
    | some d =>
      if acc * 10 - d < least then .error .tooSmall else readDown least (acc * 10 - d) cs

/-- Reads an integer of the range. -/
def read (range : IntRange) : List Char → Except NumeralError Int
  | [] => .error .empty
  | '+' :: [] => .error .invalidDigit
  | '-' :: [] => .error .invalidDigit
  | '+' :: c :: cs => readUp range.greatest 0 (c :: cs)
  | '-' :: c :: cs =>
    if range.hasNegative then readDown range.least 0 (c :: cs) else .error .invalidDigit
  | c :: cs => readUp range.greatest 0 (c :: cs)

/-- The number that a list of decimal digits denotes. -/
def denote (digits : List Char) : Nat :=
  digits.foldl (fun n c => n * 10 + (c.toNat - 48)) 0

/-- The decimal digits of a number, without leading zeros. -/
def digits (n : Nat) : List Char :=
  if n < 10 then [Char.ofNat (48 + n)] else digits (n / 10) ++ [Char.ofNat (48 + n % 10)]

/-- An integer in decimal, with a minus sign if it is negative. -/
def write (n : Int) : List Char :=
  if n < 0 then '-' :: digits n.natAbs else digits n.natAbs

end Numeral
end ServiceKit
