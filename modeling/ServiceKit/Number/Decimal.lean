import ServiceKit.Number.Binary64
import ServiceKit.Number.Numeral

/-!
# Decimal texts of binary64 numbers

Reading a decimal text, correctly rounded, and writing the shortest positional decimal that reads
back as the same number.
-/

namespace ServiceKit

/-- Why a text is no decimal number. -/
inductive DecimalError where
  | empty
  | invalid
  deriving DecidableEq, Repr

/-- The wording of the reason. -/
def DecimalError.message : DecimalError → String
  | .empty => "cannot parse float from empty string"
  | .invalid => "invalid float literal"

namespace Decimal

/-- The number nearest to `digits * 10 ^ exponent`.  Exponents far outside the range of the format
are decided by the count of digits, without computing the power. -/
def toBinary64 (negative : Bool) (digits : Nat) (exponent : Int) : Binary64 :=
  if digits = 0 then .finite negative 0
  else
    let places : Int := (Numeral.digits digits).length + exponent
    if 310 < places then .infinite negative
    else if places < -330 then .finite negative 0
    else if 0 ≤ exponent then
      Binary64.ofSteps negative (digits * Nat.pow 10 exponent.toNat * Binary64.unit) 1
    else Binary64.ofSteps negative (digits * Binary64.unit) (Nat.pow 10 exponent.natAbs)

/-- The digits that begin a text, and the rest. -/
def span (cs : List Char) : List Char × List Char :=
  (cs.takeWhile fun c => (Numeral.digit? c).isSome,
    cs.dropWhile fun c => (Numeral.digit? c).isSome)

/-- Reads the exponent at the end of a decimal: nothing, or `e` with a sign and digits. -/
def readExponent? : List Char → Option Int
  | [] => some 0
  | c :: cs =>
    if c = 'e' ∨ c = 'E' then
      let (negative, ds) :=
        match cs with
        | '-' :: ds => (true, ds)
        | '+' :: ds => (false, ds)
        | ds => (false, ds)
      let (ds, rest) := span ds
      if ds = [] ∨ rest ≠ [] then none
      else some (if negative then -(Numeral.denote ds : Int) else Numeral.denote ds)
    else none

/-- Reads digits with at most one point among or around them, and an exponent. -/
def readDigits? (negative : Bool) (cs : List Char) : Option Binary64 :=
  let (whole, rest) := span cs
  let (fraction, rest) :=
    match rest with
    | '.' :: rest => span rest
    | rest => ([], rest)
  if whole = [] ∧ fraction = [] then none
  else
    (readExponent? rest).map fun e =>
      toBinary64 negative (Numeral.denote (whole ++ fraction)) (e - fraction.length)

/-- Reads a number without its sign; names of special values are accepted in any case. -/
def readUnsigned? (negative : Bool) (cs : List Char) : Option Binary64 :=
  let name := cs.map Char.toLower
  if name = "inf".toList ∨ name = "infinity".toList then some (.infinite negative)
  else if name = "nan".toList then some .nan
  else readDigits? negative cs

/-- Reads a decimal text as the nearest binary64 number. -/
def read : List Char → Except DecimalError Binary64
  | [] => .error .empty
  | cs =>
    let value :=
      match cs with
      | '-' :: rest => readUnsigned? true rest
      | '+' :: rest => readUnsigned? false rest
      | cs => readUnsigned? false cs
    match value with
    | some x => .ok x
    | none => .error .invalid

/-- The neighbours of `steps` on the grid of numbers `k * 10 ^ exponent`: the greatest `k` not above
it, and the next. -/
def gridBelow (steps : Nat) (exponent : Int) : Nat :=
  if 0 ≤ exponent then steps / (Nat.pow 10 exponent.toNat * Binary64.unit)
  else steps * Nat.pow 10 exponent.natAbs / Binary64.unit

/-- The number `k * 10 ^ exponent` reads back as `steps`. -/
def readsBack (steps k : Nat) (exponent : Int) : Bool :=
  toBinary64 false k exponent == .finite false steps

/-- Twice the distance of `k * 10 ^ exponent` from `steps`, on a scale common to both neighbours. -/
def distance (steps k : Nat) (exponent : Int) : Nat :=
  let a := if 0 ≤ exponent then steps else steps * Nat.pow 10 exponent.natAbs
  let b := if 0 ≤ exponent then k * Nat.pow 10 exponent.toNat * Binary64.unit else k * Binary64.unit
  (a - b) + (b - a)

/-- The nearer of the two neighbours on a grid that read back; of two equally near ones the even
one. -/
def candidate? (steps : Nat) (exponent : Int) : Option Nat :=
  let low := gridBelow steps exponent
  let high := low + 1
  match readsBack steps low exponent, readsBack steps high exponent with
  | false, false => none
  | true, false => some low
  | false, true => some high
  | true, true =>
    let a := distance steps low exponent
    let b := distance steps high exponent
    if a < b then some low else if b < a then some high else some (low + low % 2)

/-- The exponent of the first digit of a positive number: the greatest `e` with `10 ^ e` not above
it. -/
def leadingExponent (steps : Nat) : Int :=
  if Binary64.unit ≤ steps then (Numeral.digits (steps / Binary64.unit)).length - 1
  else (Numeral.digits (steps * Nat.pow 10 330 / Binary64.unit)).length - 1 - 330

/-- The shortest digits that read back as the number, with their exponent; 17 always suffice. -/
def shortest (steps : Nat) : Nat × Int :=
  let first := leadingExponent steps
  let found := (List.range 17).findSome? fun (n : Nat) =>
    (candidate? steps (first - n)).map fun k => (k, first - (n : Int))
  found.getD (gridBelow steps (first - 16), first - 16)

/-- Digits times a power of ten in positional notation, with at least one digit on either side of
the point. -/
def positional (k : Nat) (exponent : Int) : List Char :=
  let ds := Numeral.digits k
  if 0 ≤ exponent then ds ++ List.replicate exponent.toNat '0' ++ ".0".toList
  else
    let places := exponent.natAbs
    let padded := List.replicate (places + 1 - ds.length) '0' ++ ds
    let whole := padded.take (padded.length - places)
    whole ++ '.' :: padded.drop (padded.length - places)

/-- The shortest digits without zeros at their end. -/
def strip (k : Nat) (exponent : Int) : Nat → Nat × Int
  | 0 => (k, exponent)
  | fuel + 1 => if k % 10 = 0 ∧ k ≠ 0 then strip (k / 10) (exponent + 1) fuel else (k, exponent)

/-- A number in positional notation with the fewest digits that read back. -/
def write : Binary64 → List Char
  | .nan => "NaN".toList
  | .infinite negative => (if negative then "-inf" else "inf").toList
  | .finite negative steps =>
    let body :=
      if steps = 0 then "0.0".toList
      else
        let (k, e) := shortest steps
        let (k, e) := strip k e 17
        positional k e
    if negative then '-' :: body else body

end Decimal
end ServiceKit
