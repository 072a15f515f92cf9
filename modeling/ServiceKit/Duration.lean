import ServiceKit.Number.Numeral

/-!
# Lengths of time

A duration counts nanoseconds.  Its text uses the largest unit in which the whole part is not zero.
-/

namespace ServiceKit

/-- A length of time in nanoseconds. -/
structure Duration where
  nanos : Nat
  deriving DecidableEq, Repr

namespace Duration

/-- A number of whole seconds. -/
def ofSeconds (n : Nat) : Duration := ⟨n * 1000000000⟩

/-- A number of whole milliseconds. -/
def ofMillis (n : Nat) : Duration := ⟨n * 1000000⟩

/-- The longest duration: a 64-bit number of seconds and just under one more. -/
def longest : Duration := ⟨18446744073709551616 * 1000000000 - 1⟩

/-- The whole seconds, the rest dropped. -/
def seconds (d : Duration) : Nat := d.nanos / 1000000000

/-- The whole milliseconds, the rest dropped. -/
def millis (d : Duration) : Nat := d.nanos / 1000000

theorem millis_mul_le (d : Duration) : d.millis * 1000000 ≤ d.nanos :=
  Nat.div_mul_le_self d.nanos 1000000

/-- The milliseconds, a part of one counted as one. -/
def millisUp (d : Duration) : Nat := (d.nanos + 999999) / 1000000

/-- The clock can represent the instant that lies this far ahead: its seconds are a signed 64-bit
number. -/
def fitsClock (d : Duration) : Bool :=
  d.seconds < 9223372036854775807

/-- The digits of `rest` behind the point, where `width` digits make a whole; zeros at the end are
dropped, and the point with them if none are left. -/
def fraction (rest width : Nat) : List Char :=
  let ds := Numeral.digits rest
  let padded := List.replicate (width - ds.length) '0' ++ ds
  let kept := (padded.reverse.dropWhile (· = '0')).reverse
  if kept = [] then [] else '.' :: kept

/-- A whole number with a fraction and a unit. -/
def inUnit (n perUnit width : Nat) (unit : String) : String :=
  String.ofList (Numeral.digits (n / perUnit) ++ fraction (n % perUnit) width) ++ unit

/-- The text of a duration. -/
def text (d : Duration) : String :=
  if 1000000000 ≤ d.nanos then inUnit d.nanos 1000000000 9 "s"
  else if 1000000 ≤ d.nanos then inUnit d.nanos 1000000 6 "ms"
  else if 1000 ≤ d.nanos then inUnit d.nanos 1000 3 "µs"
  else inUnit d.nanos 1 0 "ns"

end Duration
end ServiceKit
