/-!
# Binary64 arithmetic

Floating-point numbers with 53 significant bits.  A finite number is held exactly, as a natural
number of smallest steps: one step is `2 ^ (-1074)`, and the greatest finite number lies below
`2 ^ 2098` steps.  Every operation is computed exactly and rounded once, to the nearest number of
the format and at a tie to the one with an even last bit.
-/

namespace ServiceKit

/-- A binary64 number. -/
inductive Binary64 where
  /-- No number. -/
  | nan
  /-- An infinity; `negative` gives its sign. -/
  | infinite (negative : Bool)
  /-- A finite number of steps of `2 ^ (-1074)`. -/
  | finite (negative : Bool) (steps : Nat)
  deriving DecidableEq, Repr

namespace Binary64

/-- The number of steps in one. -/
def unit : Nat := Nat.pow 2 1074

/-- The number of steps at which the finite numbers end. -/
def overflow : Nat := Nat.pow 2 2098

/-- The natural number nearest to `n / d`, an even one at a tie. -/
def nearest (n d : Nat) : Nat :=
  let q := n / d
  let r := n % d
  if 2 * r < d then q else if d < 2 * r then q + 1 else q + q % 2

/-- The distance between neighbouring numbers of 53 significant bits around `q` steps. -/
def spacing (q : Nat) : Nat :=
  Nat.pow 2 (q.log2 - 52)

/-- The number of 53 significant bits that is nearest to `n / d` steps. -/
def round (n d : Nat) : Nat :=
  let s := spacing (n / d)
  nearest n (d * s) * s

/-- The number nearest to `n / d` steps, an infinity beyond the finite numbers. -/
def ofSteps (negative : Bool) (n d : Nat) : Binary64 :=
  let steps := round n d
  if steps < overflow then .finite negative steps else .infinite negative

/-- The number nearest to a natural number. -/
def ofNat (n : Nat) : Binary64 :=
  ofSteps false (n * unit) 1

/-- The number one. -/
def one : Binary64 := .finite false unit

/-- The sign bit; that of `nan` is left out. -/
def isNegative : Binary64 → Bool
  | .nan => false
  | .infinite negative => negative
  | .finite negative _ => negative

/-- A zero of either sign. -/
def isZero : Binary64 → Bool
  | .finite _ steps => steps == 0
  | _ => false

/-- The product, rounded once. -/
def mul : Binary64 → Binary64 → Binary64
  | .nan, _ => .nan
  | _, .nan => .nan
  | .finite s a, .finite t b => ofSteps (s != t) (a * b) unit
  | .infinite s, .finite t b => if b = 0 then .nan else .infinite (s != t)
  | .finite s a, .infinite t => if a = 0 then .nan else .infinite (s != t)
  | .infinite s, .infinite t => .infinite (s != t)

/-- One divided by the number, rounded once. -/
def reciprocal : Binary64 → Binary64
  | .nan => .nan
  | .infinite s => .finite s 0
  | .finite s a => if a = 0 then .infinite s else ofSteps s (unit * unit) a

/-- The sum of two numbers that are not negative, rounded once. -/
def addNonneg : Binary64 → Binary64 → Binary64
  | .nan, _ => .nan
  | _, .nan => .nan
  | .infinite _, _ => .infinite false
  | _, .infinite _ => .infinite false
  | .finite _ a, .finite _ b => ofSteps false (a + b) 1

/-- The power with a natural exponent, by repeated squaring from the lowest bit. -/
def powNat (base : Binary64) (exponent : Nat) : Binary64 :=
  go base exponent one
where
  /-- Multiplies the squares that the bits of the exponent select onto `acc`. -/
  go (square : Binary64) (e : Nat) (acc : Binary64) : Binary64 :=
    let acc := if e % 2 = 1 then mul acc square else acc
    if h : e / 2 = 0 then acc else go (mul square square) (e / 2) acc
  termination_by e
  decreasing_by omega

/-- The power with an integer exponent: a negative one is the reciprocal of the positive one. -/
def pow (base : Binary64) (exponent : Int) : Binary64 :=
  if exponent < 0 then reciprocal (powNat base exponent.natAbs) else powNat base exponent.natAbs

/-- The order on numbers; `nan` is in no relation, and the two zeros are equal. -/
def le : Binary64 → Binary64 → Bool
  | .nan, _ => false
  | _, .nan => false
  | .infinite true, _ => true
  | _, .infinite false => true
  | .infinite false, _ => false
  | _, .infinite true => false
  | .finite false a, .finite false b => a ≤ b
  | .finite true a, .finite true b => b ≤ a
  | .finite true _, .finite false _ => true
  | .finite false a, .finite true b => a == 0 && b == 0

/-- The lesser of two numbers; `nan` yields to the other. -/
def min (x y : Binary64) : Binary64 :=
  match x, y with
  | .nan, y => y
  | x, .nan => x
  | x, y => if le x y then x else y

/-- The whole part, cut to the numbers from zero to `greatest`; `nan` gives zero. -/
def truncate (greatest : Nat) : Binary64 → Nat
  | .nan => 0
  | .infinite negative => if negative then 0 else greatest
  | .finite negative steps => if negative then 0 else Nat.min (steps / unit) greatest

/-- The number of fractions of an exponent. -/
def fractions : Nat := 4503599627370496

/-- The number of exponents; the greatest one is that of infinities and `nan`. -/
def exponents : Nat := 2048

/-- The weight of the sign bit. -/
def signBit : Nat := fractions * exponents

/-- The number with the given bits: sign, eleven bits of exponent, 52 bits of fraction. -/
def ofBits (bits : Nat) : Binary64 :=
  let negative := bits / signBit % 2 == 1
  let exponent := bits / fractions % exponents
  let fraction := bits % fractions
  if exponent = exponents - 1 then (if fraction = 0 then .infinite negative else .nan)
  else if exponent = 0 then .finite negative fraction
  else .finite negative ((fractions + fraction) * Nat.pow 2 (exponent - 1))

/-- The bits of a number, without those of the sign: a finite number has at most 53 significant
bits. -/
def magnitudeBits (steps : Nat) : Nat :=
  if steps < fractions then steps
  else
    let e := steps.log2 - 52
    (e + 1) * fractions + (steps / Nat.pow 2 e - fractions)

/-- The bits of a number; `none` for `nan`, which has many. -/
def toBits? : Binary64 → Option Nat
  | .nan => none
  | .infinite negative => some ((if negative then signBit else 0) + (exponents - 1) * fractions)
  | .finite negative steps => some ((if negative then signBit else 0) + magnitudeBits steps)

end Binary64
end ServiceKit
