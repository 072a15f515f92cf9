/-!
# Unpadded base64url

Bytes are written three at a time as four characters of six bits; one or two bytes left over are
written as two or three characters.  Reading skips line breaks, so wrapped text is read like the
unwrapped one.  Reading accepts any bits behind the last byte, writing leaves them zero.
-/

namespace ServiceKit
namespace Base64Url

/-- The character for six bits. -/
def symbol (n : Nat) : Char :=
  if n < 26 then Char.ofNat (65 + n)
  else if n < 52 then Char.ofNat (97 + (n - 26))
  else if n < 62 then Char.ofNat (48 + (n - 52))
  else if n = 62 then '-'
  else '_'

/-- The six bits of a character of the alphabet. -/
def sextet? (c : Char) : Option Nat :=
  let n := c.toNat
  if 65 ≤ n ∧ n ≤ 90 then some (n - 65)
  else if 97 ≤ n ∧ n ≤ 122 then some (n - 97 + 26)
  else if 48 ≤ n ∧ n ≤ 57 then some (n - 48 + 52)
  else if n = 45 then some 62
  else if n = 95 then some 63
  else none

/-- The six-bit groups of bytes; the bits behind the last byte are zero. -/
def sextets : List UInt8 → List Nat
  | [] => []
  | [a] => [a.toNat / 4, a.toNat % 4 * 16]
  | [a, b] => [a.toNat / 4, a.toNat % 4 * 16 + b.toNat / 16, b.toNat % 16 * 4]
  | a :: b :: c :: rest =>
    a.toNat / 4 :: (a.toNat % 4 * 16 + b.toNat / 16) :: (b.toNat % 16 * 4 + c.toNat / 64) ::
      c.toNat % 64 :: sextets rest

/-- The bytes of six-bit groups; a single group left over holds no byte. -/
def bytes? : List Nat → Option (List UInt8)
  | [] => some []
  | [_] => none
  | [a, b] => some [UInt8.ofNat (a * 4 + b / 16)]
  | [a, b, c] => some [UInt8.ofNat (a * 4 + b / 16), UInt8.ofNat (b % 16 * 16 + c / 4)]
  | a :: b :: c :: d :: rest =>
    (bytes? rest).map fun bs =>
      UInt8.ofNat (a * 4 + b / 16) :: UInt8.ofNat (b % 16 * 16 + c / 4) ::
        UInt8.ofNat (c % 4 * 64 + d) :: bs

/-- The text of bytes. -/
def encode (bytes : List UInt8) : List Char :=
  (sextets bytes).map symbol

/-- The text without its line breaks. -/
def unwrap (cs : List Char) : List Char :=
  cs.filter fun c => c ≠ '\r' ∧ c ≠ '\n'

/-- The bytes of a text of the alphabet, line breaks skipped. -/
def decode? (cs : List Char) : Option (List UInt8) := do
  bytes? (← (unwrap cs).mapM sextet?)

/-- The number of bytes that a text decodes to. -/
def decodedLength? (s : String) : Option Nat :=
  (decode? s.toList).map List.length

end Base64Url
end ServiceKit
