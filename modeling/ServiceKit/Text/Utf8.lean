/-!
# Text in UTF-8

Bytes are read from left to right into scalars and broken parts.  A broken part is as long as the
bytes could still have begun a well-formed sequence, and at least one byte.  The strict reader
accepts bytes without a broken part; the lossy reader puts one replacement character for each.
-/

namespace ServiceKit
namespace Text
namespace Utf8

/-- What the reader finds next in the bytes. -/
inductive Part where
  /-- A well-formed sequence. -/
  | scalar (c : Char)
  /-- The longest run of bytes that could have begun a sequence but did not become one. -/
  | broken
  deriving DecidableEq, Repr

/-- A byte that continues a sequence. -/
def isContinuation (b : UInt8) : Bool :=
  0x80 ≤ b.toNat && b.toNat ≤ 0xbf

/-- The six bits of a continuation byte. -/
def payload (b : UInt8) : Nat :=
  b.toNat - 0x80

/-- The second bytes allowed after a first byte, as the least and the greatest; `none` after a
byte that begins no longer sequence. -/
def secondRange (b : UInt8) : Option (Nat × Nat) :=
  let n := b.toNat
  if 0xc2 ≤ n && n ≤ 0xdf then some (0x80, 0xbf)
  else if n = 0xe0 then some (0xa0, 0xbf)
  else if n = 0xed then some (0x80, 0x9f)
  else if 0xe1 ≤ n && n ≤ 0xef then some (0x80, 0xbf)
  else if n = 0xf0 then some (0x90, 0xbf)
  else if n = 0xf4 then some (0x80, 0x8f)
  else if 0xf1 ≤ n && n ≤ 0xf3 then some (0x80, 0xbf)
  else none

/-- The part that begins with the byte `b`, and the number of bytes of `rest` that belong to it. -/
def readPart (b : UInt8) (rest : List UInt8) : Part × Nat :=
  if b.toNat < 0x80 then (.scalar (Char.ofNat b.toNat), 0)
  else
    match secondRange b, rest with
    | none, _ => (.broken, 0)
    | some _, [] => (.broken, 0)
    | some (low, high), b₂ :: rest₂ =>
      if ¬ (low ≤ b₂.toNat ∧ b₂.toNat ≤ high) then (.broken, 0)
      else if b.toNat < 0xe0 then
        (.scalar (Char.ofNat ((b.toNat - 0xc0) * 64 + payload b₂)), 1)
      else
        match rest₂ with
        | [] => (.broken, 1)
        | b₃ :: rest₃ =>
          if ¬ isContinuation b₃ then (.broken, 1)
          else if b.toNat < 0xf0 then
            (.scalar (Char.ofNat ((b.toNat - 0xe0) * 4096 + payload b₂ * 64 + payload b₃)), 2)
          else
            match rest₃ with
            | [] => (.broken, 2)
            | b₄ :: _ =>
              if ¬ isContinuation b₄ then (.broken, 2)
              else
                (.scalar (Char.ofNat ((b.toNat - 0xf0) * 262144 + payload b₂ * 4096 +
                  payload b₃ * 64 + payload b₄)), 3)

/-- The parts of the bytes, from left to right. -/
def parts : List UInt8 → List Part
  | [] => []
  | b :: rest =>
    let (part, used) := readPart b rest
    part :: parts (rest.drop used)
termination_by bytes => bytes.length
decreasing_by simp only [List.length_drop, List.length_cons]; omega

/-- The character that stands for a broken part. -/
def replacement : Char := Char.ofNat 0xfffd

/-- The character of a part, the replacement for a broken one. -/
def Part.shown : Part → Char
  | .scalar c => c
  | .broken => replacement

/-- The character of a part, if it has one. -/
def Part.char? : Part → Option Char
  | .scalar c => some c
  | .broken => none

/-- Reads any bytes, with a replacement character for each broken part. -/
def decodeLossy (bytes : List UInt8) : List Char :=
  (parts bytes).map Part.shown

/-- Reads bytes that have no broken part. -/
def decode? (bytes : List UInt8) : Option (List Char) :=
  (parts bytes).mapM Part.char?

/-- The bytes of a character. -/
def encodeChar (c : Char) : List UInt8 :=
  let n := c.toNat
  if n < 0x80 then [UInt8.ofNat n]
  else if n < 0x800 then [UInt8.ofNat (0xc0 + n / 64), UInt8.ofNat (0x80 + n % 64)]
  else if n < 0x10000 then
    [UInt8.ofNat (0xe0 + n / 4096), UInt8.ofNat (0x80 + n / 64 % 64),
      UInt8.ofNat (0x80 + n % 64)]
  else
    [UInt8.ofNat (0xf0 + n / 262144), UInt8.ofNat (0x80 + n / 4096 % 64),
      UInt8.ofNat (0x80 + n / 64 % 64), UInt8.ofNat (0x80 + n % 64)]

/-- The bytes of a text. -/
def encode (cs : List Char) : List UInt8 :=
  cs.flatMap encodeChar

end Utf8
end Text
end ServiceKit
