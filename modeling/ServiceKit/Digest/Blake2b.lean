/-!
# BLAKE2b with a digest of 32 bytes

The unkeyed hash: the message is cut into blocks of 128 bytes, the last one filled up with zeros,
and each block is mixed into eight words in twelve rounds.
-/

namespace ServiceKit
namespace Blake2b

/-- The initial words. -/
def initial : Vector UInt64 8 :=
  #v[0x6a09e667f3bcc908, 0xbb67ae8584caa73b, 0x3c6ef372fe94f82b, 0xa54ff53a5f1d36f1,
    0x510e527fade682d1, 0x9b05688c2b3e6c1f, 0x1f83d9abfb41bd6b, 0x5be0cd19137e2179]

/-- The order in which the words of a block enter a round; the rounds repeat after ten. -/
def schedule : List (Vector (Fin 16) 16) :=
  [#v[0, 1, 2, 3, 4, 5, 6, 7, 8, 9, 10, 11, 12, 13, 14, 15],
   #v[14, 10, 4, 8, 9, 15, 13, 6, 1, 12, 0, 2, 11, 7, 5, 3],
   #v[11, 8, 12, 0, 5, 2, 15, 13, 10, 14, 3, 6, 7, 1, 9, 4],
   #v[7, 9, 3, 1, 13, 12, 11, 14, 2, 6, 5, 10, 4, 0, 15, 8],
   #v[9, 0, 5, 7, 2, 4, 10, 15, 14, 1, 11, 12, 6, 8, 3, 13],
   #v[2, 12, 6, 10, 0, 11, 8, 3, 4, 13, 7, 5, 15, 14, 1, 9],
   #v[12, 5, 1, 15, 14, 13, 4, 10, 0, 7, 6, 3, 9, 2, 8, 11],
   #v[13, 11, 7, 14, 12, 1, 3, 9, 5, 0, 15, 4, 8, 6, 2, 10],
   #v[6, 15, 14, 9, 11, 3, 0, 8, 12, 2, 13, 7, 1, 4, 10, 5],
   #v[10, 2, 8, 4, 7, 6, 1, 5, 15, 11, 9, 14, 3, 12, 13, 0],
   #v[0, 1, 2, 3, 4, 5, 6, 7, 8, 9, 10, 11, 12, 13, 14, 15],
   #v[14, 10, 4, 8, 9, 15, 13, 6, 1, 12, 0, 2, 11, 7, 5, 3]]

/-- Rotation to the right. -/
def rotate (x : UInt64) (n : UInt64) : UInt64 :=
  (x >>> n) ||| (x <<< (64 - n))

/-- Mixes two message words into four working words. -/
def mix (v : Vector UInt64 16) (a b c d : Fin 16) (x y : UInt64) : Vector UInt64 16 :=
  let va := v[a] + v[b] + x
  let vd := rotate (v[d] ^^^ va) 32
  let vc := v[c] + vd
  let vb := rotate (v[b] ^^^ vc) 24
  let va := va + vb + y
  let vd := rotate (vd ^^^ va) 16
  let vc := vc + vd
  let vb := rotate (vb ^^^ vc) 63
  (((v.set a va).set b vb).set c vc).set d vd

/-- One round: the columns, then the diagonals. -/
def round (m : Vector UInt64 16) (v : Vector UInt64 16) (s : Vector (Fin 16) 16) :
    Vector UInt64 16 :=
  let v := mix v 0 4 8 12 m[s[0]] m[s[1]]
  let v := mix v 1 5 9 13 m[s[2]] m[s[3]]
  let v := mix v 2 6 10 14 m[s[4]] m[s[5]]
  let v := mix v 3 7 11 15 m[s[6]] m[s[7]]
  let v := mix v 0 5 10 15 m[s[8]] m[s[9]]
  let v := mix v 1 6 11 12 m[s[10]] m[s[11]]
  let v := mix v 2 7 8 13 m[s[12]] m[s[13]]
  mix v 3 4 9 14 m[s[14]] m[s[15]]

/-- The word whose bytes begin a list, lowest byte first; missing bytes count as zero. -/
def word (bytes : List UInt8) : UInt64 :=
  (bytes.take 8).foldr (fun b w => w <<< 8 ||| b.toUInt64) 0

/-- The sixteen words of a block. -/
def words (block : List UInt8) : Vector UInt64 16 :=
  Vector.ofFn fun i => word (block.drop (8 * i.val))

/-- Mixes a block into the hash words.  `count` is the number of message bytes up to and including
the block. -/
def compress (h : Vector UInt64 8) (block : List UInt8) (count : Nat) (last : Bool) :
    Vector UInt64 8 :=
  let v := h ++ initial
  let v := v.set 12 (v[12] ^^^ UInt64.ofNat count)
  let v := v.set 13 (v[13] ^^^ UInt64.ofNat (count / 18446744073709551616))
  let v := if last then v.set 14 (v[14] ^^^ 0xffffffffffffffff) else v
  let v := schedule.foldl (round (words block)) v
  Vector.ofFn fun i => h[i] ^^^ v[i.val] ^^^ v[i.val + 8]

/-- Mixes the rest of a message into the hash words; only the last block may be short. -/
def absorb (h : Vector UInt64 8) (count : Nat) (message : List UInt8) : Vector UInt64 8 :=
  match hd : message.drop 128 with
  | [] => compress h message (count + message.length) true
  | b :: rest =>
    absorb (compress h (message.take 128) (count + 128) false) (count + 128) (b :: rest)
termination_by message.length
decreasing_by
  rw [← hd, List.length_drop]
  have : (message.drop 128).length = rest.length + 1 := by rw [hd]; rfl
  rw [List.length_drop] at this
  omega

/-- The bytes of a word, lowest first. -/
def wordBytes (w : UInt64) : List UInt8 :=
  (List.range 8).map fun i => (w >>> UInt64.ofNat (8 * i)).toUInt8

/-- The digest of a message: the first four hash words.  The parameters that enter the first word
are the digest size, no key, and one leaf. -/
def digest (message : List UInt8) : List UInt8 :=
  let h := initial.set 0 (initial[0] ^^^ 0x01010020)
  ((absorb h 0 message).toList.take 4).flatMap wordBytes

end Blake2b
end ServiceKit
