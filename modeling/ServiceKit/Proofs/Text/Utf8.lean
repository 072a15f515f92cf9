import ServiceKit.Text.Utf8

/-!
# Reading UTF-8 back

The strict reader accepts exactly the bytes that some text is written with, and reads this text.
Where it accepts, the lossy reader reads the same.
-/

namespace ServiceKit
namespace Text
namespace Utf8

/-- A byte that is not the first of its sequence. -/
def Continues (b : UInt8) : Prop :=
  0x80 ≤ b.toNat ∧ b.toNat ≤ 0xbf

/-- Bytes are the well-formed sequence of a code point: the shortest one, and none for the surrogates
or beyond the last code point. -/
inductive Sequence : List UInt8 → Nat → Prop where
  | single {b : UInt8} (hb : b.toNat < 0x80) : Sequence [b] b.toNat
  | pair {b b₂ : UInt8} (hb : 0xc2 ≤ b.toNat ∧ b.toNat ≤ 0xdf) (hb₂ : Continues b₂) :
      Sequence [b, b₂] ((b.toNat - 0xc0) * 64 + payload b₂)
  | triple {b b₂ b₃ : UInt8} (hb : 0xe0 ≤ b.toNat ∧ b.toNat ≤ 0xef) (hb₂ : Continues b₂)
      (hleast : b.toNat = 0xe0 → 0xa0 ≤ b₂.toNat) (hsurrogate : b.toNat = 0xed → b₂.toNat ≤ 0x9f)
      (hb₃ : Continues b₃) :
      Sequence [b, b₂, b₃] ((b.toNat - 0xe0) * 4096 + payload b₂ * 64 + payload b₃)
  | quadruple {b b₂ b₃ b₄ : UInt8} (hb : 0xf0 ≤ b.toNat ∧ b.toNat ≤ 0xf4) (hb₂ : Continues b₂)
      (hleast : b.toNat = 0xf0 → 0x90 ≤ b₂.toNat) (hgreatest : b.toNat = 0xf4 → b₂.toNat ≤ 0x8f)
      (hb₃ : Continues b₃) (hb₄ : Continues b₄) :
      Sequence [b, b₂, b₃, b₄] ((b.toNat - 0xf0) * 262144 + payload b₂ * 4096 +
        payload b₃ * 64 + payload b₄)

variable {b b₂ : UInt8} {low high n used : Nat} {c : Char} {cs : List Char}
  {bytes tail : List UInt8}

/-! ## Writing a character -/

theorem toNat_ofNat (h : n < 0xd800 ∨ 0xdfff < n ∧ n < 0x110000) : (Char.ofNat n).toNat = n := by
  rw [Char.ofNat, dif_pos h]
  rfl

theorem ofNat_eq_of_toNat (h : b.toNat = n) : UInt8.ofNat n = b := by
  rw [← h, UInt8.ofNat_toNat]

theorem toNat_byte (h : n < 256) : (UInt8.ofNat n).toNat = n :=
  UInt8.toNat_ofNat_of_lt' h

theorem Sequence.encodeChar_eq (h : Sequence bytes n) : encodeChar (Char.ofNat n) = bytes := by
  cases h with
  | @single b hb =>
      have htoNat : (Char.ofNat b.toNat).toNat = b.toNat := toNat_ofNat (by omega)
      rw [encodeChar, htoNat, if_pos hb, UInt8.ofNat_toNat]
  | @pair b b₂ hb hb₂ =>
      unfold Continues at hb₂
      unfold payload
      generalize hn : (b.toNat - 0xc0) * 64 + (b₂.toNat - 0x80) = n
      have htoNat : (Char.ofNat n).toNat = n := toNat_ofNat (by omega)
      have hfirst : UInt8.ofNat (0xc0 + n / 64) = b := ofNat_eq_of_toNat (by omega)
      have hsecond : UInt8.ofNat (0x80 + n % 64) = b₂ := ofNat_eq_of_toNat (by omega)
      rw [encodeChar, htoNat, if_neg (by omega), if_pos (by omega), hfirst, hsecond]
  | @triple b b₂ b₃ hb hb₂ hleast hsurrogate hb₃ =>
      unfold Continues at hb₂ hb₃
      unfold payload
      generalize hn : (b.toNat - 0xe0) * 4096 + (b₂.toNat - 0x80) * 64 + (b₃.toNat - 0x80) = n
      have htoNat : (Char.ofNat n).toNat = n := toNat_ofNat (by omega)
      have hfirst : UInt8.ofNat (0xe0 + n / 4096) = b := ofNat_eq_of_toNat (by omega)
      have hsecond : UInt8.ofNat (0x80 + n / 64 % 64) = b₂ := ofNat_eq_of_toNat (by omega)
      have hthird : UInt8.ofNat (0x80 + n % 64) = b₃ := ofNat_eq_of_toNat (by omega)
      rw [encodeChar, htoNat, if_neg (by omega), if_neg (by omega), if_pos (by omega), hfirst,
        hsecond, hthird]
  | @quadruple b b₂ b₃ b₄ hb hb₂ hleast hgreatest hb₃ hb₄ =>
      unfold Continues at hb₂ hb₃ hb₄
      unfold payload
      generalize hn : (b.toNat - 0xf0) * 262144 + (b₂.toNat - 0x80) * 4096 +
        (b₃.toNat - 0x80) * 64 + (b₄.toNat - 0x80) = n
      have htoNat : (Char.ofNat n).toNat = n := toNat_ofNat (by omega)
      have hfirst : UInt8.ofNat (0xf0 + n / 262144) = b := ofNat_eq_of_toNat (by omega)
      have hsecond : UInt8.ofNat (0x80 + n / 4096 % 64) = b₂ := ofNat_eq_of_toNat (by omega)
      have hthird : UInt8.ofNat (0x80 + n / 64 % 64) = b₃ := ofNat_eq_of_toNat (by omega)
      have hfourth : UInt8.ofNat (0x80 + n % 64) = b₄ := ofNat_eq_of_toNat (by omega)
      rw [encodeChar, htoNat, if_neg (by omega), if_neg (by omega), if_neg (by omega), hfirst,
        hsecond, hthird, hfourth]

/-- A character is written as the sequence of its code point. -/
theorem sequence_encodeChar (c : Char) : Sequence (encodeChar c) c.toNat := by
  have hvalid : c.toNat < 0xd800 ∨ 0xdfff < c.toNat ∧ c.toNat < 0x110000 := c.valid
  unfold encodeChar
  generalize c.toNat = n at hvalid
  dsimp only
  have hlast : (UInt8.ofNat (0x80 + n % 64)).toNat = 0x80 + n % 64 := toNat_byte (by omega)
  have hmiddle : (UInt8.ofNat (0x80 + n / 64 % 64)).toNat = 0x80 + n / 64 % 64 :=
    toNat_byte (by omega)
  generalize UInt8.ofNat (0x80 + n % 64) = last at hlast
  generalize UInt8.ofNat (0x80 + n / 64 % 64) = middle at hmiddle
  split
  next hlt =>
    have hfirst : (UInt8.ofNat n).toNat = n := toNat_byte (by omega)
    generalize UInt8.ofNat n = b at hfirst
    rw [← hfirst]
    exact .single (by omega)
  next hge =>
  split
  next hlt =>
    have hfirst : (UInt8.ofNat (0xc0 + n / 64)).toNat = 0xc0 + n / 64 := toNat_byte (by omega)
    generalize UInt8.ofNat (0xc0 + n / 64) = b at hfirst
    have hvalue : (b.toNat - 0xc0) * 64 + payload last = n := by unfold payload; omega
    rw [← hvalue]
    exact .pair (by omega) (by unfold Continues; omega)
  next hge' =>
  split
  next hlt =>
    have hfirst : (UInt8.ofNat (0xe0 + n / 4096)).toNat = 0xe0 + n / 4096 := toNat_byte (by omega)
    generalize UInt8.ofNat (0xe0 + n / 4096) = b at hfirst
    have hvalue : (b.toNat - 0xe0) * 4096 + payload middle * 64 + payload last = n := by
      unfold payload
      omega
    rw [← hvalue]
    exact .triple (by omega) (by unfold Continues; omega) (by omega) (by omega)
      (by unfold Continues; omega)
  next hge'' =>
    have hfirst : (UInt8.ofNat (0xf0 + n / 262144)).toNat = 0xf0 + n / 262144 :=
      toNat_byte (by omega)
    have hsecond : (UInt8.ofNat (0x80 + n / 4096 % 64)).toNat = 0x80 + n / 4096 % 64 :=
      toNat_byte (by omega)
    generalize UInt8.ofNat (0xf0 + n / 262144) = b at hfirst
    generalize UInt8.ofNat (0x80 + n / 4096 % 64) = b₂ at hsecond
    have hvalue : (b.toNat - 0xf0) * 262144 + payload b₂ * 4096 + payload middle * 64 +
        payload last = n := by
      unfold payload
      omega
    rw [← hvalue]
    exact .quadruple (by omega) (by unfold Continues; omega) (by omega) (by omega)
      (by unfold Continues; omega) (by unfold Continues; omega)

/-! ## Reading a character -/

theorem isContinuation_iff : isContinuation b = true ↔ Continues b := by
  simp [isContinuation, Continues]

theorem secondRange_of_pair (h : 0xc2 ≤ b.toNat ∧ b.toNat ≤ 0xdf) :
    secondRange b = some (0x80, 0xbf) := by
  simp [secondRange, h]

theorem secondRange_of_triple (h : 0xe0 ≤ b.toNat ∧ b.toNat ≤ 0xef) :
    secondRange b = some (if b.toNat = 0xe0 then 0xa0 else 0x80,
      if b.toNat = 0xed then 0x9f else 0xbf) := by
  simp only [secondRange]
  grind

theorem secondRange_of_quadruple (h : 0xf0 ≤ b.toNat ∧ b.toNat ≤ 0xf4) :
    secondRange b = some (if b.toNat = 0xf0 then 0x90 else 0x80,
      if b.toNat = 0xf4 then 0x8f else 0xbf) := by
  simp only [secondRange]
  grind

theorem secondRange_cases (h : secondRange b = some (low, high)) :
    0x80 ≤ low ∧ high ≤ 0xbf ∧
      (0xc2 ≤ b.toNat ∧ b.toNat ≤ 0xdf ∨
        0xe0 ≤ b.toNat ∧ b.toNat ≤ 0xef ∧
          (b.toNat = 0xe0 → 0xa0 ≤ low) ∧ (b.toNat = 0xed → high ≤ 0x9f) ∨
        0xf0 ≤ b.toNat ∧ b.toNat ≤ 0xf4 ∧
          (b.toNat = 0xf0 → 0x90 ≤ low) ∧ (b.toNat = 0xf4 → high ≤ 0x8f)) := by
  simp only [secondRange] at h
  grind

theorem Sequence.readPart_eq (h : Sequence (b :: tail) n) (rest : List UInt8) :
    readPart b (tail ++ rest) = (.scalar (Char.ofNat n), tail.length) := by
  unfold readPart
  cases h with
  | single hb => rw [if_pos hb]; rfl
  | @pair _ b₂ hb hb₂ =>
      unfold Continues at hb₂
      rw [if_neg (by omega), secondRange_of_pair hb]
      simp only [List.cons_append, List.nil_append]
      rw [if_neg (by omega), if_pos (by omega)]
      rfl
  | @triple _ b₂ b₃ hb hb₂ hleast hsurrogate hb₃ =>
      rw [← isContinuation_iff] at hb₃
      unfold Continues at hb₂
      rw [if_neg (by omega), secondRange_of_triple hb]
      simp only [List.cons_append, List.nil_append]
      rw [if_neg (by grind), if_neg (by omega), if_neg (by simp [hb₃]), if_pos (by omega)]
      rfl
  | @quadruple _ b₂ b₃ b₄ hb hb₂ hleast hgreatest hb₃ hb₄ =>
      rw [← isContinuation_iff] at hb₃ hb₄
      unfold Continues at hb₂
      rw [if_neg (by omega), secondRange_of_quadruple hb]
      simp only [List.cons_append, List.nil_append]
      rw [if_neg (by grind), if_neg (by omega), if_neg (by simp [hb₃]), if_neg (by omega),
        if_neg (by simp [hb₄])]
      rfl

theorem sequence_of_readPart {rest : List UInt8} (h : readPart b rest = (.scalar c, used)) :
    ∃ n, c = Char.ofNat n ∧ Sequence (b :: rest.take used) n := by
  unfold readPart at h
  split at h
  next hb =>
    obtain ⟨rfl, rfl⟩ : Char.ofNat b.toNat = c ∧ 0 = used := by simpa using h
    exact ⟨b.toNat, rfl, .single hb⟩
  next hb =>
  split at h
  next => simp at h
  next => simp at h
  next low high b₂ rest hrange =>
  split at h
  next => simp at h
  next hb₂ =>
  rw [Decidable.not_not] at hb₂
  have hcases := secondRange_cases hrange
  have hcontinues : Continues b₂ := by unfold Continues; omega
  split at h
  next hpair =>
    obtain ⟨rfl, rfl⟩ : Char.ofNat _ = c ∧ 1 = used := by simpa using h
    exact ⟨_, rfl, .pair (by omega) hcontinues⟩
  next hpair =>
  split at h
  next => simp at h
  next b₃ rest =>
  split at h
  next => simp at h
  next hb₃ =>
  rw [Decidable.not_not, isContinuation_iff] at hb₃
  split at h
  next htriple =>
    obtain ⟨rfl, rfl⟩ : Char.ofNat _ = c ∧ 2 = used := by simpa using h
    exact ⟨_, rfl, .triple (by omega) hcontinues (by omega) (by omega) hb₃⟩
  next htriple =>
  split at h
  next => simp at h
  next b₄ rest =>
  split at h
  next => simp at h
  next hb₄ =>
  rw [Decidable.not_not, isContinuation_iff] at hb₄
  obtain ⟨rfl, rfl⟩ : Char.ofNat _ = c ∧ 3 = used := by simpa using h
  exact ⟨_, rfl, .quadruple (by omega) hcontinues (by omega) (by omega) hb₃ hb₄⟩

/-! ## Reading a text -/

theorem parts_nil : parts [] = [] := by
  rw [parts]

theorem parts_encodeChar_append (c : Char) (bytes : List UInt8) :
    parts (encodeChar c ++ bytes) = .scalar c :: parts bytes := by
  have hseq := sequence_encodeChar c
  cases hbytes : encodeChar c with
  | nil =>
      rw [hbytes] at hseq
      nomatch hseq
  | cons b tail =>
      rw [hbytes] at hseq
      rw [List.cons_append, parts, hseq.readPart_eq, Char.ofNat_toNat]
      simp

theorem parts_encode (cs : List Char) : parts (encode cs) = cs.map .scalar := by
  induction cs with
  | nil => exact parts_nil
  | cons c cs ih =>
      rw [encode, List.flatMap_cons, parts_encodeChar_append, ← encode, ih, List.map_cons]

theorem encode_of_parts (h : parts bytes = cs.map .scalar) : encode cs = bytes := by
  fun_induction parts bytes generalizing cs with
  | case1 =>
      have hnil : cs = [] := List.map_eq_nil_iff.mp h.symm
      rw [hnil]
      rfl
  | case2 b rest part used hpart ih =>
      cases cs with
      | nil => contradiction
      | cons c cs =>
          obtain ⟨rfl, hrest⟩ := List.cons.inj h
          obtain ⟨n, rfl, hseq⟩ := sequence_of_readPart hpart
          rw [encode, List.flatMap_cons, hseq.encodeChar_eq, ← encode, ih hrest, List.cons_append,
            List.take_append_drop]

theorem mapM_char?_eq_some_iff {ps : List Part} :
    ps.mapM Part.char? = some cs ↔ ps = cs.map .scalar := by
  induction ps generalizing cs with
  | nil => cases cs <;> simp
  | cons p ps ih =>
      rw [List.mapM_cons]
      cases p with
      | broken => cases cs <;> simp [Part.char?]
      | scalar c =>
          cases cs with
          | nil => simp [Part.char?, Option.bind_eq_some_iff]
          | cons d ds => simpa [Part.char?, Option.bind_eq_some_iff, ← ih] using and_comm

/-- The strict reader accepts exactly the bytes that a text is written with. -/
theorem decode?_eq_some_iff : decode? bytes = some cs ↔ encode cs = bytes := by
  rw [decode?, mapM_char?_eq_some_iff]
  constructor
  · exact encode_of_parts
  · rintro rfl
    exact parts_encode cs

/-- The lossy reader replaces nothing in bytes that a text is written with. -/
theorem decodeLossy_encode (cs : List Char) : decodeLossy (encode cs) = cs := by
  rw [decodeLossy, parts_encode, List.map_map]
  exact List.map_id cs

/-- A text is written in its own way. -/
theorem encode_inj {ds : List Char} : encode cs = encode ds ↔ cs = ds := by
  constructor
  · intro h
    rw [← decodeLossy_encode cs, h, decodeLossy_encode]
  · exact congrArg encode

/-- Bytes are refused exactly where what the lossy reader shows for them is written differently. -/
theorem decode?_eq_none_iff : decode? bytes = none ↔ encode (decodeLossy bytes) ≠ bytes := by
  constructor
  · intro hnone hencode
    rw [decode?_eq_some_iff.mpr hencode] at hnone
    contradiction
  · intro hne
    rw [Option.eq_none_iff_forall_ne_some]
    intro cs hsome
    obtain rfl := decode?_eq_some_iff.mp hsome
    exact hne (by rw [decodeLossy_encode])

end Utf8
end Text
end ServiceKit
