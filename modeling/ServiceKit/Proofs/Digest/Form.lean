import ServiceKit.Digest.Identifier
import ServiceKit.Proofs.Base64Url.RoundTrip

/-!
# The form of identifiers

An identifier is 43 characters of the alphabet, whatever the content.  It reads back as the digest of
the content, so contents share an identifier exactly if they share a digest.
-/

namespace ServiceKit

/-! ## The length of a digest -/

namespace Blake2b

theorem length_wordBytes (w : UInt64) : (wordBytes w).length = 8 := by
  rw [wordBytes, List.length_map, List.length_range]

theorem length_flatMap_wordBytes (ws : List UInt64) :
    (ws.flatMap wordBytes).length = 8 * ws.length := by
  induction ws with
  | nil => rfl
  | cons w ws ih =>
      rw [List.flatMap_cons, List.length_append, length_wordBytes, ih, List.length_cons]
      omega

theorem length_digest (message : List UInt8) : (digest message).length = 32 := by
  rw [digest, length_flatMap_wordBytes, List.length_take, Vector.length_toList]
  rfl

end Blake2b

/-! ## The last character of a text -/

namespace Base64Url

variable {n : Nat} {bs : List UInt8}

theorem length_sextets (bs : List UInt8) : (sextets bs).length = (4 * bs.length + 2) / 3 := by
  fun_induction sextets bs with
  | case4 a b c rest ih =>
      simp only [List.length_cons, ih]
      omega
  | _ => simp

theorem length_encode (bs : List UInt8) : (encode bs).length = (4 * bs.length + 2) / 3 := by
  rw [encode, List.length_map, length_sextets]

/-- The bits behind the last byte are zero: four behind a single byte, two behind a pair. -/
theorem mod_of_getLast?_sextets (h : (sextets bs).getLast? = some n) :
    (bs.length % 3 = 1 → n % 16 = 0) ∧ (bs.length % 3 = 2 → n % 4 = 0) := by
  fun_induction sextets bs with
  | case1 => contradiction
  | case2 a =>
      have hlast : a.toNat % 4 * 16 = n := Option.some.inj h
      simp only [List.length_singleton]
      omega
  | case3 a b =>
      have hlast : b.toNat % 16 * 4 = n := Option.some.inj h
      simp only [List.length_cons, List.length_nil]
      omega
  | case4 a b c rest ih =>
      cases hrest : sextets rest with
      | nil =>
          have hnil : (4 * rest.length + 2) / 3 = 0 := by
            rw [← length_sextets, hrest, List.length_nil]
          simp only [List.length_cons]
          omega
      | cons m ms =>
          rw [hrest] at h ih
          have hspare := ih h
          simp only [List.length_cons]
          omega

end Base64Url

/-! ## Identifiers -/

namespace Identifier

open Base64Url

/-- A text is the identifier that shows a digest of 32 bytes. -/
structure Shows (digest : List UInt8) (id : String) : Prop where
  length : id.length = 43
  symbols : ∀ c ∈ id.toList, IsSymbol c
  decoded : decode? id.toList = some digest
  size : decodedLength? id = some 32
  /-- It has the size of the keys of 32 bytes. -/
  isKey : ∀ typeName, isValidKey id typeName = true ↔
    typeName = "Curve25519" ∨ typeName = "Ed25519"
  /-- The two bits behind the last byte are zero. -/
  spare : ∃ c n, id.toList.getLast? = some c ∧ sextet? c = some n ∧ n % 4 = 0

variable {bytes bytes' : List UInt8}

theorem toList_ofBytes (bytes : List UInt8) :
    (ofBytes bytes).toList = encode (Blake2b.digest bytes) :=
  String.toList_ofList

theorem decode?_ofBytes (bytes : List UInt8) :
    decode? (ofBytes bytes).toList = some (Blake2b.digest bytes) := by
  rw [toList_ofBytes, decode?_encode]

theorem length_ofBytes (bytes : List UInt8) : (ofBytes bytes).toList.length = 43 := by
  rw [toList_ofBytes, length_encode, Blake2b.length_digest]

theorem ofBytes_inj : ofBytes bytes = ofBytes bytes' ↔
    Blake2b.digest bytes = Blake2b.digest bytes' := by
  constructor
  · intro h
    apply Option.some.inj
    rw [← decode?_ofBytes, h, decode?_ofBytes]
  · intro h
    rw [ofBytes, h, ofBytes]

theorem shows_ofBytes (bytes : List UInt8) : Shows (Blake2b.digest bytes) (ofBytes bytes) where
  length := by rw [← String.length_toList, length_ofBytes]
  symbols := by
    intro c hc
    rw [toList_ofBytes] at hc
    exact isSymbol_of_mem_encode hc
  decoded := decode?_ofBytes bytes
  size := by rw [decodedLength?_of_decode? (decode?_ofBytes bytes), Blake2b.length_digest]
  isKey := by
    intro typeName
    rw [isValidKey_iff_of_decode? (decode?_ofBytes bytes), Blake2b.length_digest]
    constructor
    · rintro ⟨type, rfl, hlength⟩
      cases type with
      | curve25519 => exact Or.inl rfl
      | ed25519 => exact Or.inr rfl
      | p384 => contradiction
    · rintro (rfl | rfl)
      · exact ⟨.curve25519, rfl, rfl⟩
      · exact ⟨.ed25519, rfl, rfl⟩
  spare := by
    have hlength : (Blake2b.digest bytes).length % 3 = 2 := by rw [Blake2b.length_digest]
    rw [toList_ofBytes, encode, List.getLast?_map]
    cases hlast : (sextets (Blake2b.digest bytes)).getLast? with
    | none =>
        have hnil := congrArg List.length (List.getLast?_eq_none_iff.mp hlast)
        rw [length_sextets, Blake2b.length_digest] at hnil
        contradiction
    | some n =>
        have hlt : n < 64 := lt_of_mem_sextets (List.mem_of_getLast? hlast)
        exact ⟨symbol n, n, rfl, sextet?_symbol hlt, (mod_of_getLast?_sextets hlast).2 hlength⟩

/-- Identifiers show digests of 32 bytes and are equal exactly where the digests are. -/
theorem ofBytes_shows_digest :
    (∀ bytes, (Blake2b.digest bytes).length = 32 ∧ Shows (Blake2b.digest bytes) (ofBytes bytes)) ∧
      ∀ bytes bytes', ofBytes bytes = ofBytes bytes' ↔
        Blake2b.digest bytes = Blake2b.digest bytes' :=
  ⟨fun bytes => ⟨Blake2b.length_digest bytes, shows_ofBytes bytes⟩, fun _ _ => ofBytes_inj⟩

/-- The identifier of the empty text. -/
example : ofText "" = "DldRwCblQ7Loqy6wYJnaodHl30d3j3eH-qtFzfEv46g" := by decide +kernel

end Identifier
end ServiceKit
