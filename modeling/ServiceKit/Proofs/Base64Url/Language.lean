import ServiceKit.Key

/-!
# The language of base64url

Which texts are unpadded base64url, and how many bytes they hold.  Without its line breaks such a
text is made of characters of the alphabet, and taken in fours they never leave a single one.  Every
four characters hold three bytes, so keys of one size all have the same number of characters.
-/

namespace ServiceKit
namespace Base64Url

/-- A character of the alphabet: an ASCII letter or digit, a hyphen or an underscore. -/
def IsSymbol (c : Char) : Prop :=
  ('A' ≤ c ∧ c ≤ 'Z') ∨ ('a' ≤ c ∧ c ≤ 'z') ∨ ('0' ≤ c ∧ c ≤ '9') ∨ c = '-' ∨ c = '_'

/-- A text of the language, its line breaks taken out. -/
structure IsText (cs : List Char) : Prop where
  symbols : ∀ c ∈ cs, IsSymbol c
  /-- A single character behind the last group of four holds less than a byte. -/
  length_mod : cs.length % 4 ≠ 1

variable {c : Char} {cs : List Char} {ns : List Nat} {bs : List UInt8}

/-! ## Characters -/

theorem isSymbol_iff_toNat : IsSymbol c ↔
    (65 ≤ c.toNat ∧ c.toNat ≤ 90) ∨ (97 ≤ c.toNat ∧ c.toNat ≤ 122) ∨
      (48 ≤ c.toNat ∧ c.toNat ≤ 57) ∨ c.toNat = 45 ∨ c.toNat = 95 := by
  have hhyphen : c = '-' ↔ c.toNat = 45 := Char.toNat_inj.symm
  have hunderscore : c = '_' ↔ c.toNat = 95 := Char.toNat_inj.symm
  rw [IsSymbol, hhyphen, hunderscore]
  exact Iff.rfl

theorem sextet?_isSome_iff : (sextet? c).isSome = true ↔ IsSymbol c := by
  rw [isSymbol_iff_toNat, sextet?]
  grind

theorem mem_unwrap : c ∈ unwrap cs ↔ c ∈ cs ∧ c ≠ '\r' ∧ c ≠ '\n' := by
  simp [unwrap]

/-! ## Characters to groups of six bits -/

theorem mapM_sextet?_isSome_iff :
    (cs.mapM sextet?).isSome = true ↔ ∀ c ∈ cs, IsSymbol c := by
  induction cs with
  | nil => simp
  | cons c cs ih =>
      rw [List.mapM_cons, List.forall_mem_cons, ← ih, ← sextet?_isSome_iff]
      cases sextet? c with
      | none => simp
      | some n => cases cs.mapM sextet? <;> simp

theorem length_of_mapM_sextet? (h : cs.mapM sextet? = some ns) : ns.length = cs.length := by
  induction cs generalizing ns with
  | nil =>
      rw [List.mapM_nil] at h
      rw [← Option.some.inj h]
      rfl
  | cons c cs ih =>
      rw [List.mapM_cons] at h
      obtain ⟨n, -, h⟩ := Option.bind_eq_some_iff.mp h
      obtain ⟨rest, hrest, h⟩ := Option.bind_eq_some_iff.mp h
      rw [← Option.some.inj h, List.length_cons, List.length_cons, ih hrest]

/-! ## Groups of six bits to bytes -/

theorem bytes?_isSome_iff : (bytes? ns).isSome = true ↔ ns.length % 4 ≠ 1 := by
  fun_induction bytes? ns with
  | case5 a b c d rest ih =>
      rw [Option.isSome_map, ih]
      simp only [List.length_cons]
      omega
  | _ => simp

theorem length_of_bytes? (h : bytes? ns = some bs) : bs.length = 3 * ns.length / 4 := by
  -- a group of four adds three bytes, and only the last group can be shorter
  fun_induction bytes? ns generalizing bs with
  | case5 a b c d rest ih =>
      obtain ⟨front, hfront, rfl⟩ := Option.map_eq_some_iff.mp h
      have hlength := ih hfront
      simp only [List.length_cons]
      omega
  | case2 => contradiction
  | case1 | case3 | case4 =>
      rw [← Option.some.inj h]
      simp

/-! ## Texts to bytes -/

theorem decode?_eq_bind (cs : List Char) :
    decode? cs = ((unwrap cs).mapM sextet?).bind bytes? := rfl

theorem decode?_isSome_iff : (decode? cs).isSome = true ↔ IsText (unwrap cs) := by
  rw [decode?_eq_bind]
  cases hns : (unwrap cs).mapM sextet? with
  | none =>
      have hsymbols : ¬ ∀ c ∈ unwrap cs, IsSymbol c := by
        rw [← mapM_sextet?_isSome_iff, hns]
        exact Bool.false_ne_true
      exact ⟨fun h => absurd h Bool.false_ne_true, fun h => absurd h.symbols hsymbols⟩
  | some ns =>
      have hsymbols : ∀ c ∈ unwrap cs, IsSymbol c := by
        rw [← mapM_sextet?_isSome_iff, hns]
        rfl
      rw [Option.bind_some, bytes?_isSome_iff, length_of_mapM_sextet? hns]
      exact ⟨fun h => ⟨hsymbols, h⟩, fun h => h.length_mod⟩

theorem length_of_decode? (h : decode? cs = some bs) :
    bs.length = 3 * (unwrap cs).length / 4 := by
  rw [decode?_eq_bind] at h
  obtain ⟨ns, hns, hbytes⟩ := Option.bind_eq_some_iff.mp h
  rw [length_of_bytes? hbytes, length_of_mapM_sextet? hns]

/-- The number of bytes that a text holds is given by its language and its number of characters. -/
theorem decodedLength?_eq_some_iff {s : String} {n : Nat} :
    decodedLength? s = some n ↔
      IsText (unwrap s.toList) ∧ n = 3 * (unwrap s.toList).length / 4 := by
  rw [decodedLength?, Option.map_eq_some_iff, ← decode?_isSome_iff, Option.isSome_iff_exists]
  constructor
  · rintro ⟨bs, hbs, rfl⟩
    exact ⟨⟨bs, hbs⟩, length_of_decode? hbs⟩
  · rintro ⟨⟨bs, hbs⟩, rfl⟩
    exact ⟨bs, hbs, length_of_decode? hbs⟩

theorem decodedLength?_eq_none_iff {s : String} :
    decodedLength? s = none ↔ ¬ IsText (unwrap s.toList) := by
  rw [decodedLength?, Option.map_eq_none_iff, ← decode?_isSome_iff, Bool.not_eq_true,
    Option.isSome_eq_false_iff, Option.isNone_iff_eq_none]

/-- The length of a text that holds a number of bytes is that of the shortest one that can. -/
theorem length_iff {length bytes : Nat} :
    length % 4 ≠ 1 ∧ bytes = 3 * length / 4 ↔ length = (4 * bytes + 2) / 3 := by
  have hsplit : length % 4 = 0 ∨ length % 4 = 1 ∨ length % 4 = 2 ∨ length % 4 = 3 := by omega
  omega

/-- A character outside the alphabet that is no line break is in no text of the language. -/
theorem decodedLength?_of_not_isSymbol {s : String} (hmem : c ∈ s.toList) (hc : ¬ IsSymbol c)
    (hreturn : c ≠ '\r') (hnewline : c ≠ '\n') : decodedLength? s = none := by
  rw [decodedLength?_eq_none_iff]
  intro htext
  exact hc (htext.symbols c (mem_unwrap.mpr ⟨hmem, hreturn, hnewline⟩))

/-! ## Keys -/

/-- A text is made of this many characters of the alphabet, its line breaks taken out. -/
def HasSymbols (s : String) (count : Nat) : Prop :=
  (∀ c ∈ unwrap s.toList, IsSymbol c) ∧ (unwrap s.toList).length = count

theorem decodedLength?_eq_some_iff_hasSymbols {s : String} {n : Nat} :
    decodedLength? s = some n ↔ HasSymbols s ((4 * n + 2) / 3) := by
  rw [decodedLength?_eq_some_iff, HasSymbols, ← length_iff]
  exact ⟨fun h => ⟨h.1.symbols, h.1.length_mod, h.2⟩, fun h => ⟨⟨h.1, h.2.1⟩, h.2.2⟩⟩

theorem ofName?_eq_some_iff {name : String} {type : KeyType} :
    KeyType.ofName? name = some type ↔ name = type.name := by
  cases type <;> grind [KeyType.ofName?, KeyType.name]

/-- A key of a kind is a text whose length is that of the shortest one for a key of its size. -/
theorem isValidKey_iff {key typeName : String} :
    isValidKey key typeName = true ↔
      ∃ type : KeyType, typeName = type.name ∧
        HasSymbols key ((4 * type.expectedLength + 2) / 3) := by
  simp only [← ofName?_eq_some_iff, ← decodedLength?_eq_some_iff_hasSymbols]
  unfold isValidKey
  cases KeyType.ofName? typeName with
  | none => simp
  | some type => simp

theorem isValidKey_iff_length {key typeName : String} :
    isValidKey key typeName = true ↔
      ((typeName = "Curve25519" ∨ typeName = "Ed25519") ∧ HasSymbols key 43) ∨
        (typeName = "P384" ∧ HasSymbols key 130) := by
  rw [isValidKey_iff]
  constructor
  · rintro ⟨type, hname, hkey⟩
    cases type with
    | curve25519 => exact Or.inl ⟨Or.inl hname, hkey⟩
    | ed25519 => exact Or.inl ⟨Or.inr hname, hkey⟩
    | p384 => exact Or.inr ⟨hname, hkey⟩
  · rintro (⟨hname | hname, hkey⟩ | ⟨hname, hkey⟩)
    · exact ⟨.curve25519, hname, hkey⟩
    · exact ⟨.ed25519, hname, hkey⟩
    · exact ⟨.p384, hname, hkey⟩

/-- Reading accepts exactly the language and gives the number of bytes, and the keys of a kind are
exactly the texts of one length. -/
theorem accepts_language :
    (∀ (s : String) (n : Nat), decodedLength? s = some n ↔
      (∀ c ∈ unwrap s.toList, IsSymbol c) ∧ (unwrap s.toList).length % 4 ≠ 1 ∧
        n = 3 * (unwrap s.toList).length / 4) ∧
    (∀ s : String, decodedLength? s = none ↔ ¬ IsText (unwrap s.toList)) ∧
    (∀ s : String, ∀ c ∈ s.toList, ¬ IsSymbol c → c ≠ '\r' → c ≠ '\n' →
      decodedLength? s = none) ∧
    ∀ key typeName : String, isValidKey key typeName = true ↔
      ((typeName = "Curve25519" ∨ typeName = "Ed25519") ∧ HasSymbols key 43) ∨
        (typeName = "P384" ∧ HasSymbols key 130) := by
  refine ⟨?_, ?_, ?_, ?_⟩
  · intro s n
    rw [decodedLength?_eq_some_iff, ← and_assoc]
    exact and_congr_left' ⟨fun h => ⟨h.symbols, h.length_mod⟩, fun h => ⟨h.1, h.2⟩⟩
  · intro s
    exact decodedLength?_eq_none_iff
  · intro s c hmem hc hreturn hnewline
    exact decodedLength?_of_not_isSymbol hmem hc hreturn hnewline
  · intro key typeName
    exact isValidKey_iff_length

/-- Line breaks are skipped anywhere, and the bits behind the last byte may be set. -/
example : decodedLength? "A\r\n_" = some 1 := by cbv

end Base64Url
end ServiceKit
