import ServiceKit.Proofs.Base64Url.Language

/-!
# Reading what was written

The text of bytes reads back as these bytes, wherever line breaks are put in, and is a key of the
kinds whose size is their number.  With padding anywhere it is no text of the language.
-/

namespace ServiceKit
namespace Base64Url

/-- A text with characters of a kind put in at any places. -/
inductive Inserts (kind : Char → Prop) : List Char → List Char → Prop where
  | nil : Inserts kind [] []
  | keep {c : Char} {cs ws : List Char} (rest : Inserts kind cs ws) :
      Inserts kind (c :: cs) (c :: ws)
  | insert {c : Char} {cs ws : List Char} (hc : kind c) (rest : Inserts kind cs ws) :
      Inserts kind cs (c :: ws)

/-- A carriage return or a line feed. -/
def IsLineBreak (c : Char) : Prop :=
  c = '\r' ∨ c = '\n'

variable {kind : Char → Prop} {c : Char} {cs ws : List Char} {n : Nat} {bs : List UInt8}

/-! ## Characters put in -/

theorem Inserts.eq_or_exists (h : Inserts kind cs ws) : ws = cs ∨ ∃ c ∈ ws, kind c := by
  induction h with
  | nil => exact Or.inl rfl
  | keep rest ih =>
      rcases ih with heq | ⟨c, hmem, hc⟩
      · exact Or.inl (by rw [heq])
      · exact Or.inr ⟨c, List.mem_cons_of_mem _ hmem, hc⟩
  | insert hc rest ih => exact Or.inr ⟨_, List.mem_cons_self, hc⟩

theorem Inserts.refl (cs : List Char) : Inserts kind cs cs := by
  induction cs with
  | nil => exact .nil
  | cons c cs ih => exact .keep ih

theorem Inserts.append {cs' ws' : List Char} (h : Inserts kind cs ws)
    (h' : Inserts kind cs' ws') : Inserts kind (cs ++ cs') (ws ++ ws') := by
  induction h with
  | nil => exact h'
  | keep rest ih => exact .keep ih
  | insert hc rest ih => exact .insert hc ih

theorem unwrap_cons_of_isLineBreak (hc : IsLineBreak c) : unwrap (c :: cs) = unwrap cs := by
  rw [unwrap, List.filter_cons_of_neg]
  · rfl
  · rcases hc with rfl | rfl <;> simp

theorem Inserts.unwrap_eq (h : Inserts IsLineBreak cs ws) : unwrap ws = unwrap cs := by
  induction h with
  | nil => rfl
  | keep rest ih => rw [unwrap, unwrap, List.filter_cons, List.filter_cons, ← unwrap, ← unwrap, ih]
  | insert hc rest ih => rw [unwrap_cons_of_isLineBreak hc, ih]

/-! ## Groups of six bits to characters and back -/

theorem sextet?_symbol (h : n < 64) : sextet? (symbol n) = some n := by
  have hall : ∀ n ∈ List.range 64, sextet? (symbol n) = some n := by decide
  exact hall n (List.mem_range.mpr h)

theorem isSymbol_symbol (h : n < 64) : IsSymbol (symbol n) := by
  rw [← sextet?_isSome_iff, sextet?_symbol h]
  rfl

theorem lt_of_mem_sextets (h : n ∈ sextets bs) : n < 64 := by
  fun_induction sextets bs with
  | case1 => contradiction
  | case2 a =>
      have ha := a.toNat_lt
      simp only [List.mem_cons, List.not_mem_nil, or_false] at h
      omega
  | case3 a b =>
      have ha := a.toNat_lt
      have hb := b.toNat_lt
      simp only [List.mem_cons, List.not_mem_nil, or_false] at h
      omega
  | case4 a b c rest ih =>
      have ha := a.toNat_lt
      have hb := b.toNat_lt
      have hc := c.toNat_lt
      simp only [List.mem_cons] at h
      rcases h with rfl | rfl | rfl | rfl | h
      · omega
      · omega
      · omega
      · omega
      · exact ih h

theorem isSymbol_of_mem_encode (h : c ∈ encode bs) : IsSymbol c := by
  obtain ⟨n, hn, rfl⟩ := List.mem_map.mp h
  exact isSymbol_symbol (lt_of_mem_sextets hn)

theorem IsSymbol.not_isLineBreak (h : IsSymbol c) : ¬ IsLineBreak c := by
  rw [isSymbol_iff_toNat] at h
  rintro (rfl | rfl)
  · revert h; decide
  · revert h; decide

theorem unwrap_encode (bs : List UInt8) : unwrap (encode bs) = encode bs := by
  rw [unwrap, List.filter_eq_self]
  intro c hc
  have hbreak := (isSymbol_of_mem_encode hc).not_isLineBreak
  simpa [IsLineBreak] using hbreak

theorem mapM_sextet?_map_symbol {ns : List Nat} (h : ∀ n ∈ ns, n < 64) :
    (ns.map symbol).mapM sextet? = some ns := by
  induction ns with
  | nil => rfl
  | cons n ns ih =>
      rw [List.forall_mem_cons] at h
      rw [List.map_cons, List.mapM_cons, sextet?_symbol h.1, ih h.2]
      rfl

/-! ## Bytes to groups of six bits and back -/

theorem bytes?_sextets (bs : List UInt8) : bytes? (sextets bs) = some bs := by
  fun_induction sextets bs with
  | case1 => rfl
  | case2 a =>
      have ha : a.toNat / 4 * 4 + a.toNat % 4 * 16 / 16 = a.toNat := by omega
      rw [bytes?, ha, UInt8.ofNat_toNat]
  | case3 a b =>
      have hb := b.toNat_lt
      have ha : a.toNat / 4 * 4 + (a.toNat % 4 * 16 + b.toNat / 16) / 16 = a.toNat := by omega
      have hb : (a.toNat % 4 * 16 + b.toNat / 16) % 16 * 16 + b.toNat % 16 * 4 / 4 = b.toNat := by
        omega
      rw [bytes?, ha, hb, UInt8.ofNat_toNat, UInt8.ofNat_toNat]
  | case4 a b c rest ih =>
      have hb := b.toNat_lt
      have hc := c.toNat_lt
      have ha : a.toNat / 4 * 4 + (a.toNat % 4 * 16 + b.toNat / 16) / 16 = a.toNat := by omega
      have hb : (a.toNat % 4 * 16 + b.toNat / 16) % 16 * 16 +
          (b.toNat % 16 * 4 + c.toNat / 64) / 4 = b.toNat := by omega
      have hc : (b.toNat % 16 * 4 + c.toNat / 64) % 4 * 64 + c.toNat % 64 = c.toNat := by omega
      rw [bytes?, ih, Option.map_some, ha, hb, hc, UInt8.ofNat_toNat, UInt8.ofNat_toNat,
        UInt8.ofNat_toNat]

/-! ## Texts -/

/-- Line breaks anywhere in the text of bytes do not change what it decodes to. -/
theorem decode?_of_inserts (h : Inserts IsLineBreak (encode bs) ws) : decode? ws = some bs := by
  have hsextets : (encode bs).mapM sextet? = some (sextets bs) :=
    mapM_sextet?_map_symbol fun n hn => lt_of_mem_sextets hn
  rw [decode?_eq_bind, h.unwrap_eq, unwrap_encode, hsextets, Option.bind_some, bytes?_sextets]

theorem decode?_encode (bs : List UInt8) : decode? (encode bs) = some bs :=
  decode?_of_inserts (.refl (encode bs))

theorem decodedLength?_of_decode? {s : String} (h : decode? s.toList = some bs) :
    decodedLength? s = some bs.length := by
  rw [decodedLength?, h, Option.map_some]

/-- The kinds of a key are those whose size is the number of bytes that it decodes to. -/
theorem isValidKey_iff_of_decode? {key typeName : String} (h : decode? key.toList = some bs) :
    isValidKey key typeName = true ↔
      ∃ type : KeyType, typeName = type.name ∧ type.expectedLength = bs.length := by
  unfold isValidKey
  simp only [← ofName?_eq_some_iff, decodedLength?_of_decode? h]
  cases KeyType.ofName? typeName with
  | none => simp
  | some type => simpa using eq_comm

/-- Padding anywhere takes a text out of the language. -/
theorem decodedLength?_of_padding {s padded : String}
    (h : Inserts (· = '=') s.toList padded.toList) (hne : padded ≠ s) :
    decodedLength? padded = none := by
  rcases h.eq_or_exists with heq | ⟨c, hmem, rfl⟩
  · exact absurd (String.toList_inj.mp heq) hne
  · have hsymbol : ¬ IsSymbol '=' := by
      rw [isSymbol_iff_toNat]
      decide
    exact decodedLength?_of_not_isSymbol hmem hsymbol (by decide) (by decide)

/-- The text of bytes reads back with line breaks anywhere, and never with padding. -/
theorem encode_readsBack (bytes : List UInt8) (wrapped : String)
    (hwrapped : Inserts IsLineBreak (encode bytes) wrapped.toList) :
    decode? wrapped.toList = some bytes ∧
      decodedLength? wrapped = some bytes.length ∧
      (∀ typeName : String, isValidKey wrapped typeName = true ↔
        ∃ type : KeyType, typeName = type.name ∧ type.expectedLength = bytes.length) ∧
      ∀ padded : String, Inserts (· = '=') wrapped.toList padded.toList → padded ≠ wrapped →
        decodedLength? padded = none := by
  have hdecode : decode? wrapped.toList = some bytes := decode?_of_inserts hwrapped
  refine ⟨hdecode, decodedLength?_of_decode? hdecode, ?_, ?_⟩
  · intro typeName
    exact isValidKey_iff_of_decode? hdecode
  · intro padded hpadded hne
    exact decodedLength?_of_padding hpadded hne

/-- A signing key that is wrapped after twenty characters, and padded at its end. -/
theorem encode_readsBack_key :
    let bytes := List.replicate 32 7
    let wrapped := String.ofList ((encode bytes).take 20 ++ '\n' :: (encode bytes).drop 20)
    let padded := String.ofList (wrapped.toList ++ ['='])
    Inserts IsLineBreak (encode bytes) wrapped.toList ∧
      Inserts (· = '=') wrapped.toList padded.toList ∧ padded ≠ wrapped ∧
      decodedLength? wrapped = some 32 ∧ isValidKey wrapped "Ed25519" = true ∧
      decodedLength? padded = none := by
  intro bytes wrapped padded
  have hbreak : IsLineBreak '\n' := Or.inr rfl
  have hwrapped : Inserts IsLineBreak (encode bytes) wrapped.toList := by
    have hcut := (Inserts.refl ((encode bytes).take 20)).append
      (.insert hbreak (.refl ((encode bytes).drop 20)))
    rw [List.take_append_drop] at hcut
    rwa [String.toList_ofList]
  have hpadded : Inserts (· = '=') wrapped.toList padded.toList := by
    have hend : Inserts (· = '=') (wrapped.toList ++ []) (wrapped.toList ++ ['=']) :=
      (Inserts.refl wrapped.toList).append (.insert rfl .nil)
    rw [List.append_nil] at hend
    have htext : padded.toList = wrapped.toList ++ ['='] := String.toList_ofList
    rwa [htext]
  have hne : padded ≠ wrapped := by
    intro heq
    have hlength := congrArg (List.length ∘ String.toList) heq
    simp [padded] at hlength
  obtain ⟨-, hlength, hkey, hpadding⟩ := encode_readsBack bytes wrapped hwrapped
  exact ⟨hwrapped, hpadded, hne, hlength, (hkey "Ed25519").mpr ⟨.ed25519, rfl, rfl⟩,
    hpadding padded hpadded hne⟩

end Base64Url
end ServiceKit
