import ServiceKit.Text.Quoted

/-!
# Reading quoted text back

Whatever follows it, a quoted text is read back to its end, so two quoted texts differ wherever the
texts do.  All of its characters show on one line.
-/

namespace ServiceKit
namespace Text

/-- A character that begins a new line of text. -/
def isLineBreak (c : Char) : Bool :=
  inRanges [(0xa, 0xd), (0x85, 0x85), (0x2028, 0x2029)] c.toNat

/-! ## Characters that show -/

theorem inRanges_eq_false_iff {ranges : List (Nat × Nat)} {n : Nat} :
    inRanges ranges n = false ↔ ∀ r ∈ ranges, n < r.1 ∨ r.2 < n := by
  simp only [inRanges, List.any_eq_false, Bool.and_eq_true, decide_eq_true_eq]
  refine forall₂_congr fun r _ => ?_
  omega

/-- The printable characters of ASCII show: no range of those that do not reaches into them. -/
theorem isVisible_of_toNat {c : Char} (hlow : 0x20 ≤ c.toNat) (hhigh : c.toNat ≤ 0x7e) :
    isVisible c = true := by
  have hskip : ∀ ranges : List (Nat × Nat), (∀ r ∈ ranges, 0x7e < r.1 ∨ r.2 < 0x20) →
      inRanges ranges c.toNat = false := by
    intro ranges hranges
    rw [inRanges_eq_false_iff]
    intro r hr
    have := hranges r hr
    omega
  simp only [isVisible, isControl, isSeparator, isPrivate, isUnassigned, isExtending,
    Bool.not_eq_true', Bool.or_eq_false_iff]
  refine ⟨⟨⟨⟨⟨⟨?_, ?_⟩, ?_⟩, ?_⟩, ⟨⟨?_, ?_⟩, ?_⟩, ?_⟩, ?_, ?_⟩, ?_⟩ <;>
    exact hskip _ (by decide +kernel)

/-- What shows is no control, private-use or unassigned character, and breaks no line. -/
structure Shows (c : Char) : Prop where
  lineBreak : isLineBreak c = false
  control : isControl c = false
  privateUse : isPrivate c = false
  unassigned : isUnassigned c = false

theorem shows_of_isVisible {c : Char} (h : isVisible c = true) : Shows c := by
  simp only [isVisible, Bool.not_eq_true', Bool.or_eq_false_iff] at h
  obtain ⟨⟨⟨⟨⟨⟨hcontrol, -⟩, hseparator⟩, hprivate⟩, hunassigned⟩, -⟩, -⟩ := h
  refine ⟨?_, hcontrol, hprivate, hunassigned⟩
  simp only [isControl, controlRanges, isSeparator, separatorRanges, isLineBreak,
    inRanges_eq_false_iff, List.forall_mem_cons] at hcontrol hseparator ⊢
  obtain ⟨hlow, hhigh, -⟩ := hcontrol
  obtain ⟨-, -, -, hparagraph, -⟩ := hseparator
  exact ⟨by omega, by omega, by omega, nofun⟩

namespace Quoted

variable {c d : Char} {cs ds rest more : List Char} {n : Nat}

/-! ## Hexadecimal digits -/

theorem hexValue?_hexDigit (h : n < 16) : hexValue? (hexDigit n) = some n := by
  have hall : ∀ n < 16, hexValue? (hexDigit n) = some n := by decide
  exact hall n h

theorem isVisible_hexDigit (h : n < 16) : isVisible (hexDigit n) = true := by
  have hall : ∀ n < 16, 0x20 ≤ (hexDigit n).toNat ∧ (hexDigit n).toNat ≤ 0x7e := by decide
  exact isVisible_of_toNat (hall n h).1 (hall n h).2

/-- The digits of a number are those of numbers below sixteen. -/
theorem exists_of_mem_hexDigits (h : d ∈ hexDigits n) : ∃ k < 16, d = hexDigit k := by
  induction n using hexDigits.induct with
  | case1 n hlt =>
      rw [hexDigits, if_pos hlt, List.mem_singleton] at h
      exact ⟨n, hlt, h⟩
  | case2 n hge ih =>
      rw [hexDigits, if_neg hge, List.mem_append, List.mem_singleton] at h
      rcases h with h | h
      · exact ih h
      · exact ⟨n % 16, Nat.mod_lt n (by omega), h⟩

theorem hexNumber?_concat (ds : List Char) (d : Char) : hexNumber? (ds ++ [d]) =
    (hexNumber? ds).bind fun n => (hexValue? d).map (n * 16 + ·) := by
  rw [hexNumber?, List.foldl_append, List.foldl_cons, List.foldl_nil, ← hexNumber?]
  cases hexNumber? ds <;> cases hexValue? d <;> rfl

theorem hexNumber?_hexDigits (n : Nat) : hexNumber? (hexDigits n) = some n := by
  induction n using hexDigits.induct with
  | case1 n hlt =>
      rw [hexDigits, if_pos hlt, ← List.nil_append [_], hexNumber?_concat, hexValue?_hexDigit hlt]
      simp [hexNumber?]
  | case2 n hge ih =>
      have hlast : hexValue? (hexDigit (n % 16)) = some (n % 16) :=
        hexValue?_hexDigit (Nat.mod_lt n (by omega))
      rw [hexDigits, if_neg hge, hexNumber?_concat, ih, hlast, Option.bind_some, Option.map_some,
        Nat.div_add_mod']

/-- The closing brace is no digit, so it ends them. -/
theorem span_hexDigits (n : Nat) (rest : List Char) :
    (hexDigits n ++ '}' :: rest).takeWhile (· ≠ '}') = hexDigits n ∧
      (hexDigits n ++ '}' :: rest).dropWhile (· ≠ '}') = '}' :: rest := by
  have hdigits : ∀ d ∈ hexDigits n, decide (d ≠ '}') = true := by
    intro d hd
    obtain ⟨k, hk, rfl⟩ := exists_of_mem_hexDigits hd
    have hall : ∀ k < 16, decide (hexDigit k ≠ '}') = true := by decide
    exact hall k hk
  rw [List.takeWhile_append_of_pos hdigits, List.dropWhile_append_of_pos hdigits]
  simp

/-! ## One character -/

/-- A character is read back whatever follows it. -/
theorem readChar?_escape (c : Char) (rest : List Char) :
    readChar? (escape c ++ rest) = some (c, rest) := by
  fun_cases escape c
  case case7 hquote hslash hvisible =>
    simp [readChar?, hquote, hslash]
  case case8 =>
    obtain ⟨htake, hdrop⟩ := span_hexDigits c.toNat rest
    have htext : ['\\', 'u', '{'] ++ hexDigits c.toNat ++ ['}'] ++ rest =
        '\\' :: 'u' :: '{' :: (hexDigits c.toNat ++ '}' :: rest) := by simp
    rw [htext, readChar?, hdrop, htake, hexNumber?_hexDigits]
    simp
  all_goals
    subst_vars
    rfl

/-- No escape begins as the closing quote does. -/
theorem readChar?_quote (rest : List Char) : readChar? ('"' :: rest) = none := by
  simp [readChar?]

theorem isVisible_of_mem_escape (h : d ∈ escape c) : isVisible d = true := by
  revert h
  fun_cases escape c
  case case7 hquote hslash hvisible =>
    intro hd
    rwa [List.mem_singleton.mp hd]
  case case8 =>
    intro hd
    simp only [List.mem_append, List.mem_cons, List.not_mem_nil, or_false] at hd
    rcases hd with ((rfl | rfl | rfl) | hd) | rfl
    · exact isVisible_of_toNat (by decide) (by decide)
    · exact isVisible_of_toNat (by decide) (by decide)
    · exact isVisible_of_toNat (by decide) (by decide)
    · obtain ⟨k, hk, rfl⟩ := exists_of_mem_hexDigits hd
      exact isVisible_hexDigit hk
    · exact isVisible_of_toNat (by decide) (by decide)
  all_goals
    intro hd
    simp only [List.mem_cons, List.not_mem_nil, or_false] at hd
    rcases hd with rfl | rfl <;> exact isVisible_of_toNat (by decide) (by decide)

/-! ## A text -/

theorem quote_append_cons (c : Char) (cs rest : List Char) :
    (c :: cs).flatMap escape ++ '"' :: rest = escape c ++ (cs.flatMap escape ++ '"' :: rest) := by
  rw [List.flatMap_cons, List.append_assoc]

/-- No two texts have the same quoted form, whatever follows: the closing quote shows where the text
ends. -/
theorem quote_append_inj (h : quote cs ++ rest = quote ds ++ more) : cs = ds ∧ rest = more := by
  have hbody : cs.flatMap escape ++ '"' :: rest = ds.flatMap escape ++ '"' :: more := by
    simpa [quote] using h
  clear h
  induction cs generalizing ds with
  | nil =>
      cases ds with
      | nil => simpa using hbody
      | cons d ds =>
          have hread := congrArg readChar? hbody
          rw [quote_append_cons, readChar?_escape] at hread
          simp [readChar?_quote] at hread
  | cons c cs ih =>
      have hread := congrArg readChar? hbody
      rw [quote_append_cons, readChar?_escape] at hread
      cases ds with
      | nil => simp [readChar?_quote] at hread
      | cons d ds =>
          rw [quote_append_cons, readChar?_escape, Option.some.injEq, Prod.mk.injEq] at hread
          obtain ⟨rfl, hrest⟩ := hread
          obtain ⟨rfl, hmore⟩ := ih hrest
          exact ⟨rfl, hmore⟩

theorem escape_ne_nil (c : Char) : escape c ≠ [] := by
  intro hnil
  have hread := readChar?_escape c []
  rw [hnil] at hread
  contradiction

theorem readBody?_escape (hfuel : cs.length ≤ n) :
    readBody? n (cs.flatMap escape ++ ['"']) = some cs := by
  induction cs generalizing n with
  | nil => rw [List.flatMap_nil, List.nil_append, readBody?]
  | cons c cs ih =>
      obtain ⟨n, rfl⟩ : ∃ k, n = k + 1 := ⟨n - 1, by simp at hfuel; omega⟩
      have hne : escape c ++ (cs.flatMap escape ++ ['"']) ≠ ['"'] := by
        intro heq
        have hread := readChar?_escape c (cs.flatMap escape ++ ['"'])
        rw [heq, readChar?_quote] at hread
        contradiction
      rw [quote_append_cons, readBody?, readChar?_escape]
      · simp [ih (Nat.le_of_succ_le_succ hfuel)]
      · exact hne

theorem length_le_flatMap_escape (cs : List Char) : cs.length ≤ (cs.flatMap escape).length := by
  induction cs with
  | nil => exact Nat.le_refl 0
  | cons c cs ih =>
      have hpos : 0 < (escape c).length := List.length_pos_iff.mpr (escape_ne_nil c)
      rw [List.flatMap_cons, List.length_append, List.length_cons]
      omega

/-- A quoted text is read back. -/
theorem read?_quote (cs : List Char) : read? (quote cs) = some cs := by
  have hfuel : cs.length ≤ (cs.flatMap escape ++ ['"']).length := by
    rw [List.length_append]
    exact Nat.le_add_right_of_le (length_le_flatMap_escape cs)
  exact readBody?_escape hfuel

theorem isVisible_of_mem_quote (h : d ∈ quote cs) : isVisible d = true := by
  have hquote : isVisible '"' = true := isVisible_of_toNat (by decide) (by decide)
  simp only [quote, List.cons_append, List.mem_cons, List.mem_append, List.mem_flatMap,
    List.not_mem_nil, or_false] at h
  rcases h with rfl | ⟨c, -, hd⟩ | rfl
  · exact hquote
  · exact isVisible_of_mem_escape hd
  · exact hquote

end Quoted

/-! ## A string -/

variable {s t rest more : String}

theorem quoted_append_inj (h : quoted s ++ rest = quoted t ++ more) : s = t ∧ rest = more := by
  have hlist := congrArg String.toList h
  simp only [quoted, String.toList_append, String.toList_ofList] at hlist
  obtain ⟨hs, hrest⟩ := Quoted.quote_append_inj hlist
  exact ⟨String.toList_inj.mp hs, String.toList_inj.mp hrest⟩

theorem shows_of_mem_quoted {c : Char} (h : c ∈ (quoted s).toList) : Shows c := by
  rw [quoted, String.toList_ofList] at h
  exact shows_of_isVisible (Quoted.isVisible_of_mem_quote h)

end Text
end ServiceKit
