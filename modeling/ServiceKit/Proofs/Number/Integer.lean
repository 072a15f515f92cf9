import ServiceKit.Proofs.Number.Numeral

/-!
# Reading integers

An integer of a range is digits behind a sign, or without one; there is a minus sign only where the
range has negative numbers.  A text is read as the number that it denotes if this lies in the range.
Otherwise the first problem met from left to right is the reason: nothing to read, a character that
is no digit, or the first digit that takes the number out of the range.  What is written for a
number of the range denotes this number.
-/

namespace ServiceKit

namespace IntRange

/-- A number lies in a range. -/
def Contains (range : IntRange) (value : Int) : Prop :=
  range.least ≤ value ∧ value ≤ range.greatest

instance (range : IntRange) (value : Int) : Decidable (range.Contains value) :=
  inferInstanceAs (Decidable (_ ∧ _))

/-- The ranges of the integer types, without a sign or in two's complement. -/
inductive IsType : IntRange → Prop where
  | unsigned (bits : Nat) : IsType (.unsigned bits)
  | signed (bits : Nat) : IsType (.signed bits)

theorem IsType.contains_zero {range : IntRange} (h : range.IsType) : range.Contains 0 := by
  rcases h with bits | bits
  · have hpos : 0 < Nat.pow 2 bits := Nat.two_pow_pos bits
    exact ⟨Int.le_refl 0, by simp only [IntRange.unsigned, Int.ofNat_eq_natCast]; omega⟩
  · have hpos : 0 < Nat.pow 2 (bits - 1) := Nat.two_pow_pos (bits - 1)
    constructor <;> simp only [IntRange.signed, Int.ofNat_eq_natCast] <;> omega

end IntRange

namespace Numeral

/-- What a sign makes of a number. -/
def withSign (negative : Bool) (n : Nat) : Int :=
  if negative then -n else n

/-- A text is a sign and what stands behind it, or has no sign. -/
inductive Splits (range : IntRange) : List Char → Bool → List Char → Prop where
  | plus {body : List Char} : Splits range ('+' :: body) false body
  | minus {body : List Char} (h : range.hasNegative = true) : Splits range ('-' :: body) true body
  | bare {body : List Char} (hplus : body.head? ≠ some '+')
      (hminus : range.hasNegative = true → body.head? ≠ some '-') : Splits range body false body

/-- A text denotes an integer: one or more digits, with a sign before them or without. -/
def Denotes (range : IntRange) (cs : List Char) (value : Int) : Prop :=
  ∃ negative ds, Splits range cs negative ds ∧ IsDigits ds ∧ value = withSign negative (denote ds)

/-- Nothing is wrong so far: digits, and the number that they denote lies in the range. -/
structure Fits (range : IntRange) (negative : Bool) (ds : List Char) : Prop where
  isDigit : ∀ c ∈ ds, IsDigit c
  contains : range.Contains (withSign negative (denote ds))

/-- The first problem of a text read from left to right.  A character that is no digit counts as
such whatever the number before it. -/
inductive Problem (range : IntRange) (cs : List Char) : NumeralError → Prop where
  | empty (h : cs = []) : Problem range cs .empty
  | onlySign {negative : Bool} (hne : cs ≠ []) (h : Splits range cs negative []) :
      Problem range cs .invalidDigit
  | badDigit {negative : Bool} {ds rest : List Char} {c : Char}
      (h : Splits range cs negative (ds ++ c :: rest)) (hfits : Fits range negative ds)
      (hc : ¬ IsDigit c) : Problem range cs .invalidDigit
  | tooLarge {negative : Bool} {ds rest : List Char} {c : Char}
      (h : Splits range cs negative (ds ++ c :: rest)) (hfits : Fits range negative ds)
      (hc : IsDigit c) (hover : range.greatest < withSign negative (denote (ds ++ [c]))) :
      Problem range cs .tooLarge
  | tooSmall {negative : Bool} {ds rest : List Char} {c : Char}
      (h : Splits range cs negative (ds ++ c :: rest)) (hfits : Fits range negative ds)
      (hc : IsDigit c) (hunder : withSign negative (denote (ds ++ [c])) < range.least) :
      Problem range cs .tooSmall

variable {range : IntRange} {negative : Bool} {cs ds body : List Char} {c : Char} {acc : Nat}
  {value : Int} {e : NumeralError}

/-! ## Digits in either direction -/

theorem denoteFrom_concat (acc : Nat) (ds : List Char) (c : Char) :
    denoteFrom acc (ds ++ [c]) = denoteFrom acc ds * 10 + (c.toNat - 48) := by
  rw [denoteFrom, List.foldl_append]
  rfl

/-- Reads digits after a number away from zero, downwards if it is negative. -/
def readFrom (range : IntRange) (negative : Bool) (acc : Nat) (cs : List Char) :
    Except NumeralError Int :=
  if negative then readDown range.least (-acc) cs else readUp range.greatest acc cs

/-- The reason given for a number that has left the range. -/
def overflow (negative : Bool) : NumeralError :=
  if negative then .tooSmall else .tooLarge

theorem readFrom_nil : readFrom range negative acc [] = .ok (withSign negative acc) := by
  cases negative <;> rfl

theorem readFrom_of_not_isDigit (hc : ¬ IsDigit c) :
    readFrom range negative acc (c :: cs) = .error .invalidDigit := by
  unfold readFrom
  cases negative <;> simp [readUp, readDown, digit?_of_not_isDigit hc]

theorem withSign_zero : withSign negative 0 = 0 := by
  cases negative <;> rfl

/-- A number away from zero leaves the range on the side of its sign. -/
theorem contains_withSign_iff (hzero : range.Contains 0) : range.Contains (withSign negative acc) ↔
    if negative then range.least ≤ -acc else (acc : Int) ≤ range.greatest := by
  obtain ⟨hleast, hgreatest⟩ := hzero
  unfold IntRange.Contains withSign
  cases negative <;> simp only [Bool.false_eq_true, if_true, if_false] <;> omega

/-- Behind a digit reading goes on as long as the number is in the range. -/
theorem readFrom_of_isDigit (hzero : range.Contains 0) (hc : IsDigit c) :
    readFrom range negative acc (c :: cs) =
      if range.Contains (withSign negative (acc * 10 + (c.toNat - 48))) then
        readFrom range negative (acc * 10 + (c.toNat - 48)) cs
      else .error (overflow negative) := by
  simp only [contains_withSign_iff hzero]
  unfold readFrom
  cases negative with
  | false =>
      simp only [Bool.false_eq_true, if_false]
      rw [readUp, digit?_of_isDigit hc]
      generalize c.toNat - 48 = d
      have hcast : (acc : Int) * 10 + d = (acc * 10 + d : Nat) := by omega
      simp only [hcast, ← Int.not_lt, ite_not]
      rfl
  | true =>
      simp only [if_true]
      rw [readDown, digit?_of_isDigit hc]
      generalize c.toNat - 48 = d
      have hcast : -(acc : Int) * 10 - d = -(acc * 10 + d : Nat) := by omega
      simp only [hcast, ← Int.not_lt, ite_not]
      rfl

theorem contains_withSign_zero (hzero : range.Contains 0) :
    range.Contains (withSign negative 0) := by
  rw [withSign_zero]
  exact hzero

theorem contains_of_le {n : Nat} (hzero : range.Contains 0) (hle : acc ≤ n)
    (h : range.Contains (withSign negative n)) : range.Contains (withSign negative acc) := by
  rw [contains_withSign_iff hzero] at h ⊢
  cases negative <;> simp only [Bool.false_eq_true, if_true, if_false] at h ⊢ <;> omega

/-- Digits are read behind a number where what they denote together lies in the range. -/
theorem readFrom_eq_ok_iff (hzero : range.Contains 0)
    (hacc : range.Contains (withSign negative acc)) :
    readFrom range negative acc cs = .ok value ↔
      (∀ c ∈ cs, IsDigit c) ∧ value = withSign negative (denoteFrom acc cs) ∧
        range.Contains value := by
  induction cs generalizing acc with
  | nil =>
      rw [readFrom_nil, Except.ok.injEq]
      constructor
      · rintro rfl
        exact ⟨nofun, rfl, hacc⟩
      · rintro ⟨-, rfl, -⟩
        rfl
  | cons c cs ih =>
      rw [List.forall_mem_cons, denoteFrom_cons]
      by_cases hc : IsDigit c
      · by_cases hin : range.Contains (withSign negative (acc * 10 + (c.toNat - 48)))
        · rw [readFrom_of_isDigit hzero hc, if_pos hin, ih hin, and_iff_right hc]
        · rw [readFrom_of_isDigit hzero hc, if_neg hin]
          refine iff_of_false nofun ?_
          -- what has left the range stays outside behind further digits
          rintro ⟨-, rfl, hcontains⟩
          exact hin (contains_of_le hzero (le_denoteFrom _ cs) hcontains)
      · rw [readFrom_of_not_isDigit hc]
        exact iff_of_false nofun fun h => hc h.1.1

/-- Reading digits behind a number stops at a character: nothing is wrong before it. -/
inductive StopsFrom (range : IntRange) (negative : Bool) (acc : Nat) :
    List Char → NumeralError → Prop where
  | badDigit (ds : List Char) {rest : List Char} {c : Char} (hdigits : ∀ d ∈ ds, IsDigit d)
      (hin : range.Contains (withSign negative (denoteFrom acc ds))) (hc : ¬ IsDigit c) :
      StopsFrom range negative acc (ds ++ c :: rest) .invalidDigit
  | overflow (ds : List Char) {rest : List Char} {c : Char} (hdigits : ∀ d ∈ ds, IsDigit d)
      (hin : range.Contains (withSign negative (denoteFrom acc ds))) (hc : IsDigit c)
      (hout : ¬ range.Contains (withSign negative (denoteFrom acc (ds ++ [c])))) :
      StopsFrom range negative acc (ds ++ c :: rest) (overflow negative)

theorem StopsFrom.cons (hc : IsDigit c)
    (h : StopsFrom range negative (acc * 10 + (c.toNat - 48)) cs e) :
    StopsFrom range negative acc (c :: cs) e := by
  cases h with
  | badDigit ds hdigits hin hd =>
      exact .badDigit (c :: ds) (List.forall_mem_cons.mpr ⟨hc, hdigits⟩) hin hd
  | overflow ds hdigits hin hd hout =>
      exact .overflow (c :: ds) (List.forall_mem_cons.mpr ⟨hc, hdigits⟩) hin hd hout

theorem stopsFrom_of_readFrom (hzero : range.Contains 0)
    (hacc : range.Contains (withSign negative acc))
    (h : readFrom range negative acc cs = .error e) : StopsFrom range negative acc cs e := by
  induction cs generalizing acc with
  | nil =>
      rw [readFrom_nil] at h
      contradiction
  | cons c cs ih =>
      by_cases hc : IsDigit c
      · by_cases hin : range.Contains (withSign negative (acc * 10 + (c.toNat - 48)))
        · rw [readFrom_of_isDigit hzero hc, if_pos hin] at h
          exact (ih hin h).cons hc
        · rw [readFrom_of_isDigit hzero hc, if_neg hin] at h
          cases h
          exact .overflow [] nofun hacc hc hin
      · rw [readFrom_of_not_isDigit hc] at h
        cases h
        exact .badDigit [] nofun hacc hc

/-- Digits before the end of a text are read one by one. -/
theorem readFrom_append {rest : List Char} (hzero : range.Contains 0)
    (hdigits : ∀ d ∈ ds, IsDigit d) (hin : range.Contains (withSign negative (denoteFrom acc ds))) :
    readFrom range negative acc (ds ++ rest) =
      readFrom range negative (denoteFrom acc ds) rest := by
  induction ds generalizing acc with
  | nil => rfl
  | cons d ds ih =>
      rw [List.forall_mem_cons] at hdigits
      rw [denoteFrom_cons] at hin ⊢
      have hfirst := contains_of_le hzero (le_denoteFrom _ ds) hin
      rw [List.cons_append, readFrom_of_isDigit hzero hdigits.1, if_pos hfirst, ih hdigits.2 hin]

theorem StopsFrom.readFrom_eq (hzero : range.Contains 0)
    (h : StopsFrom range negative acc cs e) : readFrom range negative acc cs = .error e := by
  cases h with
  | badDigit ds hdigits hin hc => rw [readFrom_append hzero hdigits hin, readFrom_of_not_isDigit hc]
  | overflow ds hdigits hin hc hout =>
      rw [denoteFrom_concat] at hout
      rw [readFrom_append hzero hdigits hin, readFrom_of_isDigit hzero hc, if_neg hout]

/-! ## Signs -/

theorem exists_splits (range : IntRange) (cs : List Char) :
    ∃ negative body, Splits range cs negative body := by
  by_cases hplus : cs.head? = some '+'
  · obtain ⟨body, rfl⟩ := List.head?_eq_some_iff.mp hplus
    exact ⟨false, body, .plus⟩
  · by_cases hminus : range.hasNegative = true ∧ cs.head? = some '-'
    · obtain ⟨hnegative, hhead⟩ := hminus
      obtain ⟨body, rfl⟩ := List.head?_eq_some_iff.mp hhead
      exact ⟨true, body, .minus hnegative⟩
    · exact ⟨false, cs, .bare hplus fun hnegative hhead => hminus ⟨hnegative, hhead⟩⟩

theorem Splits.read_of_nil (h : Splits range cs negative []) (hne : cs ≠ []) :
    read range cs = .error .invalidDigit := by
  cases h with
  | plus | minus => rfl
  | bare => contradiction

/-- What stands behind the sign is read away from zero. -/
theorem Splits.read_eq (h : Splits range cs negative body) (hne : body ≠ []) :
    read range cs = readFrom range negative 0 body := by
  obtain ⟨c, rest, rfl⟩ := List.exists_cons_of_ne_nil hne
  cases h with
  | plus => rfl
  | minus hnegative => rw [read, if_pos hnegative]; rfl
  | bare hplus hminus =>
      by_cases hc : c = '-'
      · subst hc
        have hnatural : ¬ range.hasNegative = true := fun hnegative => hminus hnegative rfl
        rw [readFrom_of_not_isDigit not_isDigit_minus]
        cases rest with
        | nil => rfl
        | cons d rest => rw [read, if_neg hnatural]
      · have hc' : c ≠ '+' := fun heq => hplus (congrArg some heq)
        rw [read]
        · rfl
        · exact fun hplus' => absurd hplus' hc'
        · exact fun hminus' => absurd hminus' hc
        · exact fun _ _ hplus' => absurd hplus' hc'
        · exact fun _ _ hminus' => absurd hminus' hc

/-! ## The integer of a text -/

/-- A text is read exactly where it denotes a number of the range, as this number. -/
theorem read_eq_ok_iff_denotes (hzero : range.Contains 0) :
    read range cs = .ok value ↔ Denotes range cs value ∧ range.Contains value := by
  constructor
  · intro h
    obtain ⟨negative, body, hsplits⟩ := exists_splits range cs
    by_cases hne : body = []
    · subst hne
      by_cases hcs : cs = []
      · subst hcs
        contradiction
      · rw [hsplits.read_of_nil hcs] at h
        contradiction
    · rw [hsplits.read_eq hne, readFrom_eq_ok_iff hzero (contains_withSign_zero hzero)] at h
      obtain ⟨hdigits, hvalue, hin⟩ := h
      exact ⟨⟨negative, body, hsplits, ⟨hne, hdigits⟩, hvalue⟩, hin⟩
  · rintro ⟨⟨negative, ds, hsplits, hds, hvalue⟩, hin⟩
    rw [hsplits.read_eq hds.ne_nil, readFrom_eq_ok_iff hzero (contains_withSign_zero hzero)]
    exact ⟨hds.isDigit, hvalue, hin⟩

/-- What has left the range has done so on the side of its sign. -/
theorem problem_of_overflow {rest : List Char} (hzero : range.Contains 0)
    (h : Splits range cs negative (ds ++ c :: rest)) (hfits : Fits range negative ds)
    (hc : IsDigit c) (hout : ¬ range.Contains (withSign negative (denote (ds ++ [c])))) :
    Problem range cs (overflow negative) := by
  rw [contains_withSign_iff hzero] at hout
  cases negative with
  | false => exact .tooLarge h hfits hc (Int.not_le.mp hout)
  | true => exact .tooSmall h hfits hc (Int.not_le.mp hout)

theorem overflow_eq_of_gt (hzero : range.Contains 0)
    (h : range.greatest < withSign negative acc) : overflow negative = .tooLarge := by
  have hgreatest := hzero.2
  cases negative with
  | false => rfl
  | true =>
      simp only [withSign, if_true] at h
      omega

theorem overflow_eq_of_lt (hzero : range.Contains 0)
    (h : withSign negative acc < range.least) : overflow negative = .tooSmall := by
  have hleast := hzero.1
  cases negative with
  | true => rfl
  | false =>
      simp only [withSign, Bool.false_eq_true, if_false] at h
      omega

/-- A text is refused for its first problem. -/
theorem read_eq_error_iff (hzero : range.Contains 0) :
    read range cs = .error e ↔ Problem range cs e := by
  constructor
  · intro h
    obtain ⟨negative, body, hsplits⟩ := exists_splits range cs
    by_cases hne : body = []
    · subst hne
      by_cases hcs : cs = []
      · subst hcs
        cases h
        exact .empty rfl
      · rw [hsplits.read_of_nil hcs] at h
        cases h
        exact .onlySign hcs hsplits
    · rw [hsplits.read_eq hne] at h
      cases stopsFrom_of_readFrom hzero (contains_withSign_zero hzero) h with
      | badDigit ds hdigits hin hc => exact .badDigit hsplits ⟨hdigits, hin⟩ hc
      | overflow ds hdigits hin hc hout =>
          exact problem_of_overflow hzero hsplits ⟨hdigits, hin⟩ hc hout
  · have hbody : ∀ {negative ds rest} {c : Char}, Splits range cs negative (ds ++ c :: rest) →
        StopsFrom range negative 0 (ds ++ c :: rest) e → read range cs = .error e := by
      intro negative ds rest c hsplits hstops
      rw [hsplits.read_eq (by simp), hstops.readFrom_eq hzero]
    intro h
    cases h with
    | empty hcs => rw [hcs]; rfl
    | onlySign hne hsplits => exact hsplits.read_of_nil hne
    | badDigit hsplits hfits hc => exact hbody hsplits (.badDigit _ hfits.isDigit hfits.contains hc)
    | @tooLarge negative ds rest c hsplits hfits hc hover =>
        rw [← overflow_eq_of_gt hzero hover] at hbody ⊢
        exact hbody hsplits (.overflow _ hfits.isDigit hfits.contains hc
          fun hin => Int.not_lt.mpr hin.2 hover)
    | @tooSmall negative ds rest c hsplits hfits hc hunder =>
        rw [← overflow_eq_of_lt hzero hunder] at hbody ⊢
        exact hbody hsplits (.overflow _ hfits.isDigit hfits.contains hc
          fun hin => Int.not_lt.mpr hin.1 hunder)

/-! ## Writing an integer -/

theorem toNat_digit {d : Nat} (h : d < 10) : (Char.ofNat (48 + d)).toNat = 48 + d := by
  rw [Char.ofNat, dif_pos (Or.inl (by omega))]
  rfl

theorem isDigit_digit {d : Nat} (h : d < 10) : IsDigit (Char.ofNat (48 + d)) := by
  change 48 ≤ (Char.ofNat (48 + d)).toNat ∧ (Char.ofNat (48 + d)).toNat ≤ 57
  rw [toNat_digit h]
  omega

theorem isDigits_digits (n : Nat) : IsDigits (digits n) := by
  fun_induction digits n with
  | case1 n hn => exact ⟨List.cons_ne_nil _ _, List.forall_mem_singleton.mpr (isDigit_digit hn)⟩
  | case2 n hn ih =>
      refine ⟨by simp, fun c hc => ?_⟩
      rcases List.mem_append.mp hc with hc | hc
      · exact ih.isDigit c hc
      · rw [List.mem_singleton.mp hc]
        exact isDigit_digit (Nat.mod_lt n (by decide))

/-- The digits of a number denote it. -/
theorem denote_digits (n : Nat) : denote (digits n) = n := by
  fun_induction digits n with
  | case1 n hn =>
      change 0 * 10 + ((Char.ofNat (48 + n)).toNat - 48) = n
      rw [toNat_digit hn]
      omega
  | case2 n hn ih =>
      change denoteFrom 0 (digits (n / 10)) = n / 10 at ih
      change denoteFrom 0 (digits (n / 10) ++ [_]) = n
      rw [denoteFrom_concat, ih, toNat_digit (Nat.mod_lt n (by decide))]
      omega

theorem IsDigits.head?_ne (h : IsDigits ds) (hc : ¬ IsDigit c) : ds.head? ≠ some c :=
  fun hhead => hc (h.isDigit c (List.mem_of_mem_head? hhead))

/-- Digits alone denote a number of any range. -/
theorem IsDigits.denotes (h : IsDigits ds) : Denotes range ds (denote ds) :=
  ⟨false, ds, .bare (h.head?_ne not_isDigit_plus) fun _ => h.head?_ne not_isDigit_minus, h, rfl⟩

theorem denotes_write (hin : range.Contains value) : Denotes range (write value) value := by
  have hdenote := denote_digits value.natAbs
  have hdigits := isDigits_digits value.natAbs
  unfold write
  split
  next hnegative =>
    have hleast : range.hasNegative = true := decide_eq_true (Int.lt_of_le_of_lt hin.1 hnegative)
    refine ⟨true, _, .minus hleast, hdigits, ?_⟩
    rw [hdenote, withSign, if_pos rfl]
    omega
  next hnonneg =>
    have hvalue : (denote (digits value.natAbs) : Int) = value := by omega
    have hdenotes : Denotes range (digits value.natAbs) _ := hdigits.denotes
    rwa [hvalue] at hdenotes

/-! ## Zero -/

/-- A text spells zero: digits `0`, with a sign before them or without. -/
def SpellsZero (range : IntRange) (cs : List Char) : Prop :=
  ∃ negative n, Splits range cs negative (List.replicate (n + 1) '0')

theorem denoteFrom_eq_zero_iff (hdigits : ∀ c ∈ ds, IsDigit c) :
    denoteFrom acc ds = 0 ↔ acc = 0 ∧ ∀ c ∈ ds, c = '0' := by
  induction ds generalizing acc with
  | nil => simp [denoteFrom]
  | cons c ds ih =>
      rw [List.forall_mem_cons] at hdigits
      obtain ⟨hleast, -⟩ : 48 ≤ c.toNat ∧ c.toNat ≤ 57 := hdigits.1
      have hc : c = '0' ↔ c.toNat = 48 := Char.toNat_inj.symm
      rw [denoteFrom_cons, ih hdigits.2, List.forall_mem_cons, hc]
      constructor
      · rintro ⟨hzero, hrest⟩
        exact ⟨by omega, by omega, hrest⟩
      · rintro ⟨rfl, heq, hrest⟩
        exact ⟨by omega, hrest⟩

theorem withSign_eq_zero_iff : withSign negative acc = 0 ↔ acc = 0 := by
  cases negative <;> simp [withSign]

/-- The texts that denote zero are its spellings. -/
theorem denotes_zero_iff : Denotes range cs 0 ↔ SpellsZero range cs := by
  constructor
  · rintro ⟨negative, ds, hsplits, hds, hzero⟩
    have hdenote : denoteFrom 0 ds = 0 := withSign_eq_zero_iff.mp hzero.symm
    obtain ⟨n, hn⟩ := Nat.exists_eq_succ_of_ne_zero (mt List.length_eq_zero_iff.mp hds.ne_nil)
    have hzeros : ds = List.replicate (n + 1) '0' :=
      List.eq_replicate_iff.mpr ⟨hn, ((denoteFrom_eq_zero_iff hds.isDigit).mp hdenote).2⟩
    exact ⟨negative, n, hzeros ▸ hsplits⟩
  · rintro ⟨negative, n, hsplits⟩
    have hzeros : ∀ c ∈ List.replicate (n + 1) '0', c = '0' := fun c => List.eq_of_mem_replicate
    have hds : IsDigits (List.replicate (n + 1) '0') := by
      refine ⟨by simp, fun c hc => ?_⟩
      rw [hzeros c hc]
      unfold IsDigit
      decide
    refine ⟨negative, _, hsplits, hds, ?_⟩
    rw [show denote (List.replicate (n + 1) '0') = 0 from
      (denoteFrom_eq_zero_iff hds.isDigit).mpr ⟨rfl, hzeros⟩, withSign_zero]

end Numeral
end ServiceKit
