import ServiceKit.Number.Numeral

/-!
# Reading natural numbers

A range without negative numbers is read from digits with or without a plus sign, exactly where the
number that they denote lies in the range.
-/

namespace ServiceKit
namespace Numeral

/-- A decimal digit. -/
def IsDigit (c : Char) : Prop :=
  '0' ≤ c ∧ c ≤ '9'

/-- One or more decimal digits. -/
structure IsDigits (ds : List Char) : Prop where
  ne_nil : ds ≠ []
  isDigit : ∀ c ∈ ds, IsDigit c

/-- A text is a natural number in decimal: digits, with a plus sign before them or without. -/
inductive Natural : List Char → Nat → Prop where
  | bare {ds : List Char} (h : IsDigits ds) : Natural ds (denote ds)
  | plus {ds : List Char} (h : IsDigits ds) : Natural ('+' :: ds) (denote ds)

/-- The number that decimal digits behind another number denote. -/
def denoteFrom (n : Nat) (ds : List Char) : Nat :=
  ds.foldl (fun n c => n * 10 + (c.toNat - 48)) n

variable {c : Char} {cs ds : List Char} {acc n : Nat} {greatest value : Int} {range : IntRange}

theorem denoteFrom_cons :
    denoteFrom acc (c :: cs) = denoteFrom (acc * 10 + (c.toNat - 48)) cs := by
  rw [denoteFrom, List.foldl_cons, denoteFrom]

theorem le_denoteFrom (acc : Nat) (ds : List Char) : acc ≤ denoteFrom acc ds := by
  induction ds generalizing acc with
  | nil => exact Nat.le_refl acc
  | cons c ds ih =>
      have hstep : acc ≤ acc * 10 + (c.toNat - 48) := by omega
      exact Nat.le_trans hstep (ih _)

theorem digit?_of_isDigit (h : IsDigit c) : digit? c = some (c.toNat - 48) :=
  if_pos h

theorem digit?_of_not_isDigit (h : ¬ IsDigit c) : digit? c = none :=
  if_neg h

/-- Digits are read behind a number where what they denote together is not too large. -/
theorem readUp_eq_ok_iff : readUp greatest acc cs = .ok value ↔
    (∀ c ∈ cs, IsDigit c) ∧ (denoteFrom acc cs : Int) = value ∧ (cs = [] ∨ value ≤ greatest) := by
  induction cs generalizing acc with
  | nil => simp [readUp, denoteFrom]
  | cons c cs ih =>
      rw [List.forall_mem_cons, denoteFrom_cons, readUp]
      by_cases hc : IsDigit c
      · rw [digit?_of_isDigit hc]
        generalize c.toNat - 48 = d
        have hle : acc * 10 + d ≤ denoteFrom (acc * 10 + d) cs := le_denoteFrom _ cs
        have hcast : (acc : Int) * 10 + d = (acc * 10 + d : Nat) := by omega
        dsimp only
        rw [hcast]
        split
        next hlarge =>
          -- what is too large stays so behind further digits
          simp only [reduceCtorEq, false_iff, false_or]
          rintro ⟨-, hvalue, hle'⟩
          omega
        next hsmall =>
          rw [ih]
          simp only [hc, true_and, reduceCtorEq, false_or]
          refine and_congr_right fun hdigits => and_congr_right fun hvalue => ?_
          constructor
          · rintro (rfl | hle')
            · rw [← hvalue]
              exact Int.not_lt.mp hsmall
            · exact hle'
          · exact Or.inr
      · rw [digit?_of_not_isDigit hc]
        simp [hc]

theorem readUp_zero_eq_ok_iff (hne : cs ≠ []) : readUp greatest 0 cs = .ok value ↔
    ∃ n, (IsDigits cs ∧ denote cs = n) ∧ (n : Int) = value ∧ value ≤ greatest := by
  have hread : readUp greatest ((0 : Nat) : Int) cs = .ok value ↔ _ := readUp_eq_ok_iff
  rw [or_iff_right hne] at hread
  refine hread.trans ⟨?_, ?_⟩
  · rintro ⟨hdigits, hvalue, hle⟩
    exact ⟨denote cs, ⟨⟨hne, hdigits⟩, rfl⟩, hvalue, hle⟩
  · rintro ⟨n, ⟨hdigits, rfl⟩, hvalue, hle⟩
    exact ⟨hdigits.isDigit, hvalue, hle⟩

theorem not_isDigit_plus : ¬ IsDigit '+' := by
  unfold IsDigit
  decide

theorem not_isDigit_minus : ¬ IsDigit '-' := by
  unfold IsDigit
  decide

theorem natural_plus_iff : Natural ('+' :: cs) n ↔ IsDigits cs ∧ denote cs = n := by
  constructor
  · rintro (hds | hds)
    · exact absurd (hds.isDigit '+' List.mem_cons_self) not_isDigit_plus
    · exact ⟨hds, rfl⟩
  · rintro ⟨hds, rfl⟩
    exact .plus hds

theorem natural_cons_iff (hc : c ≠ '+') : Natural (c :: cs) n ↔
    IsDigits (c :: cs) ∧ denote (c :: cs) = n := by
  constructor
  · rintro (hds | hds)
    · exact ⟨hds, rfl⟩
    · contradiction
  · rintro ⟨hds, rfl⟩
    exact .bare hds

theorem not_natural_minus : ¬ Natural ('-' :: cs) n := by
  rw [natural_cons_iff (by decide)]
  rintro ⟨hds, -⟩
  exact not_isDigit_minus (hds.isDigit '-' List.mem_cons_self)

/-- A range without negative numbers is read from the natural numbers in it. -/
theorem read_eq_ok_iff (hrange : range.hasNegative = false) : read range cs = .ok value ↔
    ∃ n, Natural cs n ∧ (n : Int) = value ∧ value ≤ range.greatest := by
  unfold read
  split
  next =>
    have hnatural : ∀ n, ¬ Natural [] n := by
      rintro n (hds | hds)
      exact hds.ne_nil rfl
    simp [hnatural]
  next =>
    have hdigits : ¬ IsDigits [] := fun hds => hds.ne_nil rfl
    simp [natural_plus_iff, hdigits]
  next => simp [not_natural_minus]
  next c cs =>
    rw [readUp_zero_eq_ok_iff (List.cons_ne_nil c cs)]
    simp only [natural_plus_iff]
  next c cs => simp [hrange, not_natural_minus]
  next c cs hplus hminus hplus' hminus' =>
    have hc : c ≠ '+' := by
      rintro rfl
      cases cs with
      | nil => exact hplus rfl rfl
      | cons d ds => exact hplus' d ds rfl rfl
    rw [readUp_zero_eq_ok_iff (List.cons_ne_nil c cs)]
    simp only [natural_cons_iff hc]

end Numeral
end ServiceKit
