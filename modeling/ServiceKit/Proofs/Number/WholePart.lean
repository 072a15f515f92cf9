import ServiceKit.Proofs.Number.Power

/-!
# Whole parts

The whole part of a number, cut to the numbers from zero on, keeps the order of all numbers that are
comparable: those of either sign, the two equal zeros and the infinities.  Hence the whole part of a
minimum is the minimum of the whole parts, unless an operand is no number.
-/

namespace ServiceKit
namespace Binary64

variable {x y : Binary64} {greatest : ℕ}

/-! ## Signs -/

theorem Nonneg.ne_nan (hx : Nonneg x) : x ≠ .nan := by
  rintro rfl
  contradiction

theorem ne_nan_of_le (h : le x y = true) : x ≠ .nan ∧ y ≠ .nan := by
  constructor
  · rintro rfl
    contradiction
  · rintro rfl
    cases x <;> contradiction

/-- Negative zero, a negative number or negative infinity. -/
inductive Negative : Binary64 → Prop where
  | finite (steps : ℕ) : Negative (.finite true steps)
  | infinite : Negative (.infinite true)

theorem negative_of_isNegative (hx : x.isNegative = true) : Negative x := by
  rcases x with _ | ⟨_ | _⟩ | ⟨_ | _, steps⟩
  · contradiction
  · contradiction
  · exact .infinite
  · contradiction
  · exact .finite steps

theorem Negative.ne_nan (hx : Negative x) : x ≠ .nan := by
  rintro rfl
  contradiction

theorem nonneg_or_negative (hx : x ≠ .nan) : Nonneg x ∨ Negative x := by
  rcases x with _ | ⟨_ | _⟩ | ⟨_ | _, steps⟩
  · contradiction
  · exact .inl .infinite
  · exact .inr .infinite
  · exact .inl (.finite steps)
  · exact .inr (.finite steps)

theorem Negative.le_nonneg (hx : Negative x) (hy : Nonneg y) : le x y = true := by
  rcases hx with ⟨a⟩ | _
  · rcases hy with ⟨b⟩ | _
    · rfl
    · rfl
  · rcases hy with ⟨b⟩ | _
    · rfl
    · rfl

/-- The zeros of either sign are equal. -/
theorem Nonneg.eq_zero_of_le (hx : Nonneg x) (hy : Negative y) (h : le x y = true) :
    x = .finite false 0 := by
  rcases hx with ⟨a⟩ | _
  · rcases hy with ⟨b⟩ | _
    · rw [le, Bool.and_eq_true, beq_iff_eq] at h
      rw [h.1]
    · contradiction
  · rcases hy with ⟨b⟩ | _
    · contradiction
    · contradiction

theorem le_total (hx : x ≠ .nan) (hy : Nonneg y) : le x y = true ∨ le y x = true := by
  rcases nonneg_or_negative hx with hnonneg | hnegative
  · rcases hnonneg with ⟨a⟩ | _
    · rcases hy with ⟨b⟩ | _
      · rw [finite_le_finite, finite_le_finite]
        exact Nat.le_total a b
      · exact .inl rfl
    · exact .inr hy.le_infinite
  · exact .inl (hnegative.le_nonneg hy)

/-! ## Minimum and whole part -/

theorem min_of_ne_nan (hx : x ≠ .nan) (hy : y ≠ .nan) :
    Binary64.min x y = if le x y then x else y := by
  cases x with
  | nan => contradiction
  | infinite | finite =>
      cases y with
      | nan => contradiction
      | infinite | finite => rfl

theorem nan_min (y : Binary64) : Binary64.min .nan y = y := rfl

theorem truncate_le (greatest : ℕ) (x : Binary64) : truncate greatest x ≤ greatest := by
  unfold truncate
  split
  · exact Nat.zero_le _
  · split
    · exact Nat.zero_le _
    · exact Nat.le_refl _
  · split
    · exact Nat.zero_le _
    · exact Nat.min_le_right _ _

theorem truncate_finite (greatest steps : ℕ) :
    truncate greatest (.finite false steps) = Nat.min (steps / unit) greatest := rfl

theorem truncate_zero (greatest : ℕ) : truncate greatest (.finite false 0) = 0 := by
  rw [truncate_finite, Nat.zero_div]
  exact Nat.zero_min greatest

theorem Negative.truncate_eq (hx : Negative x) : truncate greatest x = 0 := by
  rcases hx with ⟨a⟩ | _
  · rfl
  · rfl

/-- A number with a sign has no whole part, and those of the others have their order. -/
theorem truncate_mono (h : le x y = true) : truncate greatest x ≤ truncate greatest y := by
  obtain ⟨hx, hy⟩ := ne_nan_of_le h
  rcases nonneg_or_negative hx with hx | hx
  · rcases nonneg_or_negative hy with hy | hy
    · rcases hy with ⟨b⟩ | _
      · rcases hx with ⟨a⟩ | _
        · rw [finite_le_finite] at h
          rw [truncate_finite, truncate_finite]
          exact min_le_min_right greatest (Nat.div_le_div_right h)
        · contradiction
      · exact truncate_le greatest x
    · rw [hx.eq_zero_of_le hy h, truncate_zero]
      exact Nat.zero_le _
  · rw [hx.truncate_eq]
    exact Nat.zero_le _

theorem truncate_min (hx : x ≠ .nan) (hy : Nonneg y) :
    truncate greatest (Binary64.min x y) =
      Nat.min (truncate greatest x) (truncate greatest y) := by
  rw [min_of_ne_nan hx hy.ne_nan]
  by_cases hle : le x y = true
  · rw [if_pos hle]
    exact (Nat.min_eq_left (truncate_mono hle)).symm
  · have hge : le y x = true := (le_total hx hy).resolve_left hle
    rw [if_neg hle]
    exact (Nat.min_eq_right (truncate_mono hge)).symm

end Binary64
end ServiceKit
