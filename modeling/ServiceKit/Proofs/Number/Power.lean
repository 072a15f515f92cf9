import Mathlib.Data.Nat.EvenOddRec
import ServiceKit.Proofs.Number.Rounding

/-!
# Products and powers in binary64

Products and powers of numbers from one on keep the order of their operands, although every product
on the way is rounded.  A power grows with its base and with its exponent: the squares by which two
neighbouring exponents differ are never rounded below the product that they replace.
-/

namespace ServiceKit
namespace Binary64

variable {x y z x' y' : Binary64} {n d n' d' m a b : ℕ}

theorem unit_pos : 0 < unit := by decide +kernel

theorem overflow_eq : overflow = 2 ^ 1024 * unit := by decide +kernel

theorem unit_lt_overflow : unit < overflow := by decide +kernel

theorem isShort_unit : IsShort unit :=
  ⟨1, 1074, by decide, by decide +kernel⟩

/-! ## The order of numbers without a sign -/

/-- Zero, a positive number or positive infinity. -/
inductive Nonneg : Binary64 → Prop where
  | finite (steps : ℕ) : Nonneg (.finite false steps)
  | infinite : Nonneg (.infinite false)

@[simp] theorem finite_le_finite :
    le (.finite false a) (.finite false b) = true ↔ a ≤ b := by
  simp [le]

theorem Nonneg.le_infinite (hx : Nonneg x) : le x (.infinite false) = true := by
  rcases hx with ⟨a⟩ | _
  · rfl
  · rfl

theorem Nonneg.zero_le (hx : Nonneg x) : le (.finite false 0) x = true := by
  rcases hx with ⟨a⟩ | _
  · exact finite_le_finite.mpr (Nat.zero_le a)
  · rfl

theorem Nonneg.le_refl (hx : Nonneg x) : le x x = true := by
  rcases hx with ⟨a⟩ | _
  · exact finite_le_finite.mpr (Nat.le_refl a)
  · rfl

theorem Nonneg.le_trans (hx : Nonneg x) (hy : Nonneg y) (hz : Nonneg z) (hxy : le x y = true)
    (hyz : le y z = true) : le x z = true := by
  rcases hz with ⟨c⟩ | _
  · rcases hy with ⟨b⟩ | _
    · rcases hx with ⟨a⟩ | _
      · rw [finite_le_finite] at hxy hyz ⊢
        exact Nat.le_trans hxy hyz
      · contradiction
    · contradiction
  · exact hx.le_infinite

theorem one_le_finite : le one (.finite false a) = true ↔ unit ≤ a := by
  rw [one, finite_le_finite]

theorem one_le_mul_unit (hm : 0 < m) : le one (.finite false (m * unit)) = true := by
  rw [one_le_finite]
  exact Nat.le_mul_of_pos_left _ hm

theorem nonneg_one : Nonneg one :=
  .finite unit

theorem nonneg_of_one_le (h : le one x = true) : Nonneg x := by
  rcases x with _ | negative | ⟨negative, steps⟩
  · contradiction
  · by_cases hnegative : negative = true
    · subst hnegative
      contradiction
    · rw [Bool.not_eq_true] at hnegative
      exact hnegative ▸ .infinite
  · by_cases hnegative : negative = true
    · have hunit : (unit == 0) = false := beq_false_of_ne (Nat.ne_of_gt unit_pos)
      rw [hnegative, one, le, hunit, Bool.false_and] at h
      contradiction
    · rw [Bool.not_eq_true] at hnegative
      exact hnegative ▸ .finite steps

/-! ## Rounding to a number -/

theorem nonneg_ofSteps (n d : ℕ) : Nonneg (ofSteps false n d) := by
  rw [ofSteps]
  by_cases hlt : round n d < overflow
  · rw [if_pos hlt]
    exact .finite _
  · rw [if_neg hlt]
    exact .infinite

theorem nonneg_ofNat (n : ℕ) : Nonneg (ofNat n) :=
  nonneg_ofSteps _ _

theorem ofSteps_mono (hd : 0 < d) (hd' : 0 < d') (h : n * d' ≤ n' * d) :
    le (ofSteps false n d) (ofSteps false n' d') = true := by
  have hround : round n d ≤ round n' d' := round_mono hd hd' h
  by_cases hlt' : round n' d' < overflow
  · have hlt : round n d < overflow := Nat.lt_of_le_of_lt hround hlt'
    rw [ofSteps, ofSteps, if_pos hlt, if_pos hlt', finite_le_finite]
    exact hround
  · rw [ofSteps.eq_def false n', if_neg hlt']
    exact (nonneg_ofSteps n d).le_infinite

theorem ofSteps_of_isShort (hd : 0 < d) (hm : IsShort m) (hlt : m < overflow) :
    ofSteps false (m * d) d = .finite false m := by
  rw [ofSteps, round_of_isShort hd hm, if_pos hlt]

theorem le_ofSteps (hd : 0 < d) (hm : IsShort m) (h : m * d ≤ n) :
    le (.finite false m) (ofSteps false n d) = true := by
  have hround : m ≤ round n d := le_round hd hm h
  by_cases hlt : round n d < overflow
  · rw [ofSteps, if_pos hlt, finite_le_finite]
    exact hround
  · rw [ofSteps, if_neg hlt]
    exact (Nonneg.finite m).le_infinite

theorem one_le_ofNat (h : 1 ≤ n) : le one (ofNat n) = true := by
  apply le_ofSteps Nat.zero_lt_one isShort_unit
  rw [Nat.mul_one]
  exact Nat.le_mul_of_pos_left _ h

/-! ## Products -/

theorem finite_mul_finite (a b : ℕ) :
    mul (.finite false a) (.finite false b) = ofSteps false (a * b) unit := rfl

theorem finite_mul_infinite (ha : 0 < a) :
    mul (.finite false a) (.infinite false) = .infinite false := by
  rw [mul, if_neg (Nat.ne_of_gt ha)]
  rfl

theorem zero_mul_finite (b : ℕ) : mul (.finite false 0) (.finite false b) = .finite false 0 := by
  have hoverflow : 0 < overflow := Nat.lt_trans unit_pos unit_lt_overflow
  have hzero : ofSteps false (0 * unit) unit = .finite false 0 :=
    ofSteps_of_isShort unit_pos (isShort_of_le (Nat.zero_le _)) hoverflow
  rw [Nat.zero_mul] at hzero
  rw [finite_mul_finite, Nat.zero_mul, hzero]

theorem zero_mul_infinite : mul (.finite false 0) (.infinite false) = .nan := rfl

theorem infinite_mul (hx : le one x = true) : mul (.infinite false) x = .infinite false := by
  rcases nonneg_of_one_le hx with ⟨a⟩ | _
  · rw [one_le_finite] at hx
    rw [mul, if_neg (Nat.ne_of_gt (Nat.lt_of_lt_of_le unit_pos hx))]
    rfl
  · rfl

/-- Only zero times infinity is no number. -/
theorem infinite_mul_of_nonneg (hx : Nonneg x) :
    mul (.infinite false) x = .nan ∨ mul (.infinite false) x = .infinite false := by
  rcases hx with ⟨a⟩ | _
  · rw [mul]
    exact ite_eq_or_eq _ _ _
  · exact .inr rfl

theorem mul_comm_of_nonneg (hx : Nonneg x) (hy : Nonneg y) : mul x y = mul y x := by
  rcases hx with ⟨a⟩ | _
  · rcases hy with ⟨b⟩ | _
    · rw [finite_mul_finite, finite_mul_finite, Nat.mul_comm]
    · rfl
  · rcases hy with ⟨b⟩ | _
    · rfl
    · rfl

theorem nonneg_finite_mul (ha : 0 < a) (hx : Nonneg x) : Nonneg (mul (.finite false a) x) := by
  rcases hx with ⟨b⟩ | _
  · rw [finite_mul_finite]
    exact nonneg_ofSteps _ _
  · rw [finite_mul_infinite ha]
    exact .infinite

theorem finite_mul_le_mul (ha : 0 < a) (hx : Nonneg x) (hx' : Nonneg x') (h : le x x' = true) :
    le (mul (.finite false a) x) (mul (.finite false a) x') = true := by
  rcases hx' with ⟨b'⟩ | _
  · rcases hx with ⟨b⟩ | _
    · rw [finite_le_finite] at h
      rw [finite_mul_finite, finite_mul_finite]
      exact ofSteps_mono unit_pos unit_pos (Nat.mul_le_mul_right _ (Nat.mul_le_mul_left a h))
    · contradiction
  · rw [finite_mul_infinite ha]
    exact (nonneg_finite_mul ha hx).le_infinite

theorem one_le_of_le (hx : le one x = true) (hy : Nonneg y) (h : le x y = true) :
    le one y = true :=
  nonneg_one.le_trans (nonneg_of_one_le hx) hy hx h

theorem mul_le_mul_left (hx : le one x = true) (hy : le one y = true) (hy' : Nonneg y')
    (h : le y y' = true) : le (mul x y) (mul x y') = true := by
  rcases nonneg_of_one_le hx with ⟨a⟩ | _
  · rw [one_le_finite] at hx
    exact finite_mul_le_mul (Nat.lt_of_lt_of_le unit_pos hx) (nonneg_of_one_le hy) hy' h
  · rw [infinite_mul hy, infinite_mul (one_le_of_le hy hy' h)]
    rfl

theorem one_le_mul (hx : le one x = true) (hy : le one y = true) : le one (mul x y) = true := by
  rcases nonneg_of_one_le hx with ⟨a⟩ | _
  · rcases nonneg_of_one_le hy with ⟨b⟩ | _
    · rw [one_le_finite] at hx hy
      rw [finite_mul_finite]
      exact le_ofSteps unit_pos isShort_unit (Nat.mul_le_mul hx hy)
    · rw [one_le_finite] at hx
      rw [finite_mul_infinite (Nat.lt_of_lt_of_le unit_pos hx)]
      rfl
  · rw [infinite_mul hy]
    rfl

theorem mul_le_mul (hx : le one x = true) (hy : le one y = true) (hx' : Nonneg x')
    (hy' : Nonneg y') (hxx' : le x x' = true) (hyy' : le y y' = true) :
    le (mul x y) (mul x' y') = true := by
  have hone : le one x' = true := one_le_of_le hx hx' hxx'
  have hone' : le one y' = true := one_le_of_le hy hy' hyy'
  have hleft : le (mul x y) (mul x y') = true := mul_le_mul_left hx hy hy' hyy'
  have hright : le (mul y' x) (mul y' x') = true := mul_le_mul_left hone' hx hx' hxx'
  rw [mul_comm_of_nonneg hy' (nonneg_of_one_le hx), mul_comm_of_nonneg hy' hx'] at hright
  exact (nonneg_of_one_le (one_le_mul hx hy)).le_trans
    (nonneg_of_one_le (one_le_mul hx hone')) (nonneg_of_one_le (one_le_mul hone hone'))
    hleft hright

/-- A product is rounded already. -/
theorem one_mul_mul (hx : le one x = true) (hy : le one y = true) :
    mul one (mul x y) = mul x y := by
  have hinfinite : mul one (.infinite false) = .infinite false := finite_mul_infinite unit_pos
  rcases nonneg_of_one_le hx with ⟨a⟩ | _
  · rcases nonneg_of_one_le hy with ⟨b⟩ | _
    · rw [finite_mul_finite, ofSteps]
      by_cases hlt : round (a * b) unit < overflow
      · rw [if_pos hlt, one, finite_mul_finite, Nat.mul_comm,
          ofSteps_of_isShort unit_pos (isShort_round unit_pos _) hlt]
      · rw [if_neg hlt]
        exact hinfinite
    · rw [one_le_finite] at hx
      rw [finite_mul_infinite (Nat.lt_of_lt_of_le unit_pos hx)]
      exact hinfinite
  · rw [infinite_mul hy]
    exact hinfinite

/-! ## Powers by repeated squaring -/

section Go

variable {square square' acc acc' : Binary64} {e : ℕ}

theorem go_zero (square acc : Binary64) : powNat.go square 0 acc = acc := by
  rw [powNat.go]
  simp

theorem go_two_mul (square acc : Binary64) (h : ℕ) :
    powNat.go square (2 * h) acc = powNat.go (mul square square) h acc := by
  rw [powNat.go]
  by_cases hzero : h = 0
  · subst hzero
    simp [go_zero]
  · simp [hzero]

theorem go_two_mul_add_one (square acc : Binary64) (h : ℕ) :
    powNat.go square (2 * h + 1) acc =
      powNat.go (mul square square) h (mul acc square) := by
  rw [powNat.go]
  have hhalf : (2 * h + 1) / 2 = h := by omega
  by_cases hzero : h = 0
  · subst hzero
    simp [go_zero]
  · simp [hzero, hhalf]

theorem one_le_go (hsquare : le one square = true) (hacc : le one acc = true) :
    le one (powNat.go square e acc) = true := by
  induction e using Nat.evenOddRec generalizing square acc with
  | h0 =>
      rw [go_zero]
      exact hacc
  | h_even h ih =>
      rw [go_two_mul]
      exact ih (one_le_mul hsquare hsquare) hacc
  | h_odd h ih =>
      rw [go_two_mul_add_one]
      exact ih (one_le_mul hsquare hsquare) (one_le_mul hacc hsquare)

theorem go_le_go (hsquare : le one square = true) (hsquare' : Nonneg square')
    (hacc : le one acc = true) (hacc' : Nonneg acc') (hle : le square square' = true)
    (h : le acc acc' = true) :
    le (powNat.go square e acc) (powNat.go square' e acc') = true := by
  induction e using Nat.evenOddRec generalizing square square' acc acc' with
  | h0 =>
      rw [go_zero, go_zero]
      exact h
  | h_even half ih =>
      have hone' : le one square' = true := one_le_of_le hsquare hsquare' hle
      rw [go_two_mul, go_two_mul]
      exact ih (one_le_mul hsquare hsquare) (nonneg_of_one_le (one_le_mul hone' hone')) hacc hacc'
        (mul_le_mul hsquare hsquare hsquare' hsquare' hle hle) h
  | h_odd half ih =>
      have hone' : le one square' = true := one_le_of_le hsquare hsquare' hle
      have hacc_one' : le one acc' = true := one_le_of_le hacc hacc' h
      rw [go_two_mul_add_one, go_two_mul_add_one]
      exact ih (one_le_mul hsquare hsquare) (nonneg_of_one_le (one_le_mul hone' hone'))
        (one_le_mul hacc hsquare) (nonneg_of_one_le (one_le_mul hacc_one' hone'))
        (mul_le_mul hsquare hsquare hsquare' hsquare' hle hle)
        (mul_le_mul hacc hsquare hacc' hsquare' h hle)

/-- Where the next exponent carries, the square that replaces the product so far is not less. -/
theorem go_le_go_succ (hsquare : le one square = true) (hrounded : mul one square = square)
    (hacc : le one acc = true) (h : le acc square = true) :
    le (powNat.go square e acc) (powNat.go square (e + 1) one) = true := by
  have hone : le one one = true := nonneg_one.le_refl
  have hnonneg : Nonneg square := nonneg_of_one_le hsquare
  have hnext : le one (mul square square) = true := one_le_mul hsquare hsquare
  induction e using Nat.evenOddRec generalizing square acc with
  | h0 =>
      rw [go_zero, ← Nat.mul_zero 2, go_two_mul_add_one, go_zero, hrounded]
      exact h
  | h_even half ih =>
      rw [go_two_mul, go_two_mul_add_one, hrounded]
      have hnonneg' : Nonneg (mul square square) := nonneg_of_one_le hnext
      exact go_le_go hnext hnonneg' hacc hnonneg hnonneg'.le_refl h
  | h_odd half ih =>
      have hle : le (mul acc square) (mul square square) = true :=
        mul_le_mul hacc hsquare hnonneg hnonneg h hnonneg.le_refl
      have hsucc : 2 * half + 1 + 1 = 2 * (half + 1) := by omega
      rw [hsucc, go_two_mul_add_one, go_two_mul]
      exact ih hnext (one_mul_mul hsquare hsquare) (one_le_mul hacc hsquare) hle
        (nonneg_of_one_le hnext) (one_le_mul hnext hnext)

end Go

theorem one_le_powNat (hx : le one x = true) (e : ℕ) : le one (powNat x e) = true :=
  one_le_go hx nonneg_one.le_refl

theorem powNat_le_powNat_succ (hx : le one x = true) (e : ℕ) :
    le (powNat x e) (powNat x (e + 1)) = true := by
  have hone : le one one = true := nonneg_one.le_refl
  have hnonneg : Nonneg x := nonneg_of_one_le hx
  have hsquare : le one (mul x x) = true := one_le_mul hx hx
  have hfirst : le one (mul one x) = true := one_le_mul hone hx
  rw [powNat, powNat]
  obtain ⟨half, rfl | rfl⟩ := Nat.even_or_odd' e
  · have hnonneg' : Nonneg (mul x x) := nonneg_of_one_le hsquare
    rw [go_two_mul, go_two_mul_add_one]
    exact go_le_go hsquare hnonneg' hone (nonneg_of_one_le hfirst) hnonneg'.le_refl hfirst
  · have hle : le (mul one x) (mul x x) = true :=
      mul_le_mul hone hx hnonneg hnonneg hx hnonneg.le_refl
    have hsucc : 2 * half + 1 + 1 = 2 * (half + 1) := by omega
    rw [hsucc, go_two_mul_add_one, go_two_mul]
    exact go_le_go_succ hsquare (one_mul_mul hx hx) hfirst hle

/-- A power of a number from one on grows with a natural exponent. -/
theorem powNat_mono (hx : le one x = true) {i j : ℕ} (hij : i ≤ j) :
    le (powNat x i) (powNat x j) = true := by
  have hnonneg : ∀ e, Nonneg (powNat x e) := fun e => nonneg_of_one_le (one_le_powNat hx e)
  induction j, hij using Nat.le_induction with
  | base => exact (hnonneg i).le_refl
  | succ j hij ih =>
      exact (hnonneg i).le_trans (hnonneg j) (hnonneg (j + 1)) ih (powNat_le_powNat_succ hx j)

/-- A power grows with its base. -/
theorem powNat_le_powNat (hx : le one x = true) (hy : Nonneg y) (h : le x y = true) (e : ℕ) :
    le (powNat x e) (powNat y e) = true :=
  go_le_go hx hy nonneg_one.le_refl nonneg_one h nonneg_one.le_refl

/-! ## Powers with a sign in the exponent -/

theorem reciprocal_finite (ha : 0 < a) :
    reciprocal (.finite false a) = ofSteps false (unit * unit) a := by
  rw [reciprocal, if_neg (Nat.ne_of_gt ha)]

theorem reciprocal_anti (hx : le one x = true) (hy : Nonneg y) (h : le x y = true) :
    le (reciprocal y) (reciprocal x) = true := by
  rcases nonneg_of_one_le hx with ⟨a⟩ | _
  · rw [one_le_finite] at hx
    have ha : 0 < a := Nat.lt_of_lt_of_le unit_pos hx
    rw [reciprocal_finite ha]
    rcases hy with ⟨b⟩ | _
    · rw [finite_le_finite] at h
      have hb : 0 < b := Nat.lt_of_lt_of_le ha h
      rw [reciprocal_finite hb]
      exact ofSteps_mono hb ha (Nat.mul_le_mul_left _ h)
    · rw [reciprocal]
      exact (nonneg_ofSteps _ _).zero_le
  · rcases hy with ⟨b⟩ | _
    · contradiction
    · exact finite_le_finite.mpr (Nat.le_refl 0)

theorem nonneg_reciprocal (hx : le one x = true) : Nonneg (reciprocal x) := by
  rcases nonneg_of_one_le hx with ⟨a⟩ | _
  · rw [one_le_finite] at hx
    rw [reciprocal_finite (Nat.lt_of_lt_of_le unit_pos hx)]
    exact nonneg_ofSteps _ _
  · exact .finite 0

theorem reciprocal_one : reciprocal one = one := by
  rw [one, reciprocal_finite unit_pos, ofSteps_of_isShort unit_pos isShort_unit unit_lt_overflow]

theorem reciprocal_le_one (hx : le one x = true) : le (reciprocal x) one = true := by
  have hle : le (reciprocal x) (reciprocal one) = true :=
    reciprocal_anti nonneg_one.le_refl (nonneg_of_one_le hx) hx
  rwa [reciprocal_one] at hle

theorem pow_natCast (x : Binary64) (e : ℕ) : pow x e = powNat x e := by
  rw [pow, if_neg (Int.not_lt.mpr (Int.natCast_nonneg e)), Int.natAbs_natCast]

theorem pow_of_neg {e : ℤ} (he : e < 0) : pow x e = reciprocal (powNat x e.natAbs) := by
  rw [pow, if_pos he]

theorem nonneg_pow (hx : le one x = true) (e : ℤ) : Nonneg (pow x e) := by
  by_cases he : e < 0
  · rw [pow_of_neg he]
    exact nonneg_reciprocal (one_le_powNat hx _)
  · rw [pow, if_neg he]
    exact nonneg_of_one_le (one_le_powNat hx _)

/-- A power of a number from one on grows with its exponent. -/
theorem pow_mono (hx : le one x = true) {i j : ℤ} (hij : i ≤ j) :
    le (pow x i) (pow x j) = true := by
  by_cases hi : i < 0
  · rw [pow_of_neg hi]
    have hone : le one (powNat x i.natAbs) = true := one_le_powNat hx _
    by_cases hj : j < 0
    · have hle : j.natAbs ≤ i.natAbs := by omega
      rw [pow_of_neg hj]
      exact reciprocal_anti (one_le_powNat hx _) (nonneg_of_one_le hone) (powNat_mono hx hle)
    · rw [pow, if_neg hj]
      exact (nonneg_reciprocal hone).le_trans nonneg_one (nonneg_of_one_le (one_le_powNat hx _))
        (reciprocal_le_one hone) (one_le_powNat hx _)
  · have hj : ¬ j < 0 := by omega
    have hle : i.natAbs ≤ j.natAbs := by omega
    rw [pow, pow, if_neg hi, if_neg hj]
    exact powNat_mono hx hle

end Binary64
end ServiceKit
