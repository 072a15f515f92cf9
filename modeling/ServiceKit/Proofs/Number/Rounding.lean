import Mathlib.Algebra.Order.Ring.Nat
import Mathlib.Data.Nat.Log
import Mathlib.Tactic.Ring
import ServiceKit.Number.Binary64

/-!
# Rounding to 53 significant bits

Rounding gives a number of 53 significant bits, leaves such a number as it is, and never turns the
order of two numbers around.  Hence a number of 53 significant bits that bounds a quotient also
bounds what the quotient is rounded to.
-/

namespace ServiceKit
namespace Binary64

variable {n d n' d' m : ℕ}

/-! ## The nearest natural number -/

/-- The nearest number is beyond `m` where the quotient is beyond the middle between `m` and its
successor, or in the middle with an even successor. -/
theorem lt_nearest_iff (hd : 0 < d) :
    m < nearest n d ↔ (2 * m + 1) * d < 2 * n ∨ (2 * m + 1) * d = 2 * n ∧ m % 2 = 1 := by
  have hn : n = n / d * d + n % d := (Nat.div_add_mod' n d).symm
  have hr : n % d < d := Nat.mod_lt n hd
  have hnearest : nearest n d =
      if 2 * (n % d) < d then n / d
      else if d < 2 * (n % d) then n / d + 1 else n / d + n / d % 2 := rfl
  rw [hnearest]
  generalize n / d = q at hn ⊢
  generalize n % d = r at hn hr ⊢
  subst hn
  have hmiddle : (2 * m + 1) * d = 2 * (m * d) + d := by ring
  rw [hmiddle]
  rcases Nat.lt_trichotomy m q with hlt | rfl | hgt
  · obtain ⟨k, rfl⟩ := Nat.exists_eq_add_of_lt hlt
    have hq : (m + k + 1) * d = m * d + k * d + d := by ring
    rw [hq]
    split_ifs <;> omega
  · split_ifs <;> omega
  · obtain ⟨k, rfl⟩ := Nat.exists_eq_add_of_lt hgt
    have hm : (q + k + 1) * d = q * d + k * d + d := by ring
    rw [hm]
    split_ifs <;> omega

theorem nearest_mono (hd : 0 < d) (hd' : 0 < d') (h : n * d' ≤ n' * d) :
    nearest n d ≤ nearest n' d' := by
  apply le_of_forall_lt
  intro m hm
  rw [lt_nearest_iff hd] at hm
  rw [lt_nearest_iff hd']
  have hswap : (2 * m + 1) * d' * d = (2 * m + 1) * d * d' := by ring
  have hdouble : 2 * n * d' ≤ 2 * n' * d := by
    rw [Nat.mul_assoc, Nat.mul_assoc]
    exact Nat.mul_le_mul_left 2 h
  rcases hm with hlt | ⟨heq, hodd⟩
  · left
    apply Nat.lt_of_mul_lt_mul_right (a := d)
    calc (2 * m + 1) * d' * d = (2 * m + 1) * d * d' := hswap
      _ < 2 * n * d' := Nat.mul_lt_mul_of_pos_right hlt hd'
      _ ≤ 2 * n' * d := hdouble
  · have hle : (2 * m + 1) * d' ≤ 2 * n' := by
      apply Nat.le_of_mul_le_mul_right _ hd
      rw [hswap, heq]
      exact hdouble
    rcases Nat.lt_or_eq_of_le hle with hlt | heq'
    · exact .inl hlt
    · exact .inr ⟨heq', hodd⟩

theorem nearest_mul (hd : 0 < d) (m : ℕ) : nearest (m * d) d = m := by
  apply eq_of_forall_lt_iff
  intro k
  rw [lt_nearest_iff hd, ← Nat.mul_assoc, Nat.mul_lt_mul_right hd,
    Nat.mul_left_inj (Nat.ne_of_gt hd)]
  omega

theorem nearest_le (hd : 0 < d) (h : n ≤ m * d) : nearest n d ≤ m := by
  have hle : nearest n d ≤ nearest (m * d) d := nearest_mono hd hd (Nat.mul_le_mul_right d h)
  rwa [nearest_mul hd] at hle

theorem le_nearest (hd : 0 < d) (h : m * d ≤ n) : m ≤ nearest n d := by
  have hle : nearest (m * d) d ≤ nearest n d := nearest_mono hd hd (Nat.mul_le_mul_right d h)
  rwa [nearest_mul hd] at hle

/-! ## Numbers of 53 significant bits -/

/-- A number has at most 53 significant bits. -/
def IsShort (n : ℕ) : Prop :=
  ∃ k e, k ≤ 2 ^ 53 ∧ n = k * 2 ^ e

theorem isShort_of_le (h : n ≤ 2 ^ 53) : IsShort n :=
  ⟨n, 0, h, (Nat.mul_one n).symm⟩

theorem isShort_two_pow (e : ℕ) : IsShort (2 ^ e) :=
  ⟨1, e, Nat.one_le_two_pow, (Nat.one_mul _).symm⟩

theorem IsShort.mul_two_pow (h : IsShort n) (e : ℕ) : IsShort (n * 2 ^ e) := by
  obtain ⟨k, e', hk, rfl⟩ := h
  exact ⟨k, e' + e, hk, by rw [Nat.mul_assoc, ← Nat.pow_add]⟩

theorem spacing_eq (q : ℕ) : spacing q = 2 ^ (q.log2 - 52) := rfl

theorem spacing_pos (q : ℕ) : 0 < spacing q :=
  Nat.two_pow_pos _

/-- The numbers of 53 significant bits are multiples of the spacing around them. -/
theorem IsShort.spacing_dvd (h : IsShort n) : spacing n ∣ n := by
  obtain ⟨k, e, hk, hn⟩ := h
  rw [spacing_eq]
  by_cases hzero : n = 0
  · rw [hzero]
    exact Nat.dvd_zero _
  by_cases he : n.log2 - 52 ≤ e
  · rw [hn] at he ⊢
    exact Nat.dvd_mul_left_of_dvd (Nat.pow_dvd_pow 2 he) k
  -- otherwise `n` is the power of two at which 53 bits overflow into 54
  · have hle : n ≤ 2 ^ (53 + e) := by
      rw [hn, Nat.pow_add]
      exact Nat.mul_le_mul_right _ hk
    have hge : 2 ^ n.log2 ≤ n := Nat.log2_self_le hzero
    have hlog : n.log2 ≤ 53 + e := (Nat.pow_le_pow_iff_right (by decide)).mp (hge.trans hle)
    have heq : n.log2 = 53 + e := by omega
    have hpow : n = 2 ^ n.log2 := Nat.le_antisymm (heq ▸ hle) hge
    exact (Nat.pow_dvd_pow 2 (Nat.sub_le _ _)).trans (dvd_of_eq hpow.symm)

/-! ## Rounding a quotient -/

theorem round_eq (n d : ℕ) :
    round n d = nearest n (d * spacing (n / d)) * spacing (n / d) := rfl

theorem lt_two_pow_mul_spacing (hd : 0 < d) (n : ℕ) : n < 2 ^ 53 * (d * spacing (n / d)) := by
  have hlog : n / d < 2 ^ ((n / d).log2 + 1) := Nat.lt_log2_self
  have hle : (n / d).log2 + 1 ≤ 53 + ((n / d).log2 - 52) := by omega
  have hlt : n / d < 2 ^ 53 * spacing (n / d) := by
    rw [spacing_eq, ← Nat.pow_add]
    exact Nat.lt_of_lt_of_le hlog (Nat.pow_le_pow_right (by decide) hle)
  rw [Nat.div_lt_iff_lt_mul hd] at hlt
  rwa [Nat.mul_comm d, ← Nat.mul_assoc]

theorem nearest_spacing_le (hd : 0 < d) (n : ℕ) : nearest n (d * spacing (n / d)) ≤ 2 ^ 53 :=
  nearest_le (Nat.mul_pos hd (spacing_pos _)) (Nat.le_of_lt (lt_two_pow_mul_spacing hd n))

theorem isShort_round (hd : 0 < d) (n : ℕ) : IsShort (round n d) :=
  ⟨nearest n (d * spacing (n / d)), (n / d).log2 - 52, nearest_spacing_le hd n, rfl⟩

theorem round_of_isShort (hd : 0 < d) (hm : IsShort m) : round (m * d) d = m := by
  obtain ⟨k, hk⟩ := hm.spacing_dvd
  have hquotient : m * d / d = m := Nat.mul_div_cancel m hd
  have hproduct : m * d = k * (d * spacing m) := by
    conv_lhs => rw [hk]
    ring
  rw [round_eq, hquotient, hproduct, nearest_mul (Nat.mul_pos hd (spacing_pos m)), Nat.mul_comm]
  exact hk.symm

theorem round_le_mul_spacing (hd : 0 < d) (n : ℕ) : round n d ≤ 2 ^ 53 * spacing (n / d) :=
  Nat.mul_le_mul_right _ (nearest_spacing_le hd n)

/-- Where numbers are further apart than one, rounding gives at least 53 bits. -/
theorem mul_spacing_le_round (hd : 0 < d) (hlog : 52 < (n / d).log2) :
    2 ^ 52 * spacing (n / d) ≤ round n d := by
  have hne : n / d ≠ 0 := by
    intro hzero
    rw [hzero, Nat.log2_zero] at hlog
    contradiction
  have hpow : 2 ^ 52 * spacing (n / d) ≤ n / d := by
    rw [spacing_eq, ← Nat.pow_add, Nat.add_sub_cancel' (Nat.le_of_lt hlog)]
    exact Nat.log2_self_le hne
  rw [round_eq]
  apply Nat.mul_le_mul_right
  apply le_nearest (Nat.mul_pos hd (spacing_pos _))
  rwa [Nat.mul_comm d, ← Nat.mul_assoc, ← Nat.le_div_iff_mul_le hd]

theorem div_le_div_of_mul_le (hd : 0 < d) (hd' : 0 < d') (h : n * d' ≤ n' * d) :
    n / d ≤ n' / d' := by
  rw [Nat.le_div_iff_mul_le hd']
  apply Nat.le_of_mul_le_mul_right _ hd
  calc n / d * d' * d = n / d * d * d' := Nat.mul_right_comm _ _ _
    _ ≤ n * d' := Nat.mul_le_mul_right d' (Nat.div_mul_le_self n d)
    _ ≤ n' * d := h

/-- Rounding keeps the order of quotients. -/
theorem round_mono (hd : 0 < d) (hd' : 0 < d') (h : n * d' ≤ n' * d) :
    round n d ≤ round n' d' := by
  have hlog : (n / d).log2 ≤ (n' / d').log2 := by
    rw [Nat.log2_eq_log_two, Nat.log2_eq_log_two]
    exact Nat.log_mono_right (div_le_div_of_mul_le hd hd' h)
  by_cases hspacing : spacing (n / d) = spacing (n' / d')
  · rw [round_eq, round_eq, hspacing]
    apply Nat.mul_le_mul_right
    apply nearest_mono (Nat.mul_pos hd (spacing_pos _)) (Nat.mul_pos hd' (spacing_pos _))
    rw [← Nat.mul_assoc, ← Nat.mul_assoc]
    exact Nat.mul_le_mul_right _ h
  -- a power of two lies between them, and neither is rounded across it
  · have hne : (n / d).log2 - 52 ≠ (n' / d').log2 - 52 := fun heq => hspacing (by
      rw [spacing_eq, spacing_eq, heq])
    have hstep : 53 + ((n / d).log2 - 52) ≤ 52 + ((n' / d').log2 - 52) := by omega
    calc round n d ≤ 2 ^ 53 * spacing (n / d) := round_le_mul_spacing hd n
      _ ≤ 2 ^ 52 * spacing (n' / d') := by
        rw [spacing_eq, spacing_eq, ← Nat.pow_add, ← Nat.pow_add]
        exact Nat.pow_le_pow_right (by decide) hstep
      _ ≤ round n' d' := mul_spacing_le_round hd' (by omega)

theorem le_round (hd : 0 < d) (hm : IsShort m) (h : m * d ≤ n) : m ≤ round n d := by
  have hle : round (m * d) d ≤ round n d := round_mono hd hd (Nat.mul_le_mul_right d h)
  rwa [round_of_isShort hd hm] at hle

end Binary64
end ServiceKit
