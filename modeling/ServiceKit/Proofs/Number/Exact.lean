import ServiceKit.Proofs.Number.WholePart

/-!
# Exact arithmetic up to a cap

A binary64 number agrees with a natural number up to a cap if it is that number exactly, or if both
have reached the cap.  Products and powers keep the agreement where the exact results below the cap
have 53 significant bits: what is rounded or overflows has reached the cap already, and multiplying
it by numbers from one on does not bring it back.  Whole parts up to the cap are therefore those of
the exact results, and only a great power lies beyond the finite numbers.
-/

namespace ServiceKit
namespace Binary64

variable {x y : Binary64} {cap n k m d b e greatest : ℕ}

/-! ## Agreement -/

/-- A number that agreement can be capped at: it has 53 significant bits and is finite. -/
structure IsCap (cap : ℕ) : Prop where
  isShort : IsShort cap
  pos : 0 < cap
  lt : cap < 2 ^ 1024

theorem isCap_two_pow {e : ℕ} (he : e < 1024) : IsCap (2 ^ e) where
  isShort := isShort_two_pow e
  pos := Nat.two_pow_pos e
  lt := by
    rw [Nat.pow_lt_pow_iff_right Nat.one_lt_two]
    exact he

theorem isShort_or_le (n : ℕ) : IsShort n ∨ 2 ^ 53 ≤ n := by
  rcases Nat.le_total n (2 ^ 53) with hle | hle
  · exact .inl (isShort_of_le hle)
  · exact .inr hle

/-- A number is a natural number exactly, or both have reached a cap. -/
inductive AgreesUpTo (cap : ℕ) : Binary64 → ℕ → Prop where
  | exact (n : ℕ) : AgreesUpTo cap (.finite false (n * unit)) n
  | beyond {x : Binary64} {n : ℕ} (hx : Nonneg x) (hn : cap ≤ n)
      (hle : le (.finite false (cap * unit)) x = true) : AgreesUpTo cap x n

theorem isShort_mul_unit (h : IsShort n) : IsShort (n * unit) := by
  have hunit : unit = 2 ^ 1074 := by decide +kernel
  rw [hunit]
  exact h.mul_two_pow 1074

theorem mul_unit_lt_overflow (h : n < 2 ^ 1024) : n * unit < overflow := by
  rw [overflow_eq]
  exact Nat.mul_lt_mul_of_pos_right h unit_pos

/-- A natural number of 53 significant bits is held exactly. -/
theorem ofNat_of_isShort (h : IsShort n) (hlt : n < 2 ^ 1024) :
    ofNat n = .finite false (n * unit) := by
  have hsteps := ofSteps_of_isShort Nat.zero_lt_one (isShort_mul_unit h) (mul_unit_lt_overflow hlt)
  rwa [Nat.mul_one] at hsteps

theorem ofNat_of_le (h : n ≤ 2 ^ 53) : ofNat n = .finite false (n * unit) :=
  ofNat_of_isShort (isShort_of_le h) (Nat.lt_of_le_of_lt h (by decide +kernel))

theorem IsCap.mul_unit_lt (hcap : IsCap cap) : cap * unit < overflow :=
  mul_unit_lt_overflow hcap.lt

theorem IsCap.one_le (hcap : IsCap cap) : le one (.finite false (cap * unit)) = true :=
  one_le_mul_unit hcap.pos

theorem AgreesUpTo.nonneg (h : AgreesUpTo cap x n) : Nonneg x := by
  induction h with
  | exact n => exact .finite _
  | beyond hx hn hle => exact hx

theorem AgreesUpTo.one_le (hcap : IsCap cap) (h : AgreesUpTo cap x n) (hn : 0 < n) :
    le one x = true := by
  induction h with
  | exact n => exact one_le_mul_unit hn
  | beyond hx hcapn hle => exact one_le_of_le hcap.one_le hx hle

theorem agreesUpTo_ofSteps (hcap : IsCap cap) (hd : 0 < d) (hn : IsShort n ∨ cap ≤ n) :
    AgreesUpTo cap (ofSteps false (n * unit * d) d) n := by
  by_cases hle : cap ≤ n
  · refine .beyond (nonneg_ofSteps _ _) hle ?_
    apply le_ofSteps hd (isShort_mul_unit hcap.isShort)
    exact Nat.mul_le_mul_right d (Nat.mul_le_mul_right unit hle)
  · have hshort : IsShort n := hn.resolve_right hle
    have hlt : n * unit < overflow :=
      Nat.lt_of_le_of_lt (Nat.mul_le_mul_right unit (Nat.le_of_not_le hle)) hcap.mul_unit_lt
    rw [ofSteps_of_isShort hd (isShort_mul_unit hshort) hlt]
    exact .exact n

theorem agreesUpTo_ofNat (hcap : IsCap cap) (hn : IsShort n ∨ cap ≤ n) :
    AgreesUpTo cap (ofNat n) n := by
  have h := agreesUpTo_ofSteps hcap Nat.zero_lt_one hn
  rwa [Nat.mul_one] at h

/-- Multiplying by a number from one on does not fall below a cap. -/
theorem IsCap.le_mul (hcap : IsCap cap) (hx : Nonneg x)
    (hle : le (.finite false (cap * unit)) x = true) (hy : le one y = true) :
    le (.finite false (cap * unit)) (mul x y) = true := by
  have hone : le one one = true := nonneg_one.le_refl
  have hmul : le (mul (.finite false (cap * unit)) one) (mul x y) = true :=
    mul_le_mul hcap.one_le hone hx (nonneg_of_one_le hy) hle hy
  rwa [one, finite_mul_finite,
    ofSteps_of_isShort unit_pos (isShort_mul_unit hcap.isShort) hcap.mul_unit_lt] at hmul

theorem AgreesUpTo.mul (hcap : IsCap cap) (hx : AgreesUpTo cap x n) (hy : AgreesUpTo cap y m)
    (hn : 0 < n) (hm : 0 < m) (hnm : IsShort (n * m) ∨ cap ≤ n * m) :
    AgreesUpTo cap (Binary64.mul x y) (n * m) := by
  have honex : le one x = true := hx.one_le hcap hn
  have honey : le one y = true := hy.one_le hcap hm
  have hnonneg : Nonneg (Binary64.mul x y) := nonneg_of_one_le (one_le_mul honex honey)
  induction hx with
  | exact n =>
      induction hy with
      | exact m =>
          have hsteps : n * unit * (m * unit) = n * m * unit * unit := by ring
          rw [finite_mul_finite, hsteps]
          exact agreesUpTo_ofSteps hcap unit_pos hnm
      | beyond hyn hcapm hle =>
          refine .beyond hnonneg (hcapm.trans (Nat.le_mul_of_pos_left _ hn)) ?_
          rw [mul_comm_of_nonneg (nonneg_of_one_le honex) hyn]
          exact hcap.le_mul hyn hle honex
  | beyond hxn hcapn hle =>
      refine .beyond hnonneg (hcapn.trans (Nat.le_mul_of_pos_right _ hm)) ?_
      exact hcap.le_mul hxn hle honey

/-! ## Powers -/

theorem AgreesUpTo.go {square acc : Binary64} {i j e : ℕ} (hcap : IsCap cap) (hm : 0 < m)
    (hshort : ∀ k, IsShort (m ^ k) ∨ cap ≤ m ^ k) (hsquare : AgreesUpTo cap square (m ^ i))
    (hacc : AgreesUpTo cap acc (m ^ j)) :
    AgreesUpTo cap (powNat.go square e acc) (m ^ (i * e + j)) := by
  have hpow : ∀ k, 0 < m ^ k := fun k => Nat.pow_pos hm
  -- the square, and the product so far, stay powers of the base
  have hmul : ∀ {z w : Binary64} {s t : ℕ}, AgreesUpTo cap z (m ^ s) → AgreesUpTo cap w (m ^ t) →
      AgreesUpTo cap (Binary64.mul z w) (m ^ (s + t)) := by
    intro z w s t hz hw
    rw [Nat.pow_add]
    exact hz.mul hcap hw (hpow s) (hpow t) (Nat.pow_add m s t ▸ hshort (s + t))
  induction e using Nat.evenOddRec generalizing square acc i j with
  | h0 =>
      rw [go_zero, Nat.mul_zero, Nat.zero_add]
      exact hacc
  | h_even half ih =>
      have hexponent : i * (2 * half) + j = (i + i) * half + j := by ring
      rw [go_two_mul, hexponent]
      exact ih (hmul hsquare hsquare) hacc
  | h_odd half ih =>
      have hexponent : i * (2 * half + 1) + j = (i + i) * half + (j + i) := by ring
      rw [go_two_mul_add_one, hexponent]
      exact ih (hmul hsquare hsquare) (hmul hacc hsquare)

/-- Powers of a natural number agree with the exact ones up to a cap, if those below it have 53
significant bits. -/
theorem agreesUpTo_powNat (hcap : IsCap cap) (hm : 0 < m)
    (hshort : ∀ k, IsShort (m ^ k) ∨ cap ≤ m ^ k) (e : ℕ) :
    AgreesUpTo cap (powNat (.finite false (m * unit)) e) (m ^ e) := by
  have hbase : AgreesUpTo cap (.finite false (m * unit)) (m ^ 1) := by
    rw [Nat.pow_one]
    exact .exact m
  have hone : AgreesUpTo cap one (m ^ 0) := by
    rw [one, ← Nat.one_mul unit, Nat.pow_zero]
    exact .exact 1
  have hgo := AgreesUpTo.go (e := e) hcap hm hshort hbase hone
  rwa [Nat.one_mul, Nat.add_zero] at hgo

/-! ## Powers beyond the finite numbers -/

theorem exists_two_pow_between (hm : 1 ≤ m) : ∃ k, m ≤ 2 ^ k ∧ 2 ^ k ≤ m ^ 2 := by
  refine ⟨Nat.clog 2 m, Nat.le_pow_clog (by decide) m, ?_⟩
  rcases Nat.eq_or_lt_of_le hm with rfl | hlt
  · rw [Nat.clog_one_right, Nat.one_pow, Nat.pow_zero]
  · have hbelow : 2 ^ (Nat.clog 2 m - 1) < m := Nat.pow_pred_clog_lt_self (by decide) hlt
    have hpos : 0 < Nat.clog 2 m := Nat.clog_pos (by decide) hlt
    calc 2 ^ Nat.clog 2 m = 2 * 2 ^ (Nat.clog 2 m - 1) := by
          rw [← Nat.pow_succ', Nat.succ_eq_add_one, Nat.sub_add_cancel hpos]
      _ ≤ m * m := Nat.mul_le_mul hlt (Nat.le_of_lt hbelow)
      _ = m ^ 2 := (Nat.pow_two m).symm

theorem AgreesUpTo.le_of_infinite_le (h : AgreesUpTo cap x n)
    (hle : le (.infinite false) x = true) : cap ≤ n := by
  cases h with
  | exact n => contradiction
  | beyond hx hn hcap => exact hn

/-- Only a power that is great is held as infinity. -/
theorem le_pow_of_infinite {c : ℕ} (hc : c < 512) (hm : 1 ≤ m)
    (h : powNat (.finite false (m * unit)) e = .infinite false) : 2 ^ c ≤ m ^ e := by
  obtain ⟨k, hle, hge⟩ := exists_two_pow_between hm
  -- the power of a power of two is exact, so it tells how great it is
  have hagrees : AgreesUpTo (2 ^ (c * 2)) (powNat (.finite false (2 ^ k * unit)) e)
      ((2 ^ k) ^ e) := by
    apply agreesUpTo_powNat (isCap_two_pow (by omega)) (Nat.two_pow_pos k)
    intro i
    rw [← Nat.pow_mul]
    exact .inl (isShort_two_pow _)
  have hmono : le (.infinite false) (powNat (.finite false (2 ^ k * unit)) e) = true := by
    rw [← h]
    exact powNat_le_powNat (one_le_mul_unit hm) (.finite (2 ^ k * unit))
      (finite_le_finite.mpr (Nat.mul_le_mul_right unit hle)) e
  have hsquare : (2 ^ c) ^ 2 ≤ (m ^ e) ^ 2 := by
    calc (2 ^ c) ^ 2 = 2 ^ (c * 2) := (Nat.pow_mul 2 c 2).symm
      _ ≤ (2 ^ k) ^ e := hagrees.le_of_infinite_le hmono
      _ ≤ (m ^ 2) ^ e := Nat.pow_le_pow_left hge e
      _ = (m ^ e) ^ 2 := Nat.pow_right_comm m 2 e
  exact (Nat.pow_le_pow_iff_left (by decide)).mp hsquare

/-! ## Whole parts -/

/-- Up to the cap the whole part is that of the exact number. -/
theorem AgreesUpTo.min_truncate (h : AgreesUpTo cap x n) (hb : b ≤ cap) :
    Nat.min (truncate greatest x) b = Nat.min (Nat.min n greatest) b := by
  induction h with
  | exact n => rw [truncate_finite, Nat.mul_div_cancel n unit_pos]
  | @beyond x n hx hn hle =>
      have hge : Nat.min cap greatest ≤ truncate greatest x := by
        have hmono : truncate greatest (.finite false (cap * unit)) ≤ truncate greatest x :=
          truncate_mono hle
        rwa [truncate_finite, Nat.mul_div_cancel cap unit_pos] at hmono
      have hle' : truncate greatest x ≤ greatest := truncate_le greatest x
      simp only [Nat.min_def] at hge ⊢
      split_ifs at hge ⊢ <;> omega

end Binary64
end ServiceKit
