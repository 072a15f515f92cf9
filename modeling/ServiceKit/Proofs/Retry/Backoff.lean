import ServiceKit.Proofs.Number.Exact
import ServiceKit.Proofs.Retry.Polling

/-!
# How waits grow

With a natural multiplier the wait after an attempt is the exact product of the initial delay and
the power of the multiplier, up to the cap, although it is computed in binary64 by repeated
squaring.  Waits grow as long as the exponent does.  The exponent reads the 32 bits of an attempt as
a signed number, so it falls once, from the greatest to the least, and the wait falls with it.
-/

namespace ServiceKit
namespace RetryPolicy

open Binary64

variable {policy : RetryPolicy} {cap m n i j attempt : ℕ}

/-! ## The exponent -/

theorem exponent_eq {e : ℤ} (hle : -2147483648 ≤ e) (hlt : e < 2147483648)
    (heq : e = attempt ∨ e = attempt - 4294967296) : exponent attempt = e := by
  have hself : e.bmod 4294967296 = e := by
    apply Int.bmod_eq_of_le_mul_two
    · norm_num
      omega
    · norm_num
      omega
  rcases heq with rfl | rfl
  · exact hself
  · rw [← hself]
    exact (Int.sub_bmod_right _ 4294967296).symm

theorem exponent_of_lt (h : attempt < 2 ^ 31) : exponent attempt = attempt := by
  have h' : attempt < 2147483648 := h
  exact exponent_eq (by omega) (by omega) (.inl rfl)

theorem exponent_of_le (hle : 2 ^ 31 ≤ attempt) (hlt : attempt < 2 ^ 32) :
    exponent attempt = attempt - 2 ^ 32 := by
  have hle' : 2147483648 ≤ attempt := hle
  have hlt' : attempt < 4294967296 := hlt
  exact exponent_eq (by omega) (by omega) (.inr (by norm_num))

/-- The exponent grows with the attempt, except from the greatest to the least. -/
theorem exponent_mono (hij : i ≤ j) (hj : j < 2 ^ 32) (hside : j < 2 ^ 31 ∨ 2 ^ 31 ≤ i) :
    exponent i ≤ exponent j := by
  rcases hside with hpositive | hnegative
  · rw [exponent_of_lt hpositive, exponent_of_lt (Nat.lt_of_le_of_lt hij hpositive)]
    exact Int.ofNat_le.mpr hij
  · rw [exponent_of_le hnegative (Nat.lt_of_le_of_lt hij hj),
      exponent_of_le (Nat.le_trans hnegative hij) hj]
    exact Int.sub_le_sub_right (Int.ofNat_le.mpr hij) _

/-! ## The wait as a minimum of whole numbers -/

/-- A policy whose multiplier is a natural number from one on, without jitter. -/
structure Multiplies (policy : RetryPolicy) (m : ℕ) : Prop where
  jitter : policy.jitter = false
  multiplier : policy.multiplier = .finite false (m * unit)
  one_le : 1 ≤ m

/-- A policy whose waits grow by a natural factor, without jitter, from a millisecond or more. -/
structure Geometric (policy : RetryPolicy) (m : ℕ) : Prop where
  jitter : policy.jitter = false
  multiplier : policy.multiplier = .finite false (m * unit)
  one_le : 1 ≤ m
  initialDelay : 1 ≤ policy.initialDelay.millis

/-- The initial delay times the power of the multiplier. -/
def uncapped (policy : RetryPolicy) (attempt : ℕ) : Binary64 :=
  (ofNat policy.initialDelay.millis).mul (policy.multiplier.pow (exponent attempt))

/-- The greatest wait of a policy. -/
def greatestDelay (policy : RetryPolicy) : ℕ :=
  truncate longestMillis (ofNat policy.maxDelay.millis)

theorem rawDelay_eq (policy : RetryPolicy) (attempt : ℕ) :
    policy.rawDelay attempt =
      Binary64.min (policy.uncapped attempt) (ofNat policy.maxDelay.millis) := rfl

theorem delay_eq (h : policy.uncapped attempt ≠ .nan) :
    policy.delay attempt =
      Nat.min (truncate longestMillis (policy.uncapped attempt)) policy.greatestDelay := by
  rw [delay, rawDelay_eq, truncate_min h (nonneg_ofNat _), greatestDelay]

theorem delay_of_nan (h : policy.uncapped attempt = .nan) :
    policy.delay attempt = policy.greatestDelay := by
  rw [delay, rawDelay_eq, h, nan_min, greatestDelay]

theorem delay_of_le
    (h : le (ofNat policy.maxDelay.millis) (policy.uncapped attempt) = true) :
    policy.delay attempt = policy.greatestDelay := by
  rw [delay_eq (ne_nan_of_le h).2]
  exact Nat.min_eq_right (truncate_mono h)

theorem Multiplies.one_le_multiplier (h : policy.Multiplies m) :
    le one policy.multiplier = true := by
  rw [h.multiplier]
  exact one_le_mul_unit h.one_le

theorem Geometric.multiplies (h : policy.Geometric m) : policy.Multiplies m :=
  ⟨h.jitter, h.multiplier, h.one_le⟩

theorem Multiplies.geometric (h : policy.Multiplies m) (hinitial : 1 ≤ policy.initialDelay.millis) :
    policy.Geometric m :=
  ⟨h.jitter, h.multiplier, h.one_le, hinitial⟩

theorem ofNat_two : ofNat 2 = .finite false (2 * unit) :=
  ofNat_of_le (by decide)

theorem millis_readiness (maxRetries : ℕ) :
    (readiness maxRetries).initialDelay.millis = 1000 := by
  simp [readiness, Duration.ofSeconds, Duration.millis]

theorem geometric_readiness (maxRetries : ℕ) : (readiness maxRetries).Geometric 2 where
  jitter := rfl
  multiplier := by rw [readiness, ofNat_two]
  one_le := by decide
  initialDelay := by
    rw [millis_readiness]
    decide

/-! ## Exact waits -/

/-- The uncapped wait agrees with the exact one, if the exact numbers below the cap have 53
significant bits. -/
theorem Geometric.agreesUpTo_uncapped (h : policy.Geometric m) (hcap : IsCap cap)
    (hpow : ∀ k, IsShort (m ^ k) ∨ cap ≤ m ^ k)
    (hproduct : ∀ k, IsShort (policy.initialDelay.millis * m ^ k) ∨
      cap ≤ policy.initialDelay.millis * m ^ k) (hlt : attempt < 2 ^ 31) :
    AgreesUpTo cap (policy.uncapped attempt) (policy.initialDelay.millis * m ^ attempt) := by
  have hinitial : AgreesUpTo cap (ofNat policy.initialDelay.millis) policy.initialDelay.millis := by
    have hfirst := hproduct 0
    rw [Nat.pow_zero, Nat.mul_one] at hfirst
    exact agreesUpTo_ofNat hcap hfirst
  have hpower := agreesUpTo_powNat hcap h.one_le hpow attempt
  rw [← pow_natCast, ← h.multiplier, ← exponent_of_lt hlt] at hpower
  exact hinitial.mul hcap hpower h.initialDelay (Nat.pow_pos h.one_le) (hproduct attempt)

theorem delay_of_agreesUpTo (h : AgreesUpTo cap (policy.uncapped attempt) n)
    (hcap : policy.greatestDelay ≤ cap) :
    policy.delay attempt = Nat.min (Nat.min n longestMillis) policy.greatestDelay := by
  rw [delay_eq h.nonneg.ne_nan, h.min_truncate hcap]

theorem greatestDelay_of_le (h : policy.maxDelay.millis ≤ 2 ^ 53) :
    policy.greatestDelay = policy.maxDelay.millis := by
  have hlongest : policy.maxDelay.millis ≤ longestMillis := Nat.le_trans h (by decide)
  rw [greatestDelay, ofNat_of_le h, truncate_finite, Nat.mul_div_cancel _ unit_pos]
  exact Nat.min_eq_left hlongest

/-- The wait is the exact product up to the cap: neither rounding nor a power beyond the finite
numbers changes it. -/
theorem delayWith_exact (hpolicy : policy.Geometric m) (hmax : policy.maxDelay.millis ≤ 2 ^ 53)
    (hlt : attempt < 2 ^ 31) (draw : Binary64) :
    policy.delayWith draw attempt =
      min (policy.initialDelay.millis * m ^ attempt) policy.maxDelay.millis := by
  have hgreatest : policy.greatestDelay = policy.maxDelay.millis := greatestDelay_of_le hmax
  have hagrees : AgreesUpTo (2 ^ 53) (policy.uncapped attempt)
      (policy.initialDelay.millis * m ^ attempt) :=
    hpolicy.agreesUpTo_uncapped (isCap_two_pow (by decide)) (fun k => isShort_or_le _)
      (fun k => isShort_or_le _) hlt
  rw [Readiness.delayWith_eq_delay hpolicy.jitter,
    delay_of_agreesUpTo hagrees (hgreatest.trans_le hmax), hgreatest]
  -- no wait up to the greatest is cut to 64 bits
  have hlongest : policy.maxDelay.millis ≤ longestMillis := Nat.le_trans hmax (by decide)
  exact (Nat.min_assoc _ _ _).trans (congrArg _ (Nat.min_eq_right hlongest))

/-- A wait that starts at seven seconds and triples: what lies below a millisecond is dropped. -/
def tripling : RetryPolicy where
  maxRetries := 1000
  initialDelay := ⟨7000001000⟩
  maxDelay := .ofMillis (2 ^ 53)
  multiplier := .finite false (3 * unit)
  jitter := false

theorem tripling_geometric : tripling.Geometric 3 where
  jitter := rfl
  multiplier := rfl
  one_le := by decide
  initialDelay := by decide

/-- The power for this attempt lies beyond the finite numbers. -/
theorem delayWith_exact_overflow :
    (tripling.Geometric 3 ∧ tripling.maxDelay.millis ≤ 2 ^ 53 ∧ 700 < 2 ^ 31) ∧
      tripling.delayWith .nan 700 = 2 ^ 53 :=
  ⟨⟨tripling_geometric, by decide, by decide⟩,
    (delayWith_exact tripling_geometric (by decide) (by decide) .nan).trans (by decide +kernel)⟩

/-! ## Growing waits -/

/-- A finite initial delay keeps the order of the powers. -/
theorem delay_le_delay_of_finite {steps : ℕ}
    (hinitial : ofNat policy.initialDelay.millis = .finite false steps) (hsteps : 0 < steps)
    (hone : le one policy.multiplier = true) (h : exponent i ≤ exponent j) :
    policy.delay i ≤ policy.delay j := by
  have hle : le (policy.uncapped i) (policy.uncapped j) = true := by
    rw [uncapped, uncapped, hinitial]
    exact finite_mul_le_mul hsteps (nonneg_pow hone _) (nonneg_pow hone _) (pow_mono hone h)
  obtain ⟨hi, hj⟩ := ne_nan_of_le hle
  rw [delay_eq hi, delay_eq hj]
  exact min_le_min_right _ (truncate_mono hle)

/-- After an infinite initial delay every wait is the greatest. -/
theorem delay_of_infinite (hinitial : ofNat policy.initialDelay.millis = .infinite false)
    (hone : le one policy.multiplier = true) (attempt : ℕ) :
    policy.delay attempt = policy.greatestDelay := by
  rcases infinite_mul_of_nonneg (nonneg_pow hone (exponent attempt)) with hnan | hinfinite
  · apply delay_of_nan
    rw [uncapped, hinitial, hnan]
  · apply delay_of_le
    rw [uncapped, hinitial, hinfinite]
    exact (nonneg_ofNat _).le_infinite

/-- The wait grows with the exponent. -/
theorem Geometric.delay_le_delay (hpolicy : policy.Geometric m) (h : exponent i ≤ exponent j) :
    policy.delay i ≤ policy.delay j := by
  have hone : le one policy.multiplier = true := hpolicy.multiplies.one_le_multiplier
  have hfirst : le one (ofNat policy.initialDelay.millis) = true :=
    one_le_ofNat hpolicy.initialDelay
  generalize hinitial : ofNat policy.initialDelay.millis = initial at hfirst
  rcases nonneg_of_one_le hfirst with ⟨steps⟩ | _
  · rw [one_le_finite] at hfirst
    exact delay_le_delay_of_finite hinitial (Nat.lt_of_lt_of_le unit_pos hfirst) hone h
  · rw [delay_of_infinite hinitial hone, delay_of_infinite hinitial hone]

/-- Waits grow with the attempt, except where the exponent falls from the greatest to the least. -/
theorem delayWith_mono (hpolicy : policy.Geometric m) (hij : i ≤ j) (hj : j < 2 ^ 32)
    (hside : j < 2 ^ 31 ∨ 2 ^ 31 ≤ i) (draw draw' : Binary64) :
    policy.delayWith draw i ≤ policy.delayWith draw' j := by
  rw [Readiness.delayWith_eq_delay hpolicy.jitter, Readiness.delayWith_eq_delay hpolicy.jitter]
  exact hpolicy.delay_le_delay (exponent_mono hij hj hside)

/-- The attempts whose exponents are negative, from the first to the last. -/
theorem delayWith_mono_negative :
    ((readiness 5).Geometric 2 ∧ 2 ^ 31 ≤ 4294967295 ∧ 4294967295 < 2 ^ 32 ∧
        (4294967295 < 2 ^ 31 ∨ 2 ^ 31 ≤ 2 ^ 31)) ∧
      (readiness 5).delayWith .nan (2 ^ 31) ≤ (readiness 5).delayWith .one 4294967295 :=
  ⟨⟨geometric_readiness 5, by decide, by decide, .inr (by decide)⟩,
    delayWith_mono (geometric_readiness 5) (by decide) (by decide) (.inr (by decide)) .nan .one⟩

/-- From the greatest exponent to the least the wait falls from the longest to none. -/
theorem delayWith_falls :
    (readiness 5).Geometric 2 ∧ 2147483648 < 2 ^ 32 ∧
      ¬ (readiness 5).delayWith .nan 2147483647 ≤ (readiness 5).delayWith .nan 2147483648 :=
  ⟨geometric_readiness 5, by decide, by decide +kernel⟩

end RetryPolicy
end ServiceKit
