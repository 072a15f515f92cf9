import ServiceKit.Proofs.Retry.Backoff

/-!
# Limits of waits

No wait is longer than the cap, whatever the multiplier and the attempt are: a product that is no
number counts like one beyond the cap, and a negative product gives no wait.  With a natural
multiplier no wait is longer than the exact product of the initial delay and the power either, even
where the initial delay lies below a millisecond.  Only without an initial delay is there a limit to
that: zero times a power beyond the finite numbers is no number, so the wait jumps from none to the
cap.
-/

namespace ServiceKit
namespace RetryPolicy

open Binary64

variable {policy : RetryPolicy} {m attempt c : ℕ}

/-! ## The cap -/

theorem delay_of_isNegative (h : (policy.uncapped attempt).isNegative = true) :
    policy.delay attempt = 0 := by
  have hnegative : Negative (policy.uncapped attempt) := negative_of_isNegative h
  rw [delay_eq hnegative.ne_nan, hnegative.truncate_eq]
  exact Nat.zero_min _

theorem delay_le_greatestDelay (policy : RetryPolicy) (attempt : ℕ) :
    policy.delay attempt ≤ policy.greatestDelay := by
  by_cases hnan : policy.uncapped attempt = .nan
  · exact (delay_of_nan hnan).le
  · rw [delay_eq hnan]
    exact Nat.min_le_right _ _

/-- No wait is longer than the cap, which is reached by products from the cap on and by those that
are no number; after a negative product there is no wait. -/
theorem delayWith_capped (hjitter : policy.jitter = false) (hmax : policy.maxDelay.millis ≤ 2 ^ 53)
    (attempt : ℕ) (draw : Binary64) :
    policy.delayWith draw attempt * 1000000 ≤ policy.maxDelay.nanos ∧
      (policy.uncapped attempt = .nan ∨
          le (.finite false (policy.maxDelay.millis * unit)) (policy.uncapped attempt) = true →
        policy.delayWith draw attempt = policy.maxDelay.millis) ∧
      ((policy.uncapped attempt).isNegative = true → policy.delayWith draw attempt = 0) := by
  have hgreatest : policy.greatestDelay = policy.maxDelay.millis := greatestDelay_of_le hmax
  have hcap : ofNat policy.maxDelay.millis = .finite false (policy.maxDelay.millis * unit) :=
    ofNat_of_le hmax
  rw [Readiness.delayWith_eq_delay hjitter]
  refine ⟨?_, ?_, delay_of_isNegative⟩
  · have hle : policy.delay attempt ≤ policy.maxDelay.millis :=
      (delay_le_greatestDelay policy attempt).trans_eq hgreatest
    exact (Nat.mul_le_mul_right _ hle).trans policy.maxDelay.millis_mul_le
  · rw [← hcap]
    rintro (hnan | hle)
    · exact (delay_of_nan hnan).trans hgreatest
    · exact (delay_of_le hle).trans hgreatest

/-- A wait of seven milliseconds that doubles and changes its sign. -/
def alternating : RetryPolicy where
  maxRetries := 5
  initialDelay := .ofMillis 7
  maxDelay := ⟨20999999⟩
  multiplier := .finite true (2 * unit)
  jitter := false

/-- The products -14 and 28, and the one for the exponent -1, on both sides of a cap of 20 ms. -/
theorem delayWith_capped_alternating :
    (alternating.jitter = false ∧ alternating.maxDelay.millis ≤ 2 ^ 53) ∧
      alternating.delayWith .nan 1 = 0 ∧ alternating.delayWith .nan 2 = 20 ∧
      alternating.delayWith .nan 4294967295 = 0 := by
  have hmax : alternating.maxDelay.millis ≤ 2 ^ 53 := by decide
  refine ⟨⟨rfl, hmax⟩, ?_, ?_, ?_⟩
  · exact (delayWith_capped rfl hmax 1 .nan).2.2 (by decide +kernel)
  · exact (delayWith_capped rfl hmax 2 .nan).2.1 (.inr (by decide +kernel))
  · exact (delayWith_capped rfl hmax 4294967295 .nan).2.2 (by decide +kernel)

/-! ## The exact product -/

/-- The power of the multiplier for an attempt lies beyond the finite numbers. -/
def Overflows (policy : RetryPolicy) (attempt : ℕ) : Prop :=
  policy.multiplier.pow (exponent attempt) = .infinite false

instance (policy : RetryPolicy) (attempt : ℕ) : Decidable (policy.Overflows attempt) :=
  inferInstanceAs (Decidable (_ = _))

theorem Multiplies.le_pow_of_overflows (hpolicy : policy.Multiplies m) (hlt : attempt < 2 ^ 31)
    (h : policy.Overflows attempt) (hc : c < 512) : 2 ^ c ≤ m ^ attempt := by
  rw [Overflows, exponent_of_lt hlt, pow_natCast, hpolicy.multiplier] at h
  exact le_pow_of_infinite hc hpolicy.one_le h

/-- From a millisecond on, the wait is the exact product up to the cap. -/
theorem Geometric.delay_le_product (hpolicy : policy.Geometric m)
    (hmax : policy.maxDelay.millis ≤ 2 ^ 53) (hlt : attempt < 2 ^ 31) :
    policy.delay attempt ≤ policy.initialDelay.millis * m ^ attempt := by
  have hagrees : AgreesUpTo (2 ^ 53) (policy.uncapped attempt)
      (policy.initialDelay.millis * m ^ attempt) :=
    hpolicy.agreesUpTo_uncapped (isCap_two_pow (by decide)) (fun k => isShort_or_le _)
      (fun k => isShort_or_le _) hlt
  rw [delay_of_agreesUpTo hagrees ((greatestDelay_of_le hmax).trans_le hmax)]
  exact (Nat.min_le_left _ _).trans (Nat.min_le_left _ _)

theorem uncapped_of_zero (hzero : policy.initialDelay.millis = 0) :
    policy.uncapped attempt =
      mul (.finite false 0) (policy.multiplier.pow (exponent attempt)) := by
  rw [uncapped, hzero, ofNat_of_le (Nat.zero_le _), Nat.zero_mul]

/-- Zero times infinity is no number. -/
theorem delay_of_overflows (hzero : policy.initialDelay.millis = 0)
    (h : policy.Overflows attempt) : policy.delay attempt = policy.greatestDelay := by
  apply delay_of_nan
  rw [uncapped_of_zero hzero, h, zero_mul_infinite]

theorem Multiplies.delay_eq_zero (hpolicy : policy.Multiplies m)
    (hzero : policy.initialDelay.millis = 0) (h : ¬ policy.Overflows attempt) :
    policy.delay attempt = 0 := by
  have hpower : Nonneg (policy.multiplier.pow (exponent attempt)) :=
    nonneg_pow hpolicy.one_le_multiplier _
  have huncapped : policy.uncapped attempt = .finite false 0 := by
    rw [uncapped_of_zero hzero]
    rw [Overflows] at h
    generalize policy.multiplier.pow (exponent attempt) = power at hpower h
    rcases hpower with ⟨b⟩ | _
    · exact zero_mul_finite b
    · contradiction
  rw [delay_eq (huncapped ▸ (Nonneg.finite 0).ne_nan), huncapped, truncate_zero]
  exact Nat.zero_min _

/-- An overflow does not matter to an initial delay below a millisecond: the exact product has grown
beyond any cap by then. -/
theorem Multiplies.delay_mul_le_product (hpolicy : policy.Multiplies m)
    (hmax : policy.maxDelay.millis ≤ 2 ^ 53) (hlt : attempt < 2 ^ 31)
    (h : 0 < policy.initialDelay.nanos ∨ ¬ policy.Overflows attempt) :
    policy.delay attempt * 1000000 ≤ policy.initialDelay.nanos * m ^ attempt := by
  rcases Nat.eq_zero_or_pos policy.initialDelay.millis with hzero | hmillis
  · by_cases hoverflows : policy.Overflows attempt
    · have hnanos : 0 < policy.initialDelay.nanos := h.resolve_right (not_not_intro hoverflows)
      have hdelay : policy.delay attempt ≤ 2 ^ 53 := by
        rw [delay_of_overflows hzero hoverflows, greatestDelay_of_le hmax]
        exact hmax
      calc policy.delay attempt * 1000000 ≤ 2 ^ 53 * 2 ^ 20 := Nat.mul_le_mul hdelay (by decide)
        _ = 2 ^ 73 := (Nat.pow_add 2 53 20).symm
        _ ≤ m ^ attempt := hpolicy.le_pow_of_overflows hlt hoverflows (by decide)
        _ ≤ policy.initialDelay.nanos * m ^ attempt := Nat.le_mul_of_pos_left _ hnanos
    · rw [hpolicy.delay_eq_zero hzero hoverflows, Nat.zero_mul]
      exact Nat.zero_le _
  · calc policy.delay attempt * 1000000
        ≤ policy.initialDelay.millis * m ^ attempt * 1000000 :=
          Nat.mul_le_mul_right _ ((hpolicy.geometric hmillis).delay_le_product hmax hlt)
      _ = policy.initialDelay.millis * 1000000 * m ^ attempt := Nat.mul_right_comm _ _ _
      _ ≤ policy.initialDelay.nanos * m ^ attempt :=
          Nat.mul_le_mul_right _ policy.initialDelay.millis_mul_le

/-- With an initial delay, or while the power is finite, no wait is longer than the exact product;
without an initial delay the wait is the cap as soon as the power is not. -/
theorem delayWith_le_product (hpolicy : policy.Multiplies m)
    (hmax : policy.maxDelay.millis ≤ 2 ^ 53) (hlt : attempt < 2 ^ 31) (draw : Binary64) :
    (0 < policy.initialDelay.nanos ∨ ¬ policy.Overflows attempt →
        policy.delayWith draw attempt * 1000000 ≤ policy.initialDelay.nanos * m ^ attempt) ∧
      (policy.initialDelay.nanos = 0 → policy.Overflows attempt →
        policy.delayWith draw attempt = policy.maxDelay.millis) := by
  rw [Readiness.delayWith_eq_delay hpolicy.jitter]
  refine ⟨hpolicy.delay_mul_le_product hmax hlt, ?_⟩
  intro hnanos hoverflows
  have hzero : policy.initialDelay.millis = 0 := by
    rw [Duration.millis, hnanos]
  rw [delay_of_overflows hzero hoverflows, greatestDelay_of_le hmax]

/-- Waits that double from an initial delay up to ten seconds. -/
def doublingFrom (initialDelay : Duration) : RetryPolicy where
  maxRetries := 2000
  initialDelay := initialDelay
  maxDelay := .ofSeconds 10
  multiplier := .finite false (2 * unit)
  jitter := false

theorem multiplies_doublingFrom (initialDelay : Duration) :
    (doublingFrom initialDelay).Multiplies 2 where
  jitter := rfl
  multiplier := rfl
  one_le := by decide

/-- A nanosecond less than a millisecond far beyond the finite powers, and no initial delay at the
last finite one. -/
theorem delayWith_le_product_small :
    let brief := doublingFrom ⟨999999⟩
    let immediate := doublingFrom ⟨0⟩
    (brief.Multiplies 2 ∧ brief.maxDelay.millis ≤ 2 ^ 53 ∧ 2000 < 2 ^ 31 ∧
        0 < brief.initialDelay.nanos ∧
        brief.delayWith .nan 2000 * 1000000 ≤ brief.initialDelay.nanos * 2 ^ 2000) ∧
      immediate.Multiplies 2 ∧ immediate.maxDelay.millis ≤ 2 ^ 53 ∧ 1023 < 2 ^ 31 ∧
        ¬ immediate.Overflows 1023 ∧
        immediate.delayWith .nan 1023 * 1000000 ≤ immediate.initialDelay.nanos * 2 ^ 1023 := by
  intro brief immediate
  have hbrief : brief.Multiplies 2 := multiplies_doublingFrom ⟨999999⟩
  have himmediate : immediate.Multiplies 2 := multiplies_doublingFrom ⟨0⟩
  have hfinite : ¬ immediate.Overflows 1023 := by decide +kernel
  refine ⟨⟨hbrief, by decide, by decide, by decide, ?_⟩,
    himmediate, by decide, by decide, hfinite, ?_⟩
  · exact (delayWith_le_product hbrief (by decide) (by decide) .nan).1 (.inl (by decide))
  · exact (delayWith_le_product himmediate (by decide) (by decide) .nan).1 (.inr hfinite)

/-- Without an initial delay the wait jumps to ten seconds at the first infinite power. -/
theorem delayWith_exceeds_product :
    let immediate := doublingFrom ⟨0⟩
    immediate.Multiplies 2 ∧ immediate.maxDelay.millis ≤ 2 ^ 53 ∧ 1024 < 2 ^ 31 ∧
      ¬ immediate.delayWith .nan 1024 * 1000000 ≤ immediate.initialDelay.nanos * 2 ^ 1024 :=
  ⟨multiplies_doublingFrom ⟨0⟩, by decide, by decide, by decide +kernel⟩

end RetryPolicy
end ServiceKit
