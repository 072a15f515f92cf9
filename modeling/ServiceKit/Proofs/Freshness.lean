import ServiceKit.Freshness

/-!
# Where the freshness test is exact

The test compares the age of a timestamp with the window, and for windows whose milliseconds fit 64
bits it does so exactly.  A greater window counts as the longest, which no age exceeds, just as none
exceeds the window itself.  A lesser window counts as the longest too, and there every timestamp
passes, although none lies as far in the future as the window asks for.
-/

namespace ServiceKit
namespace Freshness

/-- The greatest number of seconds whose milliseconds fit 64 bits. -/
def longestSeconds : Int := longestMillis / 1000

/-- A difference of two instants, in nanoseconds, that is no longer than the longest window. -/
structure IsSpan (nanos : Int) : Prop where
  neg_longest_le : -(longestMillis * 1000000) ≤ nanos
  le_longest : nanos ≤ longestMillis * 1000000

/-- An instant of a calendar that runs from the year -262143 to the year 262142, in nanoseconds from
the beginning of 1970 on. -/
structure IsInstant (nanos : Int) : Prop where
  first_le : -8334601228800 * 1000000000 ≤ nanos
  lt_end : nanos < 8210266876800 * 1000000000

variable {now t seconds seconds' : Int}

/-- Instants of the calendar are never too far apart. -/
theorem isSpan_sub (hnow : IsInstant now) (ht : IsInstant t) : IsSpan (now - t) := by
  obtain ⟨hnow, hnow'⟩ := hnow
  obtain ⟨ht, ht'⟩ := ht
  constructor
  · rw [longestMillis]
    omega
  · rw [longestMillis]
    omega

theorem longestSeconds_eq : longestSeconds = 9223372036854775 := by decide

theorem isWithin_iff_le_windowNanos :
    isWithin now t seconds = true ↔ now - t ≤ windowNanos seconds :=
  decide_eq_true_iff

theorem windowNanos_of_fits (hle : -longestSeconds ≤ seconds) (hge : seconds ≤ longestSeconds) :
    windowNanos seconds = seconds * 1000000000 :=
  if_neg (not_or.mpr ⟨Int.not_lt.mpr hge, Int.not_lt.mpr hle⟩)

theorem windowNanos_of_gt (h : longestSeconds < seconds) :
    windowNanos seconds = longestMillis * 1000000 :=
  if_pos (.inl h)

theorem windowNanos_of_lt (h : seconds < -longestSeconds) :
    windowNanos seconds = longestMillis * 1000000 :=
  if_pos (.inr h)

/-- From the least window whose milliseconds fit on, the test is exact. -/
theorem isWithin_iff_of_le (hspan : IsSpan (now - t)) (h : -longestSeconds ≤ seconds) :
    isWithin now t seconds = true ↔ now - t ≤ seconds * 1000000000 := by
  rw [isWithin_iff_le_windowNanos]
  by_cases hfits : seconds ≤ longestSeconds
  · rw [windowNanos_of_fits h hfits]
  · have hgt : longestSeconds < seconds := Int.not_le.mp hfits
    have hlongest : longestMillis * 1000000 ≤ seconds * 1000000000 := by
      rw [longestSeconds_eq] at hgt
      rw [longestMillis]
      omega
    rw [windowNanos_of_gt hgt]
    exact ⟨fun hle => Int.le_trans hle hlongest, fun _ => hspan.le_longest⟩

/-- Below the least window whose milliseconds fit, every timestamp passes the test. -/
theorem isWithin_of_lt (hspan : IsSpan (now - t)) (h : seconds < -longestSeconds) :
    isWithin now t seconds = true := by
  rw [isWithin_iff_le_windowNanos, windowNanos_of_lt h]
  exact hspan.le_longest

theorem not_age_le_of_lt (hspan : IsSpan (now - t)) (h : seconds < -longestSeconds) :
    ¬ now - t ≤ seconds * 1000000000 := by
  have hge := hspan.neg_longest_le
  rw [longestSeconds_eq] at h
  rw [longestMillis] at hge
  omega

theorem isWithin_mono (hspan : IsSpan (now - t)) (h : -longestSeconds ≤ seconds)
    (hle : seconds ≤ seconds') (hwithin : isWithin now t seconds = true) :
    isWithin now t seconds' = true := by
  rw [isWithin_iff_of_le hspan h] at hwithin
  rw [isWithin_iff_of_le hspan (Int.le_trans h hle)]
  exact Int.le_trans hwithin (Int.mul_le_mul_of_nonneg_right hle (by decide))

/-- From the least window whose milliseconds fit on, the test is exact and grows with the window;
below it every timestamp passes, and none should. -/
theorem isWithin_exact (hspan : IsSpan (now - t)) :
    (∀ seconds, -longestSeconds ≤ seconds →
      (isWithin now t seconds = true ↔ now - t ≤ seconds * 1000000000)) ∧
    (∀ seconds seconds', -longestSeconds ≤ seconds → seconds ≤ seconds' →
      isWithin now t seconds = true → isWithin now t seconds' = true) ∧
    ∀ seconds < -longestSeconds,
      isWithin now t seconds = true ∧ ¬ now - t ≤ seconds * 1000000000 := by
  refine ⟨?_, ?_, ?_⟩
  · intro seconds h
    exact isWithin_iff_of_le hspan h
  · intro seconds seconds' h hle hwithin
    exact isWithin_mono hspan h hle hwithin
  · intro seconds h
    exact ⟨isWithin_of_lt hspan h, not_age_le_of_lt hspan h⟩

/-- The first instant of the calendar seen from the last one: its age is a nanosecond short of
16544868105600 s. -/
theorem isWithin_exact_calendar :
    let first : Int := -8334601228800 * 1000000000
    let last : Int := 8210266876800 * 1000000000 - 1
    IsInstant first ∧ IsInstant last ∧ IsSpan (last - first) ∧
      ¬ isWithin last first 16544868105599 = true ∧
      isWithin last first 16544868105600 = true ∧
      isWithin last first 9223372036854775807 = true ∧
      isWithin last first (-9223372036854775808) = true := by
  intro first last
  have hfirst : IsInstant first := ⟨by decide, by decide⟩
  have hlast : IsInstant last := ⟨by decide, by decide⟩
  have hspan : IsSpan (last - first) := isSpan_sub hlast hfirst
  obtain ⟨hexact, hmono, hbelow⟩ := isWithin_exact hspan
  have hwithin : isWithin last first 16544868105600 = true := (hexact _ (by decide)).mpr (by decide)
  refine ⟨hfirst, hlast, hspan, ?_, hwithin, ?_, ?_⟩
  · rw [hexact _ (by decide)]
    decide
  · exact hmono _ _ (by decide) (by decide) hwithin
  · exact (hbelow _ (by decide)).1

/-- The least window of 64 bits takes a timestamp of the present for one of the far future, and a
greater window does not. -/
theorem isWithin_of_least :
    let now : Int := 1767225600 * 1000000000
    IsInstant now ∧
      ¬ (isWithin now now (-9223372036854775808) = true ↔
        now - now ≤ -9223372036854775808 * 1000000000) ∧
      ¬ isWithin now now (-9223372036854775) = true := by
  intro now
  exact ⟨⟨by decide, by decide⟩, by decide, by decide⟩

end Freshness
end ServiceKit
