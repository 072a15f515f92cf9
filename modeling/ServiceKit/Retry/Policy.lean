import ServiceKit.Error
import ServiceKit.Number.Binary64

/-!
# Retry policies

How often an operation is tried again and how long to wait before each new attempt.  The wait grows
by a factor with every attempt up to a cap.  It is computed in binary64 and truncated to whole
milliseconds; attempts are counted in 32 bits, and the exponent reads the count as a signed number.
-/

namespace ServiceKit

/-- How often, and after which waits, an operation is tried again. -/
structure RetryPolicy where
  maxRetries : Nat
  initialDelay : Duration
  maxDelay : Duration
  multiplier : Binary64
  /-- Waits are lengthened at random by up to a quarter. -/
  jitter : Bool
  deriving DecidableEq, Repr

namespace RetryPolicy

/-- Three retries, after waits that double from 100 ms up to ten seconds, with jitter. -/
def default : RetryPolicy where
  maxRetries := 3
  initialDelay := .ofMillis 100
  maxDelay := .ofSeconds 10
  multiplier := .ofNat 2
  jitter := true

/-- The policy for readiness checks: waits double from one second, without cap or jitter. -/
def readiness (maxRetries : Nat) : RetryPolicy where
  maxRetries := maxRetries
  initialDelay := .ofSeconds 1
  maxDelay := .longest
  multiplier := .ofNat 2
  jitter := false

/-- The exponent for an attempt: its 32 bits read as a signed number. -/
def exponent (attempt : Nat) : Int :=
  (attempt : Int).bmod 4294967296

/-- The greatest number of milliseconds that a wait can have. -/
def longestMillis : Nat := 18446744073709551615

/-- The wait after an attempt before it is truncated: the initial delay times the power of the
multiplier, at most the cap. -/
def rawDelay (policy : RetryPolicy) (attempt : Nat) : Binary64 :=
  Binary64.min
    ((Binary64.ofNat policy.initialDelay.millis).mul (policy.multiplier.pow (exponent attempt)))
    (Binary64.ofNat policy.maxDelay.millis)

/-- The wait after an attempt in milliseconds, without jitter. -/
def delay (policy : RetryPolicy) (attempt : Nat) : Nat :=
  (policy.rawDelay attempt).truncate longestMillis

/-- The factor for a random draw between zero and one. -/
def jitterFactor (draw : Binary64) : Binary64 :=
  Binary64.one.addNonneg (draw.mul (.finite false (Binary64.unit / 4)))

/-- The wait after an attempt in milliseconds, lengthened by a draw if the policy has jitter. -/
def delayWith (policy : RetryPolicy) (draw : Binary64) (attempt : Nat) : Nat :=
  if policy.jitter then
    ((policy.rawDelay attempt).mul (jitterFactor draw)).truncate longestMillis
  else policy.delay attempt

/-- The greatest draw: the number just below one. -/
def greatestDraw : Binary64 := .finite false (Binary64.unit - Binary64.unit / Nat.pow 2 53)

/-- Jitter neither shortens a wait nor lengthens it by more than a quarter, up to truncation. -/
def jitterInRange (policy : RetryPolicy) (attempt : Nat) : Bool :=
  let base := policy.delay attempt
  let raw := policy.rawDelay attempt
  let least := (raw.mul (jitterFactor (.finite false 0))).truncate longestMillis
  let greatest := (raw.mul (jitterFactor greatestDraw)).truncate longestMillis
  base ≤ least && 4 * greatest ≤ 5 * (base + 1)

/-- An attempt that ended in this error is followed by another one. -/
def shouldRetry (policy : RetryPolicy) (error : ServiceError) (attempt : Nat) : Bool :=
  attempt < policy.maxRetries && error.isRetryable

end RetryPolicy
end ServiceKit
