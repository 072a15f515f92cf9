/-!
# Freshness of timestamps

A timestamp is fresh if it lies no further in the past than a window of seconds; a future timestamp
always does.  Windows are kept in a signed 64-bit number of milliseconds: one whose milliseconds do
not fit, on either side, counts as the longest window.
-/

namespace ServiceKit
namespace Freshness

/-- The longest window in milliseconds. -/
def longestMillis : Int := 9223372036854775807

/-- A window of seconds in nanoseconds. -/
def windowNanos (seconds : Int) : Int :=
  if longestMillis / 1000 < seconds ∨ seconds < -(longestMillis / 1000) then
    longestMillis * 1000000
  else seconds * 1000000000

/-- At the instant `now` the timestamp `t` is at most `seconds` in the past; instants are in
nanoseconds. -/
def isWithin (now t : Int) (seconds : Int) : Bool :=
  now - t ≤ windowNanos seconds

end Freshness
end ServiceKit
