import Mathlib

/-!
# Points in time

`nut::Timestamp`: microseconds since the Epoch. The sums of the source are taken
not to leave the range of `int64_t`.
-/

set_option autoImplicit false

namespace NutServer.Base

/-- `microSecondsSinceEpoch_`. -/
abbrev Timestamp := Int

namespace Timestamp

def kMicroSecondsPerSeconds : Int := 1000 * 1000

def invalid : Timestamp := 0

def valid (timestamp : Timestamp) : Bool := decide (0 < timestamp)

end Timestamp

/-- What the source uses of a `double` number of seconds. A positive number has
no negative product with a positive one, and truncation keeps that. -/
structure Seconds where
  /-- `seconds > 0.0`. -/
  positive : Bool
  /-- `static_cast<int64_t>(seconds * kMicroSecondsPerSeconds)`. -/
  delta : Int
  nonneg : positive = true → 0 ≤ delta
  deriving DecidableEq, Repr

def Seconds.ofMicroseconds (microseconds : Int) : Seconds where
  positive := decide (0 < microseconds)
  delta := microseconds
  nonneg := fun positive => (of_decide_eq_true positive).le

def addTime (timestamp : Timestamp) (seconds : Seconds) : Timestamp := timestamp + seconds.delta

theorem addTime_positive {timestamp : Timestamp} {seconds : Seconds} (valid : 0 < timestamp)
    (positive : seconds.positive = true) : 0 < addTime timestamp seconds :=
  add_pos_of_pos_of_nonneg valid (seconds.nonneg positive)

end NutServer.Base
