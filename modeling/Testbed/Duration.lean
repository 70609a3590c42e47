import Testbed.Binary64.Literal
import Testbed.Text.Blank

/-!
# Durations

A length of time in nanoseconds.  Durations come from numbers of seconds, rounded to the nearest
nanosecond with ties to the even one; a number below zero, a number beyond the range and what is no
number give no duration.
-/

namespace Testbed

/-- A length of time, in nanoseconds. -/
structure Duration where
  nanoseconds : Nat
  deriving DecidableEq, Inhabited

namespace Duration

/-- The nanoseconds of a second. -/
def perSecond : Nat := 1000000000

/-- No time at all. -/
def zero : Duration := ⟨0⟩

/-- The longest duration: just short of `2 ^ 64` seconds. -/
def longest : Duration := ⟨2 ^ 64 * perSecond - 1⟩

/-- A duration in milliseconds. -/
def ofMilliseconds (n : Nat) : Duration := ⟨n * 1000000⟩

/-- The whole seconds. -/
def seconds (d : Duration) : Nat := d.nanoseconds / perSecond

/-- The nanoseconds beyond the whole seconds. -/
def subsecond (d : Duration) : Nat := d.nanoseconds % perSecond

/-- Why a number of seconds is no duration. -/
inductive Invalid where
  | negative
  | tooLargeOrNaN
  deriving DecidableEq

/-- The wording of the reason. -/
def Invalid.message : Invalid → String
  | negative => "cannot convert float seconds to Duration: value is negative"
  | tooLargeOrNaN => "cannot convert float seconds to Duration: value is either too big or NaN"

/-- The duration of a finite number of seconds. -/
def ofFiniteSeconds (x : Binary64) : Except Invalid Duration :=
  if x.isZero then .ok zero
  else if x.negative then .error .negative
  else if 2 ^ 64 * x.denominator ≤ x.numerator then .error .tooLargeOrNaN
  else .ok ⟨Binary64.roundDiv (x.numerator * perSecond) x.denominator⟩

/-- The duration of a number of seconds. -/
def ofSeconds : Binary64.Extended → Except Invalid Duration
  | .finite x => ofFiniteSeconds x
  | .infinite true => .error .negative
  | .infinite false => .error .tooLargeOrNaN
  | .nan => .error .tooLargeOrNaN

/-- Read a number of seconds, with blanks around it. -/
def read? (s : String) : Option Duration :=
  (Binary64.readLiteral? (Text.trim s)).bind fun x => (ofSeconds x).toOption

end Duration

end Testbed
