/-!
# Points in time

## Main definitions

* `Timestamp`: seconds since 1970 and nanoseconds.
* `Timestamp.ofParts?`: the points the calendar knows.
-/

namespace EventDispatch

/-- A point in time: seconds since the start of 1970 and nanoseconds; `10 ^ 9` nanoseconds and more
stand for the second half of a leap second. -/
structure Timestamp where
  secs : Int
  nanos : Nat
deriving DecidableEq, Repr, Inhabited

namespace Timestamp

/-- The first second of the calendar. -/
def firstSecond : Int := -8334601228800

/-- The last second of the calendar. -/
def lastSecond : Int := 8210266876799

/-- The point with these parts, if the calendar has it: seconds in its range, fewer than `10 ^ 9`
nanoseconds, or fewer than twice as many in the last second of a minute. -/
def ofParts? (secs : Int) (nanos : Nat) : Option Timestamp :=
  if firstSecond ≤ secs ∧ secs ≤ lastSecond ∧
      (nanos < 1000000000 ∨ nanos < 2000000000 ∧ secs % 60 = 59) then
    some ⟨secs, nanos⟩
  else none

/-- A point some microseconds later. -/
def addMicros (t : Timestamp) (us : Nat) : Timestamp :=
  let nanos := t.nanos + us * 1000
  ⟨t.secs + (nanos / 1000000000 : Nat), nanos % 1000000000⟩

end Timestamp

end EventDispatch
