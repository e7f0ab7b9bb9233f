/-!
# Lengths of time

## Main definitions

* `Span`: whole seconds and a rest in nanoseconds.
* `Span.millis`, `Span.micros`: the length in smaller units, modulo `2 ^ 64`.
-/

namespace EventDispatch

/-- A length of time: whole seconds and fewer than `10 ^ 9` nanoseconds. -/
structure Span where
  secs : Nat
  nanos : Nat
deriving DecidableEq, Repr, Inhabited

namespace Span

/-- A length given in milliseconds. -/
def ofMillis (ms : Nat) : Span := ⟨ms / 1000, ms % 1000 * 1000000⟩

/-- A length given in microseconds. -/
def ofMicros (us : Nat) : Span := ⟨us / 1000000, us % 1000000 * 1000⟩

/-- Whole milliseconds in the length, in 64 bits. -/
def millis (s : Span) : UInt64 := UInt64.ofNat (s.secs * 1000 + s.nanos / 1000000)

/-- Whole microseconds in the length, in 64 bits. -/
def micros (s : Span) : UInt64 := UInt64.ofNat (s.secs * 1000000 + s.nanos / 1000)

end Span

end EventDispatch
