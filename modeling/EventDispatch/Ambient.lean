import EventDispatch.Function

/-!
# What activities find around them

The instant, the wall clock, the supply of fresh ids, and the function with all the entries into it so
far. Instants count milliseconds from the start; the wall clock moves on with every reading, so no two
readings are equal.

## Main definitions

* `Ambient`, with `readClock`, `freshId` and `enter`.
* `Running`: a run of the function on a worker.
-/

namespace EventDispatch

/-- What activities find around them. -/
structure Ambient where
  /-- The instant, in milliseconds from the start. -/
  now : Nat
  /-- The wall clock at its first reading. -/
  epoch : Timestamp
  /-- Readings of the wall clock so far. -/
  readings : Nat
  /-- Ids issued so far. -/
  issued : Nat
  function : Function
  /-- All entries into the function, in order. -/
  entries : Array Entry
deriving Inhabited

/-- A run of the function on a worker: when it ends and what becomes of the event. -/
structure Running where
  ends : Nat
  outcome : Outcome
deriving Inhabited

namespace Ambient

/-- Before anything has happened. -/
def start (epoch : Timestamp) (function : Function) : Ambient :=
  { now := 0, epoch, readings := 0, issued := 0, function, entries := #[] }

/-- Reads the wall clock, which moves on by a microsecond. -/
def readClock (a : Ambient) : Timestamp × Ambient :=
  (a.epoch.addMicros a.readings, { a with readings := a.readings + 1 })

/-- A number in hexadecimal digits, with zeros in front up to a width. -/
def hexPadded (width n : Nat) : String :=
  let digits := Nat.toDigits 16 n
  String.ofList (List.replicate (width - digits.length) '0' ++ digits)

/-- The text of the `n`-th id: a random-style unique id whose digits count. -/
def idText (n : Nat) : String :=
  hexPadded 8 (n / 0x1000000000000) ++ "-0000-4000-8000-" ++ hexPadded 12 (n % 0x1000000000000)

/-- Issues an id that was never issued before. -/
def freshId (a : Ambient) : String × Ambient :=
  (idText a.issued, { a with issued := a.issued + 1 })

/-- Enters the function with an event, on a worker that it knows by a number. -/
def enter (worker : Nat) (event : Event) (a : Ambient) : Running × Ambient :=
  let entry : Entry := ⟨worker, event⟩
  let run := a.function a.entries entry
  (⟨a.now + run.takes, run.conclusion.outcome⟩, { a with entries := a.entries.push entry })

end Ambient

end EventDispatch
