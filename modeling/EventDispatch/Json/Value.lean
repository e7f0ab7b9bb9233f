import EventDispatch.Decimal.Shortest
import EventDispatch.Keyed
import EventDispatch.Width

/-!
# JSON values

Values as attributes, checkpoints and configurations hold them. Numbers are whole 64-bit numbers,
signed or not, or 64-bit floating-point values; objects are kept sorted by key, each key once.

## Main definitions

* `Json.Number`, `Json`: the values.
* `Json.Object`: the fields of an object.
* `Json.Number.text`: the text of a number.
-/

namespace EventDispatch

/-- A JSON number: a whole number that fits 64 bits, or a floating-point value by its bit pattern. -/
inductive Json.Number where
  /-- A whole number from `0` up to `2 ^ 64 - 1`. -/
  | natural (n : Nat)
  /-- A whole number from `-2 ^ 63` up to `-1`. -/
  | negative (n : Int)
  /-- Any other number. -/
  | real (bits : UInt64)
deriving DecidableEq, Repr, Inhabited

/-- A JSON value. The fields of an object are sorted by key. -/
inductive Json where
  | null
  | bool (b : Bool)
  | num (n : Json.Number)
  | str (s : String)
  | arr (items : List Json)
  | obj (fields : List (String × Json))
deriving Repr, Inhabited, BEq

namespace Json

/-- The fields of an object, sorted by key. -/
abbrev Object := Keyed Json

/-- A whole number of either sign; numbers past 64 bits become floating-point values. -/
def ofInt (n : Int) : Json :=
  if 0 ≤ n then
    if n < Width.natural64 then .num (.natural n.toNat) else .num (.real (Float.ofInt n).toBits)
  else if -(Width.integer64 : Int) ≤ n then .num (.negative n)
  else .num (.real (Float.ofInt n).toBits)

/-- A natural number. -/
def ofNat (n : Nat) : Json := ofInt n

/-- The value as a natural number below `2 ^ 64`. -/
def asNat? : Json → Option Nat
  | .num (.natural n) => some n
  | _ => none

/-- The value as a whole number from `-2 ^ 63` up to `2 ^ 63 - 1`. -/
def asInt? : Json → Option Int
  | .num (.natural n) => if n < Width.integer64 then some n else none
  | .num (.negative n) => some n
  | _ => none

/-- The value as a text. -/
def asString? : Json → Option String
  | .str s => some s
  | _ => none

/-- The value as an object. -/
def asObject? : Json → Option Object
  | .obj fields => some fields
  | _ => none

/-- A field of an object; nothing if the value is no object or lacks the field. -/
def field? (key : String) : Json → Option Json
  | .obj fields => Keyed.get? key fields
  | _ => none

/-- Floating-point numbers are written positionally while the leading digit stands between `10 ^ -5`
and `10 ^ 15`; exponents carry their sign. -/
def realLayout : Decimal.Layout := ⟨-5, 16, true, true⟩

/-- The text of a number; the infinities and what is not a number have none in JSON. -/
def Number.text : Number → String
  | .natural n => toString n
  | .negative n => toString n
  | .real bits => (Decimal.render? realLayout bits).getD "null"

end Json

end EventDispatch
