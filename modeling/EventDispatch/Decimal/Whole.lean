import EventDispatch.Decimal.Shortest

/-!
# Whole numbers from floating-point values

## Main definitions

* `Binary.round`: the nearest whole number; a half goes away from zero.
* `toNat64`: the nearest natural number of 64 bits.
-/

namespace EventDispatch.Decimal

/-- The whole number nearest to the absolute value; a half goes up. -/
def Binary.round (b : Binary) : Nat :=
  if 0 ≤ b.exponent then b.mantissa * Nat.pow 2 b.exponent.toNat
  else
    let unit := Nat.pow 2 (-b.exponent).toNat
    (2 * b.mantissa + unit) / (2 * unit)

/-- The value behind a bit pattern is not a number. -/
def isNaN (bits : UInt64) : Bool :=
  bits.toNat / fractionBound % exponentBound == 2047 && bits.toNat % fractionBound != 0

/-- The value behind a bit pattern is below zero. -/
def isNegative (bits : UInt64) : Bool := bits.toNat / Width.integer64 == 1

/-- The natural number of 64 bits nearest to a value; `0` for what is not a number. -/
def toNat64 (bits : UInt64) : Nat :=
  if isNaN bits || isNegative bits then 0
  else
    match Binary.ofBits bits with
    | some b => min b.round (Width.natural64 - 1)
    | none => Width.natural64 - 1

/-- Whole numbers are written without a point, and no number with an exponent. -/
def positional : Layout := ⟨-400, 400, false, false⟩

/-- The text of a value in digits alone, or the word for it. -/
def text (bits : UInt64) : String :=
  (render? positional bits).getD
    (if isNaN bits then "NaN" else if isNegative bits then "-inf" else "inf")

end EventDispatch.Decimal
