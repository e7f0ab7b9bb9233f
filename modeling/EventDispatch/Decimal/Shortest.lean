import EventDispatch.Width

/-!
# Shortest decimals of binary fractions

A finite 64-bit floating-point value is `m * 2 ^ q`. Its shortest decimal is the one with the fewest
digits among those that read back as the same value, and of two such decimals the nearer one.

## Main definitions

* `Binary.ofBits`: the sign, mantissa and exponent behind a bit pattern.
* `shortest`: the digits and the exponent of ten of the shortest decimal.
* `Layout`, `render`: how a decimal is written out, as one record of choices.
-/

namespace EventDispatch.Decimal

/-- Fractions of 64-bit floating-point values are below two to the power of 52. -/
abbrev fractionBound : Nat := 0x10000000000000

/-- Exponents of 64-bit floating-point values are below two to the power of 11. -/
abbrev exponentBound : Nat := 0x800

/-- A finite binary value `± m * 2 ^ q`, with the evenness of its mantissa kept in `m`. -/
structure Binary where
  negative : Bool
  mantissa : Nat
  exponent : Int
  /-- The gap below the value is half the gap above it. -/
  lowerGapHalved : Bool
deriving DecidableEq, Repr

/-- The value behind a bit pattern, unless it is an infinity or not a number. -/
def Binary.ofBits (bits : UInt64) : Option Binary :=
  let word := bits.toNat
  let negative := word / Width.integer64 == 1
  let exponent : Nat := word / fractionBound % exponentBound
  let fraction := word % fractionBound
  if exponent == 2047 then none
  else if exponent == 0 then some ⟨negative, fraction, -1074, false⟩
  else some ⟨negative, fraction + fractionBound, (exponent : Int) - 1075, fraction == 0 && exponent > 1⟩

/-- The number of decimal digits of a positive number. -/
def digitCount (n : Nat) : Nat := (toString n).length

/-- `a * 10 ^ d` as a fraction with natural numerator and denominator. -/
private def scaled (a : Nat) (q d : Int) : Nat × Nat :=
  let two := if 0 ≤ q then (Nat.pow 2 q.toNat, 1) else (1, Nat.pow 2 (-q).toNat)
  let ten := if 0 ≤ d then (Nat.pow 10 d.toNat, 1) else (1, Nat.pow 10 (-d).toNat)
  (a * two.1 * ten.1, two.2 * ten.2)

/-- The digits of the value on the grid of multiples of `10 ^ e`, if one of the two neighbours of the
value on that grid reads back as the value; of two, the nearer, and of two equally near the even. -/
private def onGrid (b : Binary) (e : Int) : Option Nat :=
  -- All quantities are taken four times, so that the halves of both gaps are whole.
  let (num, den) := scaled (4 * b.mantissa) b.exponent (-e)
  let (up, _) := scaled 2 b.exponent (-e)
  let (down, _) := scaled (if b.lowerGapHalved then 1 else 2) b.exponent (-e)
  let even := b.mantissa % 2 == 0
  let inside (n : Nat) : Bool :=
    let point := 4 * n * den
    if even then num - down ≤ point && point ≤ num + up
    else num - down < point && point < num + up
  let low := num / (4 * den)
  let high := low + 1
  match inside low, inside high with
  | true, false => some low
  | false, true => some high
  | true, true =>
    let below := num - 4 * low * den
    let above := 4 * high * den - num
    if below < above then some low
    else if above < below then some high
    else if low % 2 == 0 then some low else some high
  | false, false => none

/-- The first grid, from coarse to fine, on which the value has digits. -/
private def search (b : Binary) (e : Int) : Nat → Nat × Int
  | 0 => ((onGrid b e).getD 0, e)
  | fuel + 1 =>
    match onGrid b e with
    | some (n + 1) => (n + 1, e)
    | _ => search b (e - 1) fuel

/-- Drops the zeros at the end of the digits. -/
private def trim (n : Nat) (e : Int) : Nat → Nat × Int
  | 0 => (n, e)
  | fuel + 1 => if n % 10 == 0 && n != 0 then trim (n / 10) (e + 1) fuel else (n, e)

/-- The digits `n` and the exponent `e` of the shortest decimal `n * 10 ^ e` of a positive value. -/
def shortest (b : Binary) : Nat × Int :=
  let (num, den) := scaled b.mantissa b.exponent 0
  -- The position of the leading digit, found from the digit counts of numerator and denominator.
  let top : Int := (digitCount num : Int) - (digitCount den : Int) + 1
  let (n, e) := search b top 20
  trim n e 20

/-- How decimals are written. -/
structure Layout where
  /-- The least exponent of the leading digit that is written positionally. -/
  leastPositional : Int
  /-- The first exponent of the leading digit that is no longer written positionally. -/
  firstExponential : Int
  /-- A whole number written positionally ends in `.0`. -/
  pointZero : Bool
  /-- A positive exponent carries a plus sign. -/
  plusSign : Bool

private def zeros (n : Nat) : String := String.ofList (List.replicate n '0')

/-- The decimal `n * 10 ^ e` in a layout. -/
def Layout.write (layout : Layout) (n : Nat) (e : Int) : String :=
  let digits := toString n
  let lead := e + digits.length - 1
  if lead < layout.leastPositional || layout.firstExponential ≤ lead then
    let fraction := String.ofList (digits.toList.drop 1)
    let mantissa := String.ofList (digits.toList.take 1) ++ (if fraction.isEmpty then "" else "." ++ fraction)
    let sign := if lead < 0 then "-" else if layout.plusSign then "+" else ""
    mantissa ++ "e" ++ sign ++ toString lead.natAbs
  else if 0 ≤ e then
    digits ++ zeros e.toNat ++ (if layout.pointZero then ".0" else "")
  else if lead < 0 then
    "0." ++ zeros (-lead - 1).toNat ++ digits
  else
    let whole := lead.toNat + 1
    String.ofList (digits.toList.take whole) ++ "." ++ String.ofList (digits.toList.drop whole)

/-- A finite value in a layout; nothing for the infinities and for what is not a number. -/
def render? (layout : Layout) (bits : UInt64) : Option String :=
  (Binary.ofBits bits).map fun b =>
    let body := if b.mantissa == 0 then (if layout.pointZero then "0.0" else "0")
      else let (n, e) := shortest b; layout.write n e
    if b.negative then "-" ++ body else body

end EventDispatch.Decimal
