import EventDispatch.Width

/-!
# Reading numbers

Whole numbers and decimals as texts: digits with a sign, and for decimals with a point and an exponent.

## Main definitions

* `hexDigit?`, `digits?`: a digit, and a number in digits of a base.
* `natural?`, `integer?`: whole numbers within bounds.
* `real?`: the floating-point value nearest to a decimal.
-/

namespace EventDispatch.Decimal

/-- The value of a digit or letter as a digit. -/
def digit? (c : Char) : Option Nat :=
  if '0' ≤ c ∧ c ≤ '9' then some (c.toNat - '0'.toNat)
  else if 'a' ≤ c ∧ c ≤ 'z' then some (c.toNat - 'a'.toNat + 10)
  else if 'A' ≤ c ∧ c ≤ 'Z' then some (c.toNat - 'A'.toNat + 10)
  else none

/-- The value of a hexadecimal digit. -/
def hexDigit? (c : Char) : Option Nat := (digit? c).filter (· < 16)

/-- The number that digits of a base stand for, after those that stand for `value`. -/
def digitsFrom? (base value : Nat) : List Char → Option Nat
  | [] => some value
  | c :: rest =>
    match digit? c with
    | some d => if d < base then digitsFrom? base (value * base + d) rest else none
    | none => none

/-- The number that digits of a base stand for; there is at least one. -/
def digits? (base : Nat) (cs : List Char) : Option Nat :=
  if cs.isEmpty then none else digitsFrom? base 0 cs

/-- The sign before a number: whether it is negative, and what follows. -/
def splitSign : List Char → Bool × List Char
  | '+' :: rest => (false, rest)
  | '-' :: rest => (true, rest)
  | cs => (false, cs)

/-- A number in decimal digits below a bound; a plus sign may stand before it. -/
def natural? (bound : Nat) (cs : List Char) : Option Nat :=
  let body := match cs with
    | '+' :: rest => rest
    | _ => cs
  (digits? 10 body).filter (· < bound)

/-- A whole number in digits of a base, with or without a sign, from `-2 ^ 63` up to `2 ^ 63 - 1`. -/
def integer? (base : Nat) (cs : List Char) : Option Int :=
  let (negative, body) := splitSign cs
  match digits? base body with
  | none => none
  | some n =>
    if negative then if n ≤ Width.integer64 then some (-(n : Int)) else none
    else if n < Width.integer64 then some n else none

/-- The floating-point value nearest to `n * 10 ^ e`, which is infinite past the greatest. -/
def nearest (n : Nat) (e : Int) : Float :=
  let lead := e + (toString n).length
  if n = 0 || lead < -330 then 0
  else if 310 < lead then 1.0 / 0.0
  else if e < 0 then Float.ofScientific n true (-e).toNat
  else Float.ofScientific n false e.toNat

private def isDecimalDigit (c : Char) : Bool := '0' ≤ c && c ≤ '9'

/-- A number in digits with or without a point, and with or without an exponent. -/
def unsignedReal? (cs : List Char) : Option Float :=
  let whole := cs.takeWhile isDecimalDigit
  let rest := cs.dropWhile isDecimalDigit
  let (fraction, rest) := match rest with
    | '.' :: rest => (rest.takeWhile isDecimalDigit, rest.dropWhile isDecimalDigit)
    | _ => ([], rest)
  let exponent? : Option Int := match rest with
    | [] => some 0
    | c :: rest =>
      if c = 'e' || c = 'E' then
        let (negative, body) := splitSign rest
        (digits? 10 body).map fun n => if negative then -(n : Int) else n
      else none
  match digits? 10 (whole ++ fraction), exponent? with
  | some n, some e => some (nearest n (e - fraction.length))
  | _, _ => none

/-- The bit pattern of the floating-point value that a text names: a decimal, or a word for an infinity
or for what is not a number. -/
def real? (cs : List Char) : Option UInt64 :=
  let (negative, body) := splitSign cs
  let word := String.ofList (body.map Char.toLower)
  let value? : Option Float :=
    if word = "inf" || word = "infinity" then some (1.0 / 0.0)
    else if word = "nan" then some (0.0 / 0.0)
    else unsignedReal? body
  value?.map fun x => if negative then (-x).toBits else x.toBits

end EventDispatch.Decimal
