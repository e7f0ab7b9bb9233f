import EventDispatch.Decimal.Literal

/-!
# What plain scalars stand for

A plain scalar without a tag stands for nothing, a truth value, or a number if it is written like one,
and else for its text; a tag may ask for one of these types. All other scalars are texts.

## Main definitions

* `Value`: what a scalar stands for.
* `Value.ofPlain`: a plain scalar without a tag.
* `Value.ofTagged`: a plain scalar with a tag.
-/

namespace EventDispatch.Yaml

/-- What a scalar stands for. -/
inductive Value where
  | null
  | bool (b : Bool)
  /-- A whole number from `-2 ^ 63` up to `2 ^ 63 - 1`. -/
  | int (n : Int)
  /-- A floating-point number by its text. -/
  | real (text : String)
  | text (s : String)
deriving DecidableEq, Repr, Inhabited

namespace Value

/-- The spellings of the infinities and of what is not a number. -/
def isSpecialReal (s : String) : Bool :=
  [".inf", ".Inf", ".INF", "+.inf", "+.Inf", "+.INF", "-.inf", "-.Inf", "-.INF",
    ".nan", ".NaN", ".NAN"].contains s

/-- The text is a floating-point number. -/
def isReal (s : String) : Bool := isSpecialReal s || (Decimal.real? s.toList).isSome

/-- A whole number with a mark for its base, or with a plus sign. -/
def marked? : List Char → Option Int
  | '0' :: 'x' :: rest => Decimal.integer? 16 rest
  | '0' :: 'o' :: rest => Decimal.integer? 8 rest
  | '+' :: rest => Decimal.integer? 10 rest
  | _ => none

/-- A plain scalar without a tag. -/
def ofPlain (s : String) : Value :=
  if s = "" || s = "~" || s = "null" then .null
  else if s = "true" then .bool true
  else if s = "false" then .bool false
  else
    match (marked? s.toList).or (Decimal.integer? 10 s.toList) with
    | some n => .int n
    | none => if isReal s then .real s else .text s

/-- A plain scalar whose tag is one of the language's own; nothing if it does not fit the tag. -/
def ofTagged (tag s : String) : Option Value :=
  match tag with
  | "bool" => if s = "true" then some (.bool true) else if s = "false" then some (.bool false) else none
  | "int" => (Decimal.integer? 10 s.toList).map .int
  | "float" => if isReal s then some (.real s) else none
  | "null" => if s = "~" || s = "null" then some .null else none
  | _ => some (.text s)

end Value

end EventDispatch.Yaml
