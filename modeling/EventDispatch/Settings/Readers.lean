import EventDispatch.Decimal.Literal
import EventDispatch.Decimal.Whole
import EventDispatch.Settings.Shape
import EventDispatch.Text.Lower

/-!
# Strict and lenient readers of settings

Settings that come as JSON have to be of the right types. Settings from a file or the environment,
where everything may be a text, are read leniently: texts and numbers stand for each other, and so do
truth values.

## Main definitions

* `Readers`: how the fields of settings are read.
* `Readers.strict`, `Readers.lenient`: the two ways.
-/

namespace EventDispatch

/-- How the fields of settings are read, and records from them. -/
structure Readers where
  text : Decoder String
  /-- Natural numbers of 64 bits, with the name of the type. -/
  natural : String → Decoder Nat
  attributes : Decoder Json.Object
  /-- Records of a name. -/
  record : {α : Type} → String → Shape α → Decoder α

namespace Readers

/-- Values are of the type asked for. -/
def strict : Readers where
  text := .text
  natural := .natural
  attributes := .object
  record name shape := shape.decode name

/-- The text of a number. -/
def numberText : Json.Number → String
  | .natural n => toString n
  | .negative n => toString n
  | .real bits => Decimal.text bits

/-- A text, or the text of a number or truth value. -/
def lenientText : Decoder String
  | .str s => .ok s
  | .bool b => .ok (toString b)
  | .num n => .ok (numberText n)
  | value => Decoder.mismatch "a string" value

/-- The words for truth values in texts. -/
def truth? (s : String) : Option Bool :=
  let word := Text.toLower s
  if ["true", "on", "yes"].contains word then some true
  else if ["false", "off", "no"].contains word then some false
  else none

/-- A natural number, a real one rounded to the nearest, one for what is true, or the text of one of
these. -/
def lenientNatural (expected : String) : Decoder Nat
  | .num (.natural n) => .ok n
  | .num (.real bits) => .ok (Decimal.toNat64 bits)
  | .bool b => .ok b.toNat
  | .str s =>
    match truth? s, Decimal.natural? Width.natural64 s.toList with
    | some b, _ => .ok b.toNat
    | none, some n => .ok n
    | none, none => Decoder.mismatch expected (.str s)
  | value => Decoder.mismatch expected value

mutual

/-- A value without numbers that JSON cannot write. -/
def finite : Json → Json
  | .num (.real bits) => if (Decimal.Binary.ofBits bits).isSome then .num (.real bits) else .null
  | .arr items => .arr (finiteItems items)
  | .obj fields => .obj (finiteFields fields)
  | value => value

/-- Values without numbers that JSON cannot write. -/
def finiteItems : List Json → List Json
  | [] => []
  | value :: rest => finite value :: finiteItems rest

/-- Fields without numbers that JSON cannot write. -/
def finiteFields : List (String × Json) → List (String × Json)
  | [] => []
  | (key, value) :: rest => (key, finite value) :: finiteFields rest

end

/-- A table of attributes; nothing stands for none. -/
def lenientAttributes : Decoder Json.Object
  | .null => .ok []
  | .obj fields => .ok (finiteFields fields)
  | value => Decoder.mismatch "a map" value

/-- Values that stand for the type asked for. What a list holds past the fields of a record is
passed over. -/
def lenient : Readers where
  text := lenientText
  natural := lenientNatural
  attributes := lenientAttributes
  record name shape value :=
    match value with
    | .arr items => shape.decode name (.arr (items.take shape.checks.length))
    | value => shape.decode name value

end Readers

end EventDispatch
