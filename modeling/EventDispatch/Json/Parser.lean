import EventDispatch.Decimal.Literal
import EventDispatch.Json.Value
import EventDispatch.Text.Quoted
import EventDispatch.Width

/-!
# Reading JSON

A reader of JSON texts that says, for a text it refuses, what was wrong and where. Places are counted
in lines, and in bytes from the start of the line.

## Main definitions

* `Json.Cursor`: what is left of a text, and the place reached.
* `Json.Fault`, `Json.TextError`: why a text is refused, and where.
* `Json.parse`: reads one value.
* `Json.parseTexts`: reads an object whose fields are all texts, as checkpoints are.
-/

namespace EventDispatch.Json

/-- What is left of a text, and the place reached. -/
structure Cursor where
  rest : List Char
  line : Nat
  /-- Bytes since the start of the line. -/
  column : Nat
deriving Repr

/-- The start of a text. -/
def Cursor.start (text : String) : Cursor := ⟨text.toList, 1, 0⟩

/-- Past one character. -/
def Cursor.past (c : Char) (rest : List Char) (cur : Cursor) : Cursor :=
  if c = '\n' then ⟨rest, cur.line + 1, 0⟩ else ⟨rest, cur.line, cur.column + c.utf8Size⟩

/-- Why a text is no JSON, or not the JSON asked for. -/
inductive Fault where
  | endInList
  | endInObject
  | endInString
  | endInValue
  | expectedColon
  | expectedListCommaOrEnd
  | expectedObjectCommaOrEnd
  | expectedIdent
  | expectedValue
  | invalidEscape
  | invalidNumber
  | numberOutOfRange
  | controlCharacter
  | keyMustBeString
  | loneSurrogate
  | endOfHexEscape
  | trailingComma
  | trailingCharacters
  | nestedTooDeep
  /-- A value of another type than the one expected. -/
  | mismatch (found expected : String)
deriving DecidableEq, Repr

/-- The wording of a fault. -/
def Fault.message : Fault → String
  | .endInList => "EOF while parsing a list"
  | .endInObject => "EOF while parsing an object"
  | .endInString => "EOF while parsing a string"
  | .endInValue => "EOF while parsing a value"
  | .expectedColon => "expected `:`"
  | .expectedListCommaOrEnd => "expected `,` or `]`"
  | .expectedObjectCommaOrEnd => "expected `,` or `\x7d`"
  | .expectedIdent => "expected ident"
  | .expectedValue => "expected value"
  | .invalidEscape => "invalid escape"
  | .invalidNumber => "invalid number"
  | .numberOutOfRange => "number out of range"
  | .controlCharacter => "control character (\\u0000-\\u001F) found while parsing a string"
  | .keyMustBeString => "key must be a string"
  | .loneSurrogate => "lone leading surrogate in hex escape"
  | .endOfHexEscape => "unexpected end of hex escape"
  | .trailingComma => "trailing comma"
  | .trailingCharacters => "trailing characters"
  | .nestedTooDeep => "recursion limit exceeded"
  | .mismatch found expected => "invalid type: " ++ found ++ ", expected " ++ expected

/-- A fault and its place. -/
structure TextError where
  fault : Fault
  line : Nat
  column : Nat
deriving DecidableEq, Repr

/-- The wording of a refusal. -/
def TextError.message (e : TextError) : String :=
  e.fault.message ++ " at line " ++ toString e.line ++ " column " ++ toString e.column

/-- A reader's answer: what it read and where it stopped, or the refusal. -/
abbrev Reading (α : Type) := Except TextError (α × Cursor)

/-- A refusal at the place reached. -/
def Cursor.fail {α : Type} (cur : Cursor) (fault : Fault) : Except TextError α :=
  .error ⟨fault, cur.line, cur.column⟩

/-- A refusal because of the next character, whose first byte counts as read. -/
def Cursor.failAtNext {α : Type} (cur : Cursor) (fault : Fault) : Except TextError α :=
  match cur.rest with
  | [] => cur.fail fault
  | '\n' :: _ => .error ⟨fault, cur.line + 1, 0⟩
  | _ :: _ => .error ⟨fault, cur.line, cur.column + 1⟩

/-- Skips blanks, tabs and line ends. -/
def skipBlanks (line column : Nat) : List Char → Cursor
  | [] => ⟨[], line, column⟩
  | c :: rest =>
    if c = '\n' then skipBlanks (line + 1) 0 rest
    else if c = ' ' || c = '\t' || c = '\r' then skipBlanks line (column + 1) rest
    else ⟨c :: rest, line, column⟩

/-- The cursor at the next character that is not blank. -/
def Cursor.atToken (cur : Cursor) : Cursor := skipBlanks cur.line cur.column cur.rest

/-! ### Numbers -/

private def isDigit (c : Char) : Bool := '0' ≤ c && c ≤ '9'

private def digitValue (c : Char) : Nat := c.toNat - '0'.toNat

/-- The digits of a mantissa as far as they fit 64 bits, and how many more digits follow. -/
private def mantissa (value : Nat) : List Char → Nat × List Char × List Char
  | [] => (value, [], [])
  | c :: rest =>
    if isDigit c then
      if value * 10 + digitValue c < Width.natural64 then mantissa (value * 10 + digitValue c) rest
      else (value, (c :: rest).takeWhile isDigit, (c :: rest).dropWhile isDigit)
    else (value, [], c :: rest)

/-- A mantissa times a power of ten, each of the two rounded to a floating-point value; nothing if
the product is too large. -/
def scaleReal (significand : Nat) (exponent : Int) : Option Float :=
  let whole := Float.ofNat significand
  let power (n : Nat) : Float := Float.ofScientific 1 false n
  if significand = 0 then some whole
  else if 308 < exponent then none
  else if 0 ≤ exponent then
    let product := whole * power exponent.toNat
    if product.isInf then none else some product
  else
    let steps := (-exponent).toNat
    -- Powers past 308 are taken off in chunks; four chunks reach zero.
    let chunks := min ((steps - 1) / 308) 4
    let reduced := (List.range chunks).foldl (fun x _ => x / power 308) whole
    some (reduced / power (min (steps - 308 * chunks) 308))

private def signed (negative : Bool) (x : Float) : Number :=
  .real (if negative then (-x).toBits else x.toBits)

/-- A cursor moved over characters that are one byte each. -/
def Cursor.beyond (cur : Cursor) (count : Nat) (rest : List Char) : Cursor :=
  ⟨rest, cur.line, cur.column + count⟩

/-- The exponent part of a number, after its mark. -/
private def readExponent (negative : Bool) (significand : Nat) (shift : Int) (cur : Cursor) :
    Reading Number :=
  let (down, cur) := match cur.rest with
    | '+' :: rest => (false, cur.beyond 1 rest)
    | '-' :: rest => (true, cur.beyond 1 rest)
    | _ => (false, cur)
  match cur.rest with
  | [] => cur.fail .endInValue
  | c :: rest =>
    if isDigit c then
      let digits := cur.rest.takeWhile isDigit
      let cur := cur.beyond digits.length (cur.rest.dropWhile isDigit)
      let size := digits.foldl (fun n d => n * 10 + digitValue d) 0
      match scaleReal significand (if down then shift - size else shift + size) with
      | some x => .ok (signed negative x, cur)
      | none => cur.fail .numberOutOfRange
    else (cur.past c rest).fail .invalidNumber

/-- What follows the whole part of a number: a fraction, an exponent, or nothing. `dropped` digits of
the whole part did not fit the mantissa. -/
private def readTail (negative : Bool) (significand : Nat) (dropped : Nat) (cur : Cursor) :
    Reading Number :=
  match cur.rest with
  | '.' :: rest =>
    let (value, extra, after) := if dropped = 0 then mantissa significand rest
      else (significand, rest.takeWhile isDigit, rest.dropWhile isDigit)
    let count := (rest.takeWhile isDigit).length
    let shift : Int := if dropped = 0 then -((count - extra.length : Nat) : Int) else dropped
    let cur := cur.beyond (1 + count) after
    if count = 0 then cur.failAtNext (if after.isEmpty then .endInValue else .invalidNumber)
    else match after with
      | 'e' :: rest => readExponent negative value shift (cur.beyond 1 rest)
      | 'E' :: rest => readExponent negative value shift (cur.beyond 1 rest)
      | _ => match scaleReal value shift with
        | some x => .ok (signed negative x, cur)
        | none => cur.fail .numberOutOfRange
  | 'e' :: rest => readExponent negative significand dropped (cur.beyond 1 rest)
  | 'E' :: rest => readExponent negative significand dropped (cur.beyond 1 rest)
  | _ =>
    if dropped ≠ 0 then
      match scaleReal significand dropped with
      | some x => .ok (signed negative x, cur)
      | none => cur.fail .numberOutOfRange
    else if negative then
      if 0 < significand ∧ significand ≤ Width.integer64 then .ok (.negative (-significand), cur)
      else .ok (signed true (Float.ofNat significand), cur)
    else .ok (.natural significand, cur)

/-- A number, after its sign. -/
private def readNumber (negative : Bool) (cur : Cursor) : Reading Number :=
  match cur.rest with
  | [] => cur.fail .endInValue
  | '0' :: rest =>
    let next := cur.beyond 1 rest
    match rest with
    | c :: _ => if isDigit c then next.failAtNext .invalidNumber else readTail negative 0 0 next
    | [] => readTail negative 0 0 next
  | c :: rest =>
    if isDigit c then
      let (value, extra, after) := mantissa 0 (c :: rest)
      let count := ((c :: rest).takeWhile isDigit).length
      readTail negative value extra.length (cur.beyond count after)
    else (cur.past c rest).fail .invalidNumber

/-! ### Strings -/

/-- Four hexadecimal digits. -/
def readHex (cur : Cursor) : Reading Nat :=
  match cur.rest with
  | a :: b :: c :: d :: rest =>
    match Decimal.hexDigit? a, Decimal.hexDigit? b, Decimal.hexDigit? c, Decimal.hexDigit? d with
    | some a, some b, some c, some d =>
      .ok (((a * 16 + b) * 16 + c) * 16 + d, cur.beyond 4 rest)
    | _, _, _, _ => (cur.beyond 4 rest).fail .invalidEscape
  | short =>
    let rest := short.foldl (fun (cur : Cursor) c => cur.past c []) cur
    rest.fail .endInString

/-- The character of a `\u` escape, after the `u`; a pair of surrogates makes one character. -/
def readUnicode (cur : Cursor) : Except TextError (Char × Cursor) := do
  let (n, cur) ← readHex cur
  if 0xDC00 ≤ n ∧ n ≤ 0xDFFF then cur.fail .loneSurrogate
  else if n < 0xD800 ∨ 0xDBFF < n then pure (Char.ofNat n, cur)
  else match cur.rest with
    | [] => cur.fail .endInString
    | '\\' :: rest =>
      let cur := cur.beyond 1 rest
      match cur.rest with
      | [] => cur.fail .endInString
      | 'u' :: rest =>
        let (low, cur) ← readHex (cur.beyond 1 rest)
        if low < 0xDC00 ∨ 0xDFFF < low then cur.fail .loneSurrogate
        else pure (Char.ofNat ((n - 0xD800) * 0x400 + (low - 0xDC00) + 0x10000), cur)
      | c :: rest => (cur.past c rest).fail .endOfHexEscape
    | c :: rest => (cur.past c rest).fail .endOfHexEscape

/-- The character that an escape stands for, after the backslash. -/
def readEscape (cur : Cursor) : Reading Char :=
  match cur.rest with
  | [] => cur.fail .endInString
  | c :: rest =>
    let next := cur.past c rest
    match c with
    | '"' => .ok ('"', next)
    | '\\' => .ok ('\\', next)
    | '/' => .ok ('/', next)
    | 'b' => .ok (Char.ofNat 8, next)
    | 'f' => .ok (Char.ofNat 12, next)
    | 'n' => .ok ('\n', next)
    | 'r' => .ok ('\r', next)
    | 't' => .ok ('\t', next)
    | 'u' => readUnicode next
    | _ => next.fail .invalidEscape

/-- The characters of a string after its opening quote, onto those read so far in reverse. -/
def readChars (fuel : Nat) (done : List Char) (cur : Cursor) : Reading String :=
  match fuel with
  | 0 => cur.fail .endInString
  | fuel + 1 =>
    match cur.rest with
    | [] => cur.fail .endInString
    | c :: rest =>
      let next := cur.past c rest
      if c = '"' then .ok (String.ofList done.reverse, next)
      else if c = '\\' then
        match readEscape next with
        | .ok (c, cur) => readChars fuel (c :: done) cur
        | .error e => .error e
      else if c.toNat < 32 then next.fail .controlCharacter
      else readChars fuel (c :: done) next

/-- A string, after its opening quote. -/
def readString (cur : Cursor) : Reading String := readChars (cur.rest.length + 1) [] cur

/-! ### Values -/

/-- The remaining letters of a word such as `null`. -/
private def readWord : List Char → Cursor → Except TextError Cursor
  | [], cur => .ok cur
  | expected :: word, cur =>
    match cur.rest with
    | [] => cur.fail .endInValue
    | c :: rest => if c = expected then readWord word (cur.past c rest)
      else (cur.past c rest).fail .expectedIdent

/-- A value that is neither list nor object, at a cursor that stands on its first character. -/
private def readScalar (cur : Cursor) : Reading Json :=
  match cur.rest with
  | [] => cur.fail .endInValue
  | c :: rest =>
    let next := cur.past c rest
    match c with
    | 'n' => (readWord ['u', 'l', 'l'] next).map (.null, ·)
    | 't' => (readWord ['r', 'u', 'e'] next).map (.bool true, ·)
    | 'f' => (readWord ['a', 'l', 's', 'e'] next).map (.bool false, ·)
    | '-' => (readNumber true next).map fun (n, cur) => (.num n, cur)
    | '"' => (readString next).map fun (s, cur) => (.str s, cur)
    | c => if isDigit c then (readNumber false cur).map fun (n, cur) => (.num n, cur)
      else cur.failAtNext .expectedValue

/-- The key of the next field of an object, or nothing at its end. -/
def readKey (first : Bool) (cur : Cursor) : Reading (Option String) :=
  let cur := cur.atToken
  let key (cur : Cursor) (atEnd : Fault) : Reading (Option String) :=
    match cur.rest with
    | [] => cur.failAtNext .endInValue
    | '"' :: rest => (readString (cur.past '"' rest)).map fun (s, cur) => (some s, cur)
    | c :: _ => cur.failAtNext (if c = Char.ofNat 125 then atEnd else .keyMustBeString)
  match cur.rest with
  | [] => cur.failAtNext .endInObject
  | c :: rest =>
    if c = Char.ofNat 125 then .ok (none, cur.past c rest)
    else if first then key cur .keyMustBeString
    else if c = ',' then key (cur.past c rest).atToken .trailingComma
    else cur.failAtNext .expectedObjectCommaOrEnd

/-- The colon between a key and its value. -/
def readColon (cur : Cursor) : Except TextError Cursor :=
  let cur := cur.atToken
  match cur.rest with
  | [] => cur.failAtNext .endInObject
  | ':' :: rest => .ok (cur.past ':' rest)
  | _ :: _ => cur.failAtNext .expectedColon

mutual

/-- A value. Every nested reader takes one unit of fuel, and every character can start at most two. -/
def readValue (fuel : Nat) (cur : Cursor) : Reading Json :=
  match fuel with
  | 0 => cur.fail .nestedTooDeep
  | fuel + 1 =>
    let cur := cur.atToken
    match cur.rest with
    | '[' :: rest => (readItems fuel true [] (cur.past '[' rest)).map fun (xs, cur) => (.arr xs, cur)
    | c :: rest =>
      if c = Char.ofNat 123 then
        (readFields fuel true [] (cur.past c rest)).map fun (fs, cur) => (.obj (Keyed.ofList fs), cur)
      else readScalar cur
    | [] => cur.failAtNext .endInValue

/-- The items of a list, onto those read so far in reverse. -/
def readItems (fuel : Nat) (first : Bool) (done : List Json) (cur : Cursor) : Reading (List Json) :=
  match fuel with
  | 0 => cur.fail .nestedTooDeep
  | fuel + 1 =>
    let cur := cur.atToken
    match cur.rest with
    | [] => cur.failAtNext .endInList
    | ']' :: rest => .ok (done.reverse, cur.past ']' rest)
    | c :: rest =>
      if first then
        match readValue fuel cur with
        | .ok (x, cur) => readItems fuel false (x :: done) cur
        | .error e => .error e
      else if c = ',' then
        let next := (cur.past c rest).atToken
        match next.rest with
        | ']' :: _ => next.failAtNext .trailingComma
        | [] => next.failAtNext .endInValue
        | _ =>
          match readValue fuel next with
          | .ok (x, cur) => readItems fuel false (x :: done) cur
          | .error e => .error e
      else cur.failAtNext .expectedListCommaOrEnd

/-- The fields of an object, onto those read so far in reverse. -/
def readFields (fuel : Nat) (first : Bool) (done : List (String × Json)) (cur : Cursor) :
    Reading (List (String × Json)) :=
  match fuel with
  | 0 => cur.fail .nestedTooDeep
  | fuel + 1 =>
    match readKey first cur with
    | .error e => .error e
    | .ok (none, cur) => .ok (done.reverse, cur)
    | .ok (some key, cur) =>
      match readColon cur with
      | .error e => .error e
      | .ok cur =>
        match readValue fuel cur with
        | .ok (x, cur) => readFields fuel false ((key, x) :: done) cur
        | .error e => .error e

end

/-- What stands after a value may only be blank. -/
def atEnd {α : Type} (x : α) (cur : Cursor) : Except TextError α :=
  let cur := cur.atToken
  if cur.rest.isEmpty then .ok x else cur.failAtNext .trailingCharacters

/-- Reads one value that is the whole text. -/
def parse (text : String) : Except TextError Json := do
  let (value, cur) ← readValue (2 * text.length + 2) (.start text)
  atEnd value cur

/-! ### Objects of texts -/

/-- A number as error messages name it. -/
def Number.describe : Number → String
  | .natural n => "integer `" ++ toString n ++ "`"
  | .negative n => "integer `" ++ toString n ++ "`"
  | .real bits => "floating point `" ++ (Number.real bits).text ++ "`"

/-- The refusal of a value that is not of the type expected; scalars are read first, lists and objects
are refused at their opening bracket. -/
private def refuse {α : Type} (expected : String) (cur : Cursor) :
    Except TextError α :=
  match cur.rest with
  | '[' :: _ => cur.fail (.mismatch "sequence" expected)
  | c :: _ =>
    if c = Char.ofNat 123 then cur.fail (.mismatch "map" expected)
    else match readScalar cur with
      | .error e => .error e
      | .ok (.num n, cur) => cur.fail (.mismatch n.describe expected)
      | .ok (.str s, cur) => cur.fail (.mismatch ("string " ++ Text.quoted s) expected)
      | .ok (.bool b, cur) => cur.fail (.mismatch ("boolean `" ++ toString b ++ "`") expected)
      | .ok (_, cur) => cur.fail (.mismatch "null" expected)
  | [] => cur.failAtNext .endInValue

/-- The fields of an object of texts, onto those read so far in reverse. -/
def readTexts (fuel : Nat) (first : Bool)
    (done : List (String × String)) (cur : Cursor) : Reading (List (String × String)) :=
  match fuel with
  | 0 => cur.fail .nestedTooDeep
  | fuel + 1 =>
    match readKey first cur with
    | .error e => .error e
    | .ok (none, cur) => .ok (done.reverse, cur)
    | .ok (some key, cur) =>
      match readColon cur with
      | .error e => .error e
      | .ok cur =>
        let cur := cur.atToken
        match cur.rest with
        | '"' :: rest =>
          match readString (cur.past '"' rest) with
          | .ok (s, cur) => readTexts fuel false ((key, s) :: done) cur
          | .error e => .error e
        | _ => refuse "a string" cur

/-- Reads an object whose fields are all texts, in the order written. -/
def parseTexts (text : String) : Except TextError (List (String × String)) :=
  let cur := (Cursor.start text).atToken
  match cur.rest with
  | c :: rest =>
    if c = Char.ofNat 123 then do
      let (fields, cur) ← readTexts (text.length + 1) true [] (cur.past c rest)
      atEnd fields cur
    else refuse "a map" cur
  | [] => cur.failAtNext .endInValue

end EventDispatch.Json
