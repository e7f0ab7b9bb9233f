/-!
# Targets of requests

The target of a request is a path with an optional query, a star, an authority alone, or an absolute
target with scheme and authority in front of the path.

## Main definitions

* `Target`: the path and the query.
* `TargetError`: why a text is no target.
* `Target.parse`: reads a target.
-/

namespace EventDispatch

/-- Why a text is no target. -/
inductive TargetError where
  | empty
  | tooLong
  | invalidCharacter
  | invalidAuthority
  | invalidFormat
  | schemeTooLong
deriving DecidableEq, Repr

/-- The wording of a refused target. -/
def TargetError.message : TargetError → String
  | empty => "empty string"
  | tooLong => "uri too long"
  | invalidCharacter => "invalid uri character"
  | invalidAuthority => "invalid authority"
  | invalidFormat => "invalid format"
  | schemeTooLong => "scheme too long"

/-- What a request is for. -/
structure Target where
  path : String
  /-- The text behind the first question mark, if there is one. -/
  query : Option String
deriving DecidableEq, Repr, Inhabited

namespace Target

/-- The most bytes that a target may have. -/
def maxLength : Nat := 65534

/-- The most characters that a scheme may have. -/
def maxSchemeLength : Nat := 64

/-- Colons that an authority may have before what follows them decides. -/
def maxColons : Nat := 8

/-- The character may stand in an authority as it is, or ends it. -/
def isAuthorityChar (c : Char) : Bool :=
  c.isAlphanum || "!#$&'()*+,-./:;=?@[]_~".toList.contains c

/-- The character may stand in a scheme. -/
def isSchemeChar (c : Char) : Bool := c.isAlphanum || "+-.~".toList.contains c

/-- The character may stand in a path: all but the blank, control characters, and a few others. -/
def isPathChar (c : Char) : Bool :=
  32 < c.toNat && !(c = '<' || c = '>' || c = Char.ofNat 96)

/-- The character may stand in a query. -/
def isQueryChar (c : Char) : Bool :=
  32 < c.toNat && !(c = '"' || c = '<' || c = '>')

/-- The path and the query of a text that begins behind the authority. A fragment is left out. -/
def ofPathAndQuery (text : List Char) : Except TargetError Target :=
  let path := text.takeWhile fun c => c ≠ '?' && c ≠ '#'
  if !path.all isPathChar then .error .invalidCharacter
  else
    match text.drop path.length with
    | '?' :: rest =>
      let query := rest.takeWhile (· ≠ '#')
      if !query.all isQueryChar then .error .invalidCharacter
      else .ok ⟨String.ofList path, some (String.ofList query)⟩
    | _ => .ok ⟨String.ofList path, none⟩

/-- What was seen of an authority so far. -/
structure AuthorityScan where
  length : Nat := 0
  /-- Colons since the last closing bracket or at sign. -/
  colons : Nat := 0
  opened : Bool := false
  closed : Bool := false
  /-- A percent sign was seen since the last closing bracket or at sign. -/
  percent : Bool := false
  /-- The last character was an at sign. -/
  endsAtSign : Bool := false

/-- The authority as a whole is well formed; its length. -/
def AuthorityScan.finish (s : AuthorityScan) : Except TargetError Nat :=
  if s.opened != s.closed || 1 < s.colons || s.endsAtSign || s.percent then .error .invalidAuthority
  else .ok s.length

/-- The length of the authority that a text begins with: it ends before the first slash, question mark
or number sign. -/
def scanAuthority (s : AuthorityScan) : List Char → Except TargetError Nat
  | [] => s.finish
  | c :: rest =>
    let next : AuthorityScan := { s with length := s.length + 1, endsAtSign := c = '@' }
    if c = '/' || c = '?' || c = '#' then s.finish
    else if c = ':' then
      if maxColons ≤ s.colons then .error .invalidAuthority
      else scanAuthority { next with colons := s.colons + 1 } rest
    else if c = '[' then
      if s.percent || s.opened then .error .invalidAuthority
      else scanAuthority { next with opened := true } rest
    else if c = ']' then
      if !s.opened || s.closed then .error .invalidAuthority
      else scanAuthority { next with closed := true, colons := 0, percent := false } rest
    else if c = '@' then scanAuthority { next with colons := 0, percent := false } rest
    else if c = '%' then scanAuthority { next with percent := true } rest
    else if isAuthorityChar c then scanAuthority next rest
    else .error .invalidCharacter

/-- The characters of the scheme that a text begins with, if it begins with one and the three marks
behind it. -/
def schemeLength (text : List Char) : Except TargetError (Option Nat) :=
  let scheme := text.takeWhile isSchemeChar
  if 3 < text.length && "://".toList.isPrefixOf (text.drop scheme.length) then
    if maxSchemeLength < scheme.length then .error .schemeTooLong else .ok (some scheme.length)
  else .ok none

/-- A text that is an authority as a whole. -/
def ofAuthority (refusal : TargetError) (text : List Char) : Except TargetError Target :=
  match scanAuthority {} text with
  | .error e => .error e
  | .ok length => if length = text.length then .ok ⟨"", none⟩ else .error refusal

/-- A target that does not begin with a slash and has several characters: with a scheme it has an
authority and then a path, and without one it is an authority. -/
def ofAbsolute (text : List Char) : Except TargetError Target :=
  match schemeLength text with
  | .error e => .error e
  | .ok none => ofAuthority .invalidFormat text
  | .ok (some length) =>
    let text := text.drop (length + 3)
    match scanAuthority {} text with
    | .error e => .error e
    | .ok 0 => .error .invalidFormat
    | .ok length =>
      match ofPathAndQuery (text.drop length) with
      | .error e => .error e
      | .ok target => .ok (if target.path.isEmpty then { target with path := "/" } else target)

/-- Reads a target. -/
def parse (text : String) : Except TargetError Target :=
  if maxLength < text.utf8ByteSize then .error .tooLong
  else
    match text.toList with
    | [] => .error .empty
    | ['*'] => .ok ⟨"*", none⟩
    | [c] => if c = '/' then .ok ⟨"/", none⟩ else ofAuthority .invalidCharacter [c]
    | '/' :: rest => ofPathAndQuery ('/' :: rest)
    | chars => ofAbsolute chars

end Target

end EventDispatch
