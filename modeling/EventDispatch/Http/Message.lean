import EventDispatch.Http.Target

/-!
# Messages

Requests as a source receives them and replies as it sends them. Names of headers are kept in lower
case; values are bytes.

## Main definitions

* `MessageError`: why a message cannot be made.
* `HttpRequest`, `HttpRequest.build`: a request, checked part by part.
* `HttpReply`, with `HttpReply.build` and `HttpReply.withLength`.
-/

namespace EventDispatch

/-- Why a message cannot be made. -/
inductive MessageError where
  | headerName
  | headerValue
  | method
  | target (e : TargetError)
deriving DecidableEq, Repr

/-- The wording of a refused message. -/
def MessageError.message : MessageError → String
  | headerName => "invalid HTTP header name"
  | headerValue => "failed to parse header value"
  | method => "invalid HTTP method"
  | target e => e.message

namespace Http

/-- The character may stand in a token. -/
def isTokenChar (c : Char) : Bool := c.isAlphanum || "!#$%&'*+-.^_`|~".toList.contains c

/-- The text is a token: it has characters, and all of them may stand in one. -/
def isToken (text : String) : Bool := !text.isEmpty && text.toList.all isTokenChar

/-- The most bytes that the name of a header may have. -/
def maxNameLength : Nat := 65535

/-- The text names a header. -/
def isHeaderName (text : String) : Bool := isToken text && text.utf8ByteSize ≤ maxNameLength

/-- The byte may stand in the value of a header. -/
def isValueByte (b : UInt8) : Bool := (32 ≤ b && b != 127) || b == 9

/-- The bytes are the value of a header. -/
def isHeaderValue (value : ByteArray) : Bool := value.data.all isValueByte

/-- The value as a text, if all its characters are visible ones, blanks or tabs. -/
def visibleText? (value : ByteArray) : Option String :=
  if value.data.all fun b => (32 ≤ b && b < 127) || b == 9 then String.fromUTF8? value else none

/-- A name in lower case. -/
def lowerName (name : String) : String := String.ofList (name.toList.map Char.toLower)

/-- The values of the headers of a name, in order. -/
def valuesOf (name : String) (headers : List (String × ByteArray)) : List ByteArray :=
  (headers.filter (·.1 == name)).map Prod.snd

end Http

/-- A request. -/
structure HttpRequest where
  method : String
  target : Target
  /-- The headers, with names in lower case. -/
  headers : List (String × ByteArray)
  body : ByteArray
deriving Inhabited

/-- A request from its parts. Of several faults a header's value is reported first, then the method, the
target, and the name of a header. -/
def HttpRequest.build (method target : String) (headers : List (String × ByteArray))
    (body : ByteArray) : Except MessageError HttpRequest :=
  if !headers.all (Http.isHeaderValue ·.2) then .error .headerValue
  else if !Http.isToken method then .error .method
  else
    match Target.parse target with
    | .error e => .error (.target e)
    | .ok target =>
      if !headers.all (Http.isHeaderName ·.1) then .error .headerName
      else .ok { method, target, body,
                 headers := headers.map fun (name, value) => (Http.lowerName name, value) }

/-- A reply. -/
structure HttpReply where
  status : Nat
  /-- The headers, with names in lower case. -/
  headers : List (String × ByteArray)
  body : ByteArray
deriving Inhabited

namespace HttpReply

/-- A status that replies may have, and else another. -/
def statusOr (other : Nat) : Option Nat → Nat
  | some status => if 100 ≤ status ∧ status < 1000 then status else other
  | none => other

/-- A reply without headers. -/
def plain (status : Nat) (text : String) : HttpReply := ⟨status, [], text.toUTF8⟩

/-- A reply with a type of content. -/
def typed (status : Nat) (contentType : String) (body : ByteArray) : HttpReply :=
  ⟨status, [("content-type", contentType.toUTF8)], body⟩

/-- The headers of a reply from texts; the first fault in their order is reported, of a header with two
faults the one of its name. -/
def checkedHeaders : List (String × String) → Except MessageError (List (String × ByteArray))
  | [] => .ok []
  | (name, value) :: rest =>
    if !Http.isHeaderName name then .error .headerName
    else if !Http.isHeaderValue value.toUTF8 then .error .headerValue
    else (checkedHeaders rest).map ((Http.lowerName name, value.toUTF8) :: ·)

/-- A reply from its parts. -/
def build (status : Nat) (headers : List (String × String)) (body : ByteArray) :
    Except MessageError HttpReply :=
  (checkedHeaders headers).map fun headers => ⟨status, headers, body⟩

/-- The reply with the length of its body among its headers. -/
def withLength (r : HttpReply) : HttpReply :=
  if (Http.valuesOf "content-length" r.headers).isEmpty then
    { r with headers := r.headers ++ [("content-length", (toString r.body.size).toUTF8)] }
  else r

end HttpReply

end EventDispatch
