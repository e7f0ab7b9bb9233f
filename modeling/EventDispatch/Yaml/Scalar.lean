import EventDispatch.Yaml.Place

/-!
# Scalars as they are written

The three ways of writing a scalar: plain, in quotes, and as a block. Each reader goes once through the
places and keeps, beside the text read so far, the gap since the last character of the text: blanks
within a line are kept, a single line end becomes a space, and of several all but the first are kept.

## Main definitions

* `Gap`: what stands between two parts of a text.
* `plainScalar?`, `quotedScalar?`, `blockScalar?`: the readers.
-/

namespace EventDispatch.Yaml

/-- What was passed over since the last character of a text. -/
inductive Gap where
  /-- Blanks within a line, the last first. -/
  | blanks (cs : List Char)
  /-- Line ends: whether the first of them folds to a space, and how many more there are. -/
  | breaks (folds : Bool) (more : Nat)
deriving DecidableEq, Repr

namespace Gap

/-- No gap. -/
def closed : Gap := .blanks []

/-- The gap with a blank or a line end more. Blanks count only within a line. -/
def past (c : Char) : Gap → Gap
  | .blanks cs => if c = '\n' then .breaks true 0 else .blanks (c :: cs)
  | .breaks folds more => .breaks folds (if c = '\n' then more + 1 else more)

/-- What the gap is in the text, the last first. -/
def text : Gap → List Char
  | .blanks cs => cs
  | .breaks true 0 => [' ']
  | .breaks _ more => List.replicate more '\n'

/-- A line ended in the gap, or nothing stands before it. -/
def atLineStart : Gap → Bool
  | .blanks _ => false
  | .breaks _ _ => true

end Gap

/-! ### Plain scalars -/

/-- The character may stand in a plain scalar, given the one after it: a colon before a blank ends the
scalar, and in brackets so does what builds collections. -/
def continuesPlain (inFlow : Bool) (c following : Char) : Bool :=
  !(c == ':' && (isBlankOrEnd following || (inFlow && isFlow following))) && !(inFlow && isFlow c)

/-- A scalar that was read. -/
structure Reading where
  text : String
  /-- It ended with a line. -/
  endsLine : Bool := false
  rest : List Place

/-- The end of a plain scalar, which must not be empty. -/
private def plainEnd? (gap : Gap) (done : List Char) (rest : List Place) : Option Reading :=
  if done.isEmpty then none else some ⟨String.ofList done.reverse, gap.atLineStart, rest⟩

/-- A plain scalar, onto its characters read so far. Outside of brackets its lines are indented; a line
that starts with a tab before that may hold nothing, or only a comment, which is passed over. -/
def plainFrom (inFlow : Bool) (indent : Int) (inComment : Bool) (gap : Gap) (done : List Char) :
    List Place → Option Reading
  | [] => plainEnd? gap done []
  | p :: rest =>
    let c := p.char
    if c = '\n' then plainFrom inFlow indent false (gap.past c) done rest
    else if c = nul then plainEnd? gap done (p :: rest)
    else if inComment then plainFrom inFlow indent true gap done rest
    else if isBlank c then
      if c = '\t' && gap.atLineStart && decide ((p.column : Int) < indent) then
        if isLineOver (p :: rest) then plainFrom inFlow indent true gap done rest else none
      else plainFrom inFlow indent false (gap.past c) done rest
    else
      let outdented := !inFlow && !done.isEmpty && decide ((p.column : Int) < indent)
      if gap ≠ .closed && (outdented || c == '#' || isDocumentMark (p :: rest)) then
        plainEnd? gap done (p :: rest)
      else if gap ≠ .closed && inFlow && c == '-' && isFlow (next rest) then none
      else if continuesPlain inFlow c (next rest) then
        plainFrom inFlow indent false .closed (c :: (gap.text ++ done)) rest
      else plainEnd? gap done (p :: rest)

/-- A plain scalar. -/
def plainScalar? (inFlow : Bool) (indent : Int) (ps : List Place) : Option Reading :=
  if inFlow && decide ((column ps : Int) < indent) then none
  else plainFrom inFlow indent false (.breaks false 0) [] ps

/-! ### Quoted scalars -/

/-- What an escape stands for: a character, or a code point in a number of hexadecimal digits. -/
inductive Escape where
  | char (c : Char)
  | code (digits : Nat)
deriving DecidableEq, Repr

/-- The escape that a letter stands for. -/
def escape? (c : Char) : Option Escape :=
  match c with
  | '0' => some (.char nul)
  | 'a' => some (.char (Char.ofNat 7))
  | 'b' => some (.char (Char.ofNat 8))
  | 't' => some (.char '\t')
  | '\t' => some (.char '\t')
  | 'n' => some (.char '\n')
  | 'v' => some (.char (Char.ofNat 11))
  | 'f' => some (.char (Char.ofNat 12))
  | 'r' => some (.char '\r')
  | 'e' => some (.char (Char.ofNat 27))
  | ' ' => some (.char ' ')
  | '"' => some (.char '"')
  | '/' => some (.char '/')
  | '\\' => some (.char '\\')
  | 'N' => some (.char (Char.ofNat 0x85))
  | '_' => some (.char (Char.ofNat 0xA0))
  | 'L' => some (.char (Char.ofNat 0x2028))
  | 'P' => some (.char (Char.ofNat 0x2029))
  | 'x' => some (.code 2)
  | 'u' => some (.code 4)
  | 'U' => some (.code 8)
  | _ => none

/-- Where a reader of a quoted scalar stands. -/
inductive QuoteState where
  /-- In the text, after a gap. -/
  | text (gap : Gap)
  /-- After a quote in single quotes, where a second one makes it part of the text. -/
  | quote
  /-- After a backslash. -/
  | backslash
  /-- In the digits of a code point: how many are still to come, and its value so far. -/
  | digits (left value : Nat)
deriving Repr

/-- A scalar in quotes, after the opening quote, onto its characters read so far. Its lines are
indented, except that a closing quote may stand right after an escaped line end. -/
def quotedFrom (single : Bool) (indent : Int) (state : QuoteState) (done : List Char) :
    List Place → Option Reading
  | [] => none
  | p :: rest =>
    let c := p.char
    match state with
    | .quote =>
      if c = '\'' then quotedFrom single indent (.text .closed) ('\'' :: done) rest
      else some { text := String.ofList done.reverse, rest := p :: rest }
    | .backslash =>
      if c = '\n' then quotedFrom single indent (.text (.breaks false 0)) done rest
      else
        match escape? c with
        | none => none
        | some (.char e) => quotedFrom single indent (.text .closed) (e :: done) rest
        | some (.code digits) => quotedFrom single indent (.digits digits 0) done rest
    | .digits left value =>
      match Decimal.hexDigit? c with
      | none => none
      | some d =>
        let value := value * 16 + d
        if left ≤ 1 then
          match charOfCode? value with
          | none => none
          | some e => quotedFrom single indent (.text .closed) (e :: done) rest
        else quotedFrom single indent (.digits (left - 1) value) done rest
    | .text gap =>
      let quote := if single then '\'' else '"'
      let below := decide ((p.column : Int) < indent)
      let escapedEnd := gap == .breaks false 0 && p.column == 0 && c == quote
      if c = nul then none
      else if c = '\n' then quotedFrom single indent (.text (gap.past c)) done rest
      else if isBlank c then
        if c = '\t' && gap.atLineStart && below then none
        else quotedFrom single indent (.text (gap.past c)) done rest
      else if gap ≠ .closed && !escapedEnd && (below || isDocumentMark (p :: rest)) then none
      else
        let done := gap.text ++ done
        if c = quote then
          if single then quotedFrom single indent .quote done rest
          else some { text := String.ofList done.reverse, rest }
        else if c = '\\' && !single then quotedFrom single indent .backslash done rest
        else quotedFrom single indent (.text .closed) (c :: done) rest

/-- What may follow a quoted scalar that starts in a line. -/
private def endsQuoted (inFlow : Bool) (line : Nat) : List Place → Bool
  | [] => true
  | p :: _ =>
    isBreakOrEnd p.char || (p.char == ':' && (inFlow || p.line == line)) ||
      (inFlow && (p.char == ',' || p.char == ']' || p.char == closeBrace))

/-- A scalar in quotes. -/
def quotedScalar? (single inFlow : Bool) (indent : Int) : List Place → Option Reading
  | [] => none
  | p :: rest =>
    match quotedFrom single indent (.text .closed) [] rest with
    | none => none
    | some reading =>
      match lineEnd? reading.rest with
      | none => none
      | some rest => if endsQuoted inFlow p.line rest then some { reading with rest } else none

/-! ### Block scalars -/

/-- What becomes of the line ends at the end of a block. -/
inductive Chomping where
  /-- One is kept. -/
  | clip
  /-- None is kept. -/
  | strip
  /-- All are kept. -/
  | keep
deriving DecidableEq, Repr

/-- The head of a block scalar, after its mark: what becomes of its last line ends, and how far it is
indented, `0` if its first line shows that. -/
def blockHead? (ps : List Place) : Option (Chomping × Nat × List Place) :=
  let chomping? (c : Char) : Option Chomping :=
    if c = '+' then some .keep else if c = '-' then some .strip else none
  let c := next ps
  match chomping? c with
  | some chomping =>
    let ps := ps.drop 1
    let d := next ps
    if d = '0' then none
    else if d.isDigit then some (chomping, d.toNat - '0'.toNat, ps.drop 1)
    else some (chomping, 0, ps)
  | none =>
    if c = '0' then none
    else if c.isDigit then
      let ps := ps.drop 1
      match chomping? (next ps) with
      | some chomping => some (chomping, c.toNat - '0'.toNat, ps.drop 1)
      | none => some (.clip, c.toNat - '0'.toNat, ps)
    else some (.clip, 0, ps)

/-- Past the empty lines before a block and the indentation of its first line, up to a column if one
is given: the number of empty lines, and the widest indentation among all these lines. -/
def blockStart (limit : Option Nat) (breaks widest : Nat) : List Place → Nat × Nat × List Place
  | [] => (breaks, widest, [])
  | p :: rest =>
    let open_ := match limit with
      | some n => decide (p.column < n)
      | none => true
    if p.char = ' ' && open_ then blockStart limit breaks widest rest
    else
      let widest := max widest p.column
      if p.char = '\n' then blockStart limit (breaks + 1) widest rest
      else (breaks, widest, p :: rest)

/-- The lines of a block read so far. -/
structure BlockLines where
  /-- The text, the last character first. -/
  done : List Char := []
  /-- A line end follows that is not yet in the text. -/
  lineEnd : Bool := false
  /-- The last line started with a blank. -/
  blankStart : Bool := false
  /-- The empty lines that follow. -/
  empty : Nat := 0
  /-- The reader stands within a line. -/
  inLine : Bool := false

/-- The lines before a next line that starts with a character. A folded line end becomes a space,
unless a line next to it starts with a blank. -/
def BlockLines.join (folded : Bool) (c : Char) (b : BlockLines) : BlockLines :=
  let blank := isBlank c
  let ends := List.replicate b.empty '\n'
  let gap :=
    if folded && b.lineEnd && !b.blankStart && !blank then (if b.empty = 0 then [' '] else ends)
    else if b.lineEnd then '\n' :: ends else ends
  { done := gap ++ b.done, blankStart := blank, inLine := true }

/-- The lines of a block that are indented up to a column. -/
def blockFrom (folded : Bool) (indent : Nat) (b : BlockLines) : List Place → BlockLines × List Place
  | [] => (b, [])
  | p :: rest =>
    let c := p.char
    if c = nul then (b, p :: rest)
    else if b.inLine then
      if c = '\n' then blockFrom folded indent { b with lineEnd := true, inLine := false } rest
      else blockFrom folded indent { b with done := c :: b.done } rest
    else if c = '\n' then blockFrom folded indent { b with empty := b.empty + 1 } rest
    else if c = ' ' && p.column < indent then blockFrom folded indent b rest
    else if p.column = indent && !(indent == 0 && isMark '.' (p :: rest)) then
      let b := b.join folded c
      blockFrom folded indent { b with done := c :: b.done } rest
    else (b, p :: rest)

/-- The text of a block with what is left of its last line ends. A last line without an end gets one;
so does what follows the last line end if it is indented like the block. -/
def BlockLines.finish (chomping : Chomping) (indent : Nat) (rest : List Place) (b : BlockLines) :
    List Char :=
  let done := b.done
  let done :=
    if chomping = .strip then done
    else
      let done := if b.lineEnd then '\n' :: done else done
      if next rest = nul && max indent 1 ≤ column rest then '\n' :: done else done
  if chomping = .keep then List.replicate b.empty '\n' ++ done else done

/-- The text of a block that ends with the text and holds no line. -/
def emptyBlock (chomping : Chomping) (headEnds : Bool) (breaks : Nat) : List Char :=
  if !headEnds then []
  else
    match chomping with
    | .strip => []
    | .clip => ['\n']
    | .keep => List.replicate (max 1 breaks) '\n'

/-- A block scalar in a block of an indentation, after its mark. -/
def blockScalar? (folded : Bool) (outer : Int) (ps : List Place) : Option Reading := do
  let (chomping, increment, ps) ← blockHead? ps
  let ps ← lineEnd? ps
  guard (isBreakOrEnd (next ps))
  let headEnds := next ps == '\n'
  let ps := if headEnds then ps.drop 1 else ps
  guard (next ps ≠ '\t')
  let (indent, breaks, ps) :=
    if increment = 0 then
      let (breaks, widest, ps) := blockStart none 0 0 ps
      (max (max widest (outer + 1).toNat) (if 0 < outer then 1 else 0), breaks, ps)
    else
      let indent := if 0 ≤ outer then outer.toNat + increment else increment
      let (breaks, _, ps) := blockStart (some indent) 0 0 ps
      (indent, breaks, ps)
  if next ps = nul then
    pure { text := String.ofList (emptyBlock chomping headEnds breaks), rest := ps }
  else
    guard (!(decide (column ps < indent) && decide (outer < column ps)))
    let (lines, rest) := blockFrom folded indent { empty := breaks } ps
    pure { text := String.ofList (lines.finish chomping indent rest).reverse, rest }

end EventDispatch.Yaml
