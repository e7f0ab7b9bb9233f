import EventDispatch.Yaml.Scalar

/-!
# Tokens of a YAML text

A text as scalars and the marks of its structure. Indentation is turned into marks: where a line is
indented further than its block, a collection starts, and where it is indented less, collections end.
Whether a scalar is the key of a mapping shows only at the colon after it; the mark of the key, and the
start of the mapping, are then put before the tokens since.

## Main definitions

* `Token`: a scalar or a mark.
* `Scan`: the tokens so far, and where the next ones stand.
* `Scan.ready?`, `Scan.step?`: go to the next token, and read it.
* `Token.scan?`: the tokens of a text, unless it breaks a rule.
-/

namespace EventDispatch.Yaml

/-- What a text consists of. -/
inductive Token where
  | version
  /-- A short form of the tags that start with a handle. -/
  | shorthand (handle full : String)
  | documentStart
  | documentEnd
  | blockSequence
  | blockMapping
  | blockEnd
  | flowSequence
  | flowSequenceEnd
  | flowMapping
  | flowMappingEnd
  /-- The dash before an entry. -/
  | blockEntry
  /-- The comma between entries. -/
  | flowEntry
  | key
  | value
  /-- The name of a node that stands elsewhere. -/
  | reference (name : String)
  | anchor (name : String)
  | tag (handle suffix : String)
  | scalar (plain : Bool) (text : String)
deriving DecidableEq, Repr

/-- An indentation to return to, and whether a collection ends there. -/
structure Indent where
  outer : Int
  endsBlock : Bool
deriving Repr

/-- A token that may turn out to be a key. -/
structure PossibleKey where
  /-- The number of the token. -/
  number : Nat
  line : Nat
  column : Nat
  index : Nat
  /-- A token in this place has to be a key. -/
  required : Bool
deriving Repr

/-- The tokens so far, and where the next ones stand. -/
structure Scan where
  rest : List Place
  tokens : Array Token := #[]
  /-- The column of the present block, `-1` outside of all. -/
  indent : Int := -1
  indents : List Indent := []
  /-- A key may start here. -/
  keyAllowed : Bool := true
  /-- For the block and each open bracket, the innermost first, what may be a key. -/
  keys : List (Option PossibleKey) := [none]
  /-- For each open square bracket, whether the present entry is a single pair. -/
  pairs : List Bool := []
  /-- A brace was opened, or a key marked, since the last single pair. -/
  mappingStarted : Bool := false
  /-- The place of a colon that needs no blank after it. -/
  adjacent : Nat := 0

namespace Scan

/-- The number of open brackets. -/
def level (s : Scan) : Nat := s.keys.length - 1

/-- The next token stands in brackets. -/
def inFlow (s : Scan) : Bool := s.level != 0

/-- The most open brackets. -/
def deepest : Nat := 255

/-- One more token. -/
def push (t : Token) (s : Scan) : Scan := { s with tokens := s.tokens.push t }

/-- The present block began with its last indentation. -/
def inBlock (s : Scan) : Bool :=
  match s.indents with
  | i :: _ => i.endsBlock
  | [] => false

/-! ### Indentation -/

/-- Ends the blocks that are indented further than a column. -/
def unindent (column : Int) (s : Scan) : Scan :=
  if s.inFlow then s else go s s.indents
where
  go (s : Scan) : List Indent → Scan
    | [] => s
    | i :: outer =>
      if column < s.indent then
        let s := { s with indent := i.outer, indents := outer }
        go (if i.endsBlock then s.push .blockEnd else s) outer
      else s

/-- Begins a block at a column, if it is indented further than the present one: its start is put before
the token of a number, or after all. -/
def beginBlock (column : Nat) (number : Option Nat) (start : Token) (s : Scan) : Scan :=
  if s.inFlow then s
  else
    let s := match s.indents with
      | i :: outer =>
        if s.indent ≤ (column : Int) && !i.endsBlock then { s with indent := i.outer, indents := outer } else s
      | [] => s
    if s.indent < (column : Int) then
      let tokens := match number with
        | some n => s.tokens.insertIdxIfInBounds n start
        | none => s.tokens.push start
      { s with indent := column, indents := ⟨s.indent, true⟩ :: s.indents, tokens }
    else s

/-- Asks of what follows that it is indented by one column more, without beginning a block. -/
def indentOne (s : Scan) : Scan :=
  if !s.inFlow && s.inBlock then
    { s with indents := ⟨s.indent, false⟩ :: s.indents, indent := s.indent + 1 }
  else s

/-- Forgets what was asked of the indentation since the last block began. -/
def forgetIndents (s : Scan) : Scan := go s s.indents
where
  go (s : Scan) : List Indent → Scan
    | [] => s
    | i :: outer => if i.endsBlock then s else go { s with indent := i.outer, indents := outer } outer

/-! ### Keys -/

/-- A key may start here. -/
def allowKey (s : Scan) : Scan := { s with keyAllowed := true }

/-- No key may start here. -/
def forbidKey (s : Scan) : Scan := { s with keyAllowed := false }

/-- A line ended; outside of brackets a key may follow. -/
def afterLine (ended : Bool) (s : Scan) : Scan := if ended && !s.inFlow then s.allowKey else s

/-- Takes note of the next token as a possible key. -/
def noteKey (s : Scan) : Scan :=
  match s.keyAllowed, s.rest, s.keys with
  | true, p :: _, _ :: keys =>
    let required := !s.inFlow && s.indent == p.column && s.inBlock
    { s with keys := some ⟨s.tokens.size, p.line, p.column, p.index, required⟩ :: keys }
  | _, _, _ => s

/-- What was noted last is no key; nothing if it has to be one. -/
def dropKey? (s : Scan) : Option Scan :=
  match s.keys with
  | some k :: keys => if k.required then none else some { s with keys := none :: keys }
  | _ => some s

/-- Characters up to which a key may reach. -/
def longestKey : Nat := 1024

/-- The key lies too far back for a colon at a place. -/
def PossibleKey.isStale (p : Place) (k : PossibleKey) : Bool :=
  k.line < p.line || k.index + longestKey < p.index

/-- Outside of brackets, drops a key that lies too far back; nothing if it has to be one. -/
def dropStale? (s : Scan) : Option Scan :=
  match s.inFlow, s.keys, s.rest with
  | false, some k :: _, p :: _ => if PossibleKey.isStale p k then s.dropKey? else some s
  | _, _, _ => some s

/-! ### Directives and documents -/

/-- Ends all blocks and what may be a key. -/
def closeAll? (s : Scan) : Option Scan := (s.unindent (-1)).dropKey?.map forbidKey

/-- A number of at most nine digits. -/
private def versionNumber? (ps : List Place) : Option (List Place) :=
  let (digits, rest) := spanChars Char.isDigit ps
  if digits.isEmpty || 9 < digits.length then none else some rest

/-- The escapes of a tag: bytes in hexadecimal digits, one for a character of ASCII, or two whose
digits together are its code point. -/
private def tagEscape? : List Place → Option (Char × List Place)
  | p :: a :: b :: rest => do
    guard (p.char = '%')
    let first := (← Decimal.hexDigit? a.char) * 16 + (← Decimal.hexDigit? b.char)
    if first < 0x80 then pure (Char.ofNat first, rest)
    else
      guard (0xC0 ≤ first && first < 0xE0)
      match rest with
      | q :: c :: d :: rest =>
        guard (q.char = '%')
        let second := (← Decimal.hexDigit? c.char) * 16 + (← Decimal.hexDigit? d.char)
        guard (0x80 ≤ second && second < 0xC0)
        pure (← charOfCode? (first * 256 + second), rest)
      | _ => none
  | _ => none

/-- The characters of a class, with escapes. -/
private def tagText? (class_ : Char → Bool) (done : List Char) (ps : List Place) :
    Nat → Option (String × List Place)
  | 0 => none
  | fuel + 1 =>
    let c := next ps
    if c = '%' then
      match tagEscape? ps with
      | some (c, rest) => tagText? class_ (c :: done) rest fuel
      | none => none
    else if class_ c then tagText? class_ (c :: done) (ps.drop 1) fuel
    else some (String.ofList done.reverse, ps)

/-- A handle: an exclamation mark, perhaps with word characters and another one. -/
private def handle? (ps : List Place) : Option (String × List Place) :=
  if next ps ≠ '!' then none
  else
    let (word, rest) := spanChars isWord (ps.drop 1)
    if next rest = '!' then some (String.ofList ('!' :: word ++ ['!']), rest.drop 1)
    else some (String.ofList ('!' :: word), rest)

/-- A handle that stands for the start of tags. -/
private def isShorthand (handle : String) : Bool := 2 ≤ handle.length && handle.endsWith "!"

/-- Past blanks. -/
private def pastBlanks (ps : List Place) : List Place := ps.dropWhile (isBlank ·.char)

/-- What a directive says, after its name. -/
private def directiveValue? (name : String) (ps : List Place) : Option (Token × List Place) :=
  if name = "YAML" then do
    let ps ← versionNumber? (pastBlanks ps)
    guard (next ps = '.')
    pure (.version, ← versionNumber? (ps.drop 1))
  else if name = "TAG" then do
    let (handle, ps) ← handle? (pastBlanks ps)
    guard (handle = "!" || isShorthand handle)
    let ps := pastBlanks ps
    guard (next ps = '!' || isTag (next ps))
    let (full, ps) ← tagText? isAddress [] ps (ps.length + 1)
    guard (isBlankOrEnd (next ps))
    pure (.shorthand handle full, ps)
  else some (.shorthand "" "", ps.dropWhile (!isBreakOrEnd ·.char))

/-- A directive. -/
def directive? (s : Scan) : Option Scan := do
  let s ← s.closeAll?
  let (name, ps) := spanChars isWord (s.rest.drop 1)
  guard (!name.isEmpty && isBlankOrEnd (next ps))
  let (token, ps) ← directiveValue? (String.ofList name) ps
  let ps ← lineEnd? ps
  guard (isBreakOrEnd (next ps))
  pure { s.push token with rest := if next ps = '\n' then ps.drop 1 else ps }

/-- A mark that starts a document. -/
def documentStart? (s : Scan) : Option Scan :=
  s.closeAll?.map fun s => { s.push .documentStart with rest := s.rest.drop 3 }

/-- A mark that ends a document; nothing may follow it in its line. -/
def documentEnd? (s : Scan) : Option Scan := do
  let s ← s.closeAll?
  let rest ← lineEnd? (s.rest.drop 3)
  guard (isBreakOrEnd (next rest))
  pure { s.push .documentEnd with rest }

/-! ### Brackets -/

/-- An opening bracket. -/
def openFlow? (mapping : Bool) (s : Scan) : Option Scan := do
  let s := s.noteKey.indentOne
  guard (s.level < deepest)
  let rest ← lineEnd? (s.rest.drop 1)
  let s := { s.push (if mapping then .flowMapping else .flowSequence) with
    rest, keyAllowed := true, keys := none :: s.keys }
  pure (if mapping then { s with mappingStarted := true } else { s with pairs := false :: s.pairs })

/-- Ends the single pair of the present entry. -/
def endPair (s : Scan) : Scan :=
  match s.pairs with
  | true :: pairs => { s.push .flowMappingEnd with pairs := false :: pairs, mappingStarted := false }
  | _ => s

/-- A closing bracket. -/
def closeFlow? (mapping : Bool) (s : Scan) : Option Scan := do
  guard s.inFlow
  let s ← s.dropKey?
  let s := { s with keys := s.keys.drop 1, keyAllowed := false }
  let s := if mapping then s else
    let s := s.endPair
    { s with pairs := s.pairs.drop 1 }
  let rest ← lineEnd? (s.rest.drop 1)
  let s := { s.push (if mapping then .flowMappingEnd else .flowSequenceEnd) with rest }
  pure (match s.inFlow, rest with
    | true, p :: _ => { s with adjacent := p.index }
    | _, _ => s)

/-- A comma. -/
def flowEntry? (s : Scan) : Option Scan := do
  let s := (← s.dropKey?).allowKey.endPair
  let rest ← lineEnd? (s.rest.drop 1)
  pure { s.push .flowEntry with rest }

/-! ### Entries, keys and values -/

/-- The dash before an entry. -/
def blockEntry? (s : Scan) : Option Scan := do
  guard (!s.inFlow && s.keyAllowed)
  let s := s.beginBlock (column s.rest) none .blockSequence
  let (blanks, rest) ← afterBlanks? {} (s.rest.drop 1)
  guard (!(blanks.tabs && next rest == '-' && isBlankOrEnd (next (rest.drop 1))))
  let s := if next rest = '\n' || isFlow (next rest) then s.indentOne else s
  let s ← s.dropKey?
  pure { s.allowKey.push .blockEntry with rest }

/-- The mark of a key. -/
def keyMark? (s : Scan) : Option Scan := do
  guard (s.inFlow || s.keyAllowed)
  let s := if s.inFlow then { s with mappingStarted := true }
    else s.beginBlock (column s.rest) none .blockMapping
  let s ← s.dropKey?
  let s := { s with keyAllowed := !s.inFlow }
  let rest := s.rest.drop 1
  guard (next rest = ' ' || next rest = '\n')
  let (ended, rest) := afterKeyMark false false rest
  guard (next rest ≠ '\t')
  pure { (s.afterLine ended).push .key with rest }

/-- The colon before a value: what was noted last becomes a key, or the key was marked, or is missing. -/
def valueMark? (s : Scan) : Option Scan := do
  let at_ ← s.rest.head?
  let isPair := !s.pairs.isEmpty && !s.mappingStarted
  let s := if isPair then { s with pairs := true :: s.pairs.drop 1 } else s
  let rest := s.rest.drop 1
  let rest ←
    if next rest = '\t' then do
      let (blanks, rest) ← afterBlanks? {} rest
      guard (blanks.spaces || !isWord (next rest))
      pure rest
    else pure rest
  let s := { s with rest }
  match s.keys with
  | some key :: keys =>
    guard (!(isPair && key.line < at_.line))
    let tokens := s.tokens.insertIdxIfInBounds key.number .key
    let tokens := if isPair then tokens.insertIdxIfInBounds key.number .flowMapping else tokens
    let s := { s with tokens, keys := none :: keys }
    let s := (s.beginBlock key.column (some key.number) .blockMapping).indentOne
    pure (s.forbidKey.push .value)
  | _ =>
    let s := if isPair then s.push .flowMapping else s
    guard (s.inFlow || s.keyAllowed)
    let s := (s.beginBlock at_.column none .blockMapping).indentOne
    pure ({ s with keyAllowed := !s.inFlow }.push .value)

/-! ### Properties and scalars -/

/-- An anchor, or a reference to one. -/
def anchor? (token : String → Token) (s : Scan) : Option Scan :=
  let s := s.noteKey.forbidKey
  let (name, rest) := spanChars isAnchor (s.rest.drop 1)
  if name.isEmpty then none else some { s.push (token (String.ofList name)) with rest }

/-- The handle and the suffix of a tag. -/
private def tagParts? (ps : List Place) : Option (String × String × List Place) :=
  let fuel := ps.length + 1
  if next (ps.drop 1) = '<' then do
    let (suffix, rest) ← tagText? isAddress [] (ps.drop 2) fuel
    guard (next rest = '>')
    pure ("", suffix, rest.drop 1)
  else do
    let (handle, rest) ← handle? ps
    let (suffix, rest) ← tagText? isTag [] rest fuel
    if isShorthand handle then
      guard (!suffix.isEmpty)
      pure (handle, suffix, rest)
    else
      let suffix := String.ofList (handle.toList.drop 1) ++ suffix
      pure (if suffix.isEmpty then ("", "!", rest) else ("!", suffix, rest))

/-- A tag. -/
def tag? (s : Scan) : Option Scan := do
  let s := s.noteKey.forbidKey
  let (handle, suffix, rest) ← tagParts? s.rest
  guard (isBlankOrEnd (next rest) || (s.inFlow && isFlow (next rest)))
  pure { s.push (.tag handle suffix) with rest }

/-- A plain scalar. -/
def plain? (s : Scan) : Option Scan := do
  let s := s.noteKey.forbidKey.forgetIndents
  let reading ← plainScalar? s.inFlow (s.indent + 1) s.rest
  pure { s.push (.scalar true reading.text) with
    rest := reading.rest, keyAllowed := reading.endsLine }

/-- A scalar in quotes. A colon may follow it directly. -/
def quoted? (single : Bool) (s : Scan) : Option Scan := do
  let s := s.noteKey.forbidKey
  let reading ← quotedScalar? single s.inFlow s.indent s.rest
  let (ended, rest) ← atToken? s.indent false false reading.rest
  let s := { (s.afterLine ended).push (.scalar false reading.text) with rest }
  pure (match rest with
    | p :: _ => { s with adjacent := p.index }
    | [] => s)

/-- A block scalar. -/
def block? (folded : Bool) (s : Scan) : Option Scan := do
  let s := s.noteKey.allowKey.forgetIndents
  let reading ← blockScalar? folded s.indent (s.rest.drop 1)
  pure { s.push (.scalar false reading.text) with rest := reading.rest }

/-! ### The whole text -/

/-- The end of the text. -/
def finish? (s : Scan) : Option Scan := do
  guard (s.keys.all fun key => !(key.any (·.required)))
  (s.unindent (-1)).dropKey?

/-- The token of a character and the one after it. -/
def token? (c d : Char) (s : Scan) : Option Scan :=
  let adjacent := s.inFlow && (isFlow d || s.rest.head?.any (·.index == s.adjacent))
  if c = '[' then s.openFlow? false
  else if c = openBrace then s.openFlow? true
  else if c = ']' then s.closeFlow? false
  else if c = closeBrace then s.closeFlow? true
  else if c = ',' then s.flowEntry?
  else if c = '-' && isBlankOrEnd d then s.blockEntry?
  else if c = '?' && isBlankOrEnd d then s.keyMark?
  else if c = ':' && (isBlankOrEnd d || adjacent) then s.valueMark?
  else if c = '*' then s.anchor? .reference
  else if c = '&' then s.anchor? .anchor
  else if c = '!' then s.tag?
  else if c = '|' && !s.inFlow then s.block? false
  else if c = '>' && !s.inFlow then s.block? true
  else if c = '\'' then s.quoted? true
  else if c = '"' then s.quoted? false
  else if c = '%' || c = '@' || c = Char.ofNat 96 then none
  else s.plain?

/-- Passes over everything before the next token, and ends the blocks that end before it. -/
def ready? (s : Scan) : Option Scan := do
  let (ended, rest) ← atToken? s.indent false false s.rest
  let s ← ({ s with rest }.afterLine ended).dropStale?
  pure (s.unindent (column rest))

/-- Reads the next token, which is not the end. -/
def step? (s : Scan) : Option Scan :=
  if (column s.rest : Int) < s.indent then none
  else if column s.rest = 0 && next s.rest = '%' then s.directive?
  else if isMark '-' s.rest then s.documentStart?
  else if isMark '.' s.rest then s.documentEnd?
  else s.token? (next s.rest) (next (s.rest.drop 1))

/-- Reads up to the end. Every step reads at least one character. -/
def run? : Nat → Scan → Option (List Token)
  | 0, _ => none
  | fuel + 1, s =>
    match s.ready? with
    | none => none
    | some s =>
      if next s.rest = nul then s.finish?.map (·.tokens.toList)
      else
        match s.step? with
        | none => none
        | some s => run? fuel s

end Scan

/-- The tokens of a text; nothing if it breaks a rule. -/
def Token.scan? (text : String) : Option (List Token) :=
  let places := Place.ofText text
  Scan.run? (places.length + 1) { rest := places }

end EventDispatch.Yaml
