import EventDispatch.Decimal.Literal

/-!
# Places in a YAML text

A text as the list of its characters with their places. All line ends are read as line feeds, and a NUL
character, or the end, closes the text: the last place of every text holds NUL.

## Main definitions

* `Place`, `Place.ofText`: a character with its place.
* `isBreakOrEnd`, `isBlankOrEnd`, `isFlow`, …: the classes of characters.
* `afterBlanks?`: past the blanks and the comment at the end of a line.
* `atToken?`: past everything that stands between two tokens.
-/

namespace EventDispatch.Yaml

/-- The character that closes a text. -/
def nul : Char := Char.ofNat 0

/-! ### Classes of characters -/

/-- A space or a tab. -/
def isBlank (c : Char) : Bool := c == ' ' || c == '\t'

/-- The end of a line or of the text. -/
def isBreakOrEnd (c : Char) : Bool := c == '\n' || c == nul

/-- What may stand after an indicator. -/
def isBlankOrEnd (c : Char) : Bool := isBlank c || isBreakOrEnd c

/-- The opening brace of a mapping. -/
def openBrace : Char := Char.ofNat 123

/-- The closing brace of a mapping. -/
def closeBrace : Char := Char.ofNat 125

/-- The characters that build collections in brackets. -/
def isFlow (c : Char) : Bool :=
  c == ',' || c == '[' || c == ']' || c == openBrace || c == closeBrace

/-- The characters of handles and of the names of directives. -/
def isWord (c : Char) : Bool := c.isAlphanum || c == '_' || c == '-'

/-- The characters of web addresses. -/
def isAddress (c : Char) : Bool := isWord c || "#;/?:@&=+$,.!~*'()[]%".contains c

/-- The characters of tags. -/
def isTag (c : Char) : Bool := isAddress c && !isFlow c && c != '!'

/-- The characters of anchors: all but blanks, ends, brackets and the byte order mark. -/
def isAnchor (c : Char) : Bool := !isBlankOrEnd c && !isFlow c && c != Char.ofNat 0xFEFF

/-- The character of a code point, if there is one. -/
def charOfCode? (n : Nat) : Option Char := if n.isValidChar then some (Char.ofNat n) else none

/-! ### Places -/

/-- A character and its place. -/
structure Place where
  char : Char
  /-- Characters before it in the text. -/
  index : Nat
  line : Nat
  /-- Characters before it in its line. -/
  column : Nat
  /-- Only blanks stand before it in its line. -/
  leading : Bool
deriving Repr

/-- The characters with all line ends as line feeds, up to a NUL character. -/
def unifyBreaks : List Char → List Char
  | [] => []
  | '\r' :: '\n' :: rest => '\n' :: unifyBreaks rest
  | '\r' :: rest => '\n' :: unifyBreaks rest
  | c :: rest => if c = nul then [] else c :: unifyBreaks rest

/-- The characters from a place on. -/
def placesFrom (index line column : Nat) (leading : Bool) : List Char → List Place
  | [] => [⟨nul, index, line, column, leading⟩]
  | c :: rest => ⟨c, index, line, column, leading⟩ ::
    if c = '\n' then placesFrom (index + 1) (line + 1) 0 true rest
    else placesFrom (index + 1) line (column + 1) (leading && isBlank c) rest

/-- The places of a text. -/
def Place.ofText (text : String) : List Place := placesFrom 0 0 0 true (unifyBreaks text.toList)

/-- The next character. -/
def next : List Place → Char
  | [] => nul
  | p :: _ => p.char

/-- The column of the next character. -/
def column : List Place → Nat
  | [] => 0
  | p :: _ => p.column

/-- The characters that come next. -/
def chars (ps : List Place) (count : Nat) : List Char := (ps.take count).map Place.char

/-- A mark of three characters stands by itself at the start of a line. -/
def isMark (mark : Char) (ps : List Place) : Bool :=
  column ps == 0 && chars ps 3 == [mark, mark, mark] && isBlankOrEnd (next (ps.drop 3))

/-- A mark that ends or starts a document comes next. -/
def isDocumentMark (ps : List Place) : Bool := isMark '-' ps || isMark '.' ps

/-- The characters of a class that come next, and what follows them. -/
def spanChars (class_ : Char → Bool) (ps : List Place) : List Char × List Place :=
  ((ps.takeWhile (class_ ·.char)).map Place.char, ps.dropWhile (class_ ·.char))

/-! ### What stands between tokens -/

/-- What stands before the rest of a line: spaces, tabs. -/
structure Blanks where
  spaces : Bool := false
  tabs : Bool := false

/-- Past blanks and, if a blank stands before it, a comment; nothing if a comment follows without a
blank. -/
def afterBlanks? (seen : Blanks) : List Place → Option (Blanks × List Place)
  | [] => some (seen, [])
  | p :: rest =>
    if p.char = ' ' then afterBlanks? { seen with spaces := true } rest
    else if p.char = '\t' then afterBlanks? { seen with tabs := true } rest
    else if p.char = '#' then
      if seen.spaces || seen.tabs then some (seen, (p :: rest).dropWhile (!isBreakOrEnd ·.char))
      else none
    else some (seen, p :: rest)

/-- Past the blanks and the comment at the end of a line. -/
def lineEnd? (ps : List Place) : Option (List Place) := (afterBlanks? {} ps).map Prod.snd

/-- Nothing but blanks and a comment is left of the line. -/
def isLineOver (ps : List Place) : Bool :=
  match lineEnd? ps with
  | some rest => isBreakOrEnd (next rest)
  | none => false

/-- Past blanks, comments and line ends, and whether a line ended. Below the indentation of a block,
tabs may stand only in lines that hold nothing else. -/
def atToken? (indent : Int) (inComment ended : Bool) : List Place → Option (Bool × List Place)
  | [] => some (ended, [])
  | p :: rest =>
    if p.char = '\n' then atToken? indent false true rest
    else if p.char = nul then some (ended, p :: rest)
    else if inComment then atToken? indent true ended rest
    else if p.char = '\t' && p.leading && decide ((p.column : Int) < indent) &&
        !isLineOver (p :: rest) then none
    else if isBlank p.char then atToken? indent false ended rest
    else if p.char = '#' then atToken? indent true ended rest
    else some (ended, p :: rest)

/-- Past spaces, comments and line ends, as they follow the mark of a key. -/
def afterKeyMark (inComment ended : Bool) : List Place → Bool × List Place
  | [] => (ended, [])
  | p :: rest =>
    if p.char = '\n' then afterKeyMark false true rest
    else if p.char = nul then (ended, p :: rest)
    else if inComment then afterKeyMark true ended rest
    else if p.char = ' ' then afterKeyMark false ended rest
    else if p.char = '#' then afterKeyMark true ended rest
    else (ended, p :: rest)

end EventDispatch.Yaml
