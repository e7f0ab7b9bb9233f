import EventDispatch.Text.Invisible

/-!
# Quoted texts

A text inside a message: in double quotes, with the quote, the backslash, line ends, tabs and all
characters without a picture of their own escaped, so that it stays on one line and can be read off.

## Main definitions

* `quoted`: a text in quotes.
* `listed`: quoted texts in brackets.
-/

namespace EventDispatch.Text

/-- A number in lower-case hexadecimal digits. -/
def hex (n : Nat) : String := String.ofList (Nat.toDigits 16 n)

/-- How a character is written inside quotes. -/
def quoteChar (c : Char) : String :=
  if c = '"' then "\\\""
  else if c = '\\' then "\\\\"
  else if c = '\n' then "\\n"
  else if c = '\r' then "\\r"
  else if c = '\t' then "\\t"
  else if c = Char.ofNat 0 then "\\0"
  else if isInvisible c then "\\u\x7b" ++ hex c.toNat ++ "\x7d"
  else String.singleton c

/-- A text in double quotes. -/
def quoted (s : String) : String :=
  "\"" ++ String.join (s.toList.map quoteChar) ++ "\""

/-- Quoted texts in brackets, parted by commas. -/
def listed (items : List String) : String :=
  "[" ++ String.intercalate ", " (items.map quoted) ++ "]"

end EventDispatch.Text
