/-!
# Blank texts

## Main definitions

* `isBlankChar`: the characters that Unicode calls white space.
* `isBlank`: a text of blank characters only.
-/

namespace EventDispatch.Text

/-- The characters with the Unicode property white space. -/
def isBlankChar (c : Char) : Bool :=
  let n := c.toNat
  (9 ≤ n && n ≤ 13) || n == 0x20 || n == 0x85 || n == 0xA0 || n == 0x1680 ||
    (0x2000 ≤ n && n ≤ 0x200A) || n == 0x2028 || n == 0x2029 || n == 0x202F || n == 0x205F ||
    n == 0x3000

/-- Nothing but blank characters. -/
def isBlank (s : String) : Bool := s.toList.all isBlankChar

end EventDispatch.Text
