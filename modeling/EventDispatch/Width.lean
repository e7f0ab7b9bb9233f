/-!
# Widths of numbers

The bounds of numbers of a fixed number of bits.

## Main definitions

* `Width.natural64`, `Width.integer64`, `Width.natural32`: the bounds.
-/

namespace EventDispatch.Width

/-- Natural numbers of 64 bits are below two to the power of 64. -/
abbrev natural64 : Nat := 0x10000000000000000

/-- Whole numbers of 64 bits are below two to the power of 63, and at least its negative. -/
abbrev integer64 : Nat := 0x8000000000000000

/-- Natural numbers of 32 bits are below two to the power of 32. -/
abbrev natural32 : Nat := 0x100000000

end EventDispatch.Width
