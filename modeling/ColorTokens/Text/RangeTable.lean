/-! Character properties given as ascending inclusive ranges of code points. -/

set_option autoImplicit false

namespace ColorTokens.Text

/-- Inclusive code point ranges, in ascending order and apart from each other. -/
abbrev RangeTable := List (Nat × Nat)

def RangeTable.contains (table : RangeTable) (c : Char) : Bool :=
  table.any fun range => range.1 ≤ c.toNat && c.toNat ≤ range.2

end ColorTokens.Text
