/-!
# Ranges of code points

Character classes outside ASCII are given by tables of closed ranges of code points.
-/

namespace BlockLang.Text

/-- A closed range of code points: the first and the last of them. -/
abbrev CodeRange := Nat × Nat

/-- Whether a character lies in one of the ranges of a table. -/
def CodeRange.covers (table : List CodeRange) (c : Char) : Bool :=
  table.any fun range => range.1 ≤ c.toNat && c.toNat ≤ range.2

end BlockLang.Text
