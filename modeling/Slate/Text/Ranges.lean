/-!
# Sets of characters as tables of ranges

A property of characters from the Unicode standard is a table of code point ranges, lowest first,
both ends included. The tables themselves are in `Slate.Text.Blank`, `Slate.Text.Letter` and
`Slate.Text.Numeral`.
-/

namespace Slate.Text

/-- Code points from the first to the second number. -/
abbrev Range := Nat × Nat

/-- Whether some range of the table holds the character. -/
def within (table : List Range) (c : Char) : Bool :=
  table.any fun r => r.1 ≤ c.toNat && c.toNat ≤ r.2

theorem within_iff {table : List Range} {c : Char} :
    within table c = true ↔ ∃ r ∈ table, r.1 ≤ c.toNat ∧ c.toNat ≤ r.2 := by
  simp [within]

end Slate.Text
