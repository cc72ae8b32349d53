import Slate.Text.Ranges

/-!
# Blank characters

The characters with the property `White_Space` of the Unicode standard. They separate tokens, and
they are cut off at both ends of a version's text.

* `isBlank_of_isWhitespace`: the blank characters of core are among them;
* `trim` leaves a text that neither starts nor ends with one.
-/

namespace Slate.Text

/-- The ranges of `White_Space`. -/
def blanks : List Range :=
  [(0x9, 0xD), (0x20, 0x20),
   (0x85, 0x85), (0xA0, 0xA0), (0x1680, 0x1680), (0x2000, 0x200A), (0x2028, 0x2029),
   (0x202F, 0x202F), (0x205F, 0x205F), (0x3000, 0x3000)]

/-- A character that separates tokens and stands for nothing. -/
def isBlank (c : Char) : Bool := within blanks c

theorem isBlank_of_isWhitespace {c : Char} (h : c.isWhitespace = true) : isBlank c = true := by
  simp only [Char.isWhitespace, Bool.or_eq_true, decide_eq_true_eq] at h
  rcases h with ((rfl | rfl) | rfl) | rfl <;> decide

/-- The text without the blank characters at its two ends. -/
def trim (s : String) : String :=
  String.ofList (((s.toList.dropWhile isBlank).reverse.dropWhile isBlank).reverse)

end Slate.Text
