import SyntheticAccess.Text.CodePoint

/-!
# Blank Characters

The property White_Space of Unicode, and the removal of blanks from both ends
of a text. Names of flags may be surrounded by any of these characters when
they are read, not only by ASCII spaces.

## Main definitions

* `blankIntervals`: The 25 blank code points.
* `isBlank`: Whether a character is blank.
* `trimBlanks`: A text without its leading and trailing blanks.

## Theorems

* `isBlank_of_isWhitespace`: What the core library calls whitespace is blank.
-/

namespace SyntheticAccess

/-- The code points with the property White_Space. -/
def blankIntervals : List (Nat × Nat) :=
  [(0x9, 0xd), (0x20, 0x20), (0x85, 0x85), (0xa0, 0xa0), (0x1680, 0x1680), (0x2000, 0x200a),
    (0x2028, 0x2029), (0x202f, 0x202f), (0x205f, 0x205f), (0x3000, 0x3000)]

/-- Whether a character is blank. -/
def isBlank (c : Char) : Bool :=
  CodePoint.covered blankIntervals c

/-- Remove the blanks at both ends of a text. -/
def trimBlanks (cs : List Char) : List Char :=
  ((cs.dropWhile isBlank).reverse.dropWhile isBlank).reverse

theorem isBlank_of_isWhitespace {c : Char} (h : c.isWhitespace = true) : isBlank c = true := by
  simp only [Char.isWhitespace, Bool.or_eq_true, decide_eq_true_eq] at h
  rcases h with ((rfl | rfl) | rfl) | rfl <;> decide

example : CodePoint.count blankIntervals = 25 := by decide

end SyntheticAccess
