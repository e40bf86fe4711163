import SyntheticAccess.Text.Alphabetic
import SyntheticAccess.Text.Numeric

/-!
# Identifiers

What may stand between two dots of a class name: a word of the source
language. The character classes are those of Unicode, and the words that the
language keeps for itself are excluded by a fixed list.

## Main definitions

* `isIdentifierStart`, `isIdentifierPart`: The characters an identifier may
  start with, and those it may continue with.
* `isIdentifier`: A non-empty text made of such characters.
* `reservedWords`: The words that are identifiers in form but not in use.

## Theorems

* `isIdentifierPart_of_isIdentifierStart`: A first character may be repeated.
* `isIdentifier_iff`: An identifier taken apart at its first character.
-/

namespace SyntheticAccess

/-- Whether an identifier may start with this character. -/
def isIdentifierStart (c : Char) : Bool :=
  isAlphabetic c || c == '_' || c == '$'

/-- Whether an identifier may go on with this character. -/
def isIdentifierPart (c : Char) : Bool :=
  isIdentifierStart c || isNumeric c

/-- Whether a text has the form of an identifier. -/
def isIdentifier : List Char → Bool
  | [] => false
  | c :: cs => isIdentifierStart c && cs.all isIdentifierPart

/-- The words kept by the language, in alphabetical order. -/
def reservedWords : List String :=
  ["abstract", "assert", "boolean", "break", "byte", "case", "catch", "char", "class", "const",
    "continue", "default", "do", "double", "else", "enum", "extends", "false", "final", "finally",
    "float", "for", "goto", "if", "implements", "import", "instanceof", "int", "interface",
    "long", "native", "new", "null", "package", "private", "protected", "public", "return",
    "short", "static", "strictfp", "super", "switch", "synchronized", "this", "throw", "throws",
    "transient", "true", "try", "void", "volatile", "while"]

theorem isIdentifierPart_of_isIdentifierStart {c : Char} (h : isIdentifierStart c = true) :
    isIdentifierPart c = true := by
  rw [isIdentifierPart, h, Bool.true_or]

/-- An identifier is a start character followed by characters that may
    continue one. -/
theorem isIdentifier_iff (cs : List Char) :
    isIdentifier cs = true ↔
      ∃ c ds, cs = c :: ds ∧ isIdentifierStart c = true ∧ ∀ d ∈ ds, isIdentifierPart d = true := by
  cases cs with
  | nil => simp [isIdentifier]
  | cons c ds =>
      simp only [isIdentifier, Bool.and_eq_true, List.all_eq_true]
      constructor
      · exact fun h => ⟨c, ds, rfl, h⟩
      · rintro ⟨_, _, heq, h⟩
        cases heq
        exact h

end SyntheticAccess
