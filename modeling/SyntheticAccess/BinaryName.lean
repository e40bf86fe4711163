import SyntheticAccess.Text.Identifier
import SyntheticAccess.Text.Numeral

/-!
# Binary Names

The fully qualified name of a class, in the dotted form that source and
tools use. A name is checked once, when a text is read with `parse`; after
that it is only ever taken apart. The slash-separated form that class files
use inside is computed on demand and refused on input.

A name loaded from a stored document is not checked again, so `BinaryName`
holds any text and being well formed is a property of it: that `parse` gives
the text back.

Of two names the one whose text comes first by code points is smaller.

## Main definitions

* `BinaryName`: A class name as text.
* `BinaryName.Defect`: Why a text is not a class name.
* `BinaryName.segments`: The words between the dots.
* `BinaryName.parse`: Reading a name, or the first defect of the text.
* `BinaryName.package`, `BinaryName.simpleName`: The two sides of the last dot.
* `BinaryName.internalName`: The form used inside class files.

## Theorems

* `parse_eq_ok`: A name that was read keeps its text.
-/

namespace SyntheticAccess

/-- The fully qualified name of a class. -/
structure BinaryName where
  /-- The dotted text of the name. -/
  text : String
  deriving DecidableEq, Ord

namespace BinaryName

/-- What is wrong with a text that was meant as a class name. -/
inductive Defect where
  | empty
  /-- The text has a slash, as names inside class files do. -/
  | slashed
  /-- Nothing stands between two dots, or before the first or after the last.
      The position is the number of UTF-8 bytes before the gap. -/
  | gap (position : Nat)
  | notIdentifier (segment : String)
  /-- A segment is a word the language keeps for itself. -/
  | reserved (segment : String)
  deriving DecidableEq

/-- The wording of a defect. -/
def Defect.message : Defect → String
  | .empty => "type name is empty"
  | .slashed => "type name uses the internal `/` form"
  | .gap position => s!"empty name segment at byte {decimal position}"
  | .notIdentifier segment => s!"`{segment}` is not a valid identifier"
  | .reserved segment => s!"`{segment}` is a reserved word"

/-- The words of a name: what stands between its dots. -/
def segments (text : String) : List String :=
  (text.toList.splitOn '.').map String.ofList

/-- The defect of one segment that starts at the given byte. -/
def segmentDefect (position : Nat) (segment : String) : Option Defect :=
  if segment = "" then some (.gap position)
  else if !isIdentifier segment.toList then some (.notIdentifier segment)
  else if segment ∈ reservedWords then some (.reserved segment)
  else none

/-- The defect of the leftmost bad segment, when the first of them starts at
    the given byte. The dot between two segments takes one byte. -/
def firstDefect (position : Nat) : List String → Option Defect
  | [] => none
  | segment :: rest =>
    (segmentDefect position segment).or
      (firstDefect (position + segment.utf8ByteSize + 1) rest)

/-- Read a class name. A slash anywhere is reported before any bad segment,
    and of the bad segments the leftmost. -/
def parse (raw : String) : Except Defect BinaryName :=
  if raw = "" then .error .empty
  else if '/' ∈ raw.toList then .error .slashed
  else match firstDefect 0 (segments raw) with
    | some defect => .error defect
    | none => .ok ⟨raw⟩

/-- The text before the last dot; empty for a name without dots. -/
def package (n : BinaryName) : String :=
  String.ofList ((n.text.toList.reverse.dropWhile (· != '.')).drop 1).reverse

/-- The text after the last dot; the whole name when there is none. -/
def simpleName (n : BinaryName) : String :=
  String.ofList (n.text.toList.reverse.takeWhile (· != '.')).reverse

/-- The name as class files write it, with slashes for dots. -/
def internalName (n : BinaryName) : String :=
  n.text.map fun c => if c = '.' then '/' else c

/-- Whether two classes belong to one package. -/
def sharesPackage (a b : BinaryName) : Bool :=
  a.package == b.package

/-- Reading never alters a text, it only accepts or refuses it. -/
theorem parse_eq_ok {raw : String} {n : BinaryName} (h : parse raw = .ok n) : n.text = raw := by
  rw [parse] at h
  split at h
  · cases h
  · split at h
    · cases h
    · split at h
      · cases h
      · injection h with h
        rw [← h]

end BinaryName

end SyntheticAccess
