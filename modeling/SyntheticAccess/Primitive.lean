/-!
# Primitive Types

The nine types without a class, `void` among them because a method may return
it. They are ordered as listed.

## Main definitions

* `Primitive`: The primitive types.
* `Primitive.keyword`: The word of the source language.
* `Primitive.letter`: The letter of descriptors.
* `Primitive.ofKeyword?`: Reading a keyword.

## Theorems

* `ofKeyword?_keyword`: A keyword is read as the type it was written for.
-/

namespace SyntheticAccess

/-- A type that is not a class or an array. -/
inductive Primitive where
  | void
  | boolean
  | byte
  | char
  | short
  | int
  | long
  | float
  | double
  deriving DecidableEq, Ord

namespace Primitive

/-- How source code spells the type. -/
def keyword : Primitive → String
  | void => "void"
  | boolean => "boolean"
  | byte => "byte"
  | char => "char"
  | short => "short"
  | int => "int"
  | long => "long"
  | float => "float"
  | double => "double"

/-- How a descriptor spells the type. -/
def letter : Primitive → Char
  | void => 'V'
  | boolean => 'Z'
  | byte => 'B'
  | char => 'C'
  | short => 'S'
  | int => 'I'
  | long => 'J'
  | float => 'F'
  | double => 'D'

/-- All primitive types in their order. -/
def all : List Primitive :=
  [void, boolean, byte, char, short, int, long, float, double]

/-- The type with the given keyword. -/
def ofKeyword? (word : String) : Option Primitive :=
  all.find? fun p => p.keyword == word

@[simp] theorem ofKeyword?_keyword (p : Primitive) : ofKeyword? p.keyword = some p := by
  cases p <;> decide

end Primitive

end SyntheticAccess
