import SyntheticAccess.BinaryName
import SyntheticAccess.Primitive

/-!
# Types in Signatures

The types that fields, parameters and results are declared with. They keep the
arguments of generic classes and the names of type variables, because members
are described the way source code declares them. The virtual machine knows
neither: it works on the erasure, which replaces a generic class by the class
and a variable by its bound, and everything that identifies a member is
computed from erased types.

Descriptors are defined on the type itself and not on its erasure. They agree
with the descriptor of the erasure, which is what `descriptorChars_erasure`
says.

## Main definitions

* `SigType`: Types as declared.
* `SigType.erasure`: The type as the virtual machine sees it.
* `SigType.descriptorChars`, `SigType.descriptor`: Its encoding in class files.
* `SigType.castOperand`: The operand of a cast to the type.
* `SigType.display`: The type as source code writes it.
* `SigType.slots`: How many local variables a value of the type takes.

## Theorems

* `erasure_erasure`: Erasing twice is erasing once.
* `descriptorChars_erasure`: Descriptors see erased types only.
* `slots_erasure`, `isReference_erasure`: Neither does erasure change how values
  are kept.
-/

namespace SyntheticAccess

/-- A type as a declaration writes it. -/
inductive SigType where
  | prim (p : Primitive)
  | classRef (name : BinaryName)
  | arrayOf (component : SigType)
  | generic (raw : BinaryName) (args : List SigType)
  | typeVar (name : String) (bound : BinaryName)

namespace SigType

mutual

/-- Structural equality of two types. -/
def same : SigType → SigType → Bool
  | prim p, prim q => p == q
  | classRef m, classRef n => m == n
  | arrayOf t, arrayOf u => same t u
  | generic m ts, generic n us => m == n && sameAll ts us
  | typeVar x m, typeVar y n => x == y && m == n
  | _, _ => false

/-- Structural equality of two lists of types. -/
def sameAll : List SigType → List SigType → Bool
  | [], [] => true
  | t :: ts, u :: us => same t u && sameAll ts us
  | _, _ => false

end

mutual

theorem same_iff : ∀ t u : SigType, same t u = true ↔ t = u
  | prim p, u => by cases u <;> simp [same]
  | classRef n, u => by cases u <;> simp [same]
  | arrayOf t, u => by cases u <;> simp [same, same_iff t]
  | generic n ts, u => by cases u <;> simp [same, sameAll_iff ts]
  | typeVar x n, u => by cases u <;> simp [same]

theorem sameAll_iff : ∀ ts us : List SigType, sameAll ts us = true ↔ ts = us
  | [], us => by cases us <;> simp [sameAll]
  | t :: ts, us => by cases us <;> simp [sameAll, same_iff t, sameAll_iff ts]

end

instance : DecidableEq SigType := fun t u => decidable_of_iff _ (same_iff t u)

/-- No value, as the result of a method. -/
abbrev void : SigType := prim .void

/-- An array with the given number of dimensions over a type. -/
def arrayOfDims (t : SigType) : Nat → SigType
  | 0 => t
  | n + 1 => arrayOf (arrayOfDims t n)

/-- The number of array dimensions and the type below them. -/
def dims : SigType → Nat × SigType
  | arrayOf t => (t.dims.1 + 1, t.dims.2)
  | t => (0, t)

/-- The type that remains when type arguments and variables are forgotten. -/
def erasure : SigType → SigType
  | prim p => prim p
  | classRef n => classRef n
  | arrayOf t => arrayOf t.erasure
  | generic raw _ => classRef raw
  | typeVar _ bound => classRef bound

/-- The descriptor of the type as characters. -/
def descriptorChars : SigType → List Char
  | prim p => [p.letter]
  | arrayOf t => '[' :: t.descriptorChars
  | classRef n | generic n _ | typeVar _ n => 'L' :: (n.internalName.toList ++ [';'])

/-- The encoding of the type in class files. -/
def descriptor (t : SigType) : String :=
  String.ofList t.descriptorChars

/-- The text that names a type as a whole, in a cast for instance: a class by
    its internal name, all else by its descriptor. -/
def castOperand : SigType → String
  | classRef n | generic n _ | typeVar _ n => n.internalName
  | t => t.descriptor

/-- Whether the type is `void`. -/
def isVoid (t : SigType) : Bool :=
  t == void

/-- Whether values of the type are references to objects. -/
def isReference : SigType → Bool
  | prim _ => false
  | _ => true

/-- How many local variables a value of the type occupies. Only the two wide
    primitive types take two; an array of them is a reference like any other. -/
def slots : SigType → Nat
  | prim .void => 0
  | prim .long | prim .double => 2
  | _ => 1

mutual

/-- The type as source code writes it. -/
def display : SigType → String
  | prim p => p.keyword
  | classRef n => n.text
  | arrayOf t => display t ++ "[]"
  | generic raw args => raw.text ++ "<" ++ ", ".intercalate (displayAll args) ++ ">"
  | typeVar name _ => name

/-- The types of a list, each as source code writes it. -/
def displayAll : List SigType → List String
  | [] => []
  | t :: ts => display t :: displayAll ts

end

@[simp] theorem erasure_erasure (t : SigType) : t.erasure.erasure = t.erasure := by
  induction t using erasure.induct with
  | case3 t ih => rw [erasure, erasure, ih]
  | _ => rfl

/-- Descriptors have no place for what erasure forgets. -/
@[simp] theorem descriptorChars_erasure (t : SigType) :
    t.erasure.descriptorChars = t.descriptorChars := by
  induction t using erasure.induct with
  | case3 t ih => rw [erasure, descriptorChars, descriptorChars, ih]
  | _ => rfl

@[simp] theorem slots_erasure (t : SigType) : t.erasure.slots = t.slots := by
  cases t <;> rfl

@[simp] theorem isReference_erasure (t : SigType) : t.erasure.isReference = t.isReference := by
  cases t <;> rfl

end SigType

end SyntheticAccess
