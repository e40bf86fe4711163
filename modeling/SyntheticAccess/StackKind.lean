import SyntheticAccess.SigType

/-!
# Kinds of Values

The virtual machine moves values around by kind: the small integral types and
`boolean` are all handled as `int`, and every class and array is a reference.
Which load or return instruction a value needs depends on its kind alone.

## Main definitions

* `StackKind`: The kinds.
* `SigType.kind`: The kind of the values of a type.
* `StackKind.letter`: The first letter of instructions for the kind.
* `StackKind.slots`: How many local variables a value of the kind takes.

## Theorems

* `kind_erasure`: A type and its erasure have values of one kind.
* `kind_eq_reference_iff`: The reference types are those of kind `reference`.
* `slots_kind`: The kind decides the space.
-/

namespace SyntheticAccess

/-- How a value is loaded, kept and returned. -/
inductive StackKind where
  | void
  | int
  | long
  | float
  | double
  | reference
  deriving DecidableEq

/-- The first letter of the instructions that handle the kind; nothing for
    `void`, whose return instruction stands alone. -/
def StackKind.letter : StackKind → String
  | void => ""
  | int => "i"
  | long => "l"
  | float => "f"
  | double => "d"
  | reference => "a"

/-- The number of local variables a value of the kind occupies. -/
def StackKind.slots : StackKind → Nat
  | void => 0
  | long | double => 2
  | int | float | reference => 1

namespace SigType

/-- The kind of the values of a type. -/
def kind : SigType → StackKind
  | prim .void => .void
  | prim .boolean | prim .byte | prim .char | prim .short | prim .int => .int
  | prim .long => .long
  | prim .float => .float
  | prim .double => .double
  | _ => .reference

@[simp] theorem kind_erasure (t : SigType) : t.erasure.kind = t.kind := by
  cases t <;> rfl

theorem kind_eq_reference_iff (t : SigType) : t.kind = .reference ↔ t.isReference = true := by
  cases t with
  | prim p => cases p <;> decide
  | _ => simp [kind, isReference]

/-- The space a value takes is decided by its kind. -/
theorem slots_kind (t : SigType) : t.kind.slots = t.slots := by
  cases t with
  | prim p => cases p <;> rfl
  | _ => rfl

end SigType

end SyntheticAccess
