import SyntheticAccess.ForwardCode
import SyntheticAccess.Request

/-!
# Accessor Classes

What is generated: a class whose static methods forward to methods that other
code could not call directly. An accessor class is a plain value. Two of them
are the same class when name, version, flags, and all members in their order
are the same, which is what callers rely on to emit a class only once.

## Main definitions

* `Accessor`: A generated method with the request it answers.
* `AccessorClass`: A generated class.
* `AccessorClass.new`: A class without members.
* `AccessorClass.agrees`: Comparison part by part.

## Theorems

* `agrees_iff`: Comparison part by part is equality.
-/

namespace SyntheticAccess

/-- A generated method. -/
structure Accessor where
  method : Method
  request : Request
  resolved : Method
  code : ForwardCode
  deriving DecidableEq

/-- A generated class. -/
structure AccessorClass where
  name : BinaryName
  version : ClassVersion
  flags : AccessFlags
  fields : List Field
  /-- The accessors in the order in which they were first requested. -/
  accessors : List Accessor
  deriving DecidableEq

namespace AccessorClass

/-- A class without members. -/
def new (name : BinaryName) (version : ClassVersion) (flags : AccessFlags) : AccessorClass :=
  ⟨name, version, flags, [], []⟩

/-- Whether two classes agree in every part. -/
def agrees (a b : AccessorClass) : Bool :=
  a.name == b.name && a.version == b.version && a.flags == b.flags &&
    a.fields == b.fields && a.accessors == b.accessors

theorem agrees_iff (a b : AccessorClass) : a.agrees b = true ↔ a = b := by
  cases a
  cases b
  simp [agrees, and_assoc]

end AccessorClass

end SyntheticAccess
