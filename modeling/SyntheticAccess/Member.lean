import SyntheticAccess.AccessFlags
import SyntheticAccess.ErasedSignature

/-!
# Methods and Fields

The members of a class, as plain values. Two methods are equal when owner,
name, parameters, result and all flag bits are; the looser identity that
decides which method a call reaches is the erased signature.

## Main definitions

* `Method`, `Field`: Members as declared.
* `Method.signature`: The name with erased parameters.
* `Method.descriptor`: The erased parameters with the erased result.
* `Method.initializes`: Whether it is a constructor or class initializer.
* `Method.display`: The method as messages show it.
-/

namespace SyntheticAccess

/-- A method of a class. -/
structure Method where
  /-- The class that declares it. -/
  owner : BinaryName
  name : String
  params : List SigType
  result : SigType
  flags : AccessFlags
  deriving DecidableEq

/-- A field of a class. -/
structure Field where
  name : String
  type : SigType
  flags : AccessFlags
  deriving DecidableEq

namespace Method

/-- What a call site identifies the method by. -/
def signature (m : Method) : ErasedSignature :=
  .of m.name m.params

/-- The encoding of parameters and result in class files. -/
def descriptor (m : Method) : String :=
  String.ofList (parameterChars m.params ++ m.result.descriptorChars)

/-- Whether the method needs no receiver. -/
def isStatic (m : Method) : Bool :=
  m.flags.has .accStatic

/-- Whether the method is private to its class. -/
def isPrivate (m : Method) : Bool :=
  m.flags.has .accPrivate

/-- Whether the compiler added the method for an erased signature. -/
def isBridge (m : Method) : Bool :=
  m.flags.has .accBridge

/-- Whether the method is a constructor or initializes a class. These are
    never called by name. -/
def initializes (m : Method) : Bool :=
  m.name == "<init>" || m.name == "<clinit>"

/-- The method as messages and listings show it, with unerased types. -/
def display (m : Method) : String :=
  m.result.display ++ " " ++ m.owner.text ++ "." ++ m.name ++
    "(" ++ ", ".intercalate (m.params.map SigType.display) ++ ")"

end Method

end SyntheticAccess
