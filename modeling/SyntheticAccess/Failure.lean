import SyntheticAccess.Member

/-!
# Failures

Why a class could not be described, emitted or resolved against. A failure
goes to the immediate caller and is never retried, since only another request
or another table could lead to another result.

## Main definitions

* `NameProblem`: Why a text cannot name an accessor class.
* `Failure`: Everything that can go wrong.
* `Failure.message`: The wording.
-/

namespace SyntheticAccess

/-- Why a text cannot be the name of an accessor class. -/
inductive NameProblem where
  | notAName (defect : BinaryName.Defect)
  /-- It names a class of another package than the instrumented class, so that
      package access would not work between the two. -/
  | otherPackage (expected found : String)
  deriving DecidableEq

/-- The wording of a problem with a name. -/
def NameProblem.message : NameProblem → String
  | .notAName defect => defect.message
  | .otherPackage expected found => s!"expected package `{expected}`, found `{found}`"

/-- Why an operation failed. -/
inductive Failure where
  /-- The method cannot be called from the context in the way requested. -/
  | unreachable (method : Method) (context : BinaryName)
  | badName (raw : String) (problem : NameProblem)
  | nameTaken (name : BinaryName)
  | fieldTaken (owner : BinaryName) (field : String)
  | unregistered (name : BinaryName)
  deriving DecidableEq

/-- The wording of a failure. -/
def Failure.message : Failure → String
  | .unreachable method context =>
    s!"method {method.display} is not reachable from {context.text}"
  | .badName raw problem => s!"invalid auxiliary type name `{raw}`: {problem.message}"
  | .nameTaken name => s!"type {name.text} has already been emitted"
  | .fieldTaken owner field => s!"field `{field}` is already declared on {owner.text}"
  | .unregistered name => s!"unknown type {name.text}"

end SyntheticAccess
