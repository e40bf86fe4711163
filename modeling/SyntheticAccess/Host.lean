import SyntheticAccess.Description

/-!
# Instrumented Classes

A host is a class that is being instrumented, with what its code can call and
the settings for classes generated beside it. Describing such a class starts
with its name: it must be a class name, and it must be in the package of the
host, since otherwise the generated accessors could not reach what the host
can. Nothing of the description runs before the name is accepted, and a
description that fails yields no class.

## Main definitions

* `Host`: An instrumented class.
* `Host.checkName`: Reading the name of a class beside the host.
* `Host.describe`: The class that a description leads to.

## Theorems

* `describe_of_checkName_error`: A refused name hides the description.
-/

namespace SyntheticAccess

/-- A class for which accessor classes are generated. -/
structure Host where
  name : BinaryName
  table : MethodTable
  settings : Settings
  deriving DecidableEq

/-- What describing a class leads to. -/
structure Described where
  answer : Except Failure AccessorClass
  /-- What each action of a script that ran answered. -/
  notes : List (Except Failure Note)
  events : List Event

namespace Host

/-- Read the name of a class to be generated beside the host. -/
def checkName (h : Host) (raw : String) : Except Failure BinaryName :=
  match BinaryName.parse raw with
  | .error defect => .error (.badName raw (.notAName defect))
  | .ok name =>
    if name.sharesPackage h.name then .ok name
    else .error (.badName raw (.otherPackage h.name.package name.package))

/-- Describe a class under a name that is yet to be read. -/
def describe (h : Host) (content : Description) (raw : String) (version : ClassVersion) :
    Described :=
  match h.checkName raw with
  | .error e => ⟨.error e, [], []⟩
  | .ok name =>
    let r := content.run (.start h.table h.settings name version)
    ⟨r.result.map fun _ => r.draft.product, r.notes, r.events⟩

/-- A bad name is answered with what is wrong with it, and nothing is done. -/
theorem describe_of_checkName_error {h : Host} {raw : String} {e : Failure}
    (he : h.checkName raw = .error e) (content : Description) (version : ClassVersion) :
    h.describe content raw version = ⟨.error e, [], []⟩ := by
  rw [describe, he]

end Host

end SyntheticAccess
