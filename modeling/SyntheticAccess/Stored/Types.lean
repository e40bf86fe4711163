import SyntheticAccess.AccessFlags.Text
import SyntheticAccess.ClassVersion
import SyntheticAccess.Document
import SyntheticAccess.ErasedSignature
import SyntheticAccess.Resolution
import SyntheticAccess.StackKind

/-!
# Stored Names, Types and Flags

The stored forms of the values that members are made of. Names and signatures
are stored as their text and not checked when they are loaded, so a stored
description need not come from this library.

Types are the one kind of value here that nests. The reader of types follows
the document down, one function for each kind of place a type can stand in.

## Main definitions

* `BinaryName.save`, `BinaryName.load?`, and so on for signatures, resolutions,
  versions, levels, flags, primitive types, kinds and defects.
* `SigType.save`, `SigType.load?`: Types of any nesting.
-/

namespace SyntheticAccess

open Document (text? word? caseOf?)

namespace BinaryName

/-- A name is stored as its text. -/
def save (n : BinaryName) : Document :=
  .text n.text

/-- Any text is loaded as a name. -/
def load? (d : Document) : Option BinaryName :=
  d.text?.map .mk

/-- The stored form of a defect. -/
def Defect.save : Defect → Document
  | .empty => .text "Empty"
  | .slashed => .text "InternalForm"
  | .gap position =>
    .fields [("EmptySegment", .fields [("position", .int (.ofNat position))])]
  | .notIdentifier segment =>
    .fields [("InvalidSegment", .fields [("segment", .text segment)])]
  | .reserved segment => .fields [("ReservedWord", .fields [("segment", .text segment)])]

/-- Load a defect. A position is a number of 64 bits. -/
def Defect.load? : Document → Option Defect
  | .text "Empty" => some .empty
  | .text "InternalForm" => some .slashed
  | .fields [("EmptySegment", c)] =>
    (c.field? "position" (·.nat? 0x10000000000000000)).map .gap
  | .fields [("InvalidSegment", c)] => (c.field? "segment" text?).map .notIdentifier
  | .fields [("ReservedWord", c)] => (c.field? "segment" text?).map .reserved
  | _ => none

end BinaryName

namespace ErasedSignature

/-- A signature is stored as its text. -/
def save (s : ErasedSignature) : Document :=
  .text s.text

/-- Any text is loaded as a signature. -/
def load? (d : Document) : Option ErasedSignature :=
  d.text?.map .mk

end ErasedSignature

namespace Resolution

/-- The name of a resolution in documents. -/
def caseName : Resolution → String
  | identity => "ByIdentity"
  | signature => "BySignature"

/-- The stored form of a resolution. -/
def save (p : Resolution) : Document :=
  .text p.caseName

/-- Load a resolution. -/
def load? : Document → Option Resolution :=
  caseOf? [identity, signature] caseName

end Resolution

namespace AccessLevel

/-- The name of a level in documents. -/
def caseName : AccessLevel → String
  | privateAccess => "Private"
  | packageAccess => "PackagePrivate"
  | protectedAccess => "Protected"
  | publicAccess => "Public"

/-- The stored form of a level. -/
def save (l : AccessLevel) : Document :=
  .text l.caseName

/-- Load a level. -/
def load? : Document → Option AccessLevel :=
  caseOf? [privateAccess, packageAccess, protectedAccess, publicAccess] caseName

end AccessLevel

namespace AccessFlags

/-- Flags are stored as text. -/
def save (f : AccessFlags) : Document :=
  .text f.toText

/-- Load flags. -/
def load? (d : Document) : Option AccessFlags :=
  d.text?.bind ofText?

end AccessFlags

namespace ClassVersion

/-- The stored form of a version. -/
def save (v : ClassVersion) : Document :=
  .fields [("major", .word v.major), ("minor", .word v.minor)]

/-- Load a version. -/
def load? (d : Document) : Option ClassVersion := do
  let major ← d.field? "major" word?
  let minor ← d.field? "minor" word?
  return ⟨major, minor⟩

end ClassVersion

namespace Primitive

/-- The name of a primitive type in documents. -/
def caseName : Primitive → String
  | void => "Void"
  | boolean => "Boolean"
  | byte => "Byte"
  | char => "Char"
  | short => "Short"
  | int => "Int"
  | long => "Long"
  | float => "Float"
  | double => "Double"

/-- The stored form of a primitive type. -/
def save (p : Primitive) : Document :=
  .text p.caseName

/-- Load a primitive type. -/
def load? : Document → Option Primitive :=
  caseOf? all caseName

end Primitive

namespace StackKind

/-- The name of a kind in documents. -/
def caseName : StackKind → String
  | void => "Void"
  | int => "Int"
  | long => "Long"
  | float => "Float"
  | double => "Double"
  | reference => "Reference"

/-- The stored form of a kind. -/
def save (k : StackKind) : Document :=
  .text k.caseName

/-- Load a kind. -/
def load? : Document → Option StackKind :=
  caseOf? [void, int, long, float, double, reference] caseName

end StackKind

namespace SigType

mutual

/-- The stored form of a type. -/
def save : SigType → Document
  | prim p => .fields [("Primitive", p.save)]
  | classRef n => .fields [("Class", n.save)]
  | arrayOf t => .fields [("Array", save t)]
  | generic raw args =>
    .fields [("Parameterized", .fields [("raw", raw.save), ("args", .list (saveAll args))])]
  | typeVar name bound =>
    .fields [("Variable", .fields [("name", .text name), ("bound", bound.save)])]

/-- The stored forms of a list of types. -/
def saveAll : List SigType → List Document
  | [] => []
  | t :: ts => save t :: saveAll ts

end

mutual

/-- Load a type. -/
def load? : Document → Option SigType
  | .fields [("Primitive", c)] => (Primitive.load? c).map prim
  | .fields [("Class", c)] => (BinaryName.load? c).map classRef
  | .fields [("Array", c)] => (load? c).map arrayOf
  | .fields [("Parameterized", .fields fs)] => do
    let raw ← Document.field? (.fields fs) "raw" BinaryName.load?
    let args ← loadArgs? fs
    return generic raw args
  | .fields [("Variable", c)] => do
    let name ← c.field? "name" text?
    let bound ← c.field? "bound" BinaryName.load?
    return typeVar name bound
  | _ => none

/-- The type arguments among the fields of a generic type. -/
def loadArgs? : List (String × Document) → Option (List SigType)
  | [] => none
  | (key, c) :: fs => if key = "args" then loadItems? c else loadArgs? fs

/-- Load a list of types. -/
def loadItems? : Document → Option (List SigType)
  | .list items => loadAll? items
  | _ => none

/-- Load the types of a list one by one. -/
def loadAll? : List Document → Option (List SigType)
  | [] => some []
  | d :: ds => do
    let t ← load? d
    let ts ← loadAll? ds
    return t :: ts

end

end SigType

end SyntheticAccess
