import SyntheticAccess.MethodTable
import SyntheticAccess.Stored.Types

/-!
# Stored Members and Tables

The stored forms of methods, fields and method tables. A table is stored with
its entries as fields, so the signatures are the keys, and a loaded table has
whatever keys the document has, under which any method may be filed.

## Main definitions

* `Method.save`, `Method.load?`
* `Field.save`, `Field.load?`
* `MethodTable.save`, `MethodTable.load?`
-/

namespace SyntheticAccess

open Document (text?)

namespace Method

/-- The stored form of a method. -/
def save (m : Method) : Document :=
  .fields [("declaring_type", m.owner.save), ("name", .text m.name),
    ("params", .list (m.params.map SigType.save)), ("return_type", m.result.save),
    ("modifiers", m.flags.save)]

/-- Load a method. -/
def load? (d : Document) : Option Method := do
  let owner ← d.field? "declaring_type" BinaryName.load?
  let name ← d.field? "name" text?
  let params ← d.field? "params" (Document.list? SigType.load?)
  let result ← d.field? "return_type" SigType.load?
  let flags ← d.field? "modifiers" AccessFlags.load?
  return ⟨owner, name, params, result, flags⟩

end Method

namespace Field

/-- The stored form of a field. -/
def save (f : Field) : Document :=
  .fields [("name", .text f.name), ("ty", f.type.save), ("modifiers", f.flags.save)]

/-- Load a field. -/
def load? (d : Document) : Option Field := do
  let name ← d.field? "name" text?
  let type ← d.field? "ty" SigType.load?
  let flags ← d.field? "modifiers" AccessFlags.load?
  return ⟨name, type, flags⟩

end Field

namespace MethodTable

/-- The stored form of one entry, a field under its signature. -/
def saveEntry (e : ErasedSignature × Method) : String × Document :=
  (e.1.text, e.2.save)

/-- Load one entry. -/
def loadEntry? (f : String × Document) : Option (ErasedSignature × Method) :=
  (Method.load? f.2).map (Prod.mk ⟨f.1⟩)

/-- Load all entries of a table. -/
def loadEntries? : Document → Option (List (ErasedSignature × Method))
  | .fields fs => fs.mapM loadEntry?
  | _ => none

/-- The stored form of a table. -/
def save (t : MethodTable) : Document :=
  .fields [("context", t.context.save), ("methods", .fields (t.entries.map saveEntry))]

/-- Load a table. -/
def load? (d : Document) : Option MethodTable := do
  let context ← d.field? "context" BinaryName.load?
  let entries ← d.field? "methods" loadEntries?
  return .ofEntries context entries

end MethodTable

end SyntheticAccess
