import SyntheticAccess.AccessorClass
import SyntheticAccess.Stored.Members

/-!
# Stored Accessor Classes

The stored forms of forwarding code, accessors and whole accessor classes. A
class that was loaded takes part in comparison, emission and reuse like one
that was described.

## Main definitions

* `Instr.save`, `Instr.load?`, and so on for code, requests and accessors.
* `AccessorClass.save`, `AccessorClass.load?`
-/

namespace SyntheticAccess

open Document (word?)

namespace CallMode

/-- The name of a way of calling in documents. -/
def caseName : CallMode → String
  | static => "Static"
  | special => "Special"
  | virtual => "Virtual"

/-- The stored form of a way of calling. -/
def save (k : CallMode) : Document :=
  .text k.caseName

/-- Load a way of calling. -/
def load? : Document → Option CallMode :=
  Document.caseOf? [static, special, virtual] caseName

end CallMode

namespace Instr

/-- The stored form of an instruction. -/
def save : Instr → Document
  | load slot kind => .fields [("LoadArg", .fields [("slot", .word slot), ("kind", kind.save)])]
  | invoke kind m => .fields [("Invoke", .fields [("kind", kind.save), ("method", m.save)])]
  | cast t => .fields [("CheckCast", t.save)]
  | ret kind => .fields [("Return", kind.save)]

/-- Load an instruction. -/
def load? : Document → Option Instr
  | .fields [("LoadArg", c)] => do
    let slot ← c.field? "slot" word?
    let kind ← c.field? "kind" StackKind.load?
    return load slot kind
  | .fields [("Invoke", c)] => do
    let kind ← c.field? "kind" CallMode.load?
    let m ← c.field? "method" Method.load?
    return invoke kind m
  | .fields [("CheckCast", c)] => (SigType.load? c).map cast
  | .fields [("Return", c)] => (StackKind.load? c).map ret
  | _ => none

end Instr

namespace ForwardCode

/-- The stored form of forwarding code. -/
def save (c : ForwardCode) : Document :=
  .fields [("instrs", .list (c.instrs.map Instr.save)), ("max_locals", .word c.maxLocals)]

/-- Load forwarding code. -/
def load? (d : Document) : Option ForwardCode := do
  let instrs ← d.field? "instrs" (Document.list? Instr.load?)
  let maxLocals ← d.field? "max_locals" word?
  return ⟨instrs, maxLocals⟩

end ForwardCode

namespace Request

/-- The stored form of a request. -/
def save (r : Request) : Document :=
  .fields [("target", r.target.save), ("policy", r.resolution.save)]

/-- Load a request. -/
def load? (d : Document) : Option Request := do
  let target ← d.field? "target" Method.load?
  let resolution ← d.field? "policy" Resolution.load?
  return ⟨target, resolution⟩

end Request

namespace Accessor

/-- The stored form of an accessor. -/
def save (a : Accessor) : Document :=
  .fields [("descriptor", a.method.save), ("request", a.request.save),
    ("resolved", a.resolved.save), ("body", a.code.save)]

/-- Load an accessor. -/
def load? (d : Document) : Option Accessor := do
  let method ← d.field? "descriptor" Method.load?
  let request ← d.field? "request" Request.load?
  let resolved ← d.field? "resolved" Method.load?
  let code ← d.field? "body" ForwardCode.load?
  return ⟨method, request, resolved, code⟩

end Accessor

namespace AccessorClass

/-- The stored form of an accessor class. -/
def save (c : AccessorClass) : Document :=
  .fields [("name", c.name.save), ("version", c.version.save), ("modifiers", c.flags.save),
    ("fields", .list (c.fields.map Field.save)),
    ("accessors", .list (c.accessors.map Accessor.save))]

/-- Load an accessor class. -/
def load? (d : Document) : Option AccessorClass := do
  let name ← d.field? "name" BinaryName.load?
  let version ← d.field? "version" ClassVersion.load?
  let flags ← d.field? "modifiers" AccessFlags.load?
  let fields ← d.field? "fields" (Document.list? Field.load?)
  let accessors ← d.field? "accessors" (Document.list? Accessor.load?)
  return ⟨name, version, flags, fields, accessors⟩

end AccessorClass

end SyntheticAccess
