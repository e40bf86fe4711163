import SyntheticAccess.ClassVersion
import SyntheticAccess.Member
import SyntheticAccess.Resolution

/-!
# Events

What an observer of the library is told while it works. Every operation
returns the events it caused in the order in which they happened, so a run has
a log that can be reasoned about together with its result.

The routine events, which only say that something was reused, are reported at a
lower level than those that say something was made or looked up.

## Main definitions

* `Event`: What happened.
* `Event.level`, `Event.message`, `Event.fields`: How a log shows it.
-/

namespace SyntheticAccess

/-- Something an observer is told. -/
inductive Event where
  | tableBuilt (context : BinaryName) (methods : Nat)
  /-- A table has nothing under a signature. -/
  | signatureMissed (signature : ErasedSignature) (context : BinaryName)
  /-- A table has a method of the named class under a signature. -/
  | signatureResolved (signature : ErasedSignature) (declaring : BinaryName)
  | accessorReused (accessor : String) (resolution : Resolution)
  | accessorCreated (owner : BinaryName) (accessor : String) (resolved : Method)
      (resolution : Resolution)
  | emitting (name : BinaryName) (version : ClassVersion) (accessors : Nat)
  /-- A class equal to an emitted one was described again. -/
  | cacheHit (name : BinaryName)
  deriving DecidableEq

namespace Event

/-- How important an event is. -/
inductive Level where
  | debug
  | trace
  deriving DecidableEq

/-- The value of a field of an event. -/
inductive Value where
  | text (s : String)
  | count (n : Nat)
  deriving DecidableEq

/-- Reuse is routine, everything else is reported at the higher level. -/
def level : Event → Level
  | accessorReused .. | cacheHit .. => .trace
  | _ => .debug

/-- The sentence an event is logged with. -/
def message : Event → String
  | tableBuilt .. => "built lookup catalog"
  | signatureMissed .. => "signature lookup missed"
  | signatureResolved .. => "resolved by signature"
  | accessorReused .. => "reusing accessor"
  | accessorCreated .. => "created accessor"
  | emitting .. => "emitting auxiliary type"
  | cacheHit .. => "auxiliary type cache hit"

/-- The details an event is logged with. -/
def fields : Event → List (String × Value)
  | tableBuilt context methods => [("context", .text context.text), ("methods", .count methods)]
  | signatureMissed signature context =>
    [("key", .text signature.text), ("context", .text context.text)]
  | signatureResolved signature declaring =>
    [("key", .text signature.text), ("declaring", .text declaring.text)]
  | accessorReused accessor resolution =>
    [("accessor", .text accessor), ("policy", .text resolution.word)]
  | accessorCreated owner accessor resolved resolution =>
    [("aux", .text owner.text), ("accessor", .text accessor),
      ("target", .text resolved.display), ("policy", .text resolution.word)]
  | emitting name version accessors =>
    [("aux", .text name.text), ("version", .text version.display),
      ("accessors", .count accessors)]
  | cacheHit name => [("aux", .text name.text)]

end Event

end SyntheticAccess
