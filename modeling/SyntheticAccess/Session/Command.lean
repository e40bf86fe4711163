import SyntheticAccess.Description
import SyntheticAccess.Document
import SyntheticAccess.Store

/-!
# Commands

What a session can be asked to do, and what it answers. Classes that were
described or loaded before are referred to by number.

## Main definitions

* `Command`: What a session can be asked to do.
* `Answer`: What a command answers.
* `Refusal`: Why a command was not carried out.
-/

namespace SyntheticAccess

/-- What a session can be asked to do. Classes are referred to by number. -/
inductive Command where
  | showHost
  | checkName (raw : String)
  /-- Describe a class and keep it. -/
  | describe (content : Description) (raw : String) (version : ClassVersion)
  /-- Describe a class and emit it. -/
  | produce (sink : Sink) (content : Description) (raw : String) (version : ClassVersion)
  /-- Describe a class and emit it unless an equal one was. -/
  | obtain (sink : Sink) (content : Description) (raw : String) (version : ClassVersion)
  | emit (number : Nat)
  /-- Look for the listing that an equal class was emitted as. -/
  | lookup (number : Nat)
  /-- Ask whether a class of this name was emitted. -/
  | isTaken (name : BinaryName)
  | print (number : Nat)
  | compare (a b : Nat)
  | count
  | save (number : Nat)
  | load (d : Document)
  /-- Store a class, load it again and keep the result. -/
  | reload (number : Nat)

/-- What a command answers. -/
inductive Answer where
  | host (name : BinaryName) (settings : Settings)
  | name (n : BinaryName)
  | kept (number : Nat) (c : AccessorClass)
  | listing (l : Listing)
  | found (l : Option Listing)
  | flag (b : Bool)
  | text (s : String)
  /-- Whether two classes agree part by part, and whether they are equal. -/
  | comparison (agree equal : Bool)
  /-- The numbers of emitted names, of remembered classes and of kept classes. -/
  | counts (emitted cached classes : Nat)
  | document (d : Document)
  /-- The number of a class loaded again, and whether it is the one stored. -/
  | reloaded (number : Nat) (equal : Bool)

/-- Why a command was not carried out. -/
inductive Refusal where
  | failed (f : Failure)
  | unreadable
  | noSuchClass (number : Nat)

end SyntheticAccess
