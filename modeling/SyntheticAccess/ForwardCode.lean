import SyntheticAccess.Member
import SyntheticAccess.StackKind
import SyntheticAccess.Text.Numeral

/-!
# Forwarding Code

The body of an accessor: load the arguments in order, call one method, return
what it returns. When the called method returns another erased reference type
than the accessor declares, the result is cast in between.

Arguments lie in consecutive local variables from the first one on, each taking
as many as its type needs. Local variables are numbered with sixteen bits, so
the numbers are right as long as the arguments need fewer than that allows.

## Main definitions

* `Instr`: The four instructions of forwarding code.
* `CallMode.of`: How a method is called.
* `ForwardCode`: Instructions with the number of local variables they use.
* `ForwardCode.calling`: The code that forwards to a method.
* `ForwardCode.callee?`: The method that code calls.

## Theorems

* `callee?_calling`: Forwarding code calls the method it was made for.
-/

namespace SyntheticAccess

/-- The ways of calling a method. -/
inductive CallMode where
  | static
  /-- Exactly the method named. -/
  | special
  /-- The method that the class of the receiver has in place of the one named. -/
  | virtual
  deriving DecidableEq

namespace CallMode

/-- How a method has to be called. A static method is called without a
    receiver even when it is private. -/
def of (m : Method) : CallMode :=
  if m.isStatic then static
  else if m.isPrivate then special
  else virtual

/-- The name of the instruction. -/
def mnemonic : CallMode → String
  | static => "invokestatic"
  | special => "invokespecial"
  | virtual => "invokevirtual"

end CallMode

/-- An instruction of forwarding code. -/
inductive Instr where
  | load (slot : UInt16) (kind : StackKind)
  | invoke (kind : CallMode) (method : Method)
  /-- Check that the result has a type. -/
  | cast (type : SigType)
  | ret (kind : StackKind)
  deriving DecidableEq

/-- The line of a listing that shows an instruction. -/
def Instr.display : Instr → String
  | load slot kind => kind.letter ++ "load " ++ decimal slot.toNat
  | invoke kind m =>
    kind.mnemonic ++ " " ++ m.owner.internalName ++ "." ++ m.name ++ m.descriptor
  | cast type => "checkcast " ++ type.castOperand
  | ret kind => kind.letter ++ "return"

/-- The body of an accessor. -/
structure ForwardCode where
  instrs : List Instr
  /-- How many local variables the arguments take. -/
  maxLocals : UInt16
  deriving DecidableEq

namespace ForwardCode

/-- The local variable after a value of the type that starts at the slot. -/
def nextSlot (slot : UInt16) (t : SigType) : UInt16 :=
  slot + UInt16.ofNat t.slots

/-- Load arguments of the given types from consecutive local variables. -/
def loads (slot : UInt16) : List SigType → List Instr
  | [] => []
  | t :: ts => .load slot t.kind :: loads (nextSlot slot t) ts

/-- The cast that turns the result of a called method into the type that is to
    be returned. Erased types that agree need none, and neither do primitive
    types, which cannot be cast. -/
def castTo (returns found : SigType) : List Instr :=
  if returns.erasure.isReference && returns.erasure != found.erasure then
    [.cast returns.erasure]
  else []

/-- The code that takes the given parameters, calls a method and returns its
    result as the given type. -/
def calling (params : List SigType) (m : Method) (returns : SigType) : ForwardCode where
  instrs := loads 0 params ++ .invoke (.of m) m :: (castTo returns m.result ++ [.ret returns.kind])
  maxLocals := params.foldl nextSlot 0

/-- The method called by the first call instruction. -/
def callee? (c : ForwardCode) : Option Method :=
  c.instrs.findSome? fun
    | .invoke _ m => some m
    | _ => none

/-- Forwarding code calls the method it was made for, after its loads. -/
theorem callee?_calling (params : List SigType) (m : Method) (returns : SigType) :
    (calling params m returns).callee? = some m := by
  have general : ∀ (slot : UInt16) (rest : List Instr),
      (loads slot params ++ rest).findSome? (fun
        | .invoke _ m => some m
        | _ => none) = rest.findSome? (fun
        | .invoke _ m => some m
        | _ => none) := by
    induction params with
    | nil => exact fun _ _ => rfl
    | cons t ts ih => exact fun slot rest => ih (nextSlot slot t) rest
  rw [callee?, calling, general]
  rfl

end ForwardCode

end SyntheticAccess
