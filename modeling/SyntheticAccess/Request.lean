import SyntheticAccess.Event
import SyntheticAccess.Failure
import SyntheticAccess.MethodTable

/-!
# Accessor Requests

A request names the method that code outside a class wants to call through it,
and how that name is to be understood. Resolving a request yields the method
that will be called. By identity that is the target itself, and the table is
not consulted. By signature it is what the table has under the signature of the
target, which may be declared by another class.

## Main definitions

* `Request`: A target with its resolution.
* `Request.resolve`: The method that will be called.
* `Request.resolveEvents`: What an observer is told about the resolution.

## Theorems

* `resolve_eq_error_iff`: The only way in which a resolution fails.
-/

namespace SyntheticAccess

/-- A method to make callable, with the way to find it. -/
structure Request where
  target : Method
  resolution : Resolution
  deriving DecidableEq

namespace Request

/-- The method that a request leads to. -/
def resolve (r : Request) (table : MethodTable) : Except Failure Method :=
  match r.resolution with
  | .identity => .ok r.target
  | .signature =>
    match table.get? r.target.signature with
    | none => .error (.unreachable r.target table.context)
    | some m => .ok m

/-- What an observer is told while a request is resolved. Only consulting the
    table is worth telling. -/
def resolveEvents (r : Request) (table : MethodTable) : List Event :=
  match r.resolution with
  | .identity => []
  | .signature =>
    match table.get? r.target.signature with
    | none => [.signatureMissed r.target.signature table.context]
    | some m => [.signatureResolved r.target.signature m.owner]

/-- A resolution fails only when the table has nothing under the signature,
    and the failure names the target and not what was found. -/
theorem resolve_eq_error_iff (r : Request) (table : MethodTable) (e : Failure) :
    r.resolve table = .error e ↔
      r.resolution = .signature ∧ table.get? r.target.signature = none ∧
        e = .unreachable r.target table.context := by
  rw [resolve]
  cases r.resolution with
  | identity => simp
  | signature =>
      cases table.get? r.target.signature with
      | none => simp [eq_comm]
      | some m => simp

end Request

end SyntheticAccess
