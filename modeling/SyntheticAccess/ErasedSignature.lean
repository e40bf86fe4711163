import SyntheticAccess.SigType

/-!
# Erased Signatures

What a call site knows of a method when it looks for one to call: the name and
the erased parameter types, written as the name with the parameter descriptors
in parentheses. Neither the declaring class nor the result takes part.

The signature is kept as its text, because a stored table may hold any text in
its place and such a table is loaded as it is.

## Main definitions

* `ErasedSignature`: A signature as text, ordered by code points.
* `parameterChars`: The descriptors of parameters, one after the other.
* `ErasedSignature.of`: The signature of a name with parameters.

## Theorems

* `lt_irrefl`, `lt_trans`, `lt_of_not_lt_of_ne`: The order is linear.
* `parameterChars_erasure`: Only the erased parameters matter.
-/

namespace SyntheticAccess

/-- The descriptors of a list of parameters in parentheses. -/
def parameterChars (params : List SigType) : List Char :=
  '(' :: (params.flatMap SigType.descriptorChars ++ [')'])

/-- The name and the erased parameters of a method. -/
structure ErasedSignature where
  /-- The name followed by the parameter descriptors in parentheses. -/
  text : String
  deriving DecidableEq, Ord

namespace ErasedSignature

/-- The signature of methods with the given name and parameters. -/
def of (name : String) (params : List SigType) : ErasedSignature :=
  ⟨name ++ String.ofList (parameterChars params)⟩

instance : LT ErasedSignature := ⟨fun a b => a.text < b.text⟩

instance (a b : ErasedSignature) : Decidable (a < b) :=
  inferInstanceAs (Decidable (a.text < b.text))

theorem lt_irrefl (a : ErasedSignature) : ¬ a < a :=
  String.lt_irrefl a.text

theorem lt_trans {a b c : ErasedSignature} (hab : a < b) (hbc : b < c) : a < c :=
  String.lt_trans (a := a.text) hab hbc

/-- Two different signatures are ordered one way or the other. -/
theorem lt_of_not_lt_of_ne {a b : ErasedSignature} (h : ¬ a < b) (hne : a ≠ b) : b < a := by
  have hlt : b.text < a.text := by
    refine Std.lt_of_le_of_ne (String.not_lt.mp h) fun heq => hne ?_
    cases a
    cases b
    exact congrArg _ heq.symm
  exact hlt

end ErasedSignature

/-- The descriptors of parameters are those of their erasures. -/
theorem parameterChars_erasure (params : List SigType) :
    parameterChars (params.map SigType.erasure) = parameterChars params := by
  simp [parameterChars, List.flatMap_map]

end SyntheticAccess
