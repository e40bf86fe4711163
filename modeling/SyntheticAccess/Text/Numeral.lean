/-!
# Numerals

Natural numbers as text: decimal for everything that is shown, lowercase
hexadecimal for flag bits that have no name. Only the hexadecimal form is ever
read back. Reading accepts either case, leading zeros and one leading plus
sign, so it is the left inverse of writing and no more than that.

## Main definitions

* `decimal`: The decimal numeral of a number.
* `hexadecimal`: The lowercase hexadecimal numeral of a number.
* `readHexadecimal`: The value of a hexadecimal numeral.

## Theorems

* `decimal_eq_iff`: A number has its own decimal numeral.
* `not_mem_decimal`: There is nothing but digits in it.
-/

namespace SyntheticAccess

/-- The decimal numeral of a number. -/
def decimal (n : Nat) : String :=
  String.ofList (Nat.toDigits 10 n)

theorem decimal_eq_iff {m n : Nat} : decimal m = decimal n ↔ m = n := by
  constructor
  · intro h
    have hdigits : Nat.toDigits 10 m = Nat.toDigits 10 n := String.ofList_inj.mp h
    rw [← Nat.ofDigitChars_ten_toDigits (n := m), hdigits, Nat.ofDigitChars_ten_toDigits]
  · rintro rfl
    rfl

/-- A decimal numeral is made of digits, so no separator occurs in it. -/
theorem not_mem_decimal {c : Char} (hc : c.isDigit = false) (n : Nat) :
    c ∉ (decimal n).toList := by
  intro h
  rw [decimal, String.toList_ofList] at h
  rw [Nat.isDigit_of_mem_toDigits (by decide) (by decide) h] at hc
  cases hc

/-- The hexadecimal numeral of a number, in lowercase. -/
def hexadecimal (n : Nat) : List Char :=
  Nat.toDigits 16 n

/-- The value of a hexadecimal digit of either case. -/
def hexDigitValue (c : Char) : Option Nat :=
  if '0' ≤ c ∧ c ≤ '9' then some (c.toNat - 48)
  else if 'a' ≤ c ∧ c ≤ 'f' then some (c.toNat - 87)
  else if 'A' ≤ c ∧ c ≤ 'F' then some (c.toNat - 55)
  else none

/-- The value of a run of hexadecimal digits, most significant first, after
    the digits already read. -/
def hexDigitsValue (seen : Nat) : List Char → Option Nat
  | [] => some seen
  | c :: cs => (hexDigitValue c).bind fun d => hexDigitsValue (16 * seen + d) cs

/-- The value of a hexadecimal numeral: at least one digit, after an optional
    plus sign. -/
def readHexadecimal (cs : List Char) : Option Nat :=
  match (if cs.head? = some '+' then cs.tail else cs) with
  | [] => none
  | d :: ds => hexDigitsValue 0 (d :: ds)

end SyntheticAccess
