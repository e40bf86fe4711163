/-!
# Documents

The values that stored descriptions are made of: texts, numbers, lists, and
fields under keys. Readers are generous about what they do not ask for, so a
field nobody reads may hold anything, and strict about what they do: a field
that is missing, or holds another kind of value, makes the whole document
unreadable. No reader asks for a number that is not an integer, but documents
may hold such numbers.

Where a value is one of several cases, a case without content is stored as its
name, and a case with content as a single field under its name.

## Main definitions

* `Document`: A value of a stored description.
* `Document.text?`, `Document.nat?`, `Document.word?`, `Document.list?`: Reading a
  value of one kind.
* `Document.field?`: Reading one field of many.
* `Document.caseOf?`: Reading the name of one of several cases.

## Theorems

* `word?_word`: A number of sixteen bits is read as it was stored.
* `caseOf?_name`: The name of a case is read as that case.
* `list?_map`: A list is read as it was stored, if its members are.
-/

namespace SyntheticAccess

/-- A value of a stored description. -/
inductive Document where
  | null
  | bool (b : Bool)
  | int (n : Int)
  /-- The number with the given digits of which so many follow the point. -/
  | decimal (digits : Int) (places : Nat)
  | text (s : String)
  | list (items : List Document)
  | fields (fs : List (String × Document))
  deriving Inhabited

namespace Document

/-- The value as a text. -/
def text? : Document → Option String
  | text s => some s
  | _ => none

/-- The value as a natural number below a bound. -/
def nat? (bound : Nat) : Document → Option Nat
  | int (.ofNat n) => if n < bound then some n else none
  | _ => none

/-- The value as a number of sixteen bits. -/
def word? (d : Document) : Option UInt16 :=
  (d.nat? 0x10000).map UInt16.ofNat

/-- The value as a list, of which every member can be read. -/
def list? {α : Type} (load? : Document → Option α) : Document → Option (List α)
  | list items => items.mapM load?
  | _ => none

/-- One of the fields, if it can be read. -/
def field? {α : Type} (d : Document) (key : String) (load? : Document → Option α) : Option α :=
  match d with
  | fields fs => (fs.lookup key).bind load?
  | _ => none

/-- The case with the stored name, out of all cases without content. -/
def caseOf? {α : Type} (cases : List α) (name : α → String) : Document → Option α
  | text s => cases.find? fun a => name a == s
  | _ => none

/-- Store a number of sixteen bits. -/
def word (n : UInt16) : Document :=
  int (.ofNat n.toNat)

@[simp] theorem word?_word (n : UInt16) : (word n).word? = some n := by
  simp [word, word?, nat?, n.toNat_lt]

/-- A case is found under its name when no other case has that name. -/
theorem caseOf?_name {α : Type} {cases : List α} {name : α → String}
    (inj : ∀ a b, name a = name b → a = b) {a : α} (h : a ∈ cases) :
    caseOf? cases name (text (name a)) = some a := by
  induction cases with
  | nil => exact absurd h List.not_mem_nil
  | cons b bs ih =>
      rw [caseOf?, List.find?_cons]
      by_cases hb : name b = name a
      · -- The first case has the name, and is the one that was stored.
        rw [beq_iff_eq.mpr hb, inj b a hb]
      · rw [beq_false_of_ne hb]
        rcases List.mem_cons.mp h with rfl | h
        · exact absurd rfl hb
        · exact ih h

/-- A list is read as it was stored when each of its members is. -/
theorem list?_map {α : Type} {save : α → Document} {load? : Document → Option α} {xs : List α}
    (h : ∀ x ∈ xs, load? (save x) = some x) : list? load? (list (xs.map save)) = some xs := by
  rw [list?]
  induction xs with
  | nil => rfl
  | cons x xs ih =>
      rw [List.map_cons, List.mapM_cons, h x List.mem_cons_self,
        ih fun y hy => h y (List.mem_cons_of_mem x hy)]
      rfl

end Document

end SyntheticAccess
