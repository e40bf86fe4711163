import SyntheticAccess.MethodTable.Entries

/-!
# Method Tables

The methods that code in one class can call, by erased signature. A table is
filled from candidates, the most specific first. The first candidate of a
signature takes the place, with one exception: a bridge gives way to the first
candidate after it that is not a bridge, because the bridge only exists to
forward to such a method.

The entries are kept in ascending order of their signatures. That makes the
representation of a mapping unique, so two tables are equal exactly when they
have the same context and map every signature alike, and it makes the order of
entries in answers and stored documents a matter of the table.

A stored table is loaded as it is: its entries need not be filed under their
own signatures. Tables filled from candidates always have them there.

## Main definitions

* `MethodTable`: A context with entries in ascending order.
* `MethodTable.get?`: The method filed under a signature.
* `MethodTable.insert`: Filing a method, in place of an earlier one.
* `MethodTable.offer`: Filing a candidate under its own signature, or not.
* `MethodTable.ofCandidates`: The table of a list of candidates.

## Theorems

* `get?_insert`: An insertion changes the entry of its own signature only.
* `context_ofCandidates`: Candidates do not change whose table it is.
* `nodup_signatures`: No signature occurs twice.
* `ext_get?`: Tables with the same context and the same mapping are equal.
-/

namespace SyntheticAccess

/-- The methods callable from a class, by erased signature. -/
structure MethodTable where
  /-- The class whose code makes the calls. -/
  context : BinaryName
  /-- The methods under their signatures. -/
  entries : List (ErasedSignature × Method)
  /-- Signatures ascend, so that a mapping has one representation. -/
  ascending : MethodTable.Ascending entries
  deriving DecidableEq

namespace MethodTable

/-- A table from which nothing can be called. -/
def empty (context : BinaryName) : MethodTable :=
  ⟨context, [], .nil⟩

/-- The method filed under a signature. -/
def get? (t : MethodTable) (s : ErasedSignature) : Option Method :=
  t.entries.lookup s

/-- Whether a method is filed under a signature. -/
def contains (t : MethodTable) (s : ErasedSignature) : Bool :=
  (t.get? s).isSome

/-- The number of signatures in a table. -/
def size (t : MethodTable) : Nat :=
  t.entries.length

/-- File a method under a signature, in place of what was there. -/
def insert (t : MethodTable) (s : ErasedSignature) (m : Method) : MethodTable :=
  ⟨t.context, put s m t.entries, ascending_put s m t.ascending⟩

/-- File a candidate under its own signature if the place is free, or is held
    by a bridge while the candidate is not one. -/
def offer (t : MethodTable) (m : Method) : MethodTable :=
  match t.get? m.signature with
  | none => t.insert m.signature m
  | some held => if held.isBridge && !m.isBridge then t.insert m.signature m else t

/-- The table of a list of candidates, the most specific first. -/
def ofCandidates (context : BinaryName) (candidates : List Method) : MethodTable :=
  candidates.foldl offer (empty context)

/-- The table with exactly the given entries, of which a later one replaces an
    earlier one with the same signature. -/
def ofEntries (context : BinaryName) (entries : List (ErasedSignature × Method)) : MethodTable :=
  entries.foldl (fun t e => t.insert e.1 e.2) (empty context)

@[simp] theorem get?_empty (context : BinaryName) (s : ErasedSignature) :
    (empty context).get? s = none := rfl

@[simp] theorem context_insert (t : MethodTable) (s : ErasedSignature) (m : Method) :
    (t.insert s m).context = t.context := rfl

/-- A method is found under the signature it was filed under, and under all others
    what was there before. -/
theorem get?_insert (t : MethodTable) (s r : ErasedSignature) (m : Method) :
    (t.insert s m).get? r = if r = s then some m else t.get? r := by
  split
  · next h => rw [h]; exact lookup_put_self s m t.entries
  · next h => exact lookup_put_of_ne m t.entries h

@[simp] theorem context_offer (t : MethodTable) (m : Method) :
    (t.offer m).context = t.context := by
  rw [offer]
  split
  · rfl
  · split <;> rfl

theorem context_ofCandidates (context : BinaryName) (candidates : List Method) :
    (ofCandidates context candidates).context = context := by
  have general : ∀ t : MethodTable, (candidates.foldl offer t).context = t.context := by
    induction candidates with
    | nil => exact fun _ => rfl
    | cons m ms ih => exact fun t => (ih (t.offer m)).trans (context_offer t m)
  exact general (empty context)

/-- No signature occurs twice, since the entries ascend. -/
theorem nodup_signatures (t : MethodTable) : (t.entries.map (·.1)).Nodup := by
  rw [List.Nodup, List.pairwise_map]
  refine t.ascending.imp fun hlt heq => ?_
  rw [heq] at hlt
  exact ErasedSignature.lt_irrefl _ hlt

theorem contains_iff_mem (t : MethodTable) (s : ErasedSignature) :
    t.contains s = true ↔ s ∈ t.entries.map (·.1) := by
  rw [contains, get?, List.lookup_isSome_iff, List.mem_map]
  exact exists_congr fun e => and_congr_right fun _ => beq_iff_eq.trans eq_comm

/-- A table is its context and its mapping. -/
theorem ext_get? {t u : MethodTable} (hcontext : t.context = u.context)
    (h : ∀ s, t.get? s = u.get? s) : t = u := by
  obtain ⟨c, es, hes⟩ := t
  obtain ⟨d, fs, hfs⟩ := u
  cases hcontext
  cases eq_of_lookup_eq hes hfs h
  rfl

end MethodTable

end SyntheticAccess
