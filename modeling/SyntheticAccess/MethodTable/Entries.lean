import SyntheticAccess.Member

/-!
# Entries in Signature Order

Lists of methods under signatures that ascend strictly. Keeping the order
costs a walk for every insertion and buys a unique representation: two such
lists that answer every lookup alike are the same list.

## Main definitions

* `MethodTable.Ascending`: The order, which also rules out repeated signatures.
* `MethodTable.put`: Insertion at the right place.

## Theorems

* `ascending_put`: Insertion keeps the order.
* `lookup_put_self`, `lookup_put_of_ne`: What insertion does to lookups.
* `lookup_of_mem`: Every entry can be looked up.
* `eq_of_lookup_eq`: Lookups determine the list.
-/

namespace SyntheticAccess

namespace MethodTable

/-- Entries in strictly ascending order, so that no signature occurs twice. -/
abbrev Ascending (entries : List (ErasedSignature × Method)) : Prop :=
  entries.Pairwise fun a b => a.1 < b.1

/-- Put an entry where it belongs, in place of one with the same signature. -/
def put (s : ErasedSignature) (m : Method) :
    List (ErasedSignature × Method) → List (ErasedSignature × Method)
  | [] => [(s, m)]
  | e :: es =>
    if s < e.1 then (s, m) :: e :: es
    else if s = e.1 then (s, m) :: es
    else e :: put s m es

/-- Putting an entry adds no signature but its own. -/
theorem mem_put {s : ErasedSignature} {m : Method} {es : List (ErasedSignature × Method)}
    {e : ErasedSignature × Method} (h : e ∈ put s m es) : e = (s, m) ∨ e ∈ es := by
  induction es with
  | nil => exact Or.inl (by simpa [put] using h)
  | cons d es ih =>
      rw [put] at h
      split at h
      · simpa using h
      · split at h
        · rcases List.mem_cons.mp h with h | h
          · exact Or.inl h
          · exact Or.inr (List.mem_cons_of_mem _ h)
        · rcases List.mem_cons.mp h with h | h
          · exact Or.inr (h ▸ List.mem_cons_self)
          · exact (ih h).imp_right (List.mem_cons_of_mem _)

/-- Putting an entry where it belongs keeps the order. -/
theorem ascending_put (s : ErasedSignature) (m : Method) {es : List (ErasedSignature × Method)}
    (h : Ascending es) : Ascending (put s m es) := by
  induction es with
  | nil => simp [put]
  | cons d es ih =>
      obtain ⟨hd, hes⟩ := List.pairwise_cons.mp h
      rw [put]
      split
      · next hlt =>
        -- The new entry comes before the first, and so before all.
        refine List.pairwise_cons.mpr ⟨fun e he => ?_, h⟩
        rcases List.mem_cons.mp he with he | he
        · exact he ▸ hlt
        · exact ErasedSignature.lt_trans hlt (hd e he)
      · split
        · next heq => exact List.pairwise_cons.mpr ⟨fun e he => heq ▸ hd e he, hes⟩
        · next hlt hne =>
          refine List.pairwise_cons.mpr ⟨fun e he => ?_, ih hes⟩
          -- The new entry goes behind this one, and the others were already there.
          rcases mem_put he with he | he
          · exact he ▸ ErasedSignature.lt_of_not_lt_of_ne hlt hne
          · exact hd e he

theorem lookup_put_self (s : ErasedSignature) (m : Method)
    (es : List (ErasedSignature × Method)) : (put s m es).lookup s = some m := by
  induction es with
  | nil => simp [put]
  | cons d es ih =>
      rw [put]
      split
      · simp
      · split
        · simp
        · next hne => rw [List.lookup_cons, beq_false_of_ne hne, ih]

/-- What is found under other signatures stays the same. -/
theorem lookup_put_of_ne {s r : ErasedSignature} (m : Method)
    (es : List (ErasedSignature × Method)) (h : r ≠ s) :
    (put s m es).lookup r = es.lookup r := by
  induction es with
  | nil => simp [put, List.lookup_cons, beq_false_of_ne h]
  | cons d es ih =>
      rw [put]
      split
      · rw [List.lookup_cons, beq_false_of_ne h]
      · split
        · next heq =>
          rw [List.lookup_cons, beq_false_of_ne h, List.lookup_cons,
            beq_false_of_ne (heq ▸ h)]
        · rw [List.lookup_cons, ih, List.lookup_cons]

/-- No signature occurs twice, so every entry is the one that is looked up. -/
theorem lookup_of_mem {es : List (ErasedSignature × Method)} (h : Ascending es)
    {e : ErasedSignature × Method} (he : e ∈ es) : es.lookup e.1 = some e.2 := by
  induction es with
  | nil => cases he
  | cons d es ih =>
      obtain ⟨hd, hes⟩ := List.pairwise_cons.mp h
      rcases List.mem_cons.mp he with rfl | he
      · exact List.lookup_cons_self
      · have hne : e.1 ≠ d.1 := fun heq => ErasedSignature.lt_irrefl d.1 (heq ▸ hd e he)
        rw [List.lookup_cons, beq_false_of_ne hne]
        exact ih hes he

/-- A signature smaller than all entries is not among them. -/
theorem lookup_eq_none_of_lt {s : ErasedSignature} {es : List (ErasedSignature × Method)}
    (h : ∀ e ∈ es, s < e.1) : es.lookup s = none := by
  induction es with
  | nil => rfl
  | cons d es ih =>
      have hne : s ≠ d.1 := fun heq =>
        ErasedSignature.lt_irrefl d.1 (heq ▸ h d List.mem_cons_self)
      rw [List.lookup_cons, beq_false_of_ne hne]
      exact ih fun e he => h e (List.mem_cons_of_mem _ he)

/-- In ascending entries nothing but the lookups is left to differ. -/
theorem eq_of_lookup_eq {es fs : List (ErasedSignature × Method)} (hes : Ascending es)
    (hfs : Ascending fs) (h : ∀ s, es.lookup s = fs.lookup s) : es = fs := by
  induction es generalizing fs with
  | nil =>
      cases fs with
      | nil => rfl
      | cons f fs => simpa using (h f.1).symm
  | cons e es ih =>
      cases fs with
      | nil => simpa using h e.1
      | cons f fs =>
          obtain ⟨he, hes'⟩ := List.pairwise_cons.mp hes
          obtain ⟨hf, hfs'⟩ := List.pairwise_cons.mp hfs
          -- If the first signatures differed, the smaller one would be found on one side only.
          have hkey : e.1 = f.1 := by
            by_cases hlt : e.1 < f.1
            · have hnone : (f :: fs).lookup e.1 = none := by
                refine lookup_eq_none_of_lt fun g hg => ?_
                rcases List.mem_cons.mp hg with hg | hg
                · exact hg ▸ hlt
                · exact ErasedSignature.lt_trans hlt (hf g hg)
              simpa [hnone] using h e.1
            · by_cases heq : e.1 = f.1
              · exact heq
              · have hgt := ErasedSignature.lt_of_not_lt_of_ne hlt heq
                have hnone : (e :: es).lookup f.1 = none := by
                  refine lookup_eq_none_of_lt fun g hg => ?_
                  rcases List.mem_cons.mp hg with hg | hg
                  · exact hg ▸ hgt
                  · exact ErasedSignature.lt_trans hgt (he g hg)
                simpa [hnone] using (h f.1).symm
          -- The methods of the first entries are what a lookup finds.
          have hval : e.2 = f.2 := by
            have := h e.1
            rw [List.lookup_cons, List.lookup_cons, hkey] at this
            simpa using this
          -- Without the first entries the lists still answer all lookups alike, so the induction
          -- applies to them.
          have hrest : ∀ s, es.lookup s = fs.lookup s := by
            intro s
            by_cases hs : s = e.1
            · rw [hs, lookup_eq_none_of_lt he, hkey, lookup_eq_none_of_lt hf]
            · have := h s
              rwa [List.lookup_cons, List.lookup_cons, ← hkey, beq_false_of_ne hs] at this
          rw [Prod.ext hkey hval, ih hes' hfs' hrest]

end MethodTable

end SyntheticAccess
