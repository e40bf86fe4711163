import Mathlib.Data.List.NodupEquivFin
import SyntheticAccess.Proofs.Selection

/-!
# The Order of Candidates

How much of the order of its candidates a table depends on. Filling a table is
one pass over all of them, so a table could depend on everything about that
order. It depends on little. The place of a signature sees the candidates of
that signature only, and what ends up there is decided by their order among
themselves. Candidates of different signatures can therefore be moved past each
other.

`KeepsOrder` states this for positions, the way it would be said of two lists
that are compared by hand: every candidate of one list stands somewhere in the
other, and two of one signature stand the same way round in both. What the
filling of tables needs is something else, that the lists have the same
candidates of each signature in the same order. `KeepsOrder.filter_eq` gets
from one to the other. Positions that ascend make a sublist, and two lists that
are sublists of each other are the same.

The methods that a table has are candidates of a special kind. No two of them
have a signature in common, so there is nothing in their order that could
count, and filling a table from them gives the table back.

## Main definitions

* `MethodTable.KeepsOrder`: The same candidates, with the order kept within
  every signature.

## Theorems

* `KeepsOrder.symm`: The relation goes both ways.
* `KeepsOrder.filter_eq`: The candidates of one signature are the same list.
* `ofCandidates_of_keepsOrder`: Such lists fill the same table.
* `ofCandidates_append_of_subset`: Candidates that are repeated at the end
  change nothing.
* `map_signature_entries`: A table has its methods under their own signatures.
* `ofCandidates_of_perm_entries`: A table can be filled again from its methods.
* `only_order_within_signatures_counts`: All of it for one list of candidates.
-/

namespace SyntheticAccess

namespace MethodTable

/-- The second list has the candidates of the first, and those of one signature
    in the order that they have there. The position in the first list of what
    stands at a position of the second is given by `place`. -/
def KeepsOrder (ms ns : List Method) : Prop :=
  ∃ place : Fin ns.length ≃ Fin ms.length,
    (∀ i, ns.get i = ms.get (place i)) ∧
      ∀ i j, i < j → (ns.get i).signature = (ns.get j).signature → place i < place j

/-- If one list keeps the order of the other then the other keeps its order. -/
theorem KeepsOrder.symm {ms ns : List Method} (h : KeepsOrder ms ns) : KeepsOrder ns ms := by
  rcases h with ⟨place, hget, horder⟩
  have hback : ∀ i, ms.get i = ns.get (place.symm i) := by
    intro i
    rw [hget, place.apply_symm_apply]
  refine ⟨place.symm, hback, fun i j hlt hsignature => ?_⟩
  by_contra hnot
  -- If the positions came the other way round, so would the ones they come from.
  have hne : place.symm j ≠ place.symm i := fun heq => hlt.ne' (place.symm.injective heq)
  have hgt : place.symm j < place.symm i := lt_of_le_of_ne (not_lt.mp hnot) hne
  have hswapped := horder _ _ hgt (by rw [← hback, ← hback, hsignature])
  rw [place.apply_symm_apply, place.apply_symm_apply] at hswapped
  exact hlt.asymm hswapped

/-- The positions of candidates of one signature ascend in both lists, so one
    list of them is part of the other. -/
theorem KeepsOrder.sublist_filter {ms ns : List Method} (h : KeepsOrder ms ns)
    (s : ErasedSignature) :
    (ns.filter (·.signature == s)).Sublist (ms.filter (·.signature == s)) := by
  rcases h with ⟨place, hget, horder⟩
  -- The candidates of the signature, by the positions that they have in the second list.
  have hpart : (ns.filter (·.signature == s)).Sublist ns := List.filter_sublist
  rcases List.sublist_iff_exists_fin_orderEmbedding_get_eq.mp hpart with ⟨f, hf⟩
  have hsignature : ∀ i, (ns.get (f i)).signature = s := by
    intro i
    rw [← hf]
    exact beq_iff_eq.mp (List.mem_filter.mp (List.get_mem _ i)).2
  -- Their positions in the first list ascend as well, since it is one signature.
  have hmono : StrictMono fun i => place (f i) := by
    intro i j hlt
    exact horder _ _ (f.lt_iff_lt.mpr hlt) ((hsignature i).trans (hsignature j).symm)
  have hall : (ns.filter (·.signature == s)).Sublist ms :=
    List.sublist_iff_exists_fin_orderEmbedding_get_eq.mpr
      ⟨OrderEmbedding.ofStrictMono _ hmono, fun i => (hf i).trans (hget (f i))⟩
  -- What is left out of the first list has another signature.
  simpa using hall.filter (·.signature == s)

/-- The candidates of a signature are the same list in both, for each is a part of
    the other. -/
theorem KeepsOrder.filter_eq {ms ns : List Method} (h : KeepsOrder ms ns) (s : ErasedSignature) :
    ns.filter (·.signature == s) = ms.filter (·.signature == s) :=
  (h.sublist_filter s).antisymm (h.symm.sublist_filter s)

/-- Every place of a table is filled from the candidates of its signature, and
    these are the same. -/
theorem ofCandidates_of_keepsOrder (context : BinaryName) {ms ns : List Method}
    (h : KeepsOrder ms ns) : ofCandidates context ns = ofCandidates context ms := by
  refine ext_get? ?_ fun s => ?_
  · rw [context_ofCandidates, context_ofCandidates]
  · rw [ofCandidates, ofCandidates, get?_foldl_offer, get?_foldl_offer, h.filter_eq s]

/-- Candidates that were offered before change nothing when they are offered again. -/
theorem ofCandidates_append_of_subset (context : BinaryName) {ms ns : List Method}
    (h : ∀ n ∈ ns, n ∈ ms) : ofCandidates context (ms ++ ns) = ofCandidates context ms := by
  refine ext_get? ?_ fun s => ?_
  · rw [context_ofCandidates, context_ofCandidates]
  · rw [get?_ofCandidates, get?_ofCandidates, preferred_append_of_subset h]

theorem map_signature_entries (context : BinaryName) (ms : List Method) :
    ((ofCandidates context ms).entries.map (·.2)).map Method.signature =
      (ofCandidates context ms).entries.map (·.1) := by
  rw [List.map_map]
  exact List.map_congr_left fun e he => signature_of_mem_ofCandidates he

/-- The methods of a table have different signatures, so in whatever order they
    are offered, each of them takes its own place and keeps it. -/
theorem ofCandidates_of_perm_entries {context : BinaryName} {ms ns : List Method}
    (h : ns.Perm ((ofCandidates context ms).entries.map (·.2))) :
    ofCandidates context ns = ofCandidates context ms := by
  have hsignatures : (ns.map Method.signature).Perm
      ((ofCandidates context ms).entries.map (·.1)) := by
    rw [← map_signature_entries]
    exact h.map Method.signature
  -- A table has one method under each signature, so none of those that are offered is in the way
  -- of another.
  have hnodup : (ns.map Method.signature).Nodup :=
    hsignatures.nodup_iff.mpr (nodup_signatures _)
  refine ext_get? ?_ fun s => ?_
  · rw [context_ofCandidates, context_ofCandidates]
  · by_cases hs : s ∈ ns.map Method.signature
    · -- One of the methods has the signature, and either table has that one under it.
      rcases List.mem_map.mp hs with ⟨m, hm, rfl⟩
      rcases List.mem_map.mp (h.mem_iff.mp hm) with ⟨e, he, rfl⟩
      rw [get?_ofCandidates_of_mem context hnodup hm, signature_of_mem_ofCandidates he]
      exact (lookup_of_mem (ofCandidates context ms).ascending he).symm
    · -- None of them has it. Then neither table has anything under it.
      have hnew : ¬ (ofCandidates context ns).contains s = true := by
        rwa [contains_ofCandidates_iff]
      have hold : ¬ (ofCandidates context ms).contains s = true := by
        rwa [contains_iff_mem, ← hsignatures.mem_iff]
      rw [Option.not_isSome_iff_eq_none.mp hnew, Option.not_isSome_iff_eq_none.mp hold]

/-- Of the order of candidates only the order within each signature counts. A
    list that keeps it fills the same table, and so does the list with some of
    its candidates repeated at the end. The methods of the table fill the table
    again, in whatever order they are taken out. The table has as many methods
    as there are different signatures among the candidates. -/
theorem only_order_within_signatures_counts (context : BinaryName) (ms : List Method) :
    let table := ofCandidates context ms
    (∀ ns, KeepsOrder ms ns → ofCandidates context ns = table) ∧
    (∀ ns, (∀ n ∈ ns, n ∈ ms) → ofCandidates context (ms ++ ns) = table) ∧
    (∀ ns, ns.Perm (table.entries.map (·.2)) → ofCandidates context ns = table) ∧
    table.size = (ms.map Method.signature).dedup.length :=
  ⟨fun _ h => ofCandidates_of_keepsOrder context h,
    fun _ h => ofCandidates_append_of_subset context h,
    fun _ h => ofCandidates_of_perm_entries h, size_ofCandidates context ms⟩

/-- Two bridges of one signature with a method between them that they may stand
    for, and methods of two other signatures. -/
def mixedCandidates : List Method :=
  [⟨⟨"p.Sub"⟩, "get", [], .classRef ⟨"p.Any"⟩, .accBridge⟩,
    ⟨⟨"p.Sub"⟩, "get", [.prim .int], .void, ∅⟩,
    ⟨⟨"p.Base"⟩, "get", [], .classRef ⟨"p.Item"⟩, ∅⟩,
    ⟨⟨"p.Base"⟩, "add", [.prim .long], .void, .accBridge⟩,
    ⟨⟨"p.Top"⟩, "get", [], .void, .accBridge⟩]

/-- The same methods, with the first two and the last two the other way round. -/
def shuffledCandidates : List Method :=
  [⟨⟨"p.Sub"⟩, "get", [.prim .int], .void, ∅⟩,
    ⟨⟨"p.Sub"⟩, "get", [], .classRef ⟨"p.Any"⟩, .accBridge⟩,
    ⟨⟨"p.Base"⟩, "get", [], .classRef ⟨"p.Item"⟩, ∅⟩,
    ⟨⟨"p.Top"⟩, "get", [], .void, .accBridge⟩,
    ⟨⟨"p.Base"⟩, "add", [.prim .long], .void, .accBridge⟩]

/-- The shuffled list fills the same table, and so do the list with its first two
    repeated and the methods of the table in reverse. There are three of them, one
    for each signature. -/
theorem only_order_within_signatures_counts_mixedCandidates :
    let table := ofCandidates ⟨"p.Sub"⟩ mixedCandidates
    ofCandidates ⟨"p.Sub"⟩ shuffledCandidates = table ∧
    ofCandidates ⟨"p.Sub"⟩ (mixedCandidates ++ mixedCandidates.take 2) = table ∧
    ofCandidates ⟨"p.Sub"⟩ (table.entries.map (·.2)).reverse = table ∧ table.size = 3 := by
  intro table
  have hshuffled : KeepsOrder mixedCandidates shuffledCandidates :=
    ⟨(Equiv.swap (0 : Fin 5) 1).trans (Equiv.swap 3 4), by decide +kernel, by decide +kernel⟩
  rcases only_order_within_signatures_counts ⟨"p.Sub"⟩ mixedCandidates with
    ⟨horder, hrepeat, hrefill, hsize⟩
  exact ⟨horder _ hshuffled, hrepeat _ fun m hm => List.mem_of_mem_take hm,
    hrefill _ (List.reverse_perm _), hsize.trans (by decide +kernel)⟩

end MethodTable

end SyntheticAccess
