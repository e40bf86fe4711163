import Mathlib.Data.List.Dedup
import SyntheticAccess.MethodTable

/-!
# Tables and Their Candidates

What a table filled from candidates has under a signature, said without the
table. Filling is a loop over all candidates that may replace what an earlier
one left behind, and a candidate of one signature never concerns the place of
another. So each place can be followed on its own, through the candidates of
its signature alone (`get?_foldl_offer`), and what it goes through is a fold
over values instead of tables.

A place that holds a bridge waits for the first candidate that is not one, and
a place that holds anything else is settled. `preferred` is what that comes
to: the first candidate that is not a bridge, or else the first one.

Since only the first of the suitable candidates counts, candidates that are
offered once more at the end change nothing. The walk up the superclasses
relies on this when it goes round a cycle.

## Main definitions

* `MethodTable.choose`: What a place holds after one more candidate.
* `MethodTable.preferred`: The candidate that ends up under a signature.

## Theorems

* `get?_offer`: A candidate concerns the place of its own signature.
* `get?_foldl_offer`: A place sees the candidates of its signature only.
* `get?_ofCandidates`: A table has the preferred candidates.
* `mem_of_preferred`: These are candidates, under their own signatures.
* `size_ofCandidates`: A table has as many methods as the candidates signatures.
* `preferred_append_of_subset`: Repeated candidates change nothing.
-/

namespace SyntheticAccess

namespace MethodTable

/-- What the place of a signature holds after one more candidate for it. -/
def choose (held : Option Method) (m : Method) : Option Method :=
  match held with
  | none => some m
  | some h => if h.isBridge && !m.isBridge then some m else some h

/-- The candidate that a signature leads to: the first that is not a bridge,
    or else the first. -/
def preferred (s : ErasedSignature) (ms : List Method) : Option Method :=
  (ms.find? fun m => m.signature == s && !m.isBridge).or (ms.find? fun m => m.signature == s)

/-- A candidate is compared with what the place of its own signature holds, and
    every other place stays as it is. -/
theorem get?_offer (t : MethodTable) (m : Method) (s : ErasedSignature) :
    (t.offer m).get? s = if m.signature = s then choose (t.get? s) m else t.get? s := by
  by_cases hs : m.signature = s
  · -- The candidate is compared with what its own place holds.
    subst hs
    rw [if_pos rfl, offer]
    cases hheld : t.get? m.signature with
    | none => simp only [get?_insert, if_true, choose]
    | some h =>
        by_cases hbridge : (h.isBridge && !m.isBridge) = true
        · simp only [hbridge, if_true, get?_insert, choose]
        · simp only [hbridge, Bool.false_eq_true, if_false, hheld, choose]
  · -- Whatever becomes of it, another place is not written to.
    rw [if_neg hs, offer]
    have hne : ¬ s = m.signature := fun h => hs h.symm
    cases t.get? m.signature with
    | none => simp only [get?_insert, if_neg hne]
    | some h =>
        by_cases hbridge : (h.isBridge && !m.isBridge) = true
        · simp only [hbridge, if_true, get?_insert, if_neg hne]
        · simp only [hbridge, Bool.false_eq_true, if_false]

/-- Candidates of other signatures pass a place by. -/
theorem get?_foldl_offer (ms : List Method) (t : MethodTable) (s : ErasedSignature) :
    (ms.foldl offer t).get? s = (ms.filter (·.signature == s)).foldl choose (t.get? s) := by
  -- The induction is on the candidates for any table, as each of them leaves another one.
  induction ms generalizing t with
  | nil => rfl
  | cons m ms ih =>
      rw [List.foldl_cons, ih, get?_offer]
      by_cases hs : m.signature = s
      · rw [if_pos hs, List.filter_cons_of_pos (by simpa using hs), List.foldl_cons]
      · rw [if_neg hs, List.filter_cons_of_neg (by simpa using hs)]

/-- A bridge that holds a place gives way to the first candidate that is none, and a
    method that is no bridge stays. -/
theorem foldl_choose_some (h : Method) (ms : List Method) :
    ms.foldl choose (some h) =
      if h.isBridge then (ms.find? fun m => !m.isBridge).or (some h) else some h := by
  induction ms generalizing h with
  | nil => simp
  | cons m ms ih =>
      rw [List.foldl_cons, choose]
      by_cases hh : h.isBridge = true
      · by_cases hm : m.isBridge = true
        · -- One bridge does not replace another.
          simp only [hh, hm, Bool.not_true, Bool.and_false, Bool.false_eq_true, if_false, ih,
            if_true, List.find?_cons]
        · -- The candidate takes the place, and no later one takes it from there.
          simp only [Bool.not_eq_true] at hm
          simp only [hh, hm, Bool.not_false, Bool.and_self, if_true, ih, Bool.false_eq_true,
            if_false, List.find?_cons, Option.some_or]
      · simp only [hh, Bool.false_and, Bool.false_eq_true, if_false, ih]

/-- An empty place is taken by the first candidate, which then may have to give way. -/
theorem foldl_choose_none (ms : List Method) :
    ms.foldl choose none = (ms.find? fun m => !m.isBridge).or ms.head? := by
  cases ms with
  | nil => rfl
  | cons m ms =>
      rw [List.foldl_cons, choose, foldl_choose_some]
      by_cases hm : m.isBridge = true
      · simp [hm]
      · simp [hm]

/-- A table filled from candidates has the preferred candidate of every
    signature, and nothing under a signature without candidates. -/
theorem get?_ofCandidates (context : BinaryName) (ms : List Method) (s : ErasedSignature) :
    (ofCandidates context ms).get? s = preferred s ms := by
  -- The search among the candidates of one signature is a search among all, with one more
  -- condition.
  have hfind : (ms.filter (·.signature == s)).find? (fun m => !m.isBridge) =
      ms.find? fun m => m.signature == s && !m.isBridge := by
    rw [List.find?_filter]
    congr 1
    funext m
    rw [Bool.decide_and, Bool.decide_eq_true, Bool.decide_eq_true]
  rw [ofCandidates, get?_foldl_offer, get?_empty, foldl_choose_none, hfind, List.head?_filter,
    preferred]

theorem mem_of_preferred {s : ErasedSignature} {ms : List Method} {m : Method}
    (h : preferred s ms = some m) : m ∈ ms ∧ m.signature = s := by
  rw [preferred, Option.or_eq_some_iff] at h
  rcases h with h | ⟨-, h⟩
  · have hsome := List.find?_some h
    rw [Bool.and_eq_true, beq_iff_eq] at hsome
    exact ⟨List.mem_of_find?_eq_some h, hsome.1⟩
  · exact ⟨List.mem_of_find?_eq_some h, by simpa using List.find?_some h⟩

/-- A table has something under the signatures of its candidates and under no
    others. -/
theorem contains_ofCandidates_iff (context : BinaryName) (ms : List Method)
    (s : ErasedSignature) :
    (ofCandidates context ms).contains s = true ↔ s ∈ ms.map Method.signature := by
  rw [contains, get?_ofCandidates, preferred, Option.isSome_or, Bool.or_eq_true,
    List.find?_isSome, List.find?_isSome, List.mem_map]
  constructor
  · rintro (⟨m, hm, hs⟩ | ⟨m, hm, hs⟩)
    · exact ⟨m, hm, beq_iff_eq.mp (Bool.and_eq_true_iff.mp hs).1⟩
    · exact ⟨m, hm, beq_iff_eq.mp hs⟩
  · rintro ⟨m, hm, hs⟩
    exact Or.inr ⟨m, hm, beq_iff_eq.mpr hs⟩

/-- There is one entry for every different signature among the candidates. -/
theorem size_ofCandidates (context : BinaryName) (ms : List Method) :
    (ofCandidates context ms).size = (ms.map Method.signature).dedup.length := by
  -- Neither list has a repetition, so it is enough to compare their members.
  have hperm : ((ofCandidates context ms).entries.map (·.1)).Perm
      (ms.map Method.signature).dedup := by
    rw [List.perm_ext_iff_of_nodup (nodup_signatures _) (List.nodup_dedup _)]
    intro s
    rw [List.mem_dedup, ← contains_iff_mem, contains_ofCandidates_iff]
  rw [size, ← hperm.length_eq, List.length_map]

/-- A candidate whose signature no other candidate has is found under it. -/
theorem get?_ofCandidates_of_mem (context : BinaryName) {ms : List Method}
    (h : (ms.map Method.signature).Nodup) {m : Method} (hm : m ∈ ms) :
    (ofCandidates context ms).get? m.signature = some m := by
  have hsome := (contains_ofCandidates_iff context ms m.signature).mpr (List.mem_map_of_mem hm)
  rcases Option.isSome_iff_exists.mp hsome with ⟨n, hn⟩
  rw [get?_ofCandidates] at hn ⊢
  rcases mem_of_preferred hn with ⟨hmem, hsignature⟩
  rw [hn, List.inj_on_of_nodup_map h hmem hm hsignature]

theorem find?_append_of_subset {ms ns : List Method} (h : ∀ n ∈ ns, n ∈ ms)
    (p : Method → Bool) : (ms ++ ns).find? p = ms.find? p := by
  rw [List.find?_append]
  cases hms : ms.find? p with
  | some m => rfl
  | none =>
      rw [Option.none_or, List.find?_eq_none]
      exact fun n hn => List.find?_eq_none.mp hms n (h n hn)

/-- A candidate that is offered again is not preferred to what it was offered with
    the first time. -/
theorem preferred_append_of_subset {ms ns : List Method} (h : ∀ n ∈ ns, n ∈ ms)
    (s : ErasedSignature) : preferred s (ms ++ ns) = preferred s ms := by
  rw [preferred, preferred, find?_append_of_subset h, find?_append_of_subset h]

end MethodTable

end SyntheticAccess
