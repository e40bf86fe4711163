import Mathlib.Data.List.Find
import SyntheticAccess.Request
import SyntheticAccess.Proofs.Candidates
import SyntheticAccess.Proofs.Descriptors

/-!
# Resolution as a Search

A request by signature is answered from a table, by comparing texts. What it is
meant to do is simpler: look through the candidates for methods with the name
and the erased parameters of the target, and take the first that is not a
bridge, or the first if all of them are bridges. For a table of well-named
candidates the two are the same.

Half of the way is known from the filling of tables, where a place is found to
hold the preferred candidate of its signature (`get?_ofCandidates`). The other
half is that comparing signatures compares names and erased parameters, so no
candidate is met in the search because its name happens to look like another
one with parameters.

The search looks at three things in a candidate, which make up its `Profile`,
and where it ends can be computed from profiles alone. Candidates may therefore
be exchanged for others of the same profiles without the answer moving to
another place. That is how it is said that owner, result and all flags but one
take no part, without saying it once for each of them.

## Main definitions

* `Method.resembles`: Having the name and the erased parameters of a target.
* `Method.firstAmong`: The method that the search ends with.
* `Profile`: What the search looks at.
* `Profile.place`: Where the search ends.

## Theorems

* `signature_beq_eq_resembles`: Comparing signatures compares what is meant.
* `map_idxOf_firstAmong`: Where the search ends is a matter of profiles.
* `resolve_signature_ofCandidates`: Resolution is the search.
* `signature_of_mem_ofCandidates`: Entries are under their own signatures.
* `signature_leads_to_first_match`: All of it for a list of candidates.
-/

namespace SyntheticAccess

/-- A method that is found stands first where the search has ended. -/
theorem map_idxOf_find? {α : Type} [BEq α] [LawfulBEq α] (xs : List α) (p : α → Bool) :
    (xs.find? p).map (xs.idxOf ·) = xs.findIdx? p := by
  induction xs with
  | nil => rfl
  | cons x xs ih =>
      rw [List.findIdx?_cons, ← ih]
      by_cases hx : p x = true
      · rw [if_pos hx, List.find?_cons_of_pos hx, Option.map_some, List.idxOf_cons_self]
      · -- The search goes on behind the first member, and so does the counting of positions.
        rw [if_neg hx, List.find?_cons_of_neg hx, Option.map_map]
        refine Option.map_congr fun y hy => ?_
        -- What is found passes the test, so it is not what stands in front.
        have hne : x ≠ y := by
          rintro rfl
          exact hx (List.find?_some hy)
        rw [List.idxOf_cons, beq_false_of_ne hne]
        rfl

/-- What the search looks at in a candidate. -/
structure Profile where
  name : String
  /-- The parameters, erased. -/
  params : List SigType
  bridge : Bool
  deriving DecidableEq

namespace Method

/-- Whether a method has the name of a target and takes the same parameters,
    up to erasure. -/
def resembles (m target : Method) : Bool :=
  m.name == target.name && m.params.map SigType.erasure == target.params.map SigType.erasure

/-- The first method that resembles a target and is not a bridge, or else the
    first that resembles it. -/
def firstAmong (target : Method) (ms : List Method) : Option Method :=
  (ms.find? fun m => m.resembles target && !m.isBridge).or (ms.find? (·.resembles target))

/-- The profile of a method. -/
def profile (m : Method) : Profile :=
  ⟨m.name, m.params.map SigType.erasure, m.isBridge⟩

theorem resembles_iff (m target : Method) :
    m.resembles target = true ↔
      m.name = target.name ∧
        m.params.map SigType.erasure = target.params.map SigType.erasure := by
  rw [resembles, Bool.and_eq_true, beq_iff_eq, beq_iff_eq]

/-- Comparing signatures compares names and erased parameters, if the names in both
    methods are well formed. -/
theorem signature_beq_eq_resembles {m target : Method} (hm : m.WellNamed)
    (htarget : target.WellNamed) :
    (m.signature == target.signature) = m.resembles target := by
  rw [Bool.eq_iff_iff, beq_iff_eq, signature_eq_iff hm htarget, resembles_iff]

end Method

namespace Profile

/-- Whether methods with the profile resemble a target. -/
def suits (p : Profile) (target : Method) : Bool :=
  p.name == target.name && p.params == target.params.map SigType.erasure

/-- Where the search for a target ends among candidates with the profiles. -/
def place (target : Method) (ps : List Profile) : Option Nat :=
  (ps.findIdx? fun p => p.suits target && !p.bridge).or (ps.findIdx? (·.suits target))

/-- Of the target only the name and the erased parameters matter. -/
theorem place_eq_of_resembles {target target' : Method}
    (h : target'.resembles target = true) (ps : List Profile) :
    place target' ps = place target ps := by
  rcases (Method.resembles_iff target' target).mp h with ⟨hname, hparams⟩
  have hsuits : ∀ p : Profile, p.suits target' = p.suits target := by
    intro p
    rw [suits, suits, hname, hparams]
  simp only [place, hsuits]

end Profile

/-- What the search ends with stands where the profiles tell. -/
theorem Method.map_idxOf_firstAmong (target : Method) (ms : List Method) :
    (target.firstAmong ms).map (ms.idxOf ·) = Profile.place target (ms.map profile) := by
  -- Both tests of the search can be put to the profile as well as to the method.
  have htest : (fun m => m.resembles target) = (·.suits target) ∘ profile := rfl
  have hplain : (fun m => m.resembles target && !m.isBridge) =
      (fun p => p.suits target && !p.bridge) ∘ profile := rfl
  rw [firstAmong, Option.map_or, map_idxOf_find?, map_idxOf_find?, htest, hplain,
    ← List.findIdx?_map, ← List.findIdx?_map, Profile.place]

namespace MethodTable

/-- What a table prefers for the signature of a target is what the search among
    the candidates ends with. -/
theorem preferred_signature {ms : List Method} {target : Method}
    (hms : ∀ m ∈ ms, m.WellNamed) (htarget : target.WellNamed) :
    preferred target.signature ms = target.firstAmong ms := by
  -- The tests of both searches agree, but on well-named methods only, so the
  -- functions are not equal and the searches are compared member by member.
  have htest : ∀ m ∈ ms, (m.signature == target.signature) = m.resembles target := by
    intro m hm
    exact Method.signature_beq_eq_resembles (hms m hm) htarget
  have hplain : ∀ m ∈ ms, (m.signature == target.signature && !m.isBridge) =
      (m.resembles target && !m.isBridge) := by
    intro m hm
    rw [htest m hm]
  rw [preferred, Method.firstAmong, List.find?_congr htest, List.find?_congr hplain]

/-- Whatever a table filled from candidates has, it has under the signature of
    the method itself. -/
theorem signature_of_mem_ofCandidates {context : BinaryName} {ms : List Method}
    {e : ErasedSignature × Method} (h : e ∈ (ofCandidates context ms).entries) :
    e.2.signature = e.1 := by
  -- An entry is what a lookup finds, and a lookup finds the preferred candidate.
  have hget : (ofCandidates context ms).get? e.1 = some e.2 :=
    lookup_of_mem (ofCandidates context ms).ascending h
  rw [get?_ofCandidates] at hget
  exact (mem_of_preferred hget).2

end MethodTable

namespace Request

/-- To resolve a request by signature is to search the candidates. -/
theorem resolve_signature_ofCandidates (context : BinaryName) {ms : List Method}
    {target : Method} (hms : ∀ m ∈ ms, m.WellNamed) (htarget : target.WellNamed) :
    resolve ⟨target, .signature⟩ (.ofCandidates context ms) =
      match target.firstAmong ms with
      | none => .error (.unreachable target context)
      | some m => .ok m := by
  have hget : (MethodTable.ofCandidates context ms).get? target.signature =
      target.firstAmong ms := by
    rw [MethodTable.get?_ofCandidates, MethodTable.preferred_signature hms htarget]
  cases hfirst : target.firstAmong ms with
  | none =>
      rw [hfirst] at hget
      simp only [resolve, hget, MethodTable.context_ofCandidates]
  | some m =>
      rw [hfirst] at hget
      simp only [resolve, hget]

/-- As far as there is an answer, it is what the search ends with. -/
theorem toOption_resolve_signature_ofCandidates (context : BinaryName) {ms : List Method}
    {target : Method} (hms : ∀ m ∈ ms, m.WellNamed) (htarget : target.WellNamed) :
    (resolve ⟨target, .signature⟩ (.ofCandidates context ms)).toOption = target.firstAmong ms := by
  rw [resolve_signature_ofCandidates context hms htarget]
  cases target.firstAmong ms with
  | none => rfl
  | some m => rfl

/-- A request by signature leads to the first candidate that resembles its
    target and is not a bridge. If there is none it leads to the first that
    resembles the target, which is a bridge then, and if there is none of these
    either it fails. Which candidate that is does not depend on owners, results
    or flags other than the one of bridges: among other candidates with the same
    profiles, for another target that the first resembles, the answer stands at
    the same place. And whatever the table has stands under its own signature. -/
theorem signature_leads_to_first_match (context : BinaryName) {ms : List Method}
    {target : Method} (hms : ∀ m ∈ ms, m.WellNamed) (htarget : target.WellNamed) :
    let table := MethodTable.ofCandidates context ms
    (∀ m, ms.find? (fun m => m.resembles target && !m.isBridge) = some m →
      resolve ⟨target, .signature⟩ table = .ok m) ∧
    (ms.find? (fun m => m.resembles target && !m.isBridge) = none →
      ∀ m, ms.find? (·.resembles target) = some m →
        m.isBridge = true ∧ resolve ⟨target, .signature⟩ table = .ok m) ∧
    (ms.find? (·.resembles target) = none →
      resolve ⟨target, .signature⟩ table = .error (.unreachable target context)) ∧
    (∀ context' ns target', (∀ n ∈ ns, n.WellNamed) → target'.WellNamed →
      ns.map Method.profile = ms.map Method.profile → target'.resembles target = true →
        (resolve ⟨target', .signature⟩ (.ofCandidates context' ns)).toOption.map (ns.idxOf ·) =
          (resolve ⟨target, .signature⟩ table).toOption.map (ms.idxOf ·)) ∧
    ∀ e ∈ table.entries, e.1 = e.2.signature := by
  intro table
  have hresolve := resolve_signature_ofCandidates context hms htarget
  refine ⟨?_, ?_, ?_, ?_, ?_⟩
  · intro m hm
    rw [hresolve, Method.firstAmong, hm, Option.some_or]
  · intro hnone m hm
    -- A candidate that is no bridge would have been found in the first search.
    have hbridge : m.isBridge = true := by
      have hfail := List.find?_eq_none.mp hnone m (List.mem_of_find?_eq_some hm)
      have hresembles : m.resembles target = true := by simpa using List.find?_some hm
      simpa [hresembles] using hfail
    refine ⟨hbridge, ?_⟩
    rw [hresolve, Method.firstAmong, hnone, Option.none_or, hm]
  · intro hnone
    -- Nothing resembles the target, with or without the second condition.
    have hplain : ms.find? (fun m => m.resembles target && !m.isBridge) = none := by
      rw [List.find?_eq_none]
      intro m hm hboth
      exact List.find?_eq_none.mp hnone m hm (Bool.and_eq_true_iff.mp hboth).1
    rw [hresolve, Method.firstAmong, hplain, hnone, Option.none_or]
  · intro context' ns target' hns htarget' hprofile hresembles
    -- Both places are computed from profiles, which are the same.
    rw [toOption_resolve_signature_ofCandidates context' hns htarget',
      toOption_resolve_signature_ofCandidates context hms htarget]
    rw [Method.map_idxOf_firstAmong, Method.map_idxOf_firstAmong, hprofile,
      Profile.place_eq_of_resembles hresembles]
  · intro e he
    exact (MethodTable.signature_of_mem_ofCandidates he).symm

/-- A bridge, a method whose name looks like the others with parameters, two
    methods that the bridge may stand for, and one of other parameters. -/
def rivals : List Method :=
  [⟨⟨"p.Base"⟩, "put", [.classRef ⟨"p.Bag"⟩], .void, .accBridge⟩,
    ⟨⟨"p.Base"⟩, "put(Lp/Bag;)", [], .void, ∅⟩,
    ⟨⟨"p.Sub"⟩, "put", [.generic ⟨"p.Bag"⟩ [.prim .int]], .prim .int, .accStatic⟩,
    ⟨⟨"p.Top"⟩, "put", [.typeVar "B" ⟨"p.Bag"⟩], .void, ∅⟩,
    ⟨⟨"p.Top"⟩, "put", [.arrayOf (.classRef ⟨"p.Bag"⟩)], .void, ∅⟩]

/-- A target that the first, the third and the fourth of them resemble. -/
def rivalTarget : Method :=
  ⟨⟨"q.Any"⟩, "put", [.classRef ⟨"p.Bag"⟩], .prim .long, .accPrivate⟩

/-- The same methods in another class, with other results and flags. -/
def movedRivals : List Method :=
  rivals.map fun m =>
    { m with owner := ⟨"r.Moved"⟩, result := .prim .long, flags := m.flags ∪ .accFinal }

/-- Of the rivals the third is the answer, since the first is a bridge and the
    second only looks like one of them. Of the first two alone it is the bridge, of
    the last alone there is none, and in another class the answer stands at the same
    place. -/
theorem signature_leads_to_first_match_rivals :
    resolve ⟨rivalTarget, .signature⟩ (.ofCandidates ⟨"p.Sub"⟩ rivals) =
        .ok ⟨⟨"p.Sub"⟩, "put", [.generic ⟨"p.Bag"⟩ [.prim .int]], .prim .int, .accStatic⟩ ∧
      resolve ⟨rivalTarget, .signature⟩ (.ofCandidates ⟨"p.Sub"⟩ (rivals.take 2)) =
        .ok ⟨⟨"p.Base"⟩, "put", [.classRef ⟨"p.Bag"⟩], .void, .accBridge⟩ ∧
      resolve ⟨rivalTarget, .signature⟩ (.ofCandidates ⟨"p.Sub"⟩ (rivals.drop 4)) =
        .error (.unreachable rivalTarget ⟨"p.Sub"⟩) ∧
      (resolve ⟨rivalTarget, .signature⟩ (.ofCandidates ⟨"r.Moved"⟩ movedRivals)).toOption.map
        (movedRivals.idxOf ·) = some 2 := by
  have htarget : rivalTarget.WellNamed := by decide +kernel
  have hall : ∀ m ∈ rivals, m.WellNamed := by decide +kernel
  have htake : ∀ m ∈ rivals.take 2, m.WellNamed := fun m hm => hall m (List.mem_of_mem_take hm)
  have hdrop : ∀ m ∈ rivals.drop 4, m.WellNamed := fun m hm => hall m (List.mem_of_mem_drop hm)
  have hmoved : ∀ m ∈ movedRivals, m.WellNamed := by decide +kernel
  rcases signature_leads_to_first_match ⟨"p.Sub"⟩ hall htarget with ⟨hfirst, -, -, hplace, -⟩
  have hfound := hfirst _ rfl
  refine ⟨hfound, ?_, ?_, ?_⟩
  · exact ((signature_leads_to_first_match ⟨"p.Sub"⟩ htake htarget).2.1 rfl _ rfl).2
  · exact (signature_leads_to_first_match ⟨"p.Sub"⟩ hdrop htarget).2.2.1 rfl
  · rw [hplace ⟨"r.Moved"⟩ movedRivals rivalTarget hmoved htarget (by decide +kernel)
      (by decide +kernel), hfound]
    decide +kernel

end Request

end SyntheticAccess
