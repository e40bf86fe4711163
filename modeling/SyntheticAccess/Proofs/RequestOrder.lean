import Mathlib.Data.List.NodupEquivFin
import SyntheticAccess.Proofs.ClosedForm
import SyntheticAccess.Proofs.Refusals

/-!
# The Order of Requests

Bundles whose requests are the same up to order lead to classes that are the
same up to order. The one place where the order gets into an accessor is the
number at the end of its name, which is the position that the accessor has got.

For two bundles this is a statement about two loops that do different things at
every step. What is new to one of them the other may have met long ago, and
when a request is refused the two stop at different requests. It is not proved
along the loops. Whether a bundle has a request that is refused does not depend
on the order. If it has none, both classes have an accessor for each of the same
requests, and what an accessor looks like, its name apart, follows from its
request (`Coherent.sameButName`). Requests occur once in a class, so they pair
the accessors of one class with those of the other.

The name of the class comes before all that. If it is refused then no request
is looked at, and both bundles fail with what is wrong with the name.

## Main definitions

* `Accessor.SameButName`: Accessors that differ in their names at most.

## Theorems

* `exists_equiv_of_mem_map_iff`: Lists paired by keys that occur once.
* `Coherent.sameButName`: Accessors for one request, in two drafts.
* `exists_equiv_accessors_of_describe_bundle`: The accessors of two classes.
* `request_order_affects_names_only`: Bundles in different order.
-/

namespace SyntheticAccess

/-- Two accessors that agree in everything but the names of their methods. -/
structure Accessor.SameButName (a b : Accessor) : Prop where
  request_eq : a.request = b.request
  resolved_eq : a.resolved = b.resolved
  code_eq : a.code = b.code
  owner_eq : a.method.owner = b.method.owner
  params_eq : a.method.params = b.method.params
  result_eq : a.method.result = b.method.result
  flags_eq : a.method.flags = b.method.flags

/-- Lists with the same keys, each of which occurs once in either of them, have
    their elements in one-to-one correspondence. -/
theorem exists_equiv_of_mem_map_iff {α κ : Type} [DecidableEq κ] (key : α → κ) {xs ys : List α}
    (hxs : (xs.map key).Nodup) (hys : (ys.map key).Nodup)
    (h : ∀ k, k ∈ xs.map key ↔ k ∈ ys.map key) :
    ∃ σ : Fin xs.length ≃ Fin ys.length, ∀ i, key xs[i] = key ys[σ i] := by
  -- Where nothing is repeated, a position is as good as the key at it.
  have hkeys : ∃ σ : Fin (xs.map key).length ≃ Fin (ys.map key).length,
      ∀ i, (xs.map key)[i] = (ys.map key)[σ i] := by
    refine ⟨(hxs.getEquiv _).trans ((Equiv.subtypeEquivRight h).trans (hys.getEquiv _).symm),
      fun i => ?_⟩
    exact (List.idxOf_get _).symm
  rcases hkeys with ⟨σ, hσ⟩
  refine ⟨(finCongr (List.length_map key).symm).trans (σ.trans (finCongr (List.length_map key))),
    fun i => ?_⟩
  have hi := hσ (i.cast (List.length_map key).symm)
  simpa using hi

/-- In coherent drafts of one host and name, accessors for one request differ in
    their names at most. -/
theorem Draft.Coherent.sameButName {d e : Draft} (hd : d.Coherent) (he : e.Coherent)
    (htable : d.table = e.table) (hsettings : d.settings = e.settings)
    (hname : d.product.name = e.product.name) {a b : Accessor} (ha : a ∈ d.product.accessors)
    (hb : b ∈ e.product.accessors) (hreq : a.request = b.request) : a.SameButName b := by
  have hresolved := hd.resolved_eq_of_request_eq he htable ha hb hreq
  rcases List.getElem?_of_mem ha with ⟨i, hi⟩
  rcases List.getElem?_of_mem hb with ⟨j, hj⟩
  rw [hd.eq_accessorAt i a hi, he.eq_accessorAt j b hj, hreq, hresolved]
  -- Owner and flags come from the draft, and everything else from the request and what it forwards
  -- to.
  constructor
  case owner_eq => exact hname
  case flags_eq => exact congrArg Settings.staticAccessorFlags hsettings
  all_goals rfl

/-- Coherent drafts of one host and name with accessors for the same requests
    have their accessors in one-to-one correspondence. -/
theorem Draft.Coherent.exists_equiv_accessors {d e : Draft} (hd : d.Coherent) (he : e.Coherent)
    (htable : d.table = e.table) (hsettings : d.settings = e.settings)
    (hname : d.product.name = e.product.name)
    (hmem : ∀ r, r ∈ d.product.requests ↔ r ∈ e.product.requests) :
    ∃ σ : Fin d.product.accessors.length ≃ Fin e.product.accessors.length,
      ∀ i : Fin d.product.accessors.length,
        d.product.accessors[i].SameButName e.product.accessors[σ i] := by
  rcases exists_equiv_of_mem_map_iff Accessor.request hd.nodup he.nodup hmem with ⟨σ, hσ⟩
  exact ⟨σ, fun i => hd.sameButName he htable hsettings hname (List.getElem_mem _)
    (List.getElem_mem _) (hσ i)⟩

namespace Host

/-- The name of an accessor of a bundle's class ends in its position. -/
theorem name_of_describe_bundle {h : Host} {rs : List Request} {raw : String}
    {version : ClassVersion} {c : AccessorClass}
    (hok : (h.describe (.bundle rs) raw version).answer = .ok c)
    (i : Fin c.accessors.length) :
    c.accessors[i].method.name =
      Draft.accessorName c.accessors[i].request.target.name h.settings.tag i := by
  have hat := (accessor_of_describe_bundle hok (List.getElem?_eq_getElem i.isLt)).2
  exact congrArg (fun a => a.method.name) hat

/-- Under an accepted name, bundles of the same requests both lead to classes or
    both have a request that is refused. -/
theorem answers_of_mem_iff (h : Host) {rs qs : List Request} (hmem : ∀ r, r ∈ rs ↔ r ∈ qs)
    {raw : String} {name : BinaryName} (version : ClassVersion)
    (hname : h.checkName raw = .ok name) :
    ((∃ c, (h.describe (.bundle rs) raw version).answer = .ok c) ∧
        ∃ d, (h.describe (.bundle qs) raw version).answer = .ok d) ∨
      (∃ m, (h.describe (.bundle rs) raw version).answer =
          .error (.unreachable m h.table.context)) ∧
        ∃ m, (h.describe (.bundle qs) raw version).answer =
          .error (.unreachable m h.table.context) := by
  -- Whether every request can have an accessor does not depend on their order.
  have hsame : Request.firstUnforwardable h.table rs = none ↔
      Request.firstUnforwardable h.table qs = none := by
    rw [Request.firstUnforwardable_eq_none_iff, Request.firstUnforwardable_eq_none_iff]
    exact forall_congr' fun r => imp_congr_left (hmem r)
  rw [h.answer_describe_bundle rs version hname, h.answer_describe_bundle qs version hname]
  cases hrs : Request.firstUnforwardable h.table rs with
  | none =>
      rw [hsame.mp hrs]
      exact Or.inl ⟨⟨_, rfl⟩, _, rfl⟩
  | some r =>
      cases hqs : Request.firstUnforwardable h.table qs with
      | none =>
          rw [hsame.mpr hqs] at hrs
          cases hrs
      | some q => exact Or.inr ⟨⟨r.target, rfl⟩, q.target, rfl⟩

/-- Classes that bundles of the same requests lead to, under one name, agree in
    all but their accessors, and these are in one-to-one correspondence. -/
theorem exists_equiv_accessors_of_describe_bundle {h : Host} {rs qs : List Request}
    (hmem : ∀ r, r ∈ rs ↔ r ∈ qs) {raw : String} {version : ClassVersion} {c d : AccessorClass}
    (hc : (h.describe (.bundle rs) raw version).answer = .ok c)
    (hd : (h.describe (.bundle qs) raw version).answer = .ok d) :
    (c.name = d.name ∧ c.version = d.version ∧ c.flags = d.flags ∧ c.fields = d.fields) ∧
      ∃ σ : Fin c.accessors.length ≃ Fin d.accessors.length,
        ∀ i : Fin c.accessors.length, c.accessors[i].SameButName d.accessors[σ i] := by
  rcases parts_of_describe_bundle hc with ⟨hcname, hcversion, hcflags, hcfields, hcrequests⟩
  rcases parts_of_describe_bundle hd with ⟨hdname, hdversion, hdflags, hdfields, hdrequests⟩
  have hname : c.name = d.name := by
    rw [hcname, Except.ok.injEq] at hdname
    exact hdname
  refine ⟨⟨hname, hcversion.trans hdversion.symm, hcflags.trans hdflags.symm,
    hcfields.trans hdfields.symm⟩, ?_⟩
  -- Both classes have an accessor for each request, and repetitions do not count.
  have hrequests : ∀ r, r ∈ c.requests ↔ r ∈ d.requests := by
    intro r
    rw [hcrequests, hdrequests, List.mem_eraseDups, List.mem_eraseDups]
    exact hmem r
  rcases exists_coherent_of_describe hc with ⟨m, hm, hmtable, hmsettings, rfl⟩
  rcases exists_coherent_of_describe hd with ⟨n, hn, hntable, hnsettings, rfl⟩
  exact hm.exists_equiv_accessors hn (hmtable.trans hntable.symm)
    (hmsettings.trans hnsettings.symm) hname hrequests

/-- Two bundles with the same requests in different order, described under one
    name and version. If the name is accepted, either both lead to a class or
    both fail because of a method that cannot be reached; if it is refused, they
    fail alike, with what is wrong with the name. When they lead to classes,
    these agree in name, version, flags and fields, and their accessors are in
    one-to-one correspondence: accessors that correspond answer the same
    request, forward to the same method with the same code, and have the same
    owner, parameters, result and flags. Their names are made of the target, the
    tag and the position that the accessor has in its class, so that the numbers
    at the end are all that is left to differ. -/
theorem request_order_affects_names_only (h : Host) {rs qs : List Request} (hperm : rs.Perm qs)
    (raw : String) (version : ClassVersion) :
    let first := (h.describe (.bundle rs) raw version).answer
    let second := (h.describe (.bundle qs) raw version).answer
    (∀ name, h.checkName raw = .ok name →
      ((∃ c, first = .ok c) ∧ ∃ d, second = .ok d) ∨
        (∃ m, first = .error (.unreachable m h.table.context)) ∧
          ∃ m, second = .error (.unreachable m h.table.context)) ∧
    (∀ e, h.checkName raw = .error e →
      (∃ problem, e = .badName raw problem) ∧ first = .error e ∧ second = .error e) ∧
    ∀ c d, first = .ok c → second = .ok d →
      (c.name = d.name ∧ c.version = d.version ∧ c.flags = d.flags ∧ c.fields = d.fields) ∧
      ∃ σ : Fin c.accessors.length ≃ Fin d.accessors.length,
        ∀ i : Fin c.accessors.length,
          let a := c.accessors[i]
          let b := d.accessors[σ i]
          a.SameButName b ∧
            a.method.name = Draft.accessorName a.request.target.name h.settings.tag i ∧
            b.method.name = Draft.accessorName a.request.target.name h.settings.tag (σ i) := by
  intro first second
  have hmem : ∀ r, r ∈ rs ↔ r ∈ qs := fun _ => hperm.mem_iff
  refine ⟨fun name hname => h.answers_of_mem_iff hmem version hname, fun e he => ?_,
    fun c d hc hd => ?_⟩
  · -- The name is looked at before the requests.
    have hfirst := describe_of_checkName_error he (.bundle rs) version
    have hsecond := describe_of_checkName_error he (.bundle qs) version
    exact ⟨checkName_error he, congrArg Described.answer hfirst,
      congrArg Described.answer hsecond⟩
  · rcases exists_equiv_accessors_of_describe_bundle hmem hc hd with ⟨hparts, σ, hσ⟩
    refine ⟨hparts, σ, fun i => ⟨hσ i, name_of_describe_bundle hc i, ?_⟩⟩
    rw [(hσ i).request_eq]
    exact name_of_describe_bundle hd (σ i)

/-- The same requests in reverse lead to the same accessors under other numbers. -/
theorem request_order_affects_names_only_heir :
    ∃ c d, (heir.describe (.bundle heirRequests) "p.Aux" .standard).answer = .ok c ∧
      (heir.describe (.bundle heirRequests.reverse) "p.Aux" .standard).answer = .ok d ∧
      c.accessors.map (·.method.name) = ["add$via$0", "add$via$1", "size$via$2"] ∧
      d.accessors.map (·.method.name) = ["add$via$0", "size$via$1", "add$via$2"] ∧
      ∃ σ : Fin c.accessors.length ≃ Fin d.accessors.length,
        ∀ i : Fin c.accessors.length, c.accessors[i].SameButName d.accessors[σ i] := by
  have hname : heir.checkName "p.Aux" = .ok ⟨"p.Aux"⟩ := by decide +kernel
  have hfirst : (heir.describe (.bundle heirRequests) "p.Aux" .standard).answer.toOption.map
      (·.accessors.map (·.method.name)) = some ["add$via$0", "add$via$1", "size$via$2"] := by
    decide +kernel
  have hsecond : (heir.describe (.bundle heirRequests.reverse) "p.Aux"
      .standard).answer.toOption.map (·.accessors.map (·.method.name)) =
        some ["add$via$0", "size$via$1", "add$via$2"] := by
    decide +kernel
  rcases request_order_affects_names_only heir (List.reverse_perm heirRequests).symm "p.Aux"
    .standard with ⟨hanswers, -, hclasses⟩
  rcases hanswers _ hname with ⟨⟨c, hc⟩, d, hd⟩ | ⟨⟨m, hm⟩, -⟩
  · rw [hc] at hfirst
    rw [hd] at hsecond
    rcases hclasses c d hc hd with ⟨-, σ, hσ⟩
    exact ⟨c, d, hc, hd, Option.some.inj hfirst, Option.some.inj hsecond, σ, fun i => (hσ i).1⟩
  · rw [hm] at hfirst
    cases hfirst

/-- A request that can have an accessor from any host. -/
def heirTrusted : Request :=
  ⟨⟨⟨"p.Sub"⟩, "add", [.prim .int], .prim .long, ∅⟩, .identity⟩

/-- A class name that is refused for its package is a third way: neither do both
    bundles lead to classes, nor do both fail because of a method. -/
theorem neither_for_name_in_other_package :
    let first := (heir.describe (.bundle [heirMisfit, heirTrusted]) "q.Aux" .standard).answer
    let second := (heir.describe (.bundle [heirTrusted, heirMisfit]) "q.Aux" .standard).answer
    [heirMisfit, heirTrusted].Perm [heirTrusted, heirMisfit] ∧
    first = .error (.badName "q.Aux" (.otherPackage "p" "q")) ∧
    second = .error (.badName "q.Aux" (.otherPackage "p" "q")) ∧
    ¬ (((∃ c, first = .ok c) ∧ ∃ d, second = .ok d) ∨
      (∃ m context, first = .error (.unreachable m context)) ∧
        ∃ m context, second = .error (.unreachable m context)) := by
  intro first second
  have hname : heir.checkName "q.Aux" = .error (.badName "q.Aux" (.otherPackage "p" "q")) := by
    decide +kernel
  have hfirst : first = .error (.badName "q.Aux" (.otherPackage "p" "q")) :=
    congrArg Described.answer (describe_of_checkName_error hname _ _)
  have hsecond : second = .error (.badName "q.Aux" (.otherPackage "p" "q")) :=
    congrArg Described.answer (describe_of_checkName_error hname _ _)
  refine ⟨List.Perm.swap _ _ _, hfirst, hsecond, ?_⟩
  rintro (⟨⟨c, hc⟩, -⟩ | ⟨⟨m, context, hm⟩, -⟩)
  · rw [hfirst] at hc
    cases hc
  · rw [hfirst] at hm
    cases hm

end Host

end SyntheticAccess
