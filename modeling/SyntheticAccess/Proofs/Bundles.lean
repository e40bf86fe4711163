import SyntheticAccess.Proofs.Descriptions

/-!
# Described Bundles

A bundle is a list of requests, and the class that it leads to is a function of
surprisingly little: of the host, the name, the version, and the list of the
requests with repetitions left out. How often a request is repeated, and where
the repetitions stand, leaves no trace.

The way there is short because of what is known of drafts. Within a draft a
request is new or it is not, so requiring a list of them adds those that are
new, in their order. And an accessor of a coherent draft is the one that its
request is given where it stands, so coherent drafts of one host and name that
have the same requests have the same accessors.

Read the other way, a class tells which requests it was made for, because
accessors carry them. Two bundles of one host therefore lead to the same class
exactly when they agree in name, version and list of different requests, which
is how a store can tell equal classes from merely similar ones.

## Main definitions

* `AccessorClass.requests`: The requests that a class was made for.

## Theorems

* `requests_requireAll`: Requiring a list adds what is new in it.
* `accessors_eq_of_requests_eq`: Requests determine accessors.
* `describe_bundle_eq_ok_iff`: When a bundle leads to a class, and to which.
* `parts_of_describe_bundle`: The class of a bundle, part by part.
* `eq_iff_of_describe_bundle`: Which bundles lead to the same class.
-/

namespace SyntheticAccess

/-- The requests that the accessors of a class answer, in their order. -/
def AccessorClass.requests (c : AccessorClass) : List Request :=
  c.accessors.map (·.request)

/-- A list without repetitions is left alone, and so is its place in front of
    another list. -/
theorem eraseDups_append_of_nodup {α : Type} [BEq α] [LawfulBEq α] {xs : List α}
    (h : xs.Nodup) (ys : List α) :
    (xs ++ ys).eraseDups = xs ++ (ys.removeAll xs).eraseDups := by
  have hxs : xs.eraseDups = xs := by
    induction xs with
    | nil => rfl
    | cons x xs ih =>
        obtain ⟨hx, hxs⟩ := List.nodup_cons.mp h
        -- No later member is like the first, so leaving out those like it leaves out none.
        have hfilter : xs.filter (fun y => !y == x) = xs := by
          rw [List.filter_eq_self]
          intro y hy
          have hne : y ≠ x := fun heq => hx (heq ▸ hy)
          simp [hne]
        rw [List.eraseDups_cons, hfilter, ih hxs]
  rw [List.eraseDups_append, hxs]

namespace Draft

theorem Coherent.find?_eq_none_iff_not_mem {d : Draft} (h : d.Coherent) (r : Request) :
    d.find? r = none ↔ r ∉ d.product.requests := by
  rw [h.find?_eq_none_iff, AccessorClass.requests]
  simp

/-- A request that is answered is among the requests from then on, where it
    was before or else at the end. -/
theorem Coherent.requests_require {d : Draft} (h : d.Coherent) {r : Request} {m : Method}
    (hok : (d.require r).answer = .ok m) :
    (d.require r).state.product.requests =
      if r ∈ d.product.requests then d.product.requests else d.product.requests ++ [r] := by
  cases hfind : d.find? r with
  | some a =>
      rcases (h.find?_eq_some_iff r a).mp hfind with ⟨ha, hreq⟩
      have hmem : r ∈ d.product.requests := List.mem_map.mpr ⟨a, ha, hreq⟩
      rw [if_pos hmem, require_of_find? hfind]
  | none =>
      rw [if_neg ((h.find?_eq_none_iff_not_mem r).mp hfind)]
      cases hto : r.forwardTo d.table with
      | none =>
          rw [(require_of_forwardTo_none hfind hto).1] at hok
          cases hok
      | some n =>
          rw [(require_of_forwardTo_some hfind hto).2]
          exact List.map_append

/-- Requests add accessors and change nothing else of the class. -/
theorem product_require (d : Draft) (r : Request) :
    ∃ as, (d.require r).state.product =
      { d.product with accessors := d.product.accessors ++ as } := by
  rcases d.state_call_cases (.require r) with hsame | ⟨q, m, -, -, -, hpush⟩ | ⟨f, hcall, -⟩
  · rw [state_call_require] at hsame
    exact ⟨[], by rw [hsame, List.append_nil]⟩
  · rw [state_call_require] at hpush
    exact ⟨[d.nextAccessor q m], by rw [hpush]; rfl⟩
  · cases hcall

/-- So does a list of them, whether or not it is answered. -/
theorem product_requireAll (d : Draft) (rs : List Request) :
    ∃ as, (d.requireAll rs).state.product =
      { d.product with accessors := d.product.accessors ++ as } := by
  induction rs generalizing d with
  | nil => exact ⟨[], by rw [List.append_nil]; rfl⟩
  | cons r rs ih =>
      rcases d.product_require r with ⟨as, has⟩
      rw [requireAll]
      cases hanswer : (d.require r).answer with
      | error e =>
          rw [Outcome.state_andThen_of_error hanswer]
          exact ⟨as, has⟩
      | ok m =>
          rw [Outcome.state_andThen_of_ok hanswer]
          rcases ih (d.require r).state with ⟨bs, hbs⟩
          exact ⟨as ++ bs, by rw [hbs, has, List.append_assoc]⟩

/-- A list of requests is a run of calls, and keeps a draft coherent. -/
theorem Coherent.requireAll {d : Draft} (h : d.Coherent) (rs : List Request) :
    (d.requireAll rs).state.Coherent := by
  rcases d.exists_after_requireAll rs with ⟨made, -, hstate⟩
  rw [hstate]
  exact h.after _

theorem frame_requireAll (d : Draft) (rs : List Request) :
    (d.requireAll rs).state.table = d.table ∧ (d.requireAll rs).state.settings = d.settings := by
  rcases d.exists_after_requireAll rs with ⟨made, -, hstate⟩
  rcases d.frame_after (made.map .require) with ⟨htable, hsettings, -⟩
  rw [hstate]
  exact ⟨htable, hsettings⟩

theorem Coherent.nodup_requests {d : Draft} (h : d.Coherent) : d.product.requests.Nodup :=
  h.nodup

/-- A list of requests that is answered adds those that are new, each once and
    in the order in which they come first. -/
theorem Coherent.requests_requireAll {d : Draft} (h : d.Coherent) {rs : List Request}
    (hok : (d.requireAll rs).answer = .ok ()) :
    (d.requireAll rs).state.product.requests = (d.product.requests ++ rs).eraseDups := by
  induction rs generalizing d with
  | nil =>
      rw [eraseDups_append_of_nodup h.nodup_requests]
      exact (List.append_nil _).symm
  | cons r rs ih =>
      rw [Draft.requireAll] at hok ⊢
      cases hanswer : (d.require r).answer with
      | error e =>
          rw [Outcome.andThen, hanswer] at hok
          cases hok
      | ok m =>
          rw [Outcome.andThen, hanswer] at hok
          have hstate : (d.require r).state.Coherent := h.call (.require r)
          rw [Outcome.state_andThen_of_ok hanswer, ih hstate hok, h.requests_require hanswer]
          by_cases hmem : r ∈ d.product.requests
          · -- A request from before is left out of the rest, so it may as well stand there.
            rw [if_pos hmem, eraseDups_append_of_nodup h.nodup_requests,
              eraseDups_append_of_nodup h.nodup_requests]
            simp [List.removeAll, hmem]
          · -- A new request goes to the end, which is where it stands in the list.
            rw [if_neg hmem, List.append_assoc, List.singleton_append]

/-- Accessors for one request forward to one method, whichever draft they are in,
    as long as the drafts have the same table. -/
theorem Coherent.resolved_eq_of_request_eq {d e : Draft} (hd : d.Coherent) (he : e.Coherent)
    (htable : d.table = e.table) {a b : Accessor} (ha : a ∈ d.product.accessors)
    (hb : b ∈ e.product.accessors) (hreq : a.request = b.request) : a.resolved = b.resolved := by
  have hto := hd.forwardTo_eq a ha
  rw [hreq, htable, he.forwardTo_eq b hb] at hto
  exact (Option.some.inj hto).symm

/-- Where a request stands and what it forwards to decides how its accessor
    looks, so nothing is left to differ. -/
theorem Coherent.accessors_eq_of_requests_eq {d e : Draft} (hd : d.Coherent) (he : e.Coherent)
    (htable : d.table = e.table) (hsettings : d.settings = e.settings)
    (hname : d.product.name = e.product.name)
    (h : d.product.requests = e.product.requests) :
    d.product.accessors = e.product.accessors := by
  refine List.ext_getElem? fun i => ?_
  -- At every position the two drafts have accessors for one request, or neither has one.
  have hi : d.product.accessors[i]?.map (·.request) = e.product.accessors[i]?.map (·.request) := by
    rw [← List.getElem?_map, ← List.getElem?_map]
    exact congrArg (·[i]?) h
  cases ha : d.product.accessors[i]? with
  | none =>
      rw [ha, Option.map_none, eq_comm, Option.map_eq_none_iff] at hi
      exact hi.symm
  | some a =>
      rw [ha, Option.map_some, eq_comm, Option.map_eq_some_iff] at hi
      rcases hi with ⟨b, hb, hreq⟩
      have hresolved : b.resolved = a.resolved :=
        he.resolved_eq_of_request_eq hd htable.symm (List.mem_of_getElem? hb)
          (List.mem_of_getElem? ha) hreq
      have hat : d.accessorAt a.request a.resolved i = e.accessorAt b.request b.resolved i := by
        rw [hreq, hresolved]
        simp only [accessorAt, accessorMethod, hname, hsettings]
      rw [hb, hd.eq_accessorAt i a ha, he.eq_accessorAt i b hb, hat]

end Draft

namespace Host

/-- A bundle leads to a class when the name is accepted and every request is
    answered, and the class is what the requests made of an empty one. -/
theorem describe_bundle_eq_ok_iff (h : Host) (rs : List Request) (raw : String)
    (version : ClassVersion) (c : AccessorClass) :
    (h.describe (.bundle rs) raw version).answer = .ok c ↔
      ∃ name, h.checkName raw = .ok name ∧
        ((Draft.start h.table h.settings name version).requireAll rs).answer = .ok () ∧
        ((Draft.start h.table h.settings name version).requireAll rs).state.product = c := by
  rw [describe]
  cases h.checkName raw with
  | error e => simp
  | ok name =>
      simp only [Description.run, Except.ok.injEq, exists_eq_left']
      cases ((Draft.start h.table h.settings name version).requireAll rs).answer with
      | error e => simp [Except.map]
      | ok u => simp [Except.map]

/-- The class of a bundle, part by part: it has the accepted name, the version
    asked for, the flags of the settings, no fields, and one accessor for each
    different request. -/
theorem parts_of_describe_bundle {h : Host} {rs : List Request} {raw : String}
    {version : ClassVersion} {c : AccessorClass}
    (hok : (h.describe (.bundle rs) raw version).answer = .ok c) :
    h.checkName raw = .ok c.name ∧ c.version = version ∧ c.flags = h.settings.typeFlags ∧
      c.fields = [] ∧ c.requests = rs.eraseDups := by
  rcases (h.describe_bundle_eq_ok_iff rs raw version c).mp hok with ⟨name, hname, hall, rfl⟩
  have hstart := Draft.coherent_start h.table h.settings name version
  -- The draft starts without requests, so all different ones are new.
  have hrequests := hstart.requests_requireAll hall
  rcases (Draft.start h.table h.settings name version).product_requireAll rs with ⟨as, has⟩
  rw [has] at hrequests ⊢
  exact ⟨hname, rfl, rfl, rfl, hrequests⟩

/-- Two bundles lead to the same class exactly when they agree in name, version
    and list of different requests. -/
theorem eq_iff_of_describe_bundle {h : Host} {rs qs : List Request} {raw raw' : String}
    {v w : ClassVersion} {c d : AccessorClass}
    (hc : (h.describe (.bundle rs) raw v).answer = .ok c)
    (hd : (h.describe (.bundle qs) raw' w).answer = .ok d) :
    c = d ↔ c.name = d.name ∧ v = w ∧ rs.eraseDups = qs.eraseDups := by
  rcases parts_of_describe_bundle hc with ⟨-, hcv, hcflags, hcfields, hcreqs⟩
  rcases parts_of_describe_bundle hd with ⟨-, hdv, hdflags, hdfields, hdreqs⟩
  constructor
  · rintro rfl
    exact ⟨rfl, hcv.symm.trans hdv, hcreqs.symm.trans hdreqs⟩
  · rintro ⟨hname, hversion, hreqs⟩
    -- The accessors are those of two drafts of one host and name with the same requests.
    have haccessors : c.accessors = d.accessors := by
      rcases exists_coherent_of_describe hc with ⟨m, hm, hmtable, hmsettings, rfl⟩
      rcases exists_coherent_of_describe hd with ⟨n, hn, hntable, hnsettings, rfl⟩
      exact hm.accessors_eq_of_requests_eq hn (hmtable.trans hntable.symm)
        (hmsettings.trans hnsettings.symm) hname (hcreqs.trans (hreqs.trans hdreqs.symm))
    cases c
    cases d
    simp only at hname hcv hcflags hcfields hdv hdflags hdfields haccessors
    rw [hname, hcv, hdv, hversion, hcflags, hdflags, hcfields, hdfields, haccessors]

end Host

end SyntheticAccess
