import SyntheticAccess.Proofs.ClosedForm

/-!
# Bundles Described Again

Describing a bundle a second time on one draft answers what it answered the
first time and leaves the draft alone. If the first time succeeded this is no
surprise, since by then every request has its accessor. But it may have failed
half-way, and anything may have been called for in between.

Two facts carry it. Whether a request can have an accessor is a matter of the
table, and drafts do not change their table, so both times the bundle gets as
far as the first request that cannot have one (`Coherent.answer_requireAll`).
The requests before that one are `served`. They have accessors after the first
time, keep them whatever is called for next, and are found in the index the
second time. The refused request is not remembered: it is refused anew, and
leaves nothing behind.

So a draft is left alone by a bundle exactly when it knows the requests that
are served, and that is how the first time leaves it.

## Main definitions

* `Request.served`: The requests before the first that cannot have an accessor.

## Theorems

* `mem_requests_requireAll`: What is served has an accessor afterwards.
* `state_requireAll_eq_self_iff`: When a bundle leaves the draft alone.
* `bundle_again_changes_nothing`: Describing a bundle again.
-/

namespace SyntheticAccess

namespace Request

/-- The requests of a list that come before the first that cannot have an
    accessor. -/
def served (table : MethodTable) (rs : List Request) : List Request :=
  rs.takeWhile fun r => decide (r.Forwardable table)

theorem served_cons_of_forwardable {r : Request} {table : MethodTable}
    (h : r.Forwardable table) (rs : List Request) :
    served table (r :: rs) = r :: served table rs :=
  List.takeWhile_cons_of_pos (decide_eq_true h)

theorem served_cons_of_not {r : Request} {table : MethodTable} (h : ¬ r.Forwardable table)
    (rs : List Request) : served table (r :: rs) = [] :=
  List.takeWhile_cons_of_neg (by simpa using h)

end Request

namespace Draft

/-- A draft knows no fewer requests after a run. -/
theorem requests_subset_after (d : Draft) (cs : List Call) :
    d.product.requests ⊆ (d.after cs).product.requests := by
  have hprefix := (d.accessors_prefix_after cs).map Accessor.request
  exact hprefix.subset

theorem requests_subset_requireAll (d : Draft) (rs : List Request) :
    d.product.requests ⊆ (d.requireAll rs).state.product.requests := by
  rcases d.exists_after_requireAll rs with ⟨made, -, hstate⟩
  rw [hstate]
  exact d.requests_subset_after (made.map .require)

/-- A list of requests gives accessors to all that are served, whether or not
    it is answered in the end. -/
theorem Coherent.mem_requests_requireAll {d : Draft} (h : d.Coherent) {rs : List Request}
    {r : Request} (hr : r ∈ Request.served d.table rs) :
    r ∈ (d.requireAll rs).state.product.requests := by
  -- The induction is on the list, for any coherent draft, since each request may change it.
  induction rs generalizing d with
  | nil => cases hr
  | cons q rs ih =>
      by_cases hq : q.Forwardable d.table
      · rcases h.exists_answer_require_of_forwardable hq with ⟨m, hm⟩
        have hstate : (d.require q).state.Coherent := h.call (.require q)
        have htable : (d.require q).state.table = d.table := (d.frame_call (.require q)).1
        rw [Request.served_cons_of_forwardable hq] at hr
        rw [Draft.requireAll, Outcome.state_andThen_of_ok hm]
        rcases List.mem_cons.mp hr with rfl | hr
        · -- It has its accessor at once and keeps it through the rest.
          refine requests_subset_requireAll _ rs ?_
          rw [h.requests_require hm]
          split
          · assumption
          · exact List.mem_append_right _ (List.mem_singleton_self _)
        · exact ih hstate (htable ▸ hr)
      · rw [Request.served_cons_of_not hq] at hr
        cases hr

/-- A draft that knows all that is served is left alone: what is served is found,
    and what is refused leaves nothing behind. -/
theorem Coherent.state_requireAll_of_known {d : Draft} (h : d.Coherent) {rs : List Request}
    (hknown : ∀ r ∈ Request.served d.table rs, r ∈ d.product.requests) :
    (d.requireAll rs).state = d := by
  induction rs with
  | nil => rfl
  | cons q rs ih =>
      rw [Draft.requireAll]
      by_cases hq : q.Forwardable d.table
      · rw [Request.served_cons_of_forwardable hq] at hknown
        rcases List.mem_map.mp (hknown q List.mem_cons_self) with ⟨a, ha, hreq⟩
        rcases h.require_of_mem ha hreq with ⟨hanswer, hstate⟩
        rw [Outcome.state_andThen_of_ok hanswer, hstate]
        exact ih fun r hr => hknown r (List.mem_cons_of_mem q hr)
      · -- The list ends here, with a refusal.
        have herror := h.answer_require_of_not_forwardable hq
        rw [Outcome.state_andThen_of_error herror]
        exact state_require_of_error herror

/-- A list of requests leaves a draft alone when all that are served have
    accessors, and only then. -/
theorem Coherent.state_requireAll_eq_self_iff {d : Draft} (h : d.Coherent) (rs : List Request) :
    (d.requireAll rs).state = d ↔
      ∀ r ∈ Request.served d.table rs, r ∈ d.product.requests := by
  constructor
  · intro hsame r hr
    have hmem := h.mem_requests_requireAll hr
    rwa [hsame] at hmem
  · exact h.state_requireAll_of_known

/-- After a list of requests was made once, nothing that is called for next
    makes a difference to it. -/
theorem Coherent.requireAll_again {d : Draft} (h : d.Coherent) (rs : List Request)
    (cs : List Call) :
    (((d.requireAll rs).state.after cs).requireAll rs).answer = (d.requireAll rs).answer ∧
      (((d.requireAll rs).state.after cs).requireAll rs).state =
        (d.requireAll rs).state.after cs := by
  have hfirst : (d.requireAll rs).state.Coherent := h.requireAll rs
  have hlater : ((d.requireAll rs).state.after cs).Coherent := hfirst.after cs
  -- Neither the first time nor what came after it has changed the table.
  have htable : ((d.requireAll rs).state.after cs).table = d.table :=
    ((d.requireAll rs).state.frame_after cs).1.trans (d.frame_requireAll rs).1
  constructor
  · rw [hlater.answer_requireAll, h.answer_requireAll, htable]
  · rw [hlater.state_requireAll_eq_self_iff, htable]
    intro r hr
    exact requests_subset_after _ cs (h.mem_requests_requireAll hr)

/-- Describing a bundle is idempotent on every draft, at any later time. Whatever
    was called for before the first time, and whatever was called for between
    the first and the second, with or without success, the second time has the
    result of the first, be it the same failure about the same method, and
    leaves the draft as it is: no accessor is added, and the class and the index
    stay the same. -/
theorem bundle_again_changes_nothing (table : MethodTable) (settings : Settings)
    (name : BinaryName) (version : ClassVersion) (before between : List Call)
    (rs : List Request) :
    let first := Description.run ((start table settings name version).after before) (.bundle rs)
    let again := Description.run (first.draft.after between) (.bundle rs)
    again.result = first.result ∧ again.draft = first.draft.after between :=
  (coherent_after table settings name version before).requireAll_again rs between

end Draft

end SyntheticAccess
