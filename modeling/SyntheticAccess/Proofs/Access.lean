import SyntheticAccess.Proofs.Descriptions
import SyntheticAccess.Proofs.Typing

/-!
# Access Safety

A request by signature names no method that is called. It names a shape, and
what is called is found in the table of the instrumented class. Here the whole
way is put together, from the declarations of classes to the accessors of a
described one: what is called was declared by the instrumented class or above
it, the access rules permit the call, and the method has the shape of the
target.

`Offers` states this about a target and a method, with nothing in it of
tables, candidates or the walk. That a table holds only what is offered comes
from where its candidates come from. That an accessor calls only what the
table held for its own request, and not what it held for another one, comes
from the invariant of drafts. The converse needs no more: a request for which
nothing is offered has no accessor in any draft, so it is resolved anew each
time it is made, and refused.

## Main definitions

* `Registry.Offers`: The methods that a target may lead to.

## Theorems

* `admits_iff`: The access rules, told by what is refused.
* `offers_iff`: What is offered is reachable and has the shape of the target.
* `offers_of_forwardTo`: A request forwards to what is offered.
* `signature_requests_safe`: Accessors for requests by signature are safe.
-/

namespace SyntheticAccess

/-- Initializers are refused, and methods of another class when they are
    private, or have package access and that class is in another package. -/
theorem ClassDecl.admits_iff (d : ClassDecl) (context : BinaryName) (m : Method) :
    d.Admits context m ↔ m.name ≠ "<init>" ∧ m.name ≠ "<clinit>" ∧
      (d.name ≠ context → m.flags.level ≠ .privateAccess ∧
        (m.flags.level = .packageAccess → d.name.package = context.package)) := by
  rw [Admits]
  refine and_congr_right fun _ => and_congr_right fun _ => ?_
  by_cases hname : d.name = context
  · simp [hname]
  · cases m.flags.level with
    | publicAccess => simp
    | protectedAccess => simp
    | packageAccess => simp [hname]
    | privateAccess => simp [hname]

namespace Registry

/-- What code in the context may be led to by a target: a method of the same
    shape that is declared by the context or above it, where the access rules
    permit to call it. -/
structure Offers (r : Registry) (context : BinaryName) (target m : Method) : Prop where
  name_eq : m.name = target.name
  erasure_params_eq : m.params.map SigType.erasure = target.params.map SigType.erasure
  isStatic_eq : m.isStatic = target.isStatic
  kind_result_eq : m.result.kind = target.result.kind
  ne_init : m.name ≠ "<init>"
  ne_clinit : m.name ≠ "<clinit>"
  declared : ∃ d, r.Ancestor context d ∧ m ∈ d.methods ∧
    (d.name ≠ context → m.flags.level ≠ .privateAccess ∧
      (m.flags.level = .packageAccess → d.name.package = context.package))

/-- What is offered is what is reachable and has the shape of the target. -/
theorem offers_iff {r : Registry} {context : BinaryName} {target m : Method} :
    r.Offers context target m ↔ m ∈ r.reachable context ∧
      m.name = target.name ∧ m.params.map SigType.erasure = target.params.map SigType.erasure ∧
      m.isStatic = target.isStatic ∧ m.result.kind = target.result.kind := by
  rw [mem_reachable_iff]
  constructor
  · intro h
    rcases h.declared with ⟨d, hd, hmem, hlevel⟩
    have hadmits : d.Admits context m :=
      (d.admits_iff context m).mpr ⟨h.ne_init, h.ne_clinit, hlevel⟩
    exact ⟨⟨d, hd, hmem, hadmits⟩, h.name_eq, h.erasure_params_eq, h.isStatic_eq,
      h.kind_result_eq⟩
  · rintro ⟨⟨d, hd, hmem, hadmits⟩, hname, hparams, hstatic, hkind⟩
    rcases (d.admits_iff context m).mp hadmits with ⟨hinit, hclinit, hlevel⟩
    exact ⟨hname, hparams, hstatic, hkind, hinit, hclinit, d, hd, hmem, hlevel⟩

/-- A request by signature forwards to what is offered. -/
theorem offers_of_forwardTo {ds : List ClassDecl} (hds : ∀ d ∈ ds, d.WellNamed)
    {context : BinaryName} {table : MethodTable}
    (htable : (ofDecls ds).tableFor context = .ok table) {r : Request} {m : Method}
    (hr : r.target.WellNamed) (hsig : r.resolution = .signature)
    (h : r.forwardTo table = some m) : (ofDecls ds).Offers context r.target m := by
  rcases Request.agree_of_forwardTo (.computed hds htable) hr h with ⟨hname, hparams⟩
  rcases (r.forwardTo_eq_some_iff table m).mp h with ⟨hres, haccepts⟩
  rcases (r.accepts_iff m).mp haccepts with ⟨hstatic, hkind⟩
  -- The table holds nothing but what is reachable.
  have hmem : m ∈ (ofDecls ds).reachable context := by
    rcases (r.resolve_eq_ok_iff table m).mp hres with ⟨hid, -⟩ | ⟨-, hget⟩
    · rw [hid] at hsig
      cases hsig
    · rw [eq_of_tableFor htable, MethodTable.get?_ofCandidates] at hget
      exact (MethodTable.mem_of_preferred hget).1
  exact offers_iff.mpr ⟨hmem, hname, hparams, hstatic, hkind⟩

end Registry

namespace Draft

/-- The accessor of a request by signature calls what is offered, after
    whatever was called for. -/
theorem offers_of_mem_after {ds : List ClassDecl} (hds : ∀ d ∈ ds, d.WellNamed)
    {context : BinaryName} {table : MethodTable}
    (htable : (Registry.ofDecls ds).tableFor context = .ok table) (settings : Settings)
    (name : BinaryName) (version : ClassVersion) {cs : List Call}
    (hcs : ∀ r, .require r ∈ cs → r.target.WellNamed) {a : Accessor}
    (ha : a ∈ ((start table settings name version).after cs).product.accessors)
    (hsig : a.request.resolution = .signature) :
    a.code.callee? = some a.resolved ∧
      (Registry.ofDecls ds).Offers context a.request.target a.resolved := by
  have hcoherent := coherent_after table settings name version cs
  have hto := hcoherent.forwardTo_eq a ha
  rw [((start table settings name version).frame_after cs).1] at hto
  have hnamed : a.request.target.WellNamed := by
    -- The request was made in the run, since a new class has no accessors.
    rcases require_mem_of_mem_after ha with hmem | hmem
    · cases hmem
    · exact hcs a.request hmem
  refine ⟨?_, Registry.offers_of_forwardTo hds htable hnamed hsig hto⟩
  rcases List.getElem?_of_mem ha with ⟨i, hi⟩
  rw [hcoherent.eq_accessorAt i a hi]
  exact ForwardCode.callee?_calling _ _ _

/-- A request by signature for which nothing is offered is refused, whatever
    was called for before. -/
theorem require_of_not_offers {ds : List ClassDecl} (hds : ∀ d ∈ ds, d.WellNamed)
    {context : BinaryName} {table : MethodTable}
    (htable : (Registry.ofDecls ds).tableFor context = .ok table) (settings : Settings)
    (name : BinaryName) (version : ClassVersion) (cs : List Call) {target : Method}
    (htarget : target.WellNamed) (hnone : ∀ m, ¬ (Registry.ofDecls ds).Offers context target m) :
    (((start table settings name version).after cs).require ⟨target, .signature⟩).answer =
      .error (.unreachable target context) := by
  have hcoherent := coherent_after table settings name version cs
  have hframe : ((start table settings name version).after cs).table = table :=
    ((start table settings name version).frame_after cs).1
  -- If the request forwarded to a method, that method would be offered.
  have hto : (Request.mk target .signature).forwardTo table = none := by
    cases hto : (Request.mk target .signature).forwardTo table with
    | none => rfl
    | some m => exact absurd (Registry.offers_of_forwardTo hds htable htarget rfl hto) (hnone m)
  -- An accessor from before would be for the same request, and that forwards nowhere.
  have hnew : ((start table settings name version).after cs).find? ⟨target, .signature⟩ = none := by
    rw [hcoherent.find?_eq_none_iff]
    intro a ha hreq
    have hfound := hcoherent.forwardTo_eq a ha
    rw [hreq, hframe, hto] at hfound
    cases hfound
  rw [← hframe] at hto
  rw [(require_of_forwardTo_none hnew hto).1, hframe, Registry.eq_of_tableFor htable,
    MethodTable.context_ofCandidates]

end Draft

namespace Registry

/-- Accessors never lead out of what the access rules permit. After any
    declarations, every declared class has a table, and whatever is generated
    for that table keeps to it: an accessor for a request by signature calls a
    method of the target's shape which the class or one above it declares and
    which the class may call, in described classes and after any sequence of
    calls alike. A request for which there is no such method is refused at any
    time, with a failure that names its target. -/
theorem signature_requests_safe {ds : List ClassDecl} (hds : ∀ d ∈ ds, d.WellNamed)
    {context : BinaryName} (hcontext : ∃ d ∈ ds, d.name = context) :
    ∃ table, (ofDecls ds).tableFor context = .ok table ∧ ∀ h : Host, h.table = table →
      (∀ content raw version c, (∀ r ∈ content.requests, r.target.WellNamed) →
        (h.describe content raw version).answer = .ok c →
        ∀ a ∈ c.accessors, a.request.resolution = .signature →
          a.code.callee? = some a.resolved ∧
            (ofDecls ds).Offers context a.request.target a.resolved) ∧
      ∀ name version cs,
        ((∀ r, .require r ∈ cs → r.target.WellNamed) →
          ∀ a ∈ ((Draft.start h.table h.settings name version).after cs).product.accessors,
            a.request.resolution = .signature → a.code.callee? = some a.resolved ∧
              (ofDecls ds).Offers context a.request.target a.resolved) ∧
        ∀ target, target.WellNamed → (∀ m, ¬ (ofDecls ds).Offers context target m) →
          (((Draft.start h.table h.settings name version).after cs).require
            ⟨target, .signature⟩).answer = .error (.unreachable target context) := by
  rcases (tableFor_ofDecls ds context).2 hcontext with ⟨-, table, -, htable, -⟩
  refine ⟨table, htable, ?_⟩
  rintro h rfl
  refine ⟨fun content raw version c hcontent hok a ha hsig => ?_, fun name version cs =>
    ⟨fun hcs a ha hsig => ?_, fun target htarget hnone => ?_⟩⟩
  · -- A described class is what a run of calls has led to.
    rcases Host.exists_after_of_describe hok with ⟨name, cs, -, rfl, hcs⟩
    exact Draft.offers_of_mem_after hds htable h.settings name version
      (fun r hr => hcontent r (hcs r hr)) ha hsig
  · exact Draft.offers_of_mem_after hds htable h.settings name version hcs ha hsig
  · exact Draft.require_of_not_offers hds htable h.settings name version cs htarget hnone

/-- A private method, one with package access that is inherited within the
    package, and two from outside of it, a protected one and another. -/
def layers : List ClassDecl :=
  [⟨⟨"q.Base"⟩, none,
      [⟨⟨"q.Base"⟩, "find", [.generic ⟨"q.Bag"⟩ [.classRef ⟨"q.Key"⟩]], .classRef ⟨"q.Item"⟩,
          .accProtected⟩,
        ⟨⟨"q.Base"⟩, "far", [], .prim .int, ∅⟩]⟩,
    ⟨⟨"p.Mid"⟩, some ⟨"q.Base"⟩, [⟨⟨"p.Mid"⟩, "near", [], .prim .int, ∅⟩]⟩,
    ⟨⟨"p.Sub"⟩, some ⟨"p.Mid"⟩, [⟨⟨"p.Sub"⟩, "own", [.prim .long], .void, .accPrivate⟩]⟩]

/-- A target that the last class cannot reach. -/
def farTarget : Method :=
  ⟨⟨"p.Sub"⟩, "far", [], .prim .int, ∅⟩

/-- Requests by signature for all of them, one of them made twice. -/
def layerCalls : List Draft.Call :=
  [⟨⟨"p.Sub"⟩, "find", [.classRef ⟨"q.Bag"⟩], .classRef ⟨"q.Fact"⟩, ∅⟩,
    ⟨⟨"p.Sub"⟩, "near", [], .prim .int, ∅⟩, farTarget,
    ⟨⟨"p.Sub"⟩, "own", [.prim .long], .void, ∅⟩,
    ⟨⟨"p.Sub"⟩, "near", [], .prim .int, ∅⟩].map fun target => .require ⟨target, .signature⟩

/-- What the requests lead to. -/
def layerDraft (table : MethodTable) : Draft :=
  (Draft.start table .standard ⟨"p.Aux"⟩ .standard).after layerCalls

/-- Of the four different requests three lead to methods that the last class may
    call, one of its own and two from above. The fourth is refused, as its method
    has package access in another package. -/
theorem signature_requests_safe_layers :
    ∃ table, (ofDecls layers).tableFor ⟨"p.Sub"⟩ = .ok table ∧
      (layerDraft table).product.accessors.map (·.resolved.owner.text) =
        ["q.Base", "p.Mid", "p.Sub"] ∧
      (∀ a ∈ (layerDraft table).product.accessors,
        (ofDecls layers).Offers ⟨"p.Sub"⟩ a.request.target a.resolved) ∧
      ((layerDraft table).require ⟨farTarget, .signature⟩).answer =
        .error (.unreachable farTarget ⟨"p.Sub"⟩) := by
  have hcontext : ∃ d ∈ layers, d.name = ⟨"p.Sub"⟩ := by decide +kernel
  have hds : ∀ d ∈ layers, d.WellNamed := by decide +kernel
  rcases signature_requests_safe hds hcontext with ⟨table, htable, hsafe⟩
  rcases (hsafe ⟨⟨"p.Sub"⟩, table, .standard⟩ rfl).2 ⟨"p.Aux"⟩ .standard layerCalls with
    ⟨hcalls, hrefused⟩
  have hcalled : ∀ r, .require r ∈ layerCalls → r.target.WellNamed ∧ r.resolution = .signature := by
    intro r hr
    rcases List.mem_map.mp hr with ⟨target, htarget, heq⟩
    cases heq
    refine ⟨?_, rfl⟩
    revert target
    decide +kernel
  refine ⟨table, htable, ?_, fun a ha => ?_, ?_⟩
  · -- The table is known by how it was computed only, so that is what is run.
    have hmade : ((ofDecls layers).tableFor ⟨"p.Sub"⟩).map (fun table =>
        (layerDraft table).product.accessors.map (·.resolved.owner.text)) =
          .ok ["q.Base", "p.Mid", "p.Sub"] := by
      decide +kernel
    rw [htable] at hmade
    exact Except.ok.inj hmade
  · rcases Draft.require_mem_of_mem_after ha with hmem | hmem
    · cases hmem
    · exact (hcalls (fun r hr => (hcalled r hr).1) a ha (hcalled a.request hmem).2).2
  · refine hrefused farTarget (by decide +kernel) fun m hm => ?_
    -- Nothing of this name is among the candidates.
    have hstart : ∃ d, (ofDecls layers).find? ⟨"p.Sub"⟩ = some d ∧
        ∀ m ∈ ((ofDecls layers).lineage d).flatMap (·.callable ⟨"p.Sub"⟩),
          m.name ≠ farTarget.name :=
      ⟨_, rfl, by decide +kernel⟩
    rcases hstart with ⟨d, hd, hnames⟩
    rcases lineage_candidates hd with ⟨again, hcandidates, -⟩
    refine hnames m ?_ hm.name_eq
    rw [hcandidates]
    exact List.mem_append_left _ (offers_iff.mp hm).1

end Registry

end SyntheticAccess
