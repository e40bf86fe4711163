import Mathlib.Data.List.Basic
import SyntheticAccess.Proofs.Bundles

/-!
# Bundles in Closed Form

What describing a bundle answers, computed from the bundle at once instead of
one request after the other. A request can have an accessor or it cannot, and
which of the two holds is decided by the request and the table alone: it does
not matter where in the bundle the request stands or what was made before. The
loop therefore ends at the first request that cannot have one, and if there is
none it ends with the accessors for all different requests.

That what was made before does not matter needs the invariant of drafts. A
request that is found in the index is answered without looking at the table, so
it could be answered although the table has nothing for it. It is not, because
in a coherent draft every accessor forwards to what its request leads to.

The number at the end of an accessor's name counts accessors and not requests.
It is the position of the request in the list without repetitions.

## Main definitions

* `Request.Forwardable`: Whether a request can have an accessor.
* `Request.firstUnforwardable`: The first of a list that cannot.

## Theorems

* `forwardable_iff`: A request can have an accessor when it forwards somewhere.
* `Coherent.answer_require_of_not_forwardable`,
  `Coherent.exists_answer_require_of_forwardable`: One request, at any time.
* `Coherent.answer_requireAll`: A list of requests, up to the first failure.
* `accessor_of_describe_bundle`: What an accessor at a position looks like.
* `bundle_in_closed_form`: When a bundle leads to a class, and to which.
-/

namespace SyntheticAccess

namespace Request

/-- A request can have an accessor when it is trusted, or when the table has a
    method for its target that is called with or without a receiver like the
    target and answers with a value of the same kind. -/
def Forwardable (r : Request) (table : MethodTable) : Prop :=
  r.resolution = .identity ∨
    r.resolution = .signature ∧ ∃ m, table.get? r.target.signature = some m ∧
      m.isStatic = r.target.isStatic ∧ m.result.kind = r.target.result.kind

/-- A request can have an accessor when it forwards to some method. -/
theorem forwardable_iff (r : Request) (table : MethodTable) :
    r.Forwardable table ↔ ∃ m, r.forwardTo table = some m := by
  constructor
  · intro h
    rcases h with hid | ⟨hsig, m, hget, hstatic, hkind⟩
    · -- A trusted target has its own shape.
      have hres := (r.resolve_eq_ok_iff table r.target).mpr (Or.inl ⟨hid, rfl⟩)
      have haccepts := (r.accepts_iff r.target).mpr ⟨rfl, rfl⟩
      exact ⟨r.target, (r.forwardTo_eq_some_iff table r.target).mpr ⟨hres, haccepts⟩⟩
    · have hres := (r.resolve_eq_ok_iff table m).mpr (Or.inr ⟨hsig, hget⟩)
      have haccepts := (r.accepts_iff m).mpr ⟨hstatic, hkind⟩
      exact ⟨m, (r.forwardTo_eq_some_iff table m).mpr ⟨hres, haccepts⟩⟩
  · intro h
    rcases h with ⟨m, hm⟩
    rcases (r.forwardTo_eq_some_iff table m).mp hm with ⟨hres, haccepts⟩
    rcases (r.resolve_eq_ok_iff table m).mp hres with ⟨hid, -⟩ | ⟨hsig, hget⟩
    · exact Or.inl hid
    · -- What the table has was accepted, so it fits the target.
      rcases (r.accepts_iff m).mp haccepts with ⟨hstatic, hkind⟩
      exact Or.inr ⟨hsig, m, hget, hstatic, hkind⟩

instance (r : Request) (table : MethodTable) : Decidable (r.Forwardable table) :=
  decidable_of_iff ((r.forwardTo table).isSome = true)
    (Option.isSome_iff_exists.trans (r.forwardable_iff table).symm)

theorem forwardTo_eq_none_of_not_forwardable {r : Request} {table : MethodTable}
    (h : ¬ r.Forwardable table) : r.forwardTo table = none := by
  rw [forwardable_iff] at h
  exact Option.eq_none_iff_forall_ne_some.mpr fun m hm => h ⟨m, hm⟩

/-- The first request of a list that cannot have an accessor. -/
def firstUnforwardable (table : MethodTable) (rs : List Request) : Option Request :=
  rs.find? fun r => decide (¬ r.Forwardable table)

theorem firstUnforwardable_cons_of_forwardable {r : Request} {table : MethodTable}
    (h : r.Forwardable table) (rs : List Request) :
    firstUnforwardable table (r :: rs) = firstUnforwardable table rs := by
  rw [firstUnforwardable, List.find?_cons, decide_eq_false (not_not_intro h), firstUnforwardable]

theorem firstUnforwardable_cons_of_not {r : Request} {table : MethodTable}
    (h : ¬ r.Forwardable table) (rs : List Request) :
    firstUnforwardable table (r :: rs) = some r := by
  rw [firstUnforwardable, List.find?_cons, decide_eq_true h]

theorem firstUnforwardable_eq_none_iff (table : MethodTable) (rs : List Request) :
    firstUnforwardable table rs = none ↔ ∀ r ∈ rs, r.Forwardable table := by
  rw [firstUnforwardable, List.find?_eq_none]
  simp only [decide_eq_true_eq, Decidable.not_not]

/-- The first that cannot have an accessor is found behind those that can. -/
theorem firstUnforwardable_append_cons {table : MethodTable} {before : List Request} {r : Request}
    (hbefore : ∀ q ∈ before, q.Forwardable table) (hr : ¬ r.Forwardable table)
    (rest : List Request) : firstUnforwardable table (before ++ r :: rest) = some r := by
  induction before with
  | nil => exact firstUnforwardable_cons_of_not hr rest
  | cons q qs ih =>
      rw [List.cons_append,
        firstUnforwardable_cons_of_forwardable (hbefore q List.mem_cons_self)]
      exact ih fun p hp => hbefore p (List.mem_cons_of_mem _ hp)

/-- A trusted request forwards to its target, and any other to what the table
    has for it. -/
theorem eq_of_forwardTo {r : Request} {table : MethodTable} {m : Method}
    (h : r.forwardTo table = some m) :
    (r.resolution = .identity → m = r.target) ∧
      (r.resolution = .signature → table.get? r.target.signature = some m) := by
  have hres := ((r.forwardTo_eq_some_iff table m).mp h).1
  rcases (r.resolve_eq_ok_iff table m).mp hres with ⟨hid, hm⟩ | ⟨hsig, hget⟩
  · refine ⟨fun _ => hm, fun hsig => ?_⟩
    rw [hid] at hsig
    cases hsig
  · refine ⟨fun hid => ?_, fun _ => hget⟩
    rw [hsig] at hid
    cases hid

end Request

namespace Draft

/-- A request that cannot have an accessor is refused, whatever was made
    before. -/
theorem Coherent.answer_require_of_not_forwardable {d : Draft} (h : d.Coherent) {r : Request}
    (hr : ¬ r.Forwardable d.table) :
    (d.require r).answer = .error (.unreachable r.target d.table.context) := by
  have hto := Request.forwardTo_eq_none_of_not_forwardable hr
  -- An accessor from before would forward somewhere, and the request does not.
  have hnew : d.find? r = none := by
    rw [h.find?_eq_none_iff]
    intro a ha hreq
    have hfound := h.forwardTo_eq a ha
    rw [hreq, hto] at hfound
    cases hfound
  exact (require_of_forwardTo_none hnew hto).1

/-- A request that can have an accessor is answered, from before or anew. -/
theorem Coherent.exists_answer_require_of_forwardable {d : Draft} (h : d.Coherent) {r : Request}
    (hr : r.Forwardable d.table) : ∃ m, (d.require r).answer = .ok m := by
  rcases (r.forwardable_iff d.table).mp hr with ⟨m, hto⟩
  -- Which accessor it is depends on what was made before, that there is one does not.
  cases hfind : d.find? r with
  | some a =>
      rcases (h.find?_eq_some_iff r a).mp hfind with ⟨ha, hreq⟩
      exact ⟨a.method, (h.require_of_mem ha hreq).1⟩
  | none => exact ⟨(d.nextAccessor r m).method, (require_of_forwardTo_some hfind hto).1⟩

/-- A list of requests is answered up to the first that cannot have an
    accessor, which the failure names. -/
theorem Coherent.answer_requireAll {d : Draft} (h : d.Coherent) (rs : List Request) :
    (d.requireAll rs).answer =
      match Request.firstUnforwardable d.table rs with
      | none => .ok ()
      | some r => .error (.unreachable r.target d.table.context) := by
  induction rs generalizing d with
  | nil => rfl
  | cons r rs ih =>
      rw [Draft.requireAll]
      by_cases hr : r.Forwardable d.table
      · -- The rest is answered from a draft with the same table.
        rcases h.exists_answer_require_of_forwardable hr with ⟨m, hm⟩
        have hstate : (d.require r).state.Coherent := h.call (.require r)
        have htable : (d.require r).state.table = d.table := (d.frame_call (.require r)).1
        rw [Request.firstUnforwardable_cons_of_forwardable hr, ← htable, ← ih hstate,
          Outcome.andThen, hm]
      · -- The list ends here, with a failure that no later request has a part in.
        have herror := h.answer_require_of_not_forwardable hr
        rw [Request.firstUnforwardable_cons_of_not hr, Outcome.andThen, herror]

end Draft

namespace Host

/-- Under an accepted name a bundle leads to what its requests make of an empty
    draft, unless one of them cannot have an accessor. -/
theorem answer_describe_bundle (h : Host) (rs : List Request) {raw : String} {name : BinaryName}
    (version : ClassVersion) (hname : h.checkName raw = .ok name) :
    (h.describe (.bundle rs) raw version).answer =
      match Request.firstUnforwardable h.table rs with
      | none => .ok ((Draft.start h.table h.settings name version).requireAll rs).state.product
      | some r => .error (.unreachable r.target h.table.context) := by
  have hstart := Draft.coherent_start h.table h.settings name version
  have htable : (Draft.start h.table h.settings name version).table = h.table := rfl
  have hall := hstart.answer_requireAll rs
  rw [htable] at hall
  rw [describe, hname]
  dsimp only [Description.run]
  rw [hall]
  cases Request.firstUnforwardable h.table rs with
  | none => rfl
  | some r => rfl

/-- An accessor of a bundle's class is the one that its request is given where
    it stands. -/
theorem accessor_of_describe_bundle {h : Host} {rs : List Request} {raw : String}
    {version : ClassVersion} {c : AccessorClass}
    (hok : (h.describe (.bundle rs) raw version).answer = .ok c) {i : Nat} {a : Accessor}
    (ha : c.accessors[i]? = some a) :
    a.request.forwardTo h.table = some a.resolved ∧
      a = (Draft.start h.table h.settings c.name version).accessorAt a.request a.resolved i := by
  rcases exists_coherent_of_describe hok with ⟨d, hd, htable, hsettings, rfl⟩
  have hto := hd.forwardTo_eq a (List.mem_of_getElem? ha)
  have hat := hd.eq_accessorAt i a ha
  rw [htable] at hto
  refine ⟨hto, hat.trans ?_⟩
  -- Of the draft only the name and the settings are looked at.
  simp only [Draft.accessorAt, Draft.accessorMethod, hsettings]
  rfl

/-- Describing a bundle in closed form. Under an accepted name it succeeds
    exactly when every request can have an accessor. The class then has no
    fields, the flags of the settings, and one accessor for each different
    request, in the order in which they come first. An accessor is named after
    its target with its own position at the end, and calls the target itself or
    what the table has for it. If some requests cannot have an accessor, the
    failure names the target of the first of them and the context of the
    table. -/
theorem bundle_in_closed_form (h : Host) (rs : List Request) {raw : String} {name : BinaryName}
    (version : ClassVersion) (hname : h.checkName raw = .ok name) :
    let answer := (h.describe (.bundle rs) raw version).answer
    ((∃ c, answer = .ok c) ↔ ∀ r ∈ rs, r.Forwardable h.table) ∧
    (∀ c, answer = .ok c →
      c.name = name ∧ c.version = version ∧ c.flags = h.settings.typeFlags ∧ c.fields = [] ∧
      c.accessors.map (·.request) = rs.eraseDups ∧
      ∀ (i : Nat) (a : Accessor), c.accessors[i]? = some a →
        a.method = ⟨name, a.request.target.name ++ "$" ++ h.settings.tag ++ "$" ++ decimal i,
          a.request.accessorParams, a.request.target.result, h.settings.staticAccessorFlags⟩ ∧
        a.code = .calling a.request.accessorParams a.resolved a.request.target.result ∧
        (a.request.resolution = .identity → a.resolved = a.request.target) ∧
        (a.request.resolution = .signature →
          h.table.get? a.request.target.signature = some a.resolved)) ∧
    ∀ before r rest, rs = before ++ r :: rest → (∀ q ∈ before, q.Forwardable h.table) →
      ¬ r.Forwardable h.table → answer = .error (.unreachable r.target h.table.context) := by
  intro answer
  have hanswer : answer = _ := h.answer_describe_bundle rs version hname
  refine ⟨?_, ?_, ?_⟩
  · -- There is a class to answer exactly when no request is found.
    rw [← Request.firstUnforwardable_eq_none_iff, hanswer]
    cases Request.firstUnforwardable h.table rs with
    | none => simp
    | some r => simp
  · intro c hc
    rcases parts_of_describe_bundle hc with ⟨hcname, hversion, hflags, hfields, hrequests⟩
    have hsame : c.name = name := by
      rw [hname, Except.ok.injEq] at hcname
      exact hcname.symm
    refine ⟨hsame, hversion, hflags, hfields, hrequests, ?_⟩
    intro i a ha
    rcases accessor_of_describe_bundle hc ha with ⟨hto, hat⟩
    rcases Request.eq_of_forwardTo hto with ⟨hidentity, hsignature⟩
    refine ⟨?_, congrArg Accessor.code hat, hidentity, hsignature⟩
    -- The method is declared in the class that the accessor is part of.
    rw [← hsame]
    exact congrArg Accessor.method hat
  · intro before r rest hsplit hbefore hr
    rw [hanswer, hsplit, Request.firstUnforwardable_append_cons hbefore hr]

/-- A host that can call two methods of its superclass, one of them static. -/
def heir : Host where
  name := ⟨"p.Sub"⟩
  table := .ofCandidates ⟨"p.Sub"⟩
    [⟨⟨"p.Base"⟩, "add", [.prim .int], .prim .long, ∅⟩,
      ⟨⟨"p.Base"⟩, "size", [], .prim .int, .accStatic⟩]
  settings := .ofChanges [.tag "via"]

/-- Requests for both methods, with repetitions and under both resolutions. -/
def heirRequests : List Request :=
  [⟨⟨⟨"p.Sub"⟩, "add", [.prim .int], .prim .long, ∅⟩, .identity⟩,
    ⟨⟨⟨"p.Sub"⟩, "add", [.prim .int], .prim .long, ∅⟩, .signature⟩,
    ⟨⟨⟨"p.Sub"⟩, "add", [.prim .int], .prim .long, ∅⟩, .identity⟩,
    ⟨⟨⟨"p.Sub"⟩, "size", [], .prim .short, .accStatic⟩, .signature⟩,
    ⟨⟨⟨"p.Sub"⟩, "add", [.prim .int], .prim .long, ∅⟩, .signature⟩]

/-- A request for the static method as if it needed a receiver. -/
def heirMisfit : Request :=
  ⟨⟨⟨"p.Sub"⟩, "size", [], .prim .int, ∅⟩, .signature⟩

/-- Five requests, of which three are different, lead to three accessors. With the
    misfit among them they lead to a failure that names its target. -/
theorem bundle_in_closed_form_heir :
    (∃ c, (heir.describe (.bundle heirRequests) "p.Aux" .standard).answer = .ok c ∧
      c.accessors.length = 3 ∧
      ∀ a, c.accessors[2]? = some a → a.method.name = a.request.target.name ++ "$via$2") ∧
    (heir.describe (.bundle (heirRequests ++ heirMisfit :: heirRequests)) "p.Aux" .standard).answer =
      .error (.unreachable heirMisfit.target ⟨"p.Sub"⟩) := by
  have hname : heir.checkName "p.Aux" = .ok ⟨"p.Aux"⟩ := by decide +kernel
  have hall : ∀ r ∈ heirRequests, r.Forwardable heir.table := by decide +kernel
  have hmisfit : ¬ heirMisfit.Forwardable heir.table := by decide +kernel
  constructor
  · rcases bundle_in_closed_form heir heirRequests .standard hname with ⟨hok, hparts, -⟩
    rcases hok.mpr hall with ⟨c, hc⟩
    rcases hparts c hc with ⟨-, -, -, -, hrequests, haccessors⟩
    refine ⟨c, hc, ?_, ?_⟩
    · have hlength : heirRequests.eraseDups.length = 3 := by decide +kernel
      rw [← hrequests, List.length_map] at hlength
      exact hlength
    · intro a ha
      have hend : "$" ++ (heir.settings.tag ++ ("$" ++ decimal 2)) = "$via$2" := by decide +kernel
      have hmethod := congrArg Method.name (haccessors 2 a ha).1
      simp only [String.append_assoc, hend] at hmethod
      exact hmethod
  · rcases bundle_in_closed_form heir (heirRequests ++ heirMisfit :: heirRequests) .standard hname
      with ⟨-, -, hfail⟩
    exact hfail heirRequests heirMisfit heirRequests rfl hall hmisfit

end Host

end SyntheticAccess
