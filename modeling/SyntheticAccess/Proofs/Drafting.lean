import SyntheticAccess.Description

/-!
# Runs of a Draft

What holds of a draft after any sequence of calls. A draft keeps its accessors
in a list and remembers in an index, kept on the side, where the accessor for
each request is. Nothing but the order of two updates ties the one to the
other: the accessor goes to the end, and the index gets the position that was
the end before.

`Coherent` is what this maintains. The index has exactly the requests that
have an accessor, each with the position where it stands, and every accessor
is the one that its request is given at its position. The second half needs no
history: what an accessor looks like depends on the table, the settings, the
name of the class and the position, and only the last of these ever changes.

A call does one of five things, and only two of them change the draft.
`require_of_find?` and the two equations for new requests say so, in terms of
`forwardTo`, which is the method that an accessor would forward to, if the
request can have one at all.

## Main definitions

* `Request.forwardTo`: The method that an accessor for a request calls.
* `Draft.Call`, `Draft.call`: One call, and making it.
* `Draft.after`, `Draft.answers`: The draft after a run, and what it answered.
* `Draft.accessorAt`: The accessor that a request is given at a position.
* `Draft.Coherent`: The invariant.

## Theorems

* `forwardTo_eq_some_iff`: Which requests can have an accessor.
* `require_eq_of_forwardTo_none`, `require_eq_of_forwardTo_some`: New requests.
* `coherent_after`: Every run keeps a draft coherent.
* `accessors_prefix_after`: Accessors stay where they are.
* `one_accessor_per_request`: A request has one accessor for good.
-/

namespace SyntheticAccess

namespace Request

/-- The method that an accessor for the request forwards to: what the request
    resolves to, if that can be called the way the target is. -/
def forwardTo (r : Request) (table : MethodTable) : Option Method :=
  match r.resolve table with
  | .error _ => none
  | .ok m => if r.accepts m then some m else none

theorem accepts_iff (r : Request) (m : Method) :
    r.accepts m = true ↔
      m.isStatic = r.target.isStatic ∧ m.result.kind = r.target.result.kind := by
  rw [accepts, Bool.and_eq_true, beq_iff_eq, beq_iff_eq]

/-- A trusted request resolves to its target, and one by signature to what the table
    has under the signature of the target. -/
theorem resolve_eq_ok_iff (r : Request) (table : MethodTable) (m : Method) :
    r.resolve table = .ok m ↔
      r.resolution = .identity ∧ m = r.target ∨
        r.resolution = .signature ∧ table.get? r.target.signature = some m := by
  rw [resolve]
  cases r.resolution with
  | identity => simp [eq_comm]
  | signature => cases table.get? r.target.signature <;> simp

/-- A request forwards to what it resolves to, provided that is accepted. -/
theorem forwardTo_eq_some_iff (r : Request) (table : MethodTable) (m : Method) :
    r.forwardTo table = some m ↔ r.resolve table = .ok m ∧ r.accepts m = true := by
  rw [forwardTo]
  cases r.resolve table with
  | error e => simp
  | ok n =>
      by_cases hn : r.accepts n = true
      · simp only [if_pos hn, Option.some.injEq, Except.ok.injEq]
        exact ⟨fun h => ⟨h, h ▸ hn⟩, fun h => h.1⟩
      · simp only [if_neg hn, reduceCtorEq, Except.ok.injEq, false_iff]
        rintro ⟨rfl, hm⟩
        exact hn hm

end Request

namespace Draft

/-- What can be asked of a draft that may add to it. -/
inductive Call where
  /-- Require an accessor. -/
  | require (r : Request)
  /-- Add a field. -/
  | addField (f : Field)
  deriving DecidableEq

/-- Make a call. -/
def call (d : Draft) : Call → Outcome Failure Draft Note
  | .require r => (d.require r).map .accessor
  | .addField f => (d.addField f).map .fieldCount

/-- The draft after a sequence of calls, failed ones among them. -/
def after (d : Draft) (cs : List Call) : Draft :=
  cs.foldl (fun d c => (d.call c).state) d

/-- What the calls of a sequence answer. -/
def answers (d : Draft) : List Call → List (Except Failure Note)
  | [] => []
  | c :: cs => (d.call c).answer :: (d.call c).state.answers cs

@[simp] theorem after_nil (d : Draft) : d.after [] = d := rfl

@[simp] theorem after_cons (d : Draft) (c : Call) (cs : List Call) :
    d.after (c :: cs) = (d.call c).state.after cs := rfl

@[simp] theorem state_call_require (d : Draft) (r : Request) :
    (d.call (.require r)).state = (d.require r).state := rfl

theorem after_append (d : Draft) (cs ds : List Call) :
    d.after (cs ++ ds) = (d.after cs).after ds :=
  List.foldl_append

/-- A call of a run is answered by the draft that the calls before it lead to. -/
theorem getElem?_answers (d : Draft) (cs : List Call) (i : Nat) :
    (d.answers cs)[i]? = cs[i]?.map fun c => ((d.after (cs.take i)).call c).answer := by
  induction cs generalizing d i with
  | nil => rfl
  | cons c cs ih =>
      cases i with
      | zero => rfl
      | succ i => exact ih (d.call c).state i

/-- A run can be cut at any of its calls. -/
theorem after_eq_of_getElem? (d : Draft) {cs : List Call} {i : Nat} {c : Call}
    (h : cs[i]? = some c) :
    d.after cs = ((d.after (cs.take i)).call c).state.after (cs.drop (i + 1)) := by
  induction cs generalizing d i with
  | nil => cases h
  | cons b cs ih =>
      cases i with
      | zero =>
          rw [List.getElem?_cons_zero, Option.some.injEq] at h
          subst h
          rfl
      | succ i => exact ih (d.call b).state h

/-- A request that cannot have an accessor is refused, whatever is wrong with
    it, and the failure names its target. -/
theorem require_eq_of_forwardTo_none {d : Draft} {r : Request} (hnew : d.find? r = none)
    (h : r.forwardTo d.table = none) :
    d.require r =
      ⟨.error (.unreachable r.target d.table.context), d, r.resolveEvents d.table⟩ := by
  rw [require, hnew]
  cases hres : r.resolve d.table with
  | error e => rw [((r.resolve_eq_error_iff d.table e).mp hres).2.2]
  | ok m =>
      -- A method was found, so what is wrong is that it is not accepted. The failure is the same.
      have hm : ¬ r.accepts m = true := by
        intro hm
        rw [(r.forwardTo_eq_some_iff d.table m).mpr ⟨hres, hm⟩] at h
        cases h
      dsimp only
      rw [if_neg hm]

theorem require_of_forwardTo_none {d : Draft} {r : Request} (hnew : d.find? r = none)
    (h : r.forwardTo d.table = none) :
    (d.require r).answer = .error (.unreachable r.target d.table.context) ∧
      (d.require r).state = d := by
  rw [require_eq_of_forwardTo_none hnew h]
  exact ⟨rfl, rfl⟩

/-- A new request that can have an accessor gets it, at the end. -/
theorem require_eq_of_forwardTo_some {d : Draft} {r : Request} {m : Method}
    (hnew : d.find? r = none) (h : r.forwardTo d.table = some m) :
    d.require r = ⟨.ok (d.nextAccessor r m).method, d.push r (d.nextAccessor r m),
      r.resolveEvents d.table ++
        [.accessorCreated d.product.name (d.nextAccessor r m).method.name m r.resolution]⟩ := by
  rcases (r.forwardTo_eq_some_iff d.table m).mp h with ⟨hres, hm⟩
  rw [require, hnew, hres]
  dsimp only
  rw [if_pos hm]

theorem require_of_forwardTo_some {d : Draft} {r : Request} {m : Method}
    (hnew : d.find? r = none) (h : r.forwardTo d.table = some m) :
    (d.require r).answer = .ok (d.nextAccessor r m).method ∧
      (d.require r).state = d.push r (d.nextAccessor r m) := by
  rw [require_eq_of_forwardTo_some hnew h]
  exact ⟨rfl, rfl⟩

/-- The draft with one more field. -/
def withField (d : Draft) (f : Field) : Draft :=
  { d with product := { d.product with fields := d.product.fields ++ [f] } }

/-- A call leaves the draft alone, adds an accessor for a request that had
    none, or adds a field. -/
theorem state_call_cases (d : Draft) (c : Call) :
    (d.call c).state = d ∨
      (∃ r m, c = .require r ∧ d.find? r = none ∧ r.forwardTo d.table = some m ∧
        (d.call c).state = d.push r (d.nextAccessor r m)) ∨
      ∃ f, c = .addField f ∧ (d.call c).state = d.withField f := by
  cases c with
  | require r =>
      change (d.require r).state = d ∨ _
      -- A request is answered from the index, refused or given an accessor.
      cases hfind : d.find? r with
      | some a => exact Or.inl (by rw [require_of_find? hfind])
      | none =>
          cases hto : r.forwardTo d.table with
          | none => exact Or.inl (require_of_forwardTo_none hfind hto).2
          | some m =>
              exact Or.inr (Or.inl ⟨r, m, rfl, hfind, hto, (require_of_forwardTo_some hfind hto).2⟩)
  | addField f =>
      by_cases htaken : d.product.fields.any (·.name == f.name) = true
      · exact Or.inl (by simp only [call, Outcome.map, addField, if_pos htaken])
      · refine Or.inr (Or.inr ⟨f, rfl, ?_⟩)
        simp only [call, Outcome.map, addField, if_neg htaken]
        rfl

/-- The accessor that a request is given at a position, when it forwards to
    the given method. -/
def accessorAt (d : Draft) (r : Request) (resolved : Method) (position : Nat) : Accessor where
  method := d.accessorMethod r position
  request := r
  resolved := resolved
  code := .calling r.accessorParams resolved r.target.result

/-- The index and the accessors agree, and every accessor is the one that its
    request is given where it stands. -/
structure Coherent (d : Draft) : Prop where
  /-- The index has the requests of the accessors, each with its position. -/
  lookup_iff : ∀ r i, d.index.lookup r = some i ↔
    ∃ a, d.product.accessors[i]? = some a ∧ a.request = r
  /-- Every request forwards to what its accessor calls. -/
  forwardTo_eq : ∀ a ∈ d.product.accessors, a.request.forwardTo d.table = some a.resolved
  /-- What an accessor looks like follows from its request and its position. -/
  eq_accessorAt : ∀ i a, d.product.accessors[i]? = some a →
    a = d.accessorAt a.request a.resolved i

theorem coherent_start (table : MethodTable) (settings : Settings) (name : BinaryName)
    (version : ClassVersion) : (start table settings name version).Coherent where
  lookup_iff r i := by simp [start, AccessorClass.new]
  forwardTo_eq a ha := nomatch ha
  eq_accessorAt i a ha := by simp [start, AccessorClass.new] at ha

/-- A coherent draft finds an accessor for exactly the requests that have one. -/
theorem Coherent.find?_eq_some_iff {d : Draft} (h : d.Coherent) (r : Request) (a : Accessor) :
    d.find? r = some a ↔ a ∈ d.product.accessors ∧ a.request = r := by
  rw [find?, Option.bind_eq_some_iff]
  constructor
  · rintro ⟨i, hi, ha⟩
    rcases (h.lookup_iff r i).mp hi with ⟨b, hb, hreq⟩
    rw [ha, Option.some.injEq] at hb
    exact ⟨List.mem_of_getElem? ha, hb ▸ hreq⟩
  · rintro ⟨hmem, hreq⟩
    rcases List.getElem?_of_mem hmem with ⟨i, hi⟩
    exact ⟨i, (h.lookup_iff r i).mpr ⟨a, hi, hreq⟩, hi⟩

theorem Coherent.find?_eq_none_iff {d : Draft} (h : d.Coherent) (r : Request) :
    d.find? r = none ↔ ∀ a ∈ d.product.accessors, a.request ≠ r := by
  constructor
  · intro hnone a ha hreq
    rw [(h.find?_eq_some_iff r a).mpr ⟨ha, hreq⟩] at hnone
    cases hnone
  · intro hall
    cases hfind : d.find? r with
    | none => rfl
    | some a =>
        rcases (h.find?_eq_some_iff r a).mp hfind with ⟨ha, hreq⟩
        exact absurd hreq (hall a ha)

/-- No two accessors of a coherent draft are for one request. -/
theorem Coherent.nodup {d : Draft} (h : d.Coherent) :
    (d.product.accessors.map (·.request)).Nodup := by
  rw [List.Nodup, List.pairwise_map, List.pairwise_iff_getElem]
  intro i j hi hj hlt heq
  -- The index has one position for a request, and it would be both.
  have hlookupi := (h.lookup_iff _ i).mpr ⟨_, List.getElem?_eq_getElem hi, rfl⟩
  have hlookupj := (h.lookup_iff _ j).mpr ⟨_, List.getElem?_eq_getElem hj, rfl⟩
  rw [heq, hlookupj, Option.some.injEq] at hlookupi
  omega

theorem getElem?_append_singleton_eq_some_iff {xs : List Accessor} {a b : Accessor} {i : Nat} :
    (xs ++ [a])[i]? = some b ↔ xs[i]? = some b ∨ i = xs.length ∧ a = b := by
  rcases Nat.lt_trichotomy i xs.length with hlt | heq | hgt
  · rw [List.getElem?_append_left hlt]
    simp [Nat.ne_of_lt hlt]
  · subst heq
    simp
  · rw [List.getElem?_append_right (Nat.le_of_lt hgt), List.getElem?_eq_none (Nat.le_of_lt hgt)]
    have hone : 1 ≤ i - xs.length := by omega
    rw [List.getElem?_eq_none (by simpa using hone)]
    simp [Nat.ne_of_gt hgt]

/-- An accessor that is put at the end, for a request that had none, keeps a draft
    coherent. This is where the two updates have to fit together. -/
theorem Coherent.push {d : Draft} (h : d.Coherent) {r : Request} {m : Method}
    (hnew : d.find? r = none) (hm : r.forwardTo d.table = some m) :
    (d.push r (d.nextAccessor r m)).Coherent where
  lookup_iff q i := by
    -- The position in the index was the length of the list, which is where the accessor went.
    have hold := (h.find?_eq_none_iff r).mp hnew
    change ((r, d.product.accessors.length) :: d.index).lookup q = some i ↔
      ∃ a, (d.product.accessors ++ [d.nextAccessor r m])[i]? = some a ∧ a.request = q
    simp only [getElem?_append_singleton_eq_some_iff]
    by_cases hq : q = r
    · -- The new accessor is the only one for this request.
      subst hq
      rw [List.lookup_cons_self, Option.some.injEq]
      constructor
      · rintro rfl
        exact ⟨_, Or.inr ⟨rfl, rfl⟩, rfl⟩
      · rintro ⟨a, ha | ⟨hi, -⟩, hreq⟩
        · exact absurd hreq (hold a (List.mem_of_getElem? ha))
        · exact hi.symm
    · -- Of any other request the index says what it said before, and its accessor has not moved.
      rw [List.lookup_cons, beq_false_of_ne hq, h.lookup_iff q i]
      constructor
      · rintro ⟨a, ha, hreq⟩
        exact ⟨a, Or.inl ha, hreq⟩
      · rintro ⟨a, ha | ⟨-, rfl⟩, hreq⟩
        · exact ⟨a, ha, hreq⟩
        · exact absurd hreq.symm hq
  forwardTo_eq a ha := by
    rcases List.mem_append.mp ha with ha | ha
    · exact h.forwardTo_eq a ha
    · rw [List.mem_singleton.mp ha]
      exact hm
  eq_accessorAt i a ha := by
    -- The new accessor was made for the position where it now stands, and the old ones do not
    -- depend on how many there are.
    rcases getElem?_append_singleton_eq_some_iff.mp ha with ha | ⟨rfl, rfl⟩
    · exact h.eq_accessorAt i a ha
    · rfl

theorem Coherent.withField {d : Draft} (h : d.Coherent) (f : Field) :
    (d.withField f).Coherent where
  lookup_iff := h.lookup_iff
  forwardTo_eq := h.forwardTo_eq
  eq_accessorAt := h.eq_accessorAt

/-- Every call keeps a draft coherent. -/
theorem Coherent.call {d : Draft} (h : d.Coherent) (c : Call) : (d.call c).state.Coherent := by
  rcases d.state_call_cases c with hsame | ⟨r, m, -, hnew, hm, hpush⟩ | ⟨f, -, hfield⟩
  · rw [hsame]
    exact h
  · rw [hpush]
    exact h.push hnew hm
  · rw [hfield]
    exact h.withField f

/-- So does every run of calls. -/
theorem Coherent.after {d : Draft} (h : d.Coherent) (cs : List Call) : (d.after cs).Coherent := by
  induction cs generalizing d with
  | nil => exact h
  | cons c cs ih => exact ih (h.call c)

/-- Whatever a class under description was asked for, in whatever order and
    with whatever success, its draft is coherent. -/
theorem coherent_after (table : MethodTable) (settings : Settings) (name : BinaryName)
    (version : ClassVersion) (cs : List Call) :
    ((start table settings name version).after cs).Coherent :=
  (coherent_start table settings name version).after cs

/-- No call changes the table, the settings or the name of the class. -/
theorem frame_call (d : Draft) (c : Call) :
    (d.call c).state.table = d.table ∧ (d.call c).state.settings = d.settings ∧
      (d.call c).state.product.name = d.product.name := by
  rcases d.state_call_cases c with hsame | ⟨r, m, -, -, -, hpush⟩ | ⟨f, -, hfield⟩
  · rw [hsame]
    exact ⟨rfl, rfl, rfl⟩
  · rw [hpush]
    exact ⟨rfl, rfl, rfl⟩
  · rw [hfield]
    exact ⟨rfl, rfl, rfl⟩

theorem frame_after (d : Draft) (cs : List Call) :
    (d.after cs).table = d.table ∧ (d.after cs).settings = d.settings ∧
      (d.after cs).product.name = d.product.name := by
  induction cs generalizing d with
  | nil => exact ⟨rfl, rfl, rfl⟩
  | cons c cs ih =>
      rcases ih (d.call c).state with ⟨htable, hsettings, hname⟩
      rcases d.frame_call c with ⟨htable', hsettings', hname'⟩
      exact ⟨htable.trans htable', hsettings.trans hsettings', hname.trans hname'⟩

theorem flags_call (d : Draft) (c : Call) : (d.call c).state.product.flags = d.product.flags := by
  rcases d.state_call_cases c with hsame | ⟨r, m, -, -, -, hpush⟩ | ⟨f, -, hfield⟩
  · rw [hsame]
  · rw [hpush]
    rfl
  · rw [hfield]
    rfl

/-- Members are all that calls add to a class. -/
theorem flags_after (d : Draft) (cs : List Call) :
    (d.after cs).product.flags = d.product.flags := by
  induction cs generalizing d with
  | nil => rfl
  | cons c cs ih => exact (ih (d.call c).state).trans (d.flags_call c)

/-- A call may add an accessor behind the others, and does nothing else to them. -/
theorem accessors_prefix_call (d : Draft) (c : Call) :
    d.product.accessors <+: (d.call c).state.product.accessors := by
  rcases d.state_call_cases c with hsame | ⟨r, m, -, -, -, hpush⟩ | ⟨f, -, hfield⟩
  · exact ⟨[], by rw [List.append_nil, hsame]⟩
  · exact ⟨[d.nextAccessor r m], by rw [hpush]; rfl⟩
  · exact ⟨[], by rw [List.append_nil, hfield]; rfl⟩

/-- Accessors are never moved, replaced or taken away in a run. -/
theorem accessors_prefix_after (d : Draft) (cs : List Call) :
    d.product.accessors <+: (d.after cs).product.accessors := by
  induction cs generalizing d with
  | nil => exact List.prefix_rfl
  | cons c cs ih => exact (d.accessors_prefix_call c).trans (ih (d.call c).state)

/-- A request that has an accessor is answered with it, and nothing changes. -/
theorem Coherent.require_of_mem {d : Draft} (h : d.Coherent) {r : Request} {a : Accessor}
    (ha : a ∈ d.product.accessors) (hr : a.request = r) :
    (d.require r).answer = .ok a.method ∧ (d.require r).state = d := by
  rw [require_of_find? ((h.find?_eq_some_iff r a).mpr ⟨ha, hr⟩)]
  exact ⟨rfl, rfl⟩

/-- What a request is answered with is an accessor that it has from then on. -/
theorem Coherent.mem_of_require_ok {d : Draft} (h : d.Coherent) {r : Request} {m : Method}
    (hok : (d.require r).answer = .ok m) :
    ∃ a ∈ (d.require r).state.product.accessors, a.request = r ∧ a.method = m := by
  cases hfind : d.find? r with
  | some a =>
      -- It was answered from the index.
      rw [require_of_find? hfind] at hok ⊢
      rcases (h.find?_eq_some_iff r a).mp hfind with ⟨ha, hreq⟩
      exact ⟨a, ha, hreq, Except.ok.inj hok⟩
  | none =>
      cases hto : r.forwardTo d.table with
      | none =>
          rw [(require_of_forwardTo_none hfind hto).1] at hok
          cases hok
      | some n =>
          -- It was answered with the accessor that stands at the end now.
          rcases require_of_forwardTo_some hfind hto with ⟨hanswer, hstate⟩
          rw [hanswer] at hok
          rw [hstate]
          exact ⟨d.nextAccessor r n, List.mem_append_right _ (List.mem_singleton_self _), rfl,
            Except.ok.inj hok⟩

/-- A request that was answered once is answered alike ever after, and its
    accessor stays in the class. -/
theorem Coherent.require_after {d : Draft} (h : d.Coherent) {r : Request} {m : Method}
    (hok : (d.require r).answer = .ok m) (cs : List Call) :
    (((d.require r).state.after cs).require r).answer = .ok m ∧
      ∃ a ∈ ((d.require r).state.after cs).product.accessors, a.request = r ∧ a.method = m := by
  have hstate : (d.require r).state.Coherent := h.call (.require r)
  -- The accessor is there after the first request and is never taken away.
  rcases h.mem_of_require_ok hok with ⟨a, ha, hreq, hmethod⟩
  have hmem := ((d.require r).state.accessors_prefix_after cs).subset ha
  rw [((hstate.after cs).require_of_mem hmem hreq).1, hmethod]
  exact ⟨rfl, a, hmem, hreq, hmethod⟩

/-- What a request does to the accessors: one more for a request that had none
    and is answered, and nothing otherwise. -/
theorem Coherent.accessors_require {d : Draft} (h : d.Coherent) (r : Request) :
    ((∃ m, (d.require r).answer = .ok m) ∧ (∀ a ∈ d.product.accessors, a.request ≠ r) ∧
        ∃ a, (d.require r).state.product.accessors = d.product.accessors ++ [a]) ∨
      ¬ ((∃ m, (d.require r).answer = .ok m) ∧ ∀ a ∈ d.product.accessors, a.request ≠ r) ∧
        (d.require r).state.product.accessors = d.product.accessors := by
  cases hfind : d.find? r with
  | some a =>
      -- It has an accessor, and there is nothing to add.
      rcases (h.find?_eq_some_iff r a).mp hfind with ⟨ha, hreq⟩
      refine Or.inr ⟨fun hnew => hnew.2 a ha hreq, ?_⟩
      rw [require_of_find? hfind]
  | none =>
      have hnew := (h.find?_eq_none_iff r).mp hfind
      cases hto : r.forwardTo d.table with
      | none =>
          rcases require_of_forwardTo_none hfind hto with ⟨hanswer, hstate⟩
          -- It has none, but it is not answered.
          refine Or.inr ⟨fun hok => ?_, by rw [hstate]⟩
          rcases hok with ⟨⟨m, hm⟩, -⟩
          rw [hanswer] at hm
          cases hm
      | some m =>
          rcases require_of_forwardTo_some hfind hto with ⟨hanswer, hstate⟩
          exact Or.inl ⟨⟨_, hanswer⟩, hnew, d.nextAccessor r m, by rw [hstate]; rfl⟩

theorem accessors_addField (d : Draft) (f : Field) :
    (d.addField f).state.product.accessors = d.product.accessors := by
  rw [addField]
  split
  · rfl
  · rfl

theorem answer_call_require_eq_ok_iff (d : Draft) (r : Request) (m : Method) :
    (d.call (.require r)).answer = .ok (.accessor m) ↔ (d.require r).answer = .ok m := by
  rw [call, Outcome.map]
  cases (d.require r).answer with
  | error e => simp [Except.map]
  | ok n => simp [Except.map]

/-- Within a run a request that was answered is answered alike from then on,
    with an accessor that is still there at the end. -/
theorem answers_stable {d : Draft} (h : d.Coherent) {cs : List Call} {i j : Nat} {r : Request}
    {m : Method} (hij : i ≤ j) (hi : cs[i]? = some (.require r))
    (hj : cs[j]? = some (.require r))
    (hanswer : (d.answers cs)[i]? = some (.ok (.accessor m))) :
    (d.answers cs)[j]? = some (.ok (.accessor m)) ∧
      ∃ a ∈ (d.after cs).product.accessors, a.request = r ∧ a.method = m := by
  have hbefore : (d.after (cs.take i)).Coherent := h.after _
  -- In the run the request was made of the draft that the calls before it lead to.
  have hok : ((d.after (cs.take i)).require r).answer = .ok m := by
    rw [getElem?_answers, hi, Option.map_some, Option.some.injEq] at hanswer
    exact (answer_call_require_eq_ok_iff _ r m).mp hanswer
  constructor
  · rcases Nat.eq_or_lt_of_le hij with rfl | hlt
    · exact hanswer
    · -- The later call comes after the earlier one and what was called in between.
      have hi' : (cs.take j)[i]? = some (.require r) := by rw [List.getElem?_take_of_lt hlt, hi]
      have hsplit := d.after_eq_of_getElem? hi'
      rw [List.take_take, Nat.min_eq_left hij] at hsplit
      rw [getElem?_answers, hj, Option.map_some, hsplit, state_call_require,
        (answer_call_require_eq_ok_iff _ r m).mpr (hbefore.require_after hok _).1]
  · rw [d.after_eq_of_getElem? hi]
    exact (hbefore.require_after hok _).2

/-- Every run makes at most one accessor for a request, for good. At any point
    of it, no two accessors have one request, and the index has the requests
    of the accessors with their positions. A request adds an accessor when it
    is answered and had none, and leaves the accessors alone otherwise, as
    fields do. Accessors keep their places. And once a request was answered it
    is answered alike from then on, with the accessor that the class has for
    it in the end. -/
theorem one_accessor_per_request (table : MethodTable) (settings : Settings) (name : BinaryName)
    (version : ClassVersion) (cs : List Call) :
    let d := (start table settings name version).after cs
    (d.product.accessors.map (·.request)).Nodup ∧
    (∀ r i, d.index.lookup r = some i ↔
      ∃ a, d.product.accessors[i]? = some a ∧ a.request = r) ∧
    (∀ r, (d.require r).state.product.accessors.length = d.product.accessors.length + 1 ↔
      (∃ m, (d.require r).answer = .ok m) ∧ ∀ a ∈ d.product.accessors, a.request ≠ r) ∧
    (∀ r, ¬ ((∃ m, (d.require r).answer = .ok m) ∧ ∀ a ∈ d.product.accessors, a.request ≠ r) →
      (d.require r).state.product.accessors = d.product.accessors) ∧
    (∀ f, (d.addField f).state.product.accessors = d.product.accessors) ∧
    (∀ ds, d.product.accessors <+: (d.after ds).product.accessors) ∧
    ∀ (i j : Nat) (r : Request) (m : Method), i ≤ j →
      cs[i]? = some (.require r) → cs[j]? = some (.require r) →
      ((start table settings name version).answers cs)[i]? = some (.ok (.accessor m)) →
      ((start table settings name version).answers cs)[j]? = some (.ok (.accessor m)) ∧
        ∃ a ∈ d.product.accessors, a.request = r ∧ a.method = m := by
  intro d
  have hd : d.Coherent := coherent_after table settings name version cs
  refine ⟨hd.nodup, hd.lookup_iff, fun r => ?_, fun r hnot => ?_, fun f => ?_,
    d.accessors_prefix_after, fun i j r m hij hi hj hanswer => ?_⟩
  · rcases hd.accessors_require r with ⟨hok, hnew, a, happend⟩ | ⟨hnot, hsame⟩
    · -- The list has grown by one in the first case and stays in the second, and the cases exclude
      -- each other.
      rw [happend, List.length_append]
      exact ⟨fun _ => ⟨hok, hnew⟩, fun _ => rfl⟩
    · rw [hsame]
      exact ⟨fun hlength => by omega, fun hnew => absurd hnew hnot⟩
  · rcases hd.accessors_require r with ⟨hok, hnew, -⟩ | ⟨-, hsame⟩
    · exact absurd ⟨hok, hnew⟩ hnot
    · exact hsame
  · exact accessors_addField d f
  · exact answers_stable (coherent_start table settings name version) hij hi hj hanswer

/-- A trusted request, one that is refused, a field, and the first again. -/
def repeatedCalls : List Call :=
  [.require ⟨⟨⟨"p.Sub"⟩, "add", [.prim .int], .prim .long, ∅⟩, .identity⟩,
    .require ⟨⟨⟨"p.Sub"⟩, "add", [.prim .int], .prim .long, ∅⟩, .signature⟩,
    .addField ⟨"hits", .prim .int, .accStatic⟩,
    .require ⟨⟨⟨"p.Sub"⟩, "add", [.prim .int], .prim .long, ∅⟩, .identity⟩]

/-- The four calls leave one accessor, with which the first and the last of them are
    answered. -/
theorem one_accessor_for_repeatedCalls :
    let d := start (.empty ⟨"p.Sub"⟩) .standard ⟨"p.Aux"⟩ .standard
    (d.after repeatedCalls).product.accessors.length = 1 ∧
    ∃ m, (d.answers repeatedCalls)[0]? = some (.ok (.accessor m)) ∧
      (d.answers repeatedCalls)[3]? = some (.ok (.accessor m)) ∧
      ∃ a ∈ (d.after repeatedCalls).product.accessors, a.method = m := by
  intro d
  have hanswer : ∃ m, (d.answers repeatedCalls)[0]? = some (.ok (.accessor m)) := ⟨_, rfl⟩
  rcases hanswer with ⟨m, hm⟩
  rcases one_accessor_per_request (.empty ⟨"p.Sub"⟩) .standard ⟨"p.Aux"⟩ .standard
    repeatedCalls with ⟨-, -, -, -, -, -, hstable⟩
  rcases hstable 0 3 _ m (by decide) rfl rfl hm with ⟨hagain, a, ha, -, hmethod⟩
  exact ⟨by decide +kernel, m, hm, hagain, a, ha, hmethod⟩

end Draft

end SyntheticAccess
