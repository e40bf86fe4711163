import SyntheticAccess.Proofs.Sides

/-!
# The Log of a Run

What an observer is told while calls are made, and how it can be reconciled with
what the calls did. Nothing looks at the log, and one request may be told about
twice: that its signature was looked up is told before it is known whether what
was found can be called, and that an accessor was made is told after that. So a
lookup can be in the log of a request that was refused in the end.

`Accounts` says what it means for events to account for a stretch of a run. They
tell of the accessors that were added, one after the other. The requests that
were answered are those for which an accessor was made or reused. And there is
one lookup for each request that was left to the method table, a missed one
where the table has nothing under the signature.

Such accounts add up, so it is enough to have them for what a request consists
of: a lookup on its own, which adds nothing and answers nothing, a reused
accessor, and a new one. The invariant of drafts is needed in one place only.
A request is left to the table when it is not in the index, but what a draft
goes by is whether there is an accessor where the index points.

## Main definitions

* `Event.told`: The events of a log with one message.
* `Draft.log`: What an observer is told during a run.
* `Draft.lookedUp`: The requests of a run that are left to the method table.
* `Draft.answeredRequests`: How many requests of a run are answered.
* `Accounts`: Events that account for a stretch of a run.

## Theorems

* `Accounts.append`: Accounts of two stretches add up.
* `Coherent.accounts_call`, `Coherent.accounts_log`: One call, and every run.
* `events_run_script_lines`: The log is what a script of the calls tells.
* `Coherent.told_missed_iff`: Which requests are told to be missed.
* `Coherent.told_of_error`: A refused call tells of no accessor.
* `log_accounts_for_requests`: What the log of a new draft comes to.
-/

namespace SyntheticAccess

/-- The events of a log that have the given message. -/
def Event.told (message : String) (log : List Event) : List Event :=
  log.filter (·.message == message)

theorem Event.told_append (message : String) (log more : List Event) :
    told message (log ++ more) = told message log ++ told message more :=
  List.filter_append log more

/-- What an observer is told when the accessor is made. -/
def Accessor.creation (a : Accessor) : Event :=
  .accessorCreated a.method.owner a.method.name a.resolved a.request.resolution

/-- What an observer is told of those requests of a list for which the table has
    nothing. -/
def MethodTable.misses (table : MethodTable) (rs : List Request) : List Event :=
  (rs.filter fun r => !table.contains r.target.signature).map fun r =>
    .signatureMissed r.target.signature table.context

open Event in
/-- The events account for a stretch of a run that led from some accessors to
    others, answered a number of requests, and left some to the table. -/
structure Accounts (table : MethodTable) (before after : List Accessor) (events : List Event)
    (answered : Nat) (lookedUp : List Request) : Prop where
  /-- The accessors that were added are told of in their order. -/
  created : after.map Accessor.creation =
    before.map Accessor.creation ++ told "created accessor" events
  /-- A request that was answered was given an accessor from before or a new one. -/
  reused : (told "reusing accessor" events).length + after.length = before.length + answered
  /-- There is one lookup for each request that was left to the table. -/
  lookups : (told "resolved by signature" events).length +
    (told "signature lookup missed" events).length = lookedUp.length
  /-- Those are missed for which the table has nothing. -/
  missed : told "signature lookup missed" events = table.misses lookedUp

namespace Accounts

variable {table : MethodTable}

theorem nil (as : List Accessor) : Accounts table as as [] 0 [] where
  created := (List.append_nil _).symm
  reused := Nat.zero_add _
  lookups := rfl
  missed := rfl

/-- An accessor that is reused answers a request, and nothing else happens. -/
theorem accessorReused (as : List Accessor) (name : String) (p : Resolution) :
    Accounts table as as [.accessorReused name p] 1 [] := by
  constructor <;> simp [Event.told, Event.message, MethodTable.misses, Nat.add_comm]

/-- A new accessor answers a request and goes to the end. -/
theorem accessorCreated (as : List Accessor) (a : Accessor) :
    Accounts table as (as ++ [a]) [a.creation] 1 [] := by
  constructor <;> simp [Event.told, Event.message, Accessor.creation, MethodTable.misses]

/-- A lookup on its own neither adds an accessor nor answers the request. -/
theorem resolveEvents (as : List Accessor) (r : Request) :
    Accounts table as as (r.resolveEvents table) 0
      (if r.resolution = .signature then [r] else []) := by
  rw [Request.resolveEvents]
  cases r.resolution with
  | identity => exact nil as
  | signature =>
      -- Found or missed, there is one event, and it is of the kind that the table decides.
      cases hget : table.get? r.target.signature with
      | none =>
          constructor <;>
            simp [Event.told, Event.message, MethodTable.misses, MethodTable.contains, hget]
      | some m =>
          constructor <;>
            simp [Event.told, Event.message, MethodTable.misses, MethodTable.contains, hget]

/-- The accounts of two stretches, one of which starts where the other ends, are
    together an account of both. -/
theorem append {as bs cs : List Accessor} {events more : List Event} {n k : Nat}
    {rs qs : List Request} (h : Accounts table as bs events n rs)
    (hmore : Accounts table bs cs more k qs) :
    Accounts table as cs (events ++ more) (n + k) (rs ++ qs) where
  created := by
    rw [hmore.created, h.created, Event.told_append, List.append_assoc]
  reused := by
    -- The number of accessors in between is in both sums and drops out.
    have hfirst := h.reused
    have hsecond := hmore.reused
    rw [Event.told_append, List.length_append]
    omega
  lookups := by
    have hfirst := h.lookups
    have hsecond := hmore.lookups
    simp only [Event.told_append, List.length_append]
    omega
  missed := by
    rw [Event.told_append, h.missed, hmore.missed, MethodTable.misses, MethodTable.misses,
      MethodTable.misses, List.filter_append, List.map_append]

end Accounts

namespace Draft

open Event

/-- What an observer is told during a run. -/
def log (d : Draft) : List Call → List Event
  | [] => []
  | c :: cs => (d.call c).events ++ (d.call c).state.log cs

/-- The request of a call, if it is by signature and not in the index, so that it
    is left to the method table. -/
def lookedUpBy (d : Draft) : Call → List Request
  | .require r => if r.resolution = .signature ∧ d.index.lookup r = none then [r] else []
  | .addField _ => []

/-- The requests of a run that are left to the method table. -/
def lookedUp (d : Draft) : List Call → List Request
  | [] => []
  | c :: cs => d.lookedUpBy c ++ (d.call c).state.lookedUp cs

/-- How many requests of a run are answered. A request that is answered twice
    counts twice. -/
def answeredRequests (d : Draft) (cs : List Call) : Nat :=
  (d.transcript cs).countP fun e => e.1.side == .accessors && e.2.isOk

theorem answeredRequests_singleton (d : Draft) (c : Call) :
    d.answeredRequests [c] =
      if (c.side == .accessors && (d.call c).answer.isOk) = true then 1 else 0 := by
  rw [answeredRequests]
  exact List.countP_singleton

theorem answeredRequests_cons (d : Draft) (c : Call) (cs : List Call) :
    d.answeredRequests (c :: cs) =
      d.answeredRequests [c] + (d.call c).state.answeredRequests cs := by
  rw [answeredRequests_singleton, answeredRequests, transcript_cons, List.countP_cons, Nat.add_comm,
    answeredRequests]

theorem answeredRequests_require_of_ok {d : Draft} {r : Request} {m : Method}
    (h : (d.require r).answer = .ok m) : d.answeredRequests [.require r] = 1 := by
  rw [answeredRequests_singleton, (d.answer_call_require_eq_ok_iff r m).mpr h]
  rfl

/-- A refused call counts as nothing, whatever it asked for. -/
theorem answeredRequests_of_error {d : Draft} {c : Call} {e : Failure}
    (h : (d.call c).answer = .error e) : d.answeredRequests [c] = 0 := by
  rw [answeredRequests_singleton, h, Except.isOk, Except.toBool, Bool.and_false]
  rfl

/-- What a script tells whose lines are all tolerated is the log of its calls. -/
theorem events_run_script_lines (d : Draft) (cs : List Call) :
    (Description.run d (.script (cs.map Call.line))).events = d.log cs := by
  induction cs generalizing d with
  | nil => rfl
  | cons c cs ih =>
      have hrest := ih (d.call c).state
      rw [Description.run] at hrest ⊢
      rw [List.map_cons, runScript_line, log, ← hrest]

/-- A coherent draft finds an accessor for the requests in its index, and only
    for those. -/
theorem Coherent.lookup_eq_none_iff {d : Draft} (h : d.Coherent) (r : Request) :
    d.index.lookup r = none ↔ d.find? r = none := by
  rw [h.find?_eq_none_iff]
  constructor
  · intro hnone a ha hreq
    -- An accessor for the request stands somewhere, and the index would say where.
    rcases List.getElem?_of_mem ha with ⟨i, hi⟩
    rw [(h.lookup_iff r i).mpr ⟨a, hi, hreq⟩] at hnone
    cases hnone
  · intro hall
    cases hlookup : d.index.lookup r with
    | none => rfl
    | some i =>
        rcases (h.lookup_iff r i).mp hlookup with ⟨a, ha, hreq⟩
        exact absurd hreq (hall a (List.mem_of_getElem? ha))

/-- The events of a request account for it. -/
theorem Coherent.accounts_require {d : Draft} (h : d.Coherent) (r : Request) :
    Accounts d.table d.product.accessors (d.require r).state.product.accessors
      (d.require r).events (d.answeredRequests [.require r]) (d.lookedUpBy (.require r)) := by
  rw [lookedUpBy]
  cases hfind : d.find? r with
  | some a =>
      -- A request in the index is answered with its accessor, and the table is not asked.
      have hindex : d.index.lookup r ≠ none := by
        rw [Ne, h.lookup_eq_none_iff, hfind]
        exact Option.some_ne_none a
      have hrequire := require_of_find? hfind
      rw [answeredRequests_require_of_ok (congrArg Outcome.answer hrequire), hrequire,
        if_neg fun hboth => hindex hboth.2]
      exact .accessorReused _ _ _
  | none =>
      -- Whether the table is asked is now a matter of the resolution alone.
      have hindex : d.index.lookup r = none := (h.lookup_eq_none_iff r).mpr hfind
      simp only [hindex, and_true]
      cases hto : r.forwardTo d.table with
      | none =>
          have hrequire := require_eq_of_forwardTo_none hfind hto
          -- The request is refused, so there is the lookup, if any, and nothing else.
          have herror : (d.call (.require r)).answer = .error _ :=
            ((d.require r).answer_map_eq_error_iff Note.accessor _).mpr
              (congrArg Outcome.answer hrequire)
          rw [answeredRequests_of_error herror, hrequire]
          exact .resolveEvents _ r
      | some m =>
          -- The lookup comes first, the accessor after it.
          have hrequire := require_eq_of_forwardTo_some hfind hto
          have hlookup : Accounts d.table d.product.accessors d.product.accessors
              (r.resolveEvents d.table) 0 _ := .resolveEvents _ r
          have hboth := hlookup.append (.accessorCreated _ (d.nextAccessor r m))
          rw [Nat.zero_add, List.append_nil] at hboth
          rw [answeredRequests_require_of_ok (congrArg Outcome.answer hrequire), hrequire]
          exact hboth

theorem events_addField (d : Draft) (f : Field) : (d.addField f).events = [] := by
  rw [addField]
  split
  · rfl
  · rfl

/-- The events of a call account for it. Fields are not told of. -/
theorem Coherent.accounts_call {d : Draft} (h : d.Coherent) (c : Call) :
    Accounts d.table d.product.accessors (d.call c).state.product.accessors (d.call c).events
      (d.answeredRequests [c]) (d.lookedUpBy c) := by
  cases c with
  | require r => exact h.accounts_require r
  | addField f =>
      change Accounts d.table d.product.accessors (d.addField f).state.product.accessors
        (d.addField f).events 0 []
      rw [accessors_addField, events_addField]
      exact .nil _

/-- The log of a run accounts for it. -/
theorem Coherent.accounts_log {d : Draft} (h : d.Coherent) (cs : List Call) :
    Accounts d.table d.product.accessors (d.after cs).product.accessors (d.log cs)
      (d.answeredRequests cs) (d.lookedUp cs) := by
  induction cs generalizing d with
  | nil => exact .nil _
  | cons c cs ih =>
      have hrest := ih (h.call c)
      -- The rest of the run looks into the same table.
      rw [(d.frame_call c).1] at hrest
      rw [after_cons, log, lookedUp, answeredRequests_cons]
      exact (h.accounts_call c).append hrest

/-- A request is told to be missed when it is by signature, is not in the index,
    and the table has nothing for it, and only then. -/
theorem Coherent.told_missed_iff {d : Draft} (h : d.Coherent) (r : Request) :
    told "signature lookup missed" (d.require r).events ≠ [] ↔
      r.resolution = .signature ∧ d.index.lookup r = none ∧
        d.table.get? r.target.signature = none := by
  rw [(h.accounts_require r).missed, MethodTable.misses, Ne, List.map_eq_nil_iff,
    List.filter_eq_nil_iff, lookedUpBy]
  -- Only a request that is left to the table can be missed.
  by_cases hleft : r.resolution = .signature ∧ d.index.lookup r = none
  · rw [if_pos hleft]
    simp [hleft, MethodTable.contains]
  · rw [if_neg hleft]
    constructor
    · exact fun hnot => absurd (List.forall_mem_nil _) hnot
    · exact fun hmissed => absurd ⟨hmissed.1, hmissed.2.1⟩ hleft

/-- A refused call tells of no accessor, neither of a new one nor of one from
    before, although it may tell of a lookup. -/
theorem Coherent.told_of_error {d : Draft} (h : d.Coherent) {c : Call} {e : Failure}
    (he : (d.call c).answer = .error e) :
    told "created accessor" (d.call c).events = [] ∧
      told "reusing accessor" (d.call c).events = [] := by
  have haccounts := h.accounts_call c
  -- It added nothing and answered nothing, so there is nothing to account for.
  rw [state_call_of_error he, answeredRequests_of_error he] at haccounts
  have hlength := haccounts.reused
  constructor
  · exact List.self_eq_append_right.mp haccounts.created
  · -- As many accessors as before and no answers leave no room for a reused one.
    exact List.eq_nil_of_length_eq_zero (by omega)

/-- What the log of a new draft comes to, after any run, which is what an observer
    of the calls is told. It tells of the accessors of the class in their order,
    and as often of a reused one as requests were answered without a new one. There
    is one lookup for each request by signature that was not in the index. Those
    are missed for which the table has nothing, and each is told of by its own
    request. A call that is refused tells of no accessor at all. -/
theorem log_accounts_for_requests (table : MethodTable) (settings : Settings) (name : BinaryName)
    (version : ClassVersion) (cs : List Call) :
    let new := start table settings name version
    let d := new.after cs
    let log := new.log cs
    (Description.run new (.script (cs.map Call.line))).events = log ∧
    told "created accessor" log = d.product.accessors.map Accessor.creation ∧
    (told "reusing accessor" log).length + d.product.accessors.length =
      new.answeredRequests cs ∧
    (told "resolved by signature" log).length + (told "signature lookup missed" log).length =
      (new.lookedUp cs).length ∧
    told "signature lookup missed" log = table.misses (new.lookedUp cs) ∧
    (∀ r, told "signature lookup missed" (d.require r).events ≠ [] ↔
      r.resolution = .signature ∧ d.index.lookup r = none ∧
        table.get? r.target.signature = none) ∧
    ∀ c e, (d.call c).answer = .error e →
      told "created accessor" (d.call c).events = [] ∧
        told "reusing accessor" (d.call c).events = [] := by
  intro new d log
  have hnew : new.Coherent := coherent_start table settings name version
  have hd : d.Coherent := hnew.after cs
  have htable : d.table = table := (new.frame_after cs).1
  have haccounts : Accounts table [] d.product.accessors log _ _ := hnew.accounts_log cs
  refine ⟨new.events_run_script_lines cs, haccounts.created.symm,
    haccounts.reused.trans (Nat.zero_add _), haccounts.lookups, haccounts.missed, fun r => ?_,
    fun _ _ => hd.told_of_error⟩
  rw [hd.told_missed_iff, htable]

/-- The table of a class that inherits two methods, one of them static. -/
def inheritedTable : MethodTable :=
  .ofCandidates ⟨"p.Sub"⟩
    [⟨⟨"p.Base"⟩, "add", [.prim .int], .prim .long, ∅⟩,
      ⟨⟨"p.Base"⟩, "size", [], .prim .int, .accStatic⟩]

/-- One request of every kind: found and new, found but static, missed, known
    already, and trusted, with a field among them. -/
def variedCalls : List Call :=
  [.require ⟨⟨⟨"p.Sub"⟩, "add", [.prim .int], .prim .long, ∅⟩, .signature⟩,
    .require ⟨ownSize, .signature⟩,
    .require ⟨⟨⟨"p.Sub"⟩, "add", [.prim .long], .prim .long, ∅⟩, .signature⟩,
    .addField ⟨"hits", .prim .int, ∅⟩,
    .require ⟨⟨⟨"p.Sub"⟩, "add", [.prim .int], .prim .long, ∅⟩, .signature⟩,
    .require ⟨ownSize, .identity⟩]

/-- The log of the calls tells of two accessors, of one that was reused, and of
    three lookups, one of them missed. The request for the static method was refused
    although it was looked up, and again it tells of no accessor. -/
theorem log_accounts_for_requests_variedCalls :
    let new := start inheritedTable .standard ⟨"p.Aux"⟩ .standard
    let d := new.after variedCalls
    let log := new.log variedCalls
    (told "created accessor" log).map (·.fields.lookup "accessor") =
      [some (.text "add$accessor$0"), some (.text "size$accessor$1")] ∧
    (told "reusing accessor" log).length = 1 ∧
    (told "resolved by signature" log).length + (told "signature lookup missed" log).length = 3 ∧
    (told "signature lookup missed" log).length = 1 ∧
    (d.call (.require ⟨ownSize, .signature⟩)).answer = .error (.unreachable ownSize ⟨"p.Sub"⟩) ∧
    told "created accessor" (d.call (.require ⟨ownSize, .signature⟩)).events = [] ∧
    told "reusing accessor" (d.call (.require ⟨ownSize, .signature⟩)).events = [] := by
  intro new d log
  rcases log_accounts_for_requests inheritedTable .standard ⟨"p.Aux"⟩ .standard variedCalls with
    ⟨-, hcreated, hreused, hlookups, hmissed, -, herror⟩
  have hrefused : (d.call (.require ⟨ownSize, .signature⟩)).answer =
      .error (.unreachable ownSize ⟨"p.Sub"⟩) := by
    decide +kernel
  have hanswered : new.answeredRequests variedCalls = 3 := by decide +kernel
  have hcount : d.product.accessors.length = 2 := by decide +kernel
  refine ⟨?_, ?_, ?_, ?_, hrefused, herror _ _ hrefused⟩
  · rw [hcreated]
    decide +kernel
  · have hsum : (told "reusing accessor" log).length + d.product.accessors.length =
        new.answeredRequests variedCalls := hreused
    rw [hcount, hanswered] at hsum
    exact Nat.succ.inj (Nat.succ.inj hsum)
  · rw [hlookups]
    decide +kernel
  · rw [hmissed]
    decide +kernel

end Draft

end SyntheticAccess
