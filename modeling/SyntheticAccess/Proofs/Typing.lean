import SyntheticAccess.Proofs.Descriptors
import SyntheticAccess.Proofs.Drafting
import SyntheticAccess.Proofs.Reachability

/-!
# Accessors Are Well Typed

Forwarding code is put together without being checked: arguments are loaded by
the types of the target, the call goes to the method that was found, and the
result is returned as the target's. For a request by signature these are two
different methods, so that the code makes sense is a fact about how the second
one was found.

`Instr.Types` gives the typing rules, as the virtual machine has them for
straight-line code: what an instruction takes off a stack of erased types and
what it leaves there. `Returns` runs a sequence of instructions up to the
return. The rules know the parameters of the method they are in, with the
local variables each of them occupies, so that loading the wrong variable is
as wrong as loading the wrong kind. `void` counts as a type with values that
take no space, so that calls without a result need no rule of their own.

What makes the call agree with the loads is the signature under which the
method was found. Tables filled from candidates have every method under its
own signature, and for well-formed names equal signatures mean equal erased
parameters. What makes the result agree is the check that a request makes of
the method it found, and the cast, which is there whenever the kinds agree and
the erased types do not.

## Main definitions

* `SigType.width`: The space that parameters take.
* `Instr.Types`: The typing rules of single instructions.
* `ForwardCode.Returns`: Typing of code up to its return.
* `Method.operandKinds`: What a call of a method takes off the stack.
* `MethodTable.Built`: The tables that candidates or declarations lead to.
* `Accessor.WellTyped`: What holds of every accessor.

## Theorems

* `returns_loads`: Loading the arguments, typed.
* `returns_calling`: Forwarding code, typed.
* `Built.of_get?`: Built tables have methods under their signatures.
* `wellTyped_accessorAt`: An accessor made for a request is well typed.
* `wellTyped_of_mem_after`: So are all accessors, after any run.
-/

namespace SyntheticAccess

/-- The local variables that values of the types occupy together. -/
def SigType.width : List SigType → Nat
  | [] => 0
  | t :: ts => t.slots + width ts

theorem SigType.width_append (ts us : List SigType) : width (ts ++ us) = width ts + width us := by
  induction ts with
  | nil => rw [List.nil_append, width, Nat.zero_add]
  | cons t ts ih => rw [List.cons_append, width, width, ih, Nat.add_assoc]

/-- The typing rules of instructions in a method with the given parameters.
    Stacks hold erased types and are written with the last value first. -/
inductive Instr.Types (params : List SigType) :
    Instr → List SigType → List SigType → Prop where
  /-- A parameter is loaded from the variable after those of the parameters
      before it. -/
  | load {stack : List SigType} {i : Nat} {t : SigType} {slot : UInt16} :
      params[i]? = some t → slot.toNat = SigType.width (params.take i) →
      Types params (.load slot t.kind) stack (t.erasure :: stack)
  /-- A static method takes its arguments. -/
  | invokeStatic {stack : List SigType} {m : Method} : m.isStatic = true →
      Types params (.invoke .static m)
        ((m.params.map SigType.erasure).reverse ++ stack) (m.result.erasure :: stack)
  /-- Any other method takes a receiver before them, and how it is called
      depends on whether it is private. -/
  | invokeOn {stack : List SigType} {m : Method} {receiver : SigType} : m.isStatic = false →
      receiver.isReference = true →
      Types params (.invoke (if m.isPrivate then .special else .virtual) m)
        ((m.params.map SigType.erasure).reverse ++ receiver :: stack)
        (m.result.erasure :: stack)
  /-- A cast takes one reference for another. -/
  | cast {stack : List SigType} {t found : SigType} : t.isReference = true →
      found.isReference = true → Types params (.cast t) (found :: stack) (t.erasure :: stack)

namespace ForwardCode

/-- The code is typed from the given stack on and returns a value of the type,
    with nothing else left on the stack. -/
inductive Returns (params : List SigType) : List Instr → List SigType → SigType → Prop where
  | ret {t : SigType} : Returns params [.ret t.kind] [t] t
  | step {i : Instr} {is : List Instr} {stack next : List SigType} {t : SigType} :
      i.Types params stack next → Returns params is next t → Returns params (i :: is) stack t

/-- The kinds of the values that code loads, in order. -/
def loadedKinds (c : ForwardCode) : List StackKind :=
  c.instrs.filterMap fun
    | .load _ kind => some kind
    | _ => none

/-- The methods that code calls, in order. -/
def callees (c : ForwardCode) : List Method :=
  c.instrs.filterMap fun
    | .invoke _ m => some m
    | _ => none

/-- The types that code casts to, in order. -/
def casts (c : ForwardCode) : List SigType :=
  c.instrs.filterMap fun
    | .cast t => some t
    | _ => none

/-- As long as the variables fit, counting them does not wrap around. -/
theorem toNat_nextSlot {slot : UInt16} {t : SigType} (h : slot.toNat + t.slots ≤ 65535) :
    (nextSlot slot t).toNat = slot.toNat + t.slots := by
  rw [nextSlot, UInt16.toNat_add, UInt16.toNat_ofNat', Nat.add_mod_mod, Nat.mod_eq_of_lt (by omega)]

/-- Loading the arguments that are left puts their types on the stack, from
    wherever the arguments before them end. -/
theorem returns_loads {params before ts : List SigType} {slot : UInt16} {rest : List Instr}
    {stack : List SigType} {t : SigType} (hparams : params = before ++ ts)
    (hslot : slot.toNat = SigType.width before)
    (hfit : SigType.width params ≤ 65535)
    (hrest : Returns params rest ((ts.map SigType.erasure).reverse ++ stack) t) :
    Returns params (loads slot ts ++ rest) stack t := by
  induction ts generalizing before slot stack with
  | nil => exact hrest
  | cons u us ih =>
      -- The variables of this parameter still fit, so the next slot is where they end.
      have hsum : SigType.width before + u.slots ≤ 65535 := by
        rw [hparams, SigType.width_append, SigType.width] at hfit
        omega
      refine .step (.load (i := before.length) ?_ ?_) ?_
      · rw [hparams, List.getElem?_append_right (Nat.le_refl _), Nat.sub_self,
          List.getElem?_cons_zero]
      · rw [hslot, hparams, List.take_left]
      · have hsplit : params = (before ++ [u]) ++ us := by
          rw [hparams, List.append_assoc]
          rfl
        refine ih hsplit ?_ ?_
        · rw [toNat_nextSlot (by omega), hslot, SigType.width_append, SigType.width, SigType.width,
            Nat.add_zero]
        · simpa using hrest

/-- Kinds that agree are all that a cast and a return ask for. -/
theorem returns_castTo (params : List SigType) {returns found : SigType}
    (hkind : found.kind = returns.kind) :
    ∃ t, Returns params (castTo returns found ++ [.ret returns.kind]) [found.erasure] t ∧
      t.kind = returns.kind ∧ (t.isReference = true → t = returns.erasure) := by
  have href : found.isReference = returns.isReference := by
    rw [Bool.eq_iff_iff, ← SigType.kind_eq_reference_iff, ← SigType.kind_eq_reference_iff, hkind]
  by_cases hcast : (returns.erasure.isReference && returns.erasure != found.erasure) = true
  · rw [castTo, if_pos hcast]
    rw [Bool.and_eq_true] at hcast
    have hret : Returns params [.ret returns.kind] [returns.erasure] returns.erasure := by
      rw [← SigType.kind_erasure]
      exact .ret
    -- The cast is to a reference, and so what was found is one as well.
    refine ⟨returns.erasure, .step (.cast hcast.1 ?_) ?_, SigType.kind_erasure _, fun _ => rfl⟩
    · rw [SigType.isReference_erasure, href, ← SigType.isReference_erasure]
      exact hcast.1
    · rw [SigType.erasure_erasure]
      exact hret
  · rw [castTo, if_neg hcast]
    refine ⟨found.erasure, ?_, by rw [SigType.kind_erasure, hkind], fun hfound => ?_⟩
    · -- Without a cast the value is returned as it was found, since its kind is the one asked for.
      rw [List.nil_append, ← hkind, ← SigType.kind_erasure]
      exact .ret
    · -- The result is a reference, so there is no cast because none was needed.
      rw [SigType.isReference_erasure, href, ← SigType.isReference_erasure] at hfound
      have hsame : returns.erasure = found.erasure := by simpa [hfound] using hcast
      exact hsame.symm

/-- Forwarding code is typed when the parameters are, up to erasure, those of
    the method, after a receiver if it takes one, and the results are handled
    alike. It returns a value of the kind asked for, and of the type asked for
    when that is a reference. -/
theorem returns_calling {params : List SigType} (receiver : List SigType) {m : Method}
    {returns : SigType} (hfit : SigType.width params ≤ 65535)
    (hparams : params.map SigType.erasure = receiver ++ m.params.map SigType.erasure)
    (hreceiver : if m.isStatic then receiver = [] else
      ∃ t, receiver = [t] ∧ t.isReference = true)
    (hkind : m.result.kind = returns.kind) :
    ∃ t, Returns params (calling params m returns).instrs [] t ∧
      t.kind = returns.kind ∧ (t.isReference = true → t = returns.erasure) := by
  rcases returns_castTo params hkind with ⟨t, hret, hresult⟩
  -- The loads start at the first variable with nothing before it and an empty stack.
  have hall : params = [] ++ params := rfl
  refine ⟨t, returns_loads hall rfl hfit ?_, hresult⟩
  rw [hparams, List.reverse_append, List.append_nil]
  by_cases hstatic : m.isStatic = true
  · rw [if_pos hstatic] at hreceiver
    subst hreceiver
    refine .step ?_ hret
    rw [CallMode.of, if_pos hstatic]
    exact .invokeStatic hstatic
  · rw [if_neg hstatic] at hreceiver
    rcases hreceiver with ⟨u, rfl, hu⟩
    refine .step ?_ hret
    rw [CallMode.of, if_neg hstatic]
    exact .invokeOn (by simpa using hstatic) hu

/-- What is picked from loads by their kinds is picked from the types that were
    loaded. The slots do not matter. -/
theorem filterMap_loads {α : Type} {f : Instr → Option α} {g : SigType → Option α}
    (hload : ∀ slot t, f (.load slot t.kind) = g t) (slot : UInt16) (ts : List SigType) :
    (loads slot ts).filterMap f = ts.filterMap g := by
  induction ts generalizing slot with
  | nil => rfl
  | cons t ts ih => rw [loads, List.filterMap_cons, hload, List.filterMap_cons, ih]

/-- Every parameter is loaded once and in order, as its own kind. -/
theorem loadedKinds_calling (params : List SigType) (m : Method) (returns : SigType) :
    (calling params m returns).loadedKinds = params.map SigType.kind := by
  rw [loadedKinds, calling, List.filterMap_append,
    filterMap_loads (g := fun t => some t.kind) (fun _ _ => rfl), List.filterMap_eq_map', castTo]
  split <;> simp

theorem callees_calling (params : List SigType) (m : Method) (returns : SigType) :
    (calling params m returns).callees = [m] := by
  rw [callees, calling, List.filterMap_append,
    filterMap_loads (g := fun _ => none) (fun _ _ => rfl), castTo]
  split <;> simp

/-- There is a cast when the result is a reference of another erased type than the
    method returns, and no other. -/
theorem casts_calling (params : List SigType) (m : Method) (returns : SigType) :
    (calling params m returns).casts =
      if returns.isReference = true ∧ returns.erasure ≠ m.result.erasure then [returns.erasure]
      else [] := by
  rw [casts, calling, List.filterMap_append,
    filterMap_loads (g := fun _ => none) (fun _ _ => rfl), castTo]
  by_cases hcast : returns.isReference = true ∧ returns.erasure ≠ m.result.erasure
  · simp [hcast]
  · rw [if_neg hcast, if_neg (by simpa using hcast)]
    simp

end ForwardCode

theorem SigType.map_kind_erasure (ts : List SigType) :
    (ts.map erasure).map kind = ts.map kind := by
  rw [List.map_map]
  exact List.map_congr_left fun t _ => kind_erasure t

/-- The class names that occur in a declaration. -/
def ClassDecl.names (d : ClassDecl) : List BinaryName :=
  d.name :: (d.superclass.toList ++ d.methods.flatMap Method.names)

/-- All class names in the declaration were read from text. -/
def ClassDecl.WellNamed (d : ClassDecl) : Prop :=
  ∀ n ∈ d.names, n.WellFormed

instance (d : ClassDecl) : Decidable d.WellNamed :=
  inferInstanceAs (Decidable (∀ n ∈ d.names, n.WellFormed))

theorem ClassDecl.WellNamed.of_mem_methods {d : ClassDecl} (h : d.WellNamed) {m : Method}
    (hm : m ∈ d.methods) : m.WellNamed := by
  intro n hn
  have hall : n ∈ d.methods.flatMap Method.names := List.mem_flatMap.mpr ⟨m, hm, hn⟩
  exact h n (List.mem_cons_of_mem _ (List.mem_append_right _ hall))

namespace Registry

theorem mem_of_ancestor_ofDecls {ds : List ClassDecl} {n : BinaryName} {d : ClassDecl}
    (h : (ofDecls ds).Ancestor n d) : d ∈ ds := by
  have hfound : ∃ m, (ofDecls ds).find? m = some d := by
    cases h with
    | self hd => exact ⟨n, hd⟩
    | above _ he => exact ⟨_, find?_name_of_above? he⟩
  rcases hfound with ⟨m, hm⟩
  rw [find?_ofDecls] at hm
  exact List.mem_reverse.mp (List.mem_of_find?_eq_some hm)

end Registry

namespace MethodTable

/-- The tables that come from candidates or from declarations, with names that
    were all read from text. -/
inductive Built : MethodTable → Prop where
  | bare (context : BinaryName) : Built (empty context)
  | filled (context : BinaryName) {ms : List Method} :
      (∀ m ∈ ms, m.WellNamed) → Built (ofCandidates context ms)
  | computed {ds : List ClassDecl} {context : BinaryName} {table : MethodTable} :
      (∀ d ∈ ds, d.WellNamed) → (Registry.ofDecls ds).tableFor context = .ok table → Built table

/-- However a table was built, it is filled from candidates whose names were read.
    For a computed table these are the reachable methods. -/
theorem Built.eq_ofCandidates {table : MethodTable} (h : table.Built) :
    ∃ ms, table = ofCandidates table.context ms ∧ ∀ m ∈ ms, m.WellNamed := by
  cases h with
  | bare context => exact ⟨[], rfl, fun m hm => nomatch hm⟩
  | filled context hms => exact ⟨_, by rw [context_ofCandidates], hms⟩
  | @computed ds context _ hds htable =>
      rw [Registry.eq_of_tableFor htable]
      refine ⟨_, by rw [context_ofCandidates], fun m hm => ?_⟩
      rcases Registry.mem_reachable_iff.mp hm with ⟨d, hd, hmem, -⟩
      exact (hds d (Registry.mem_of_ancestor_ofDecls hd)).of_mem_methods hmem

/-- A built table has methods under their own signatures, and their names were
    read from text. -/
theorem Built.of_get? {table : MethodTable} (h : table.Built) {s : ErasedSignature} {m : Method}
    (hm : table.get? s = some m) : m.signature = s ∧ m.WellNamed := by
  rcases h.eq_ofCandidates with ⟨ms, htable, hms⟩
  rw [htable, get?_ofCandidates] at hm
  rcases mem_of_preferred hm with ⟨hmem, hs⟩
  exact ⟨hs, hms m hmem⟩

end MethodTable

namespace Request

/-- What a request forwards to has the name and the erased parameters of the
    target. For a request by signature this is because signatures tell erased
    parameters apart, and the table has the method under the target's. -/
theorem agree_of_forwardTo {r : Request} {table : MethodTable} {m : Method}
    (htable : table.Built) (hr : r.target.WellNamed) (h : r.forwardTo table = some m) :
    m.name = r.target.name ∧
      m.params.map SigType.erasure = r.target.params.map SigType.erasure := by
  rcases (r.forwardTo_eq_some_iff table m).mp h with ⟨hres, -⟩
  rcases (r.resolve_eq_ok_iff table m).mp hres with ⟨-, rfl⟩ | ⟨-, hget⟩
  · exact ⟨rfl, rfl⟩
  · -- A method that was looked up has the signature it was looked up by.
    rcases htable.of_get? hget with ⟨hs, hm⟩
    exact (Method.signature_eq_iff hm hr).mp hs

end Request

/-- The kinds of the values that a call takes off the stack: the receiver,
    unless the method is static, and the arguments. -/
def Method.operandKinds (m : Method) : List StackKind :=
  (if m.isStatic then [] else [.reference]) ++ m.params.map SigType.kind

/-- The receiver of a method, as a list that is empty when there is none. -/
def Method.receiver (m : Method) : List SigType :=
  if m.isStatic then [] else [.classRef m.owner]

namespace Request

/-- An accessor takes the receiver of its target, if there is one, and then the
    parameters. -/
theorem accessorParams_eq (r : Request) :
    r.accessorParams = r.target.receiver ++ r.target.params := by
  rw [accessorParams, Method.receiver]
  by_cases hs : r.target.isStatic = true
  · rw [if_pos hs, if_pos hs, List.nil_append]
  · rw [if_neg hs, if_neg hs, List.singleton_append]

theorem drop_accessorParams (r : Request) :
    r.accessorParams.drop (if r.target.isStatic then 0 else 1) = r.target.params := by
  rw [accessorParams]
  by_cases hs : r.target.isStatic = true
  · rw [if_pos hs, if_pos hs, List.drop_zero]
  · rw [if_neg hs, if_neg hs, List.drop_succ_cons, List.drop_zero]

/-- An accessor takes what a call of its target takes. -/
theorem map_kind_accessorParams (r : Request) :
    r.accessorParams.map SigType.kind = r.target.operandKinds := by
  rw [accessorParams_eq, Method.operandKinds, Method.receiver, List.map_append]
  by_cases hs : r.target.isStatic = true
  · rw [if_pos hs, if_pos hs, List.map_nil]
  · rw [if_neg hs, if_neg hs]
    rfl

/-- The receiver is its own erasure, so only the parameters are erased. -/
theorem map_erasure_accessorParams (r : Request) :
    r.accessorParams.map SigType.erasure =
      r.target.receiver ++ r.target.params.map SigType.erasure := by
  rw [accessorParams_eq, Method.receiver, List.map_append]
  by_cases hs : r.target.isStatic = true
  · rw [if_pos hs, List.map_nil]
  · rw [if_neg hs]
    rfl

end Request

/-- An accessor fits its target on the outside and the method it calls on the
    inside. It takes the receiver, if there is one, and what the target takes,
    it calls the one method that its request was resolved to with what that
    method takes, and it returns the result, cast when it is a reference of
    another erased type. -/
structure Accessor.WellTyped (owner : BinaryName) (a : Accessor) : Prop where
  params_eq : a.method.params =
    (if a.request.target.isStatic then [] else [.classRef a.request.target.owner]) ++
      a.request.target.params
  result_eq : a.method.result = a.request.target.result
  isStatic : a.method.isStatic = true
  owner_eq : a.method.owner = owner
  callees_eq : a.code.callees = [a.resolved]
  loadedKinds_eq : a.code.loadedKinds = a.resolved.operandKinds
  erasure_params_eq :
    (a.method.params.drop (if a.request.target.isStatic then 0 else 1)).map SigType.erasure =
      a.resolved.params.map SigType.erasure
  kind_result_eq : a.resolved.result.kind = a.method.result.kind
  casts_eq : a.code.casts =
    if a.method.result.isReference = true ∧
        a.method.result.erasure ≠ a.resolved.result.erasure then [a.method.result.erasure]
    else []
  /-- By the typing rules the code returns a value of the result's kind, and
      of its type when that is a reference. -/
  returns : ∃ t, ForwardCode.Returns a.method.params a.code.instrs [] t ∧
    t.kind = a.method.result.kind ∧ (t.isReference = true → t = a.method.result.erasure)

namespace Draft

/-- The accessor that a request is given, wherever it stands, is well typed. -/
theorem wellTyped_accessorAt {d : Draft} (htable : d.table.Built) {r : Request} {m : Method}
    (hr : r.target.WellNamed) (h : r.forwardTo d.table = some m) (position : Nat)
    (hfit : SigType.width r.accessorParams ≤ 65535) :
    (d.accessorAt r m position).WellTyped d.product.name := by
  rcases Request.agree_of_forwardTo htable hr h with ⟨-, hparams⟩
  rcases (r.accepts_iff m).mp ((r.forwardTo_eq_some_iff d.table m).mp h).2 with ⟨hstatic, hkind⟩
  -- Parameters of the same erased types are handled alike.
  have hkinds : m.params.map SigType.kind = r.target.params.map SigType.kind := by
    rw [← SigType.map_kind_erasure, hparams, SigType.map_kind_erasure]
  -- The method that was found takes a receiver exactly when the target does.
  have hreceiver : if m.isStatic then r.target.receiver = [] else
      ∃ t, r.target.receiver = [t] ∧ t.isReference = true := by
    rw [hstatic, Method.receiver]
    by_cases hs : r.target.isStatic = true
    · rw [if_pos hs, if_pos hs]
    · rw [if_neg hs, if_neg hs]
      exact ⟨_, rfl, rfl⟩
  refine ⟨r.accessorParams_eq, rfl, AccessFlags.has_union_right _ _, rfl,
    ForwardCode.callees_calling _ _ _, ?_, ?_, hkind, ForwardCode.casts_calling _ _ _, ?_⟩
  · change (ForwardCode.calling r.accessorParams m r.target.result).loadedKinds = m.operandKinds
    rw [ForwardCode.loadedKinds_calling, r.map_kind_accessorParams, Method.operandKinds,
      Method.operandKinds, hstatic, hkinds]
  · change (r.accessorParams.drop (if r.target.isStatic then 0 else 1)).map SigType.erasure =
      m.params.map SigType.erasure
    rw [r.drop_accessorParams, hparams]
  · refine ForwardCode.returns_calling r.target.receiver hfit ?_ hreceiver hkind
    change r.accessorParams.map SigType.erasure = _
    rw [r.map_erasure_accessorParams, hparams]

/-- Accessors come from requests: one that is there after a run of calls was there
    before, or the run made the request it answers. No other call adds to them. -/
theorem require_mem_of_mem_after {d : Draft} {cs : List Call} {a : Accessor}
    (ha : a ∈ (d.after cs).product.accessors) :
    a ∈ d.product.accessors ∨ Call.require a.request ∈ cs := by
  induction cs generalizing d with
  | nil => exact Or.inl ha
  | cons c cs ih =>
      rw [after_cons] at ha
      -- The induction is along the run. What the rest of the run did not ask for was there after
      -- the first call, and of that call there are three outcomes.
      rcases ih ha with hmem | hmem
      · rcases d.state_call_cases c with hsame | ⟨r, m, rfl, -, -, hpush⟩ | ⟨f, -, hfield⟩
        · exact Or.inl (hsame ▸ hmem)
        · -- Only here is an accessor added, behind the others, and it is for the request of the
          -- call.
          rw [hpush] at hmem
          rcases List.mem_append.mp hmem with hmem | hmem
          · exact Or.inl hmem
          · rw [List.mem_singleton.mp hmem]
            exact Or.inr List.mem_cons_self
        · rw [hfield] at hmem
          exact Or.inl hmem
      · exact Or.inr (List.mem_cons_of_mem _ hmem)

/-- Whatever a class was asked for against a table that was built from well
    named methods, every accessor that came of it is well typed, as long as
    its parameters fit the local variables. -/
theorem wellTyped_of_mem_after {table : MethodTable} (htable : table.Built) (settings : Settings)
    (name : BinaryName) (version : ClassVersion) {cs : List Call}
    (hcs : ∀ r, .require r ∈ cs → r.target.WellNamed) {a : Accessor}
    (ha : a ∈ ((start table settings name version).after cs).product.accessors)
    (hfit : SigType.width a.method.params ≤ 65535) : a.WellTyped name := by
  have hcoherent := coherent_after table settings name version cs
  have hframe := (start table settings name version).frame_after cs
  have hnamed : a.request.target.WellNamed := by
    -- A new class has no accessors, so the request was made in the run and has well-formed names.
    rcases require_mem_of_mem_after ha with hmem | hmem
    · cases hmem
    · exact hcs a.request hmem
  rcases List.getElem?_of_mem ha with ⟨i, hi⟩
  -- Where it stands the accessor is the one its request is given there.
  have heq := hcoherent.eq_accessorAt i a hi
  have hto := hcoherent.forwardTo_eq a ha
  have hbuilt : ((start table settings name version).after cs).table.Built := by
    rw [hframe.1]
    exact htable
  rw [heq] at hfit
  have htyped := wellTyped_accessorAt hbuilt hnamed hto i hfit
  rwa [← heq, hframe.2.2] at htyped

/-- An instance method with parameters of all sorts, as a superclass has it. -/
def findItem : Method :=
  ⟨⟨"p.Base"⟩, "find",
    [.generic ⟨"p.Bag"⟩ [.classRef ⟨"p.Key"⟩], .prim .long, .arrayOf (.prim .long)],
    .classRef ⟨"p.Item"⟩, .accPublic⟩

/-- Two requests, one of them made twice, of which the first leads to a method
    that is declared elsewhere, with other parameters and another result. -/
def findCalls : List Call :=
  [.require ⟨⟨⟨"p.Sub"⟩, "find", [.typeVar "B" ⟨"p.Bag"⟩, .prim .long, .arrayOf (.prim .long)],
      .classRef ⟨"p.Fact"⟩, .accProtected⟩, .signature⟩,
    .addField ⟨"hits", .prim .int, .accStatic⟩,
    .require ⟨⟨⟨"p.Sub"⟩, "add", [.prim .double, .prim .int], .prim .boolean, .accStatic⟩,
      .identity⟩,
    .require ⟨⟨⟨"p.Sub"⟩, "find", [.typeVar "B" ⟨"p.Bag"⟩, .prim .long, .arrayOf (.prim .long)],
      .classRef ⟨"p.Fact"⟩, .accProtected⟩, .signature⟩]

/-- A method that is found by signature with other parameters and another result, a
    trusted one, and a request that is made twice lead to two accessors, both well
    typed. -/
theorem wellTyped_findCalls :
    ((start (.ofCandidates ⟨"p.Sub"⟩ [findItem]) .standard ⟨"p.Aux"⟩ .standard).after
      findCalls).product.accessors.length = 2 ∧
    ∀ a ∈ ((start (.ofCandidates ⟨"p.Sub"⟩ [findItem]) .standard ⟨"p.Aux"⟩ .standard).after
      findCalls).product.accessors, a.WellTyped ⟨"p.Aux"⟩ := by
  have hfit : ∀ a ∈ ((start (.ofCandidates ⟨"p.Sub"⟩ [findItem]) .standard ⟨"p.Aux"⟩
      .standard).after findCalls).product.accessors,
      SigType.width a.method.params ≤ 65535 := by
    decide +kernel
  have hnamed : ∀ r, .require r ∈ findCalls → r.target.WellNamed := by
    intro r hr
    simp only [findCalls, List.mem_cons, Call.require.injEq, reduceCtorEq, List.not_mem_nil,
      or_false, false_or] at hr
    rcases hr with rfl | rfl | rfl
    all_goals decide +kernel
  exact ⟨by decide +kernel, fun a ha => wellTyped_of_mem_after
    (.filled ⟨"p.Sub"⟩ (by decide +kernel)) .standard ⟨"p.Aux"⟩ .standard hnamed ha (hfit a ha)⟩

end Draft

end SyntheticAccess
