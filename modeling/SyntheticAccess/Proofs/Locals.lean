import Mathlib.Order.Interval.Finset.Nat
import SyntheticAccess.Proofs.Typing

/-!
# Arguments in Local Variables

Where forwarding code expects its arguments. The virtual machine puts them into
consecutive local variables before the first instruction runs, a `long` or
`double` into two of them, and code that loads an argument has to name the
first of its variables. Forwarding code computes these numbers by adding up, in
sixteen bits, and a sum that did not fit would start again from zero. Nothing
is checked when the code is made. All that is known is that the arguments fit
together.

That is enough for every single addition. The sums ascend, so each of them is
at most the last, and `toNat_nextSlot` applies from the first argument to the
last one. From there on the numbers are the sums that they are meant to be, and
the variables of the arguments lie side by side: those of one argument end
where those of the next begin, with no variable left out and none used twice.
`void` takes no variable and changes nothing.

## Main definitions

* `ForwardCode.argumentSlots`: Where each of the arguments starts.
* `ForwardCode.span`: The variables of one argument.

## Theorems

* `card_span`: A load by its kind finds its argument whole.
* `loads_eq_zipWith`: One load for every argument.
* `nextSlot_fits`: Adding up goes well once more.
* `toNat_argumentSlots`: An argument starts where those before it end.
* `toNat_foldl_nextSlot`: The variables are as many as the arguments need.
* `exists_mem_span_iff`: Every variable belongs to an argument.
* `pairwise_disjoint_span`: None belongs to two.
* `arguments_tile_locals`: The code of an accessor and its variables.
-/

namespace SyntheticAccess

namespace ForwardCode

/-- Where arguments of the given types start when the first one starts at the
    given slot. -/
def argumentSlots (slot : UInt16) : List SigType → List UInt16
  | [] => []
  | t :: ts => slot :: argumentSlots (nextSlot slot t) ts

/-- The local variables of a value of the type that starts at the slot. -/
def span (slot : UInt16) (t : SigType) : Finset Nat :=
  Finset.Ico slot.toNat (slot.toNat + t.slots)

/-- An argument takes as many variables as the kind needs that it is loaded by. -/
theorem card_span (slot : UInt16) (t : SigType) : (span slot t).card = t.kind.slots := by
  rw [span, Nat.card_Ico, Nat.add_sub_cancel_left, SigType.slots_kind]

theorem length_argumentSlots (slot : UInt16) (ts : List SigType) :
    (argumentSlots slot ts).length = ts.length := by
  induction ts generalizing slot with
  | nil => rfl
  | cons t ts ih => rw [argumentSlots, List.length_cons, ih, List.length_cons]

/-- There is one load for every argument, by its kind and from where it starts. -/
theorem loads_eq_zipWith (slot : UInt16) (ts : List SigType) :
    loads slot ts =
      List.zipWith (fun s t => Instr.load s t.kind) (argumentSlots slot ts) ts := by
  induction ts generalizing slot with
  | nil => rfl
  | cons t ts ih => rw [loads, argumentSlots, List.zipWith_cons_cons, ih]

/-- While the arguments that are left fit, so does the first of them, and the
    others fit behind it. -/
theorem nextSlot_fits {slot : UInt16} {t : SigType} {ts : List SigType}
    (hfit : slot.toNat + SigType.width (t :: ts) ≤ 65535) :
    (nextSlot slot t).toNat = slot.toNat + t.slots ∧
      (nextSlot slot t).toNat + SigType.width ts ≤ 65535 := by
  rw [SigType.width] at hfit
  have hnext : (nextSlot slot t).toNat = slot.toNat + t.slots := toNat_nextSlot (by omega)
  exact ⟨hnext, by omega⟩

/-- An argument starts behind those before it and ends before the last one does. -/
theorem toNat_argumentSlots {slot : UInt16} {ts : List SigType}
    (hfit : slot.toNat + SigType.width ts ≤ 65535) {i : Nat} {s : UInt16} {t : SigType}
    (hs : (argumentSlots slot ts)[i]? = some s) (ht : ts[i]? = some t) :
    s.toNat = slot.toNat + SigType.width (ts.take i) ∧
      s.toNat + t.slots ≤ slot.toNat + SigType.width ts := by
  -- Behind the first argument the rest fits again, from a slot further on.
  induction ts generalizing slot i with
  | nil => simp at ht
  | cons u us ih =>
      rcases nextSlot_fits hfit with ⟨hnext, hrest⟩
      cases i with
      | zero =>
          simp only [argumentSlots, List.getElem?_cons_zero, Option.some.injEq] at hs ht
          subst hs ht
          simp only [List.take_zero, SigType.width]
          omega
      | succ i =>
          simp only [argumentSlots, List.getElem?_cons_succ] at hs ht
          have hind := ih hrest hs ht
          simp only [List.take_succ_cons, SigType.width]
          omega

/-- The sum of all slots does not wrap around when the arguments fit together. -/
theorem toNat_foldl_nextSlot {slot : UInt16} {ts : List SigType}
    (hfit : slot.toNat + SigType.width ts ≤ 65535) :
    (ts.foldl nextSlot slot).toNat = slot.toNat + SigType.width ts := by
  induction ts generalizing slot with
  | nil => rfl
  | cons t ts ih =>
      rcases nextSlot_fits hfit with ⟨hnext, hrest⟩
      rw [List.foldl_cons, ih hrest, hnext, SigType.width, Nat.add_assoc]

/-- The variables of all arguments together are those from where the first one
    starts to where the last one ends. -/
theorem exists_mem_span_iff {slot : UInt16} {ts : List SigType}
    (hfit : slot.toNat + SigType.width ts ≤ 65535) (v : Nat) :
    (∃ vs ∈ List.zipWith span (argumentSlots slot ts) ts, v ∈ vs) ↔
      slot.toNat ≤ v ∧ v < slot.toNat + SigType.width ts := by
  -- The induction moves the start behind the first argument, where the others begin.
  induction ts generalizing slot with
  | nil =>
      simp only [argumentSlots, List.zipWith_nil_left, List.not_mem_nil, false_and, exists_false,
        SigType.width, false_iff]
      omega
  | cons t ts ih =>
      rcases nextSlot_fits hfit with ⟨hnext, hrest⟩
      have hind := ih hrest
      rw [hnext] at hind
      -- A variable is one of the first argument's, or behind them.
      rw [argumentSlots, List.zipWith_cons_cons, SigType.width]
      simp only [List.mem_cons, or_and_right, exists_or, exists_eq_left, hind, span,
        Finset.mem_Ico]
      omega

/-- No variable belongs to two arguments. -/
theorem pairwise_disjoint_span {slot : UInt16} {ts : List SigType}
    (hfit : slot.toNat + SigType.width ts ≤ 65535) :
    (List.zipWith span (argumentSlots slot ts) ts).Pairwise Disjoint := by
  induction ts generalizing slot with
  | nil => exact List.Pairwise.nil
  | cons t ts ih =>
      rcases nextSlot_fits hfit with ⟨hnext, hrest⟩
      rw [argumentSlots, List.zipWith_cons_cons]
      refine List.pairwise_cons.mpr ⟨fun vs hvs => ?_, ih hrest⟩
      rw [Finset.disjoint_left]
      intro v hfirst hlater
      -- What belongs to a later argument starts where the first one ends.
      have hbehind := ((exists_mem_span_iff hrest v).mp ⟨vs, hvs, hlater⟩).1
      rw [span, Finset.mem_Ico] at hfirst
      omega

/-- There is a cast or there is none. -/
theorem exists_castTo_eq_map (returns found : SigType) :
    ∃ casts : List SigType, castTo returns found = casts.map .cast ∧ casts.length ≤ 1 := by
  by_cases hcast : (returns.erasure.isReference && returns.erasure != found.erasure) = true
  · exact ⟨[returns.erasure], by rw [castTo, if_pos hcast]; rfl, Nat.le_refl 1⟩
  · exact ⟨[], by rw [castTo, if_neg hcast]; rfl, Nat.zero_le 1⟩

/-- Forwarding code for parameters that fit the local variables. It loads every
    argument once and in order, calls the method, casts at most once, and
    returns, and it does nothing else. Each argument is loaded by its kind from
    the variable behind those of the arguments before it, and takes as many
    variables as its kind needs. No sum of slots is too large for its sixteen
    bits. The variables of different arguments have none in common, and together
    they are those that the code says it uses. -/
theorem arguments_tile_locals {params : List SigType} (hfit : SigType.width params ≤ 65535)
    (m : Method) (returns : SigType) :
    let code := calling params m returns
    ∃ (slots : List UInt16) (casts : List SigType),
      code.instrs = List.zipWith (fun s t => Instr.load s t.kind) slots params ++
        .invoke (.of m) m :: (casts.map .cast ++ [.ret returns.kind]) ∧
      slots.length = params.length ∧ casts.length ≤ 1 ∧
      (∀ i s t, slots[i]? = some s → params[i]? = some t →
        s.toNat = SigType.width (params.take i) ∧ s.toNat + t.slots ≤ 65535 ∧
          (nextSlot s t).toNat = s.toNat + t.slots ∧ (span s t).card = t.kind.slots) ∧
      (List.zipWith span slots params).Pairwise Disjoint ∧
      (∀ v, (∃ vs ∈ List.zipWith span slots params, v ∈ vs) ↔ v < code.maxLocals.toNat) ∧
      code.callee? = some m := by
  intro code
  have hzero : (0 : UInt16).toNat + SigType.width params ≤ 65535 := by
    rwa [UInt16.toNat_zero, Nat.zero_add]
  -- Code starts at slot zero, so the limit is on the arguments alone.
  have hmax : code.maxLocals.toNat = SigType.width params :=
    (toNat_foldl_nextSlot hzero).trans (Nat.zero_add _)
  rcases exists_castTo_eq_map returns m.result with ⟨casts, hcasts, hone⟩
  refine ⟨argumentSlots 0 params, casts, ?_, length_argumentSlots 0 params, hone, ?_,
    pairwise_disjoint_span hzero, fun v => ?_, callee?_calling params m returns⟩
  · rw [← loads_eq_zipWith, ← hcasts]
    rfl
  · intro i s t hs ht
    rcases toNat_argumentSlots hzero hs ht with ⟨hstart, hend⟩
    rw [UInt16.toNat_zero, Nat.zero_add] at hstart hend
    have hsum : s.toNat + t.slots ≤ 65535 := Nat.le_trans hend hfit
    exact ⟨hstart, hsum, toNat_nextSlot hsum, card_span s t⟩
  · rw [exists_mem_span_iff hzero, hmax, UInt16.toNat_zero, Nat.zero_add]
    exact and_iff_right (Nat.zero_le v)

/-- A receiver, wide values, no value at all, and an array of wide values. -/
def variedParams : List SigType :=
  [.classRef ⟨"p.Base"⟩, .prim .long, .void, .arrayOf (.prim .long), .prim .double,
    .typeVar "T" ⟨"p.Item"⟩]

/-- A static method with a result that is of another kind than what is returned. -/
def unrelatedMethod : Method :=
  ⟨⟨"p.Base"⟩, "size", [], .prim .int, .accStatic⟩

/-- Six parameters, of which one takes no variable and two take two of them, fill
    seven variables. -/
theorem arguments_tile_locals_variedParams :
    let code := calling variedParams unrelatedMethod (.generic ⟨"p.Bag"⟩ [.classRef ⟨"p.Item"⟩])
    code.maxLocals = 7 ∧ code.callee? = some unrelatedMethod ∧
    ∃ slots : List UInt16, slots.length = 6 ∧
      (List.zipWith span slots variedParams).Pairwise Disjoint ∧
      ∀ v, (∃ vs ∈ List.zipWith span slots variedParams, v ∈ vs) ↔ v < 7 := by
  intro code
  have hfit : SigType.width variedParams ≤ 65535 := by decide
  rcases arguments_tile_locals hfit unrelatedMethod (.generic ⟨"p.Bag"⟩ [.classRef ⟨"p.Item"⟩])
    with ⟨slots, casts, -, hlength, -, -, hdisjoint, hcover, hcallee⟩
  exact ⟨rfl, hcallee, slots, hlength, hdisjoint, hcover⟩

end ForwardCode

end SyntheticAccess
