import Mathlib.Data.List.Induction
import SyntheticAccess.Proofs.Descriptions

/-!
# The Two Sides of a Draft

A class under description gets accessors and fields, and calls for the one and
for the other may be mixed in any way. They do not meet. A request looks at the
index and at the accessors, a field at the names of fields, and neither looks at
what the other kind of call leaves behind. So the requests of a run are answered
as if there were no fields among them, the fields as if there were no requests,
and how the two are mixed does not show.

`AgreeOn` says this once for both kinds. Two drafts agree on a side when all that
calls of that side look at is the same in both. Such calls keep the agreement
and are answered alike, and calls of the other side keep it when only one of the
drafts gets them. A run can then be compared with the part of it that belongs to
one side, which is a single induction, and drafts that agree on both sides are
equal.

Refused calls leave nothing behind, so that they can be left out as well. A list
of requests that fails is no exception: what it leaves behind was left by the
requests before the one that was refused.

## Main definitions

* `Draft.Side`, `Draft.AgreeOn`: The two kinds of members, and agreement on one.
* `Draft.transcript`: The calls of a run with their answers.
* `Draft.granted`: The calls of a run that are not refused.
* `Field.firstNamed`: The fields of a list whose names are new where they stand.

## Theorems

* `transcript_granted`, `after_granted`: A run without its refused calls.
* `state_requireAll_of_error`: What is left of a list of requests that fails.
* `AgreeOn.transcript`, `AgreeOn.after`: A run, seen from one side.
* `fields_after_start`: The fields of a class, from those that were asked for.
* `refusals_and_mixing_do_not_count`: All of it for one draft.
-/

namespace SyntheticAccess

namespace Outcome

variable {ε σ α β : Type}

theorem answer_map_eq_error_iff (o : Outcome ε σ α) (f : α → β) (e : ε) :
    (o.map f).answer = .error e ↔ o.answer = .error e := by
  rw [map]
  cases o.answer with
  | error e' => simp [Except.map]
  | ok a => simp [Except.map]

theorem answer_andThen_of_error {o : Outcome ε σ α} {e : ε} (h : o.answer = .error e)
    (next : α → σ → Outcome ε σ β) : (o.andThen next).answer = .error e := by
  rw [andThen, h]

theorem answer_andThen_of_ok {o : Outcome ε σ α} {a : α} (h : o.answer = .ok a)
    (next : α → σ → Outcome ε σ β) : (o.andThen next).answer = (next a o.state).answer := by
  rw [andThen, h]

end Outcome

namespace Field

/-- The fields of a list that have a name which no field before them has. -/
def firstNamed (fs : List Field) : List Field :=
  (fs.zipIdx.filter fun e => !(fs.take e.2).any (·.name == e.1.name)).map (·.1)

/-- One more field at the end counts when its name is new, and does not matter
    to the others. -/
theorem firstNamed_append_singleton (fs : List Field) (f : Field) :
    firstNamed (fs ++ [f]) =
      if fs.any (·.name == f.name) then firstNamed fs else firstNamed fs ++ [f] := by
  -- The fields before it are judged by what stands before them, and the new one does not.
  have hbefore : fs.zipIdx.filter (fun e => !((fs ++ [f]).take e.2).any (·.name == e.1.name)) =
      fs.zipIdx.filter fun e => !(fs.take e.2).any (·.name == e.1.name) := by
    refine List.filter_congr fun e he => ?_
    rw [List.take_append_of_le_length (Nat.le_of_lt (List.snd_lt_of_mem_zipIdx he))]
  rw [firstNamed, List.zipIdx_append, List.filter_append, hbefore, List.map_append, ← firstNamed,
    List.zipIdx_singleton, Nat.zero_add, List.filter_cons, List.take_left, List.filter_nil]
  by_cases hname : fs.any (·.name == f.name) = true
  · simp [hname]
  · simp [hname]

/-- Leaving out fields whose names were there already leaves out no name. -/
theorem any_name_firstNamed (fs : List Field) (x : String) :
    (firstNamed fs).any (·.name == x) = fs.any (·.name == x) := by
  induction fs using List.reverseRecOn with
  | nil => rfl
  | append_singleton fs f ih =>
      rw [firstNamed_append_singleton, List.any_append]
      by_cases hname : fs.any (·.name == f.name) = true
      · -- If the field has the name asked for, then so has one before it.
        rw [if_pos hname, ih]
        by_cases hx : f.name = x
        · rw [← hx, hname, Bool.true_or]
        · simp [hx]
      · rw [if_neg hname, List.any_append, ih]

theorem nodup_name_firstNamed (fs : List Field) : ((firstNamed fs).map (·.name)).Nodup := by
  -- The list grows at its end, since that is where fields are added.
  induction fs using List.reverseRecOn with
  | nil => exact List.nodup_nil
  | append_singleton fs f ih =>
      rw [firstNamed_append_singleton]
      by_cases hname : fs.any (·.name == f.name) = true
      · rw [if_pos hname]
        exact ih
      · rw [if_neg hname, List.map_append, List.map_singleton]
        refine List.nodup_append.mpr ⟨ih, List.pairwise_singleton _ _, fun x hx y hy heq => ?_⟩
        -- A field from before with the name of the new one would show in the list.
        rw [← any_name_firstNamed, List.any_eq_true] at hname
        rcases List.mem_map.mp hx with ⟨g, hg, hgname⟩
        rw [List.mem_singleton] at hy
        exact hname ⟨g, hg, beq_iff_eq.mpr (hgname.trans (heq.trans hy))⟩

end Field

namespace Draft

/-- The two kinds of members that a class gets. -/
inductive Side where
  | accessors
  | fields
  deriving DecidableEq

/-- The side that a call may add to. -/
def Call.side : Call → Side
  | .require _ => .accessors
  | .addField _ => .fields

/-- The field that a call asks for. -/
def Call.field? : Call → Option Field
  | .require _ => none
  | .addField f => some f

/-- The line of a script that makes the call and goes on if it is refused. -/
def Call.line : Call → ScriptLine
  | .require r => ⟨.require r, true⟩
  | .addField f => ⟨.addField f, true⟩

/-- The calls of a run, each with what it answers. -/
def transcript (d : Draft) (cs : List Call) : List (Call × Except Failure Note) :=
  cs.zip (d.answers cs)

/-- The calls of a run that are not refused. -/
def granted (d : Draft) (cs : List Call) : List Call :=
  ((d.transcript cs).filter (·.2.isOk)).map (·.1)

theorem transcript_cons (d : Draft) (c : Call) (cs : List Call) :
    d.transcript (c :: cs) = (c, (d.call c).answer) :: (d.call c).state.transcript cs := rfl

/-! ### Refused calls -/

/-- A call that is refused leaves the draft as it was, its index included. -/
theorem state_call_of_error {d : Draft} {c : Call} {e : Failure}
    (h : (d.call c).answer = .error e) : (d.call c).state = d := by
  cases c with
  | require r =>
      have hanswer := ((d.require r).answer_map_eq_error_iff Note.accessor e).mp h
      exact state_require_of_error hanswer
  | addField f =>
      have hanswer := ((d.addField f).answer_map_eq_error_iff Note.fieldCount e).mp h
      exact state_addField_of_error hanswer

theorem granted_cons_of_ok {d : Draft} {c : Call} {n : Note} (h : (d.call c).answer = .ok n)
    (cs : List Call) : d.granted (c :: cs) = c :: (d.call c).state.granted cs := by
  have hok : (d.call c).answer.isOk = true := by
    rw [h]
    rfl
  rw [granted, transcript_cons, List.filter_cons, if_pos hok, List.map_cons, granted]

/-- A refused call is left out, and the next one finds the draft the same. -/
theorem granted_cons_of_error {d : Draft} {c : Call} {e : Failure}
    (h : (d.call c).answer = .error e) (cs : List Call) : d.granted (c :: cs) = d.granted cs := by
  have hnot : ¬ (d.call c).answer.isOk = true := by
    rw [h]
    exact Bool.false_ne_true
  rw [granted, transcript_cons, List.filter_cons, if_neg hnot, state_call_of_error h, granted]

/-- Without the refused calls the others are answered alike. -/
theorem transcript_granted (d : Draft) (cs : List Call) :
    d.transcript (d.granted cs) = (d.transcript cs).filter (·.2.isOk) := by
  induction cs generalizing d with
  | nil => rfl
  | cons c cs ih =>
      cases h : (d.call c).answer with
      | error e =>
          -- The refused call is missing on both sides, and it has not changed the draft that the
          -- induction is about.
          rw [granted_cons_of_error h, transcript_cons, h,
            List.filter_cons_of_neg Bool.false_ne_true, state_call_of_error h]
          exact ih d
      | ok n =>
          rw [granted_cons_of_ok h, transcript_cons, transcript_cons, h,
            List.filter_cons_of_pos rfl, ih]

/-- Without the refused calls a run ends in the same draft. -/
theorem after_granted (d : Draft) (cs : List Call) : d.after (d.granted cs) = d.after cs := by
  induction cs generalizing d with
  | nil => rfl
  | cons c cs ih =>
      cases h : (d.call c).answer with
      | error e =>
          rw [granted_cons_of_error h, after_cons, state_call_of_error h]
          exact ih d
      | ok n =>
          rw [granted_cons_of_ok h, after_cons, after_cons]
          exact ih (d.call c).state

/-- A list of requests that fails leaves what the requests before the refused
    one have made, and all of those were answered. -/
theorem state_requireAll_of_error {d : Draft} {rs : List Request} {e : Failure}
    (h : (d.requireAll rs).answer = .error e) :
    ∃ before r rest, rs = before ++ r :: rest ∧
      (∀ a ∈ d.answers (before.map .require), a.isOk = true) ∧
      ((d.after (before.map .require)).require r).answer = .error e ∧
      (d.requireAll rs).state = d.after (before.map .require) := by
  induction rs generalizing d with
  | nil => cases h
  | cons r rs ih =>
      rw [requireAll] at h ⊢
      cases hanswer : (d.require r).answer with
      | error e' =>
          rw [Outcome.answer_andThen_of_error hanswer] at h
          cases h
          -- The first request is the one that is refused, and nothing was made before it.
          refine ⟨[], r, rs, rfl, List.forall_mem_nil _, hanswer, ?_⟩
          rw [Outcome.state_andThen_of_error hanswer]
          exact state_require_of_error hanswer
      | ok m =>
          rw [Outcome.answer_andThen_of_ok hanswer] at h
          rcases ih h with ⟨before, q, rest, hrs, hanswers, hq, hstate⟩
          -- The first request was answered, so it goes in front of those that the induction found.
          refine ⟨r :: before, q, rest, congrArg (r :: ·) hrs, ?_, hq, ?_⟩
          · intro a ha
            rcases List.mem_cons.mp ha with rfl | ha
            · rw [(d.answer_call_require_eq_ok_iff r m).mpr hanswer]
              rfl
            · exact hanswers a ha
          · rw [Outcome.state_andThen_of_ok hanswer]
            exact hstate

/-- A line that is tolerated makes its call, and the rest of the script goes on
    from there whatever the call answers. -/
theorem runScript_line (d : Draft) (c : Call) (ls : List ScriptLine) :
    Description.runScript d (c.line :: ls) =
      let rest := Description.runScript (d.call c).state ls
      ⟨rest.result, rest.draft, (d.call c).answer :: rest.notes,
        (d.call c).events ++ rest.events⟩ := by
  have htolerated : c.line.tolerated = true := by cases c <;> rfl
  have hperform : d.perform c.line.action = d.call c := by cases c <;> rfl
  rw [Description.runScript, hperform, htolerated]
  cases (d.call c).answer with
  | error e => rfl
  | ok n => rfl

/-- A script whose lines are all tolerated makes every one of its calls. -/
theorem run_script_lines (d : Draft) (cs : List Call) :
    (Description.run d (.script (cs.map Call.line))).result = .ok () ∧
      (Description.run d (.script (cs.map Call.line))).draft = d.after cs ∧
      (Description.run d (.script (cs.map Call.line))).notes = d.answers cs := by
  induction cs generalizing d with
  | nil => exact ⟨rfl, rfl, rfl⟩
  | cons c cs ih =>
      rcases ih (d.call c).state with ⟨hresult, hdraft, hnotes⟩
      -- What holds of the rest of the script is put behind the first line.
      rw [Description.run] at hresult hdraft hnotes
      rw [Description.run, List.map_cons, runScript_line]
      exact ⟨hresult, hdraft, congrArg ((d.call c).answer :: ·) hnotes⟩

/-! ### Requests and fields -/

/-- The draft with other fields. -/
def withFields (d : Draft) (fs : List Field) : Draft :=
  { d with product := { d.product with fields := fs } }

theorem fields_withFields (d : Draft) (fs : List Field) :
    (d.withFields fs).product.fields = fs := rfl

/-- Two drafts agree on a side when all that calls of that side look at is the
    same: everything but the fields, or the fields and the name of the class. -/
def AgreeOn (s : Side) (d e : Draft) : Prop :=
  match s with
  | .accessors => d.withFields [] = e.withFields []
  | .fields => d.product.name = e.product.name ∧ d.product.fields = e.product.fields

theorem AgreeOn.refl (s : Side) (d : Draft) : AgreeOn s d d := by
  cases s with
  | accessors => exact rfl
  | fields => exact ⟨rfl, rfl⟩

theorem AgreeOn.symm {s : Side} {d e : Draft} (h : AgreeOn s d e) : AgreeOn s e d := by
  cases s with
  | accessors => exact Eq.symm h
  | fields => exact ⟨h.1.symm, h.2.symm⟩

theorem AgreeOn.trans {s : Side} {d e f : Draft} (hde : AgreeOn s d e) (hef : AgreeOn s e f) :
    AgreeOn s d f := by
  cases s with
  | accessors => exact Eq.trans hde hef
  | fields => exact ⟨hde.1.trans hef.1, hde.2.trans hef.2⟩

/-- Between them the two sides see the whole draft. -/
theorem eq_of_agreeOn {d e : Draft} (h : ∀ s, AgreeOn s d e) : d = e := by
  have hrest : d.withFields [] = e.withFields [] := h .accessors
  have hfields : d.product.fields = e.product.fields := (h .fields).2
  -- A draft is what it is without fields, with its own fields put back.
  have hback : (d.withFields []).withFields d.product.fields =
      (e.withFields []).withFields e.product.fields := by
    rw [hrest, hfields]
  exact hback

/-- A request does not look at the fields and leaves them alone. -/
theorem require_withFields (d : Draft) (fs : List Field) (r : Request) :
    (d.withFields fs).require r =
      ⟨(d.require r).answer, (d.require r).state.withFields fs, (d.require r).events⟩ := by
  have hfind : (d.withFields fs).find? r = d.find? r := rfl
  have htable : (d.withFields fs).table = d.table := rfl
  rw [require, require, hfind, htable]
  cases d.find? r with
  | some a => rfl
  | none =>
      cases r.resolve d.table with
      | error e => rfl
      | ok m =>
          dsimp only
          by_cases haccepts : r.accepts m = true
          · rw [if_pos haccepts, if_pos haccepts]
            rfl
          · rw [if_neg haccepts, if_neg haccepts]

theorem fields_require (d : Draft) (r : Request) :
    (d.require r).state.product.fields = d.product.fields := by
  have hsame := d.require_withFields d.product.fields r
  -- Putting back the fields that are there changes nothing, so the request has put them back.
  change d.require r = _ at hsame
  rw [hsame]
  rfl

/-- What a field does to a draft, refused or not, is all in the list of fields. -/
theorem state_addField (d : Draft) (f : Field) :
    (d.addField f).state = d.withFields
      (if d.product.fields.any (·.name == f.name) then d.product.fields
        else d.product.fields ++ [f]) := by
  rw [addField]
  by_cases htaken : d.product.fields.any (·.name == f.name) = true
  · rw [if_pos htaken, if_pos htaken]
    rfl
  · rw [if_neg htaken, if_neg htaken]
    rfl

/-- Calls of a side are answered alike by drafts that agree on it, and the
    drafts agree on it afterwards. -/
theorem AgreeOn.call {s : Side} {d e : Draft} (h : AgreeOn s d e) {c : Call} (hc : c.side = s) :
    (d.call c).answer = (e.call c).answer ∧ AgreeOn s (d.call c).state (e.call c).state := by
  subst hc
  cases c with
  | require r =>
      -- Both are asked without their fields, which makes them one draft.
      have hd := d.require_withFields [] r
      have he := e.require_withFields [] r
      rw [show d.withFields [] = e.withFields [] from h, he, Outcome.mk.injEq] at hd
      rcases hd with ⟨hanswer, hstate, -⟩
      exact ⟨congrArg (Except.map Note.accessor) hanswer.symm, hstate.symm⟩
  | addField f =>
      rcases h with ⟨hname, hfields⟩
      constructor
      · -- The answer depends on the names that are taken and on the number of fields.
        simp only [Draft.call, Outcome.map, addField, hname, hfields]
        by_cases htaken : e.product.fields.any (·.name == f.name) = true
        · rw [if_pos htaken, if_pos htaken]
        · rw [if_neg htaken, if_neg htaken]
      · change AgreeOn .fields (d.addField f).state (e.addField f).state
        rw [state_addField, state_addField, hfields]
        exact ⟨hname, rfl⟩

/-- A call of the other side does not concern this one. -/
theorem agreeOn_call_of_ne {s : Side} (d : Draft) {c : Call} (hc : c.side ≠ s) :
    AgreeOn s (d.call c).state d := by
  cases c with
  | require r =>
      cases s with
      | accessors => exact absurd rfl hc
      -- A request changes neither the name of the class nor its fields.
      | fields => exact ⟨(d.frame_call (.require r)).2.2, d.fields_require r⟩
  | addField f =>
      cases s with
      | accessors =>
          -- A field is put where the other side does not look.
          change (d.addField f).state.withFields [] = d.withFields []
          rw [state_addField]
          rfl
      | fields => exact absurd rfl hc

/-- The calls of one side are answered in a run as they are without the calls of
    the other. -/
theorem AgreeOn.transcript {s : Side} {d e : Draft} (h : AgreeOn s d e) (cs : List Call) :
    (d.transcript cs).filter (·.1.side == s) = e.transcript (cs.filter (·.side == s)) := by
  induction cs generalizing d e with
  | nil => rfl
  | cons c cs ih =>
      rw [transcript_cons]
      by_cases hc : c.side = s
      · rcases h.call hc with ⟨hanswer, hstate⟩
        rw [List.filter_cons_of_pos (by simpa using hc),
          List.filter_cons_of_pos (by simpa using hc), transcript_cons, hanswer, ih hstate]
      · -- Only one of the drafts gets the call.
        rw [List.filter_cons_of_neg (by simpa using hc),
          List.filter_cons_of_neg (by simpa using hc)]
        exact ih ((d.agreeOn_call_of_ne hc).trans h)

/-- Drafts that agree on a side still agree on it after a run, even if one of them
    gets only the calls of that side. -/
theorem AgreeOn.after {s : Side} {d e : Draft} (h : AgreeOn s d e) (cs : List Call) :
    AgreeOn s (d.after cs) (e.after (cs.filter (·.side == s))) := by
  induction cs generalizing d e with
  | nil => exact h
  | cons c cs ih =>
      by_cases hc : c.side = s
      · rw [List.filter_cons_of_pos (by simpa using hc)]
        exact ih (h.call hc).2
      · rw [List.filter_cons_of_neg (by simpa using hc)]
        exact ih ((d.agreeOn_call_of_ne hc).trans h)

/-- Runs that have the same requests in the same order, and the same fields in
    the same order, answer them alike and end in the same draft. -/
theorem eq_of_filter_side_eq (d : Draft) {cs ds : List Call}
    (h : ∀ s : Side, cs.filter (·.side == s) = ds.filter (·.side == s)) :
    (∀ s : Side, (d.transcript cs).filter (·.1.side == s) =
      (d.transcript ds).filter (·.1.side == s)) ∧ d.after cs = d.after ds := by
  constructor
  · intro s
    rw [(AgreeOn.refl s d).transcript cs, h s, (AgreeOn.refl s d).transcript ds]
  · -- On either side both runs lead to what the calls of that side alone lead to.
    refine eq_of_agreeOn fun s => ?_
    have hcs := (AgreeOn.refl s d).after cs
    rw [h s] at hcs
    exact hcs.trans ((AgreeOn.refl s d).after ds).symm

/-- A class has the fields that it was asked for, except those whose name was
    taken. -/
theorem fields_after_start (table : MethodTable) (settings : Settings) (name : BinaryName)
    (version : ClassVersion) (cs : List Call) :
    ((start table settings name version).after cs).product.fields =
      Field.firstNamed (cs.filterMap Call.field?) := by
  induction cs using List.reverseRecOn with
  | nil => rfl
  | append_singleton cs c ih =>
      rw [after_append, after_cons, after_nil, List.filterMap_append]
      -- Of the run before the call only the fields matter.
      generalize (start table settings name version).after cs = d at ih ⊢
      cases c with
      | require r =>
          have hnone : [Call.require r].filterMap Call.field? = [] := rfl
          change (d.require r).state.product.fields = _
          rw [fields_require, ih, hnone, List.append_nil]
      | addField f =>
          have hone : [Call.addField f].filterMap Call.field? = [f] := rfl
          change (d.addField f).state.product.fields = _
          rw [state_addField, fields_withFields, ih, Field.any_name_firstNamed, hone,
            Field.firstNamed_append_singleton]

/-- Of a run of calls only two things count: which requests are made in which
    order, and which fields are asked for in which order. A refused call leaves
    the draft as it was, and a list of requests that fails leaves what the
    requests before the refused one have made. So the refused calls of a script
    that tolerates them may be left out, and calls for accessors and calls for
    fields may be mixed in any way, without a change in what the other calls
    answer and in the draft at the end. Its fields have different names, and are
    those asked for whose name was new. -/
theorem refusals_and_mixing_do_not_count (d : Draft) :
    (∀ c e, (d.call c).answer = .error e → (d.call c).state = d) ∧
    (∀ rs e, (d.requireAll rs).answer = .error e →
      ∃ before r rest, rs = before ++ r :: rest ∧
        (∀ a ∈ d.answers (before.map .require), a.isOk = true) ∧
        ((d.after (before.map .require)).require r).answer = .error e ∧
        (d.requireAll rs).state = d.after (before.map .require)) ∧
    (∀ cs, (Description.run d (.script (cs.map Call.line))).result = .ok () ∧
      (Description.run d (.script (cs.map Call.line))).draft = d.after cs ∧
      (Description.run d (.script (cs.map Call.line))).notes = d.answers cs) ∧
    (∀ cs, d.transcript (d.granted cs) = (d.transcript cs).filter (·.2.isOk) ∧
      d.after (d.granted cs) = d.after cs) ∧
    (∀ cs ds, (∀ s : Side, cs.filter (·.side == s) = ds.filter (·.side == s)) →
      (∀ s : Side, (d.transcript cs).filter (·.1.side == s) =
        (d.transcript ds).filter (·.1.side == s)) ∧ d.after cs = d.after ds) ∧
    ∀ table settings name version cs,
      let fs := ((start table settings name version).after cs).product.fields
      (fs.map (·.name)).Nodup ∧ fs = Field.firstNamed (cs.filterMap Call.field?) := by
  refine ⟨fun _ _ => state_call_of_error, fun _ _ => state_requireAll_of_error,
    d.run_script_lines, fun cs => ⟨d.transcript_granted cs, d.after_granted cs⟩,
    fun _ _ => d.eq_of_filter_side_eq, ?_⟩
  intro table settings name version cs fs
  have hfs : fs = _ := fields_after_start table settings name version cs
  refine ⟨?_, hfs⟩
  rw [hfs]
  exact Field.nodup_name_firstNamed _

/-- A method of the class that the accessors are for. -/
def ownSize : Method :=
  ⟨⟨"p.Sub"⟩, "size", [], .prim .int, ∅⟩

/-- Calls for accessors and fields in turns. By signature there is nothing to
    forward to, and one field comes a second time under another type. -/
def mixedCalls : List Call :=
  [.addField ⟨"hits", .prim .int, ∅⟩, .require ⟨ownSize, .signature⟩,
    .addField ⟨"hits", .prim .long, ∅⟩, .require ⟨ownSize, .identity⟩,
    .addField ⟨"misses", .prim .int, ∅⟩, .require ⟨ownSize, .identity⟩]

/-- The same calls, first those for accessors and then those for fields. -/
def sortedCalls : List Call :=
  [.require ⟨ownSize, .signature⟩, .require ⟨ownSize, .identity⟩, .require ⟨ownSize, .identity⟩,
    .addField ⟨"hits", .prim .int, ∅⟩, .addField ⟨"hits", .prim .long, ∅⟩,
    .addField ⟨"misses", .prim .int, ∅⟩]

/-- Of the six calls in turns two are refused. Leaving these out, or sorting the
    calls by their sides, leads to the same draft. -/
theorem refusals_and_mixing_do_not_count_mixedCalls :
    let d := start (.empty ⟨"p.Sub"⟩) .standard ⟨"p.Aux"⟩ .standard
    (d.call (.require ⟨ownSize, .signature⟩)).state = d ∧
    (∃ before r rest, [⟨ownSize, .identity⟩, ⟨ownSize, .signature⟩] = before ++ r :: rest ∧
      (d.requireAll [⟨ownSize, .identity⟩, ⟨ownSize, .signature⟩]).state =
        d.after (before.map .require)) ∧
    ((d.granted mixedCalls).length = 4 ∧ d.after (d.granted mixedCalls) = d.after mixedCalls) ∧
    ((d.transcript mixedCalls).filter (·.1.side == .fields) =
      (d.transcript sortedCalls).filter (·.1.side == .fields) ∧
        d.after mixedCalls = d.after sortedCalls) ∧
    (d.after mixedCalls).product.fields.map (·.name) = ["hits", "misses"] := by
  intro d
  rcases refusals_and_mixing_do_not_count d with ⟨hcall, hall, -, hgranted, hmixed, hfields⟩
  have hfirst : (d.call (.require ⟨ownSize, .signature⟩)).answer =
      .error (.unreachable ownSize ⟨"p.Sub"⟩) := rfl
  have hsecond : (d.requireAll [⟨ownSize, .identity⟩, ⟨ownSize, .signature⟩]).answer =
      .error (.unreachable ownSize ⟨"p.Sub"⟩) := by
    decide +kernel
  have hsides : ∀ s : Side, mixedCalls.filter (·.side == s) = sortedCalls.filter (·.side == s) := by
    intro s
    cases s with
    | accessors => rfl
    | fields => rfl
  refine ⟨hcall _ _ hfirst, ?_, ⟨by decide +kernel, (hgranted mixedCalls).2⟩,
    ⟨(hmixed _ _ hsides).1 .fields, (hmixed _ _ hsides).2⟩, ?_⟩
  · rcases hall _ _ hsecond with ⟨before, r, rest, hrs, -, -, hstate⟩
    exact ⟨before, r, rest, hrs, hstate⟩
  · have hnamed := (hfields (.empty ⟨"p.Sub"⟩) .standard ⟨"p.Aux"⟩ .standard mixedCalls).2
    rw [hnamed]
    decide +kernel

end Draft

end SyntheticAccess
