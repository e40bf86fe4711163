import SyntheticAccess.Host
import SyntheticAccess.Proofs.Drafting

/-!
# Descriptions as Runs

A description reaches a draft only through its calls, however it strings them
together. A bundle requires one method after another and stops at a failure, a
script may contain bundles and may go on after failures, and the class that a
host is given is taken from the draft at the end. All of them come to making
some of the calls that the description names, in one sequence, so whatever
holds of a draft after every sequence of calls holds of described classes.

Which calls are made depends on what fails and is left open. What is kept is
that no request is made that the description does not name.

## Main definitions

* `Action.requests`, `Description.requests`: The requests named.

## Theorems

* `exists_after_requireAll`: A list of requests is made up to some point.
* `exists_after_run`: Running a description makes a sequence of calls.
* `exists_after_of_describe`: A described class is what such a run leads to.
* `exists_coherent_of_describe`: Its draft is coherent.
-/

namespace SyntheticAccess

/-- The requests that an action can make. -/
def Action.requests : Action → List Request
  | .require r => [r]
  | .bundle rs => rs
  | .addField _ | .inspect | .contains _ | .abort _ => []

/-- The requests that running the description can make. -/
def Description.requests : Description → List Request
  | .bundle rs => rs
  | .script ls => ls.flatMap (·.action.requests)

namespace Outcome

variable {ε σ α β : Type}

theorem state_andThen_of_error {o : Outcome ε σ α} {e : ε} (h : o.answer = .error e)
    (next : α → σ → Outcome ε σ β) : (o.andThen next).state = o.state := by
  rw [andThen, h]

theorem state_andThen_of_ok {o : Outcome ε σ α} {a : α} (h : o.answer = .ok a)
    (next : α → σ → Outcome ε σ β) : (o.andThen next).state = (next a o.state).state := by
  rw [andThen, h]

end Outcome

namespace Draft

/-- Requiring a list of methods makes the requests up to the first failure,
    the failing one among them. -/
theorem exists_after_requireAll (d : Draft) (rs : List Request) :
    ∃ made, made <+: rs ∧ (d.requireAll rs).state = d.after (made.map .require) := by
  induction rs generalizing d with
  | nil => exact ⟨[], List.prefix_rfl, rfl⟩
  | cons r rs ih =>
      rw [requireAll]
      cases hanswer : (d.require r).answer with
      | error e =>
          -- The request that failed was made, and none after it.
          refine ⟨[r], List.prefix_append [r] rs, ?_⟩
          rw [Outcome.state_andThen_of_error hanswer]
          rfl
      | ok m =>
          rcases ih (d.require r).state with ⟨made, hprefix, hstate⟩
          refine ⟨r :: made, List.cons_prefix_cons.mpr ⟨rfl, hprefix⟩, ?_⟩
          rw [Outcome.state_andThen_of_ok hanswer, hstate]
          rfl

theorem state_perform_bundle (d : Draft) (rs : List Request) :
    (d.perform (.bundle rs)).state = (d.requireAll rs).state := by
  rw [perform]
  cases hanswer : (d.requireAll rs).answer with
  | error e => exact Outcome.state_andThen_of_error hanswer _
  | ok u => exact Outcome.state_andThen_of_ok hanswer _

theorem mem_of_require_mem_map {rs : List Request} {r : Request}
    (h : Call.require r ∈ rs.map .require) : r ∈ rs := by
  rcases List.mem_map.mp h with ⟨q, hq, heq⟩
  rw [← Call.require.inj heq]
  exact hq

/-- An action makes some of the requests that it names, or adds a field. -/
theorem exists_after_perform (d : Draft) (a : Action) :
    ∃ cs, (d.perform a).state = d.after cs ∧ ∀ r, .require r ∈ cs → r ∈ a.requests := by
  cases a with
  | require r => exact ⟨[.require r], rfl, fun q hq => @mem_of_require_mem_map [r] q hq⟩
  | addField f =>
      -- The only call is for a field.
      refine ⟨[.addField f], rfl, fun q hq => ?_⟩
      rw [List.mem_singleton] at hq
      cases hq
  | bundle rs =>
      rcases d.exists_after_requireAll rs with ⟨made, hprefix, hstate⟩
      exact ⟨made.map .require, (d.state_perform_bundle rs).trans hstate,
        fun q hq => hprefix.subset (mem_of_require_mem_map hq)⟩
  | inspect => exact ⟨[], rfl, fun q hq => nomatch hq⟩
  | contains s => exact ⟨[], rfl, fun q hq => nomatch hq⟩
  | abort n => exact ⟨[], rfl, fun q hq => nomatch hq⟩

end Draft

namespace Description

/-- After its first line a script ends or goes on, depending on what the line
    answers and whether it is tolerated. -/
theorem draft_runScript_cons (d : Draft) (l : ScriptLine) (ls : List ScriptLine) :
    (runScript d (l :: ls)).draft = (d.perform l.action).state ∨
      (runScript d (l :: ls)).draft = (runScript (d.perform l.action).state ls).draft := by
  rw [runScript]
  cases (d.perform l.action).answer with
  | ok n => exact Or.inr rfl
  | error e =>
      cases l.tolerated with
      | true => exact Or.inr rfl
      | false => exact Or.inl rfl

/-- A script makes a sequence of calls, with no requests among them but those of its
    lines. -/
theorem exists_after_runScript (d : Draft) (ls : List ScriptLine) :
    ∃ cs, (runScript d ls).draft = d.after cs ∧
      ∀ r, .require r ∈ cs → r ∈ ls.flatMap (·.action.requests) := by
  induction ls generalizing d with
  | nil => exact ⟨[], rfl, fun q hq => nomatch hq⟩
  | cons l ls ih =>
      rcases d.exists_after_perform l.action with ⟨cs, hstate, hcs⟩
      rcases draft_runScript_cons d l ls with hend | hrest
      · -- The script ends after this line, with the calls made so far.
        refine ⟨cs, hend.trans hstate, fun r hr => ?_⟩
        exact List.mem_append_left _ (hcs r hr)
      · -- The calls of the line come first, those of the rest start from what it left.
        rcases ih (d.perform l.action).state with ⟨more, hdraft, hmore⟩
        refine ⟨cs ++ more, ?_, fun r hr => ?_⟩
        · rw [hrest, hdraft, hstate, Draft.after_append]
        · rw [List.flatMap_cons]
          rcases List.mem_append.mp hr with hr | hr
          · exact List.mem_append_left _ (hcs r hr)
          · exact List.mem_append_right _ (hmore r hr)

/-- Running a description makes a sequence of calls, with no requests among
    them but those of the description. -/
theorem exists_after_run (d : Draft) (content : Description) :
    ∃ cs, (content.run d).draft = d.after cs ∧ ∀ r, .require r ∈ cs → r ∈ content.requests := by
  cases content with
  | bundle rs =>
      rcases d.exists_after_perform (.bundle rs) with ⟨cs, hstate, hcs⟩
      exact ⟨cs, (d.state_perform_bundle rs).symm.trans hstate, hcs⟩
  | script ls => exact exists_after_runScript d ls

end Description

namespace Host

/-- A described class has a name that was accepted, and is what a run of calls
    leads to from a draft without members. -/
theorem exists_after_of_describe {h : Host} {content : Description} {raw : String}
    {version : ClassVersion} {c : AccessorClass}
    (hok : (h.describe content raw version).answer = .ok c) :
    ∃ name cs, h.checkName raw = .ok name ∧
      c = ((Draft.start h.table h.settings name version).after cs).product ∧
      ∀ r, .require r ∈ cs → r ∈ content.requests := by
  cases hname : h.checkName raw with
  | error e =>
      rw [describe_of_checkName_error hname] at hok
      cases hok
  | ok name =>
      rcases content.exists_after_run (.start h.table h.settings name version) with
        ⟨cs, hdraft, hcs⟩
      refine ⟨name, cs, rfl, ?_, hcs⟩
      -- The class is taken from the draft at the end of the run, and only if the run succeeds.
      rw [describe, hname] at hok
      rw [← hdraft]
      cases hresult : (content.run (.start h.table h.settings name version)).result with
      | error e =>
          simp only [hresult] at hok
          cases hok
      | ok u =>
          simp only [hresult] at hok
          exact (Except.ok.inj hok).symm

/-- A described class is the product of a coherent draft with the table and the
    settings of the host. -/
theorem exists_coherent_of_describe {h : Host} {content : Description} {raw : String}
    {version : ClassVersion} {c : AccessorClass}
    (hok : (h.describe content raw version).answer = .ok c) :
    ∃ d : Draft, d.Coherent ∧ d.table = h.table ∧ d.settings = h.settings ∧ d.product = c := by
  rcases exists_after_of_describe hok with ⟨name, cs, -, hproduct, -⟩
  rcases (Draft.start h.table h.settings name version).frame_after cs with
    ⟨htable, hsettings, -⟩
  exact ⟨_, Draft.coherent_after h.table h.settings name version cs, htable, hsettings,
    hproduct.symm⟩

end Host

end SyntheticAccess
