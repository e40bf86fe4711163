import SyntheticAccess.Draft

/-!
# Descriptions

What a generated class is to contain, as a value that can be run on a draft. A
bundle is a list of requests and nothing else. A script is a list of actions,
among them looking at the draft, giving up, and requiring a whole bundle; an
action whose failure is tolerated does not end the script. Running a script
yields a note for every action that ran, with what the action answered.

## Main definitions

* `Action`: One step of a script.
* `Note`: What an action answers.
* `Draft.perform`: Running an action.
* `Description`: A bundle or a script.
* `Description.run`: Running it, with the notes taken.
-/

namespace SyntheticAccess

/-- One step in the description of a class. -/
inductive Action where
  | require (r : Request)
  | addField (f : Field)
  /-- Require accessors until one fails. -/
  | bundle (rs : List Request)
  | inspect
  /-- Ask whether the method table has a signature. -/
  | contains (s : ErasedSignature)
  /-- Give up, because a class is missing. -/
  | abort (name : BinaryName)
  deriving DecidableEq

/-- What an action answers when it succeeds. -/
inductive Note where
  | accessor (m : Method)
  | fieldCount (n : Nat)
  | accessorCount (n : Nat)
  /-- The class as described so far, and the context of the method table. -/
  | inspected (c : AccessorClass) (context : BinaryName)
  | contained (b : Bool)
  deriving DecidableEq

/-- Run one action on a draft. -/
def Draft.perform (d : Draft) : Action → Outcome Failure Draft Note
  | .require r => (d.require r).map .accessor
  | .addField f => (d.addField f).map .fieldCount
  | .bundle rs =>
    (d.requireAll rs).andThen fun _ d => ⟨.ok (.accessorCount d.product.accessors.length), d, []⟩
  | .inspect => ⟨.ok (.inspected d.product d.table.context), d, []⟩
  | .contains s => ⟨.ok (.contained (d.table.contains s)), d, []⟩
  | .abort name => ⟨.error (.unregistered name), d, []⟩

/-- An action of a script. -/
structure ScriptLine where
  action : Action
  /-- Whether the script goes on when the action fails. -/
  tolerated : Bool
  deriving DecidableEq

/-- What a generated class is to contain. -/
inductive Description where
  | bundle (rs : List Request)
  /-- Whatever the actions add. -/
  | script (ls : List ScriptLine)
  deriving DecidableEq

namespace Description

/-- What running a description on a draft leads to. -/
structure Run where
  /-- The failure that ended the description early, if there was one. -/
  result : Except Failure Unit
  draft : Draft
  /-- What each action that ran answered. -/
  notes : List (Except Failure Note)
  events : List Event

/-- Run the actions of a script up to the first failure that is not tolerated. -/
def runScript (d : Draft) : List ScriptLine → Run
  | [] => ⟨.ok (), d, [], []⟩
  | l :: ls =>
    let o := d.perform l.action
    match o.answer, l.tolerated with
    | .error e, false => ⟨.error e, o.state, [o.answer], o.events⟩
    | _, _ =>
      let rest := runScript o.state ls
      ⟨rest.result, rest.draft, o.answer :: rest.notes, o.events ++ rest.events⟩

/-- Run a description on a draft. -/
def run (d : Draft) : Description → Run
  | .bundle rs =>
    let o := d.requireAll rs
    ⟨o.answer, o.state, [], o.events⟩
  | .script ls => runScript d ls

end Description

end SyntheticAccess
