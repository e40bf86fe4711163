import SyntheticAccess.Proofs.Emission
import SyntheticAccess.Session

/-!
# Refusals

A command can be refused at many points. Its name may be bad, its description
may give up after some accessors and fields were made, the emitter may not take
the class, a document may not be readable. `session_step_of_error` says that at
none of them is anything left behind. It follows that a refused command may as
well not have been given: the commands after it start from the session that it
started from, so a run without the refused commands answers the others alike.

There are two things that a session cannot show of itself, because they are about
what is not done. With a bad name nothing of the description is run, and with a
failed description the emitter is not asked. Both are said by leaving the part in
question open. `Host.describeWith` takes any way of describing a class, and
`Emitter` is any way of emitting one, on any state, which may well count how
often it is asked. What comes out does not depend on them.

## Main definitions

* `Session.accepted`: The commands of a run that are not refused.
* `Host.describeWith`: Describing a class in any way.
* `Emitter`: Emitting classes in any way.

## Theorems

* `run_accepted`, `after_accepted`: A run without its refused commands.
* `step_of_checkName_error`: A bad name ends a command at once.
* `Emitter.produce_of_error`, `Emitter.obtain_of_error`: An emitter is not asked
  for a class whose description failed.
* `refusals_leave_no_trace`: What a refused command changes, which is nothing.
-/

namespace SyntheticAccess

/-- Describe a class under a name that is yet to be read, by running anything on
    a draft. -/
def Host.describeWith (h : Host) (run : Draft → Description.Run) (raw : String)
    (version : ClassVersion) : Described :=
  match h.checkName raw with
  | .error e => ⟨.error e, [], []⟩
  | .ok name =>
    let r := run (.start h.table h.settings name version)
    ⟨r.result.map fun _ => r.draft.product, r.notes, r.events⟩

/-- Describing a class is `describeWith` applied to running its description. -/
theorem Host.describe_eq_describeWith (h : Host) (content : Description) (raw : String)
    (version : ClassVersion) :
    h.describe content raw version = h.describeWith (Description.run · content) raw version := rfl

/-- With a bad name nothing is run, so it does not matter what would have been. -/
theorem Host.describeWith_of_checkName_error {h : Host} {raw : String} {e : Failure}
    (he : h.checkName raw = .error e) (run : Draft → Description.Run) (version : ClassVersion) :
    h.describeWith run raw version = ⟨.error e, [], []⟩ := by
  rw [describeWith, he]

/-- Only the name is to blame when a name is refused. -/
theorem Host.checkName_error {h : Host} {raw : String} {e : Failure}
    (he : h.checkName raw = .error e) : ∃ problem, e = .badName raw problem := by
  rw [checkName] at he
  -- The name is no name, or it is one in another package.
  cases hname : BinaryName.parse raw with
  | error defect =>
      rw [hname] at he
      cases he
      exact ⟨_, rfl⟩
  | ok name =>
      simp only [hname] at he
      by_cases hshares : name.sharesPackage h.name = true
      · rw [if_pos hshares] at he
        cases he
      · rw [if_neg hshares] at he
        cases he
        exact ⟨_, rfl⟩

/-- A way of emitting classes on some state, and of remembering them there. -/
structure Emitter (σ : Type) where
  emit : σ → AccessorClass → Outcome Failure σ Listing
  lookup : σ → AccessorClass → Option Listing
  remember : σ → AccessorClass → Listing → σ

namespace Emitter

variable {σ : Type}

/-- Emit the class that a description led to. -/
def produce (m : Emitter σ) (x : σ) (d : Described) : Outcome Failure σ Listing :=
  match d.answer with
  | .error e => ⟨.error e, x, d.events⟩
  | .ok c =>
    let o := m.emit x c
    ⟨o.answer, o.state, d.events ++ .emitting c.name c.version c.accessors.length :: o.events⟩

/-- Emit the class that a description led to unless an equal one is remembered. -/
def obtain (m : Emitter σ) (x : σ) (d : Described) : Outcome Failure σ Listing :=
  match d.answer with
  | .error e => ⟨.error e, x, d.events⟩
  | .ok c =>
    match m.lookup x c with
    | some l => ⟨.ok l, x, d.events ++ [.cacheHit c.name]⟩
    | none =>
      let o := (m.emit x c).andThen fun l y => ⟨.ok l, m.remember y c l, []⟩
      ⟨o.answer, o.state, d.events ++ o.events⟩

/-- Whatever the emitter is, it is not asked for a class whose description failed. -/
theorem produce_of_error (m : Emitter σ) (x : σ) {d : Described} {e : Failure}
    (h : d.answer = .error e) : m.produce x d = ⟨.error e, x, d.events⟩ := by
  rw [produce, h]

theorem obtain_of_error (m : Emitter σ) (x : σ) {d : Described} {e : Failure}
    (h : d.answer = .error e) : m.obtain x d = ⟨.error e, x, d.events⟩ := by
  rw [obtain, h]

end Emitter

/-- A store with a sink is an emitter. -/
def Store.emitter (sink : Sink) : Emitter Store :=
  ⟨fun s c => s.emit sink c, Store.lookup, Store.remember⟩

theorem Store.produce_eq_emitter (s : Store) (sink : Sink) (d : Described) :
    s.produce sink d = (emitter sink).produce s d := rfl

theorem Store.obtain_eq_emitter (s : Store) (sink : Sink) (d : Described) :
    s.obtain sink d = (emitter sink).obtain s d := rfl

/-- What a command describes, under which name and in which version. -/
def Command.described? : Command → Option (Description × String × ClassVersion)
  | .describe content raw version | .produce _ content raw version
  | .obtain _ content raw version => some (content, raw, version)
  | _ => none

namespace Session

/-- Whether a command was carried out. -/
def Turn.isAnswered (t : Turn) : Bool :=
  t.answer.isOk

/-- The commands of a run that are not refused. -/
def accepted (s : Session) (cs : List Command) : List Command :=
  ((cs.zip (s.run cs)).filter (·.2.isAnswered)).map (·.1)

theorem Turn.isAnswered_of_ok {t : Turn} {a : Answer} (h : t.answer = .ok a) :
    t.isAnswered = true := by
  rw [isAnswered, h]
  rfl

theorem Turn.not_isAnswered_of_error {t : Turn} {r : Refusal} (h : t.answer = .error r) :
    ¬ t.isAnswered = true := by
  rw [isAnswered, h]
  exact Bool.false_ne_true

theorem accepted_cons_of_ok {s : Session} {c : Command} {a : Answer}
    (h : (s.step c).answer = .ok a) (cs : List Command) :
    s.accepted (c :: cs) = c :: (s.step c).session.accepted cs := by
  rw [accepted, run, List.zip_cons_cons, List.filter_cons, if_pos (Turn.isAnswered_of_ok h),
    List.map_cons]
  rfl

/-- A refused command is left out, and the next one finds the session the same. -/
theorem accepted_cons_of_error {s : Session} {c : Command} {r : Refusal}
    (h : (s.step c).answer = .error r) (cs : List Command) :
    s.accepted (c :: cs) = s.accepted cs := by
  rw [accepted, run, List.zip_cons_cons, List.filter_cons, if_neg (Turn.not_isAnswered_of_error h),
    session_step_of_error h]
  rfl

/-- Without the refused commands a run consists of the same turns, except for
    the refusals. -/
theorem run_accepted (s : Session) (cs : List Command) :
    s.run (s.accepted cs) = (s.run cs).filter Turn.isAnswered := by
  induction cs generalizing s with
  | nil => rfl
  | cons c cs ih =>
      cases h : (s.step c).answer with
      | error r =>
          -- The turn is dropped, and the rest of the run starts where it started.
          rw [accepted_cons_of_error h, run,
            List.filter_cons_of_neg (Turn.not_isAnswered_of_error h), session_step_of_error h]
          exact ih s
      | ok a =>
          rw [accepted_cons_of_ok h, run, run,
            List.filter_cons_of_pos (Turn.isAnswered_of_ok h), ih]

/-- Without the refused commands a run ends in the same session. -/
theorem after_accepted (s : Session) (cs : List Command) :
    s.after (s.accepted cs) = s.after cs := by
  induction cs generalizing s with
  | nil => rfl
  | cons c cs ih =>
      have hafter : s.after (c :: cs) = (s.step c).session.after cs := rfl
      -- The induction is on the commands for any session, since a refused one leaves the session
      -- that it found.
      cases h : (s.step c).answer with
      | error r =>
          rw [accepted_cons_of_error h, hafter, session_step_of_error h]
          exact ih s
      | ok a =>
          rw [accepted_cons_of_ok h]
          exact ih (s.step c).session

/-- A command whose description fails is refused with that failure. Its notes and
    events are those of the description, and there are no others. -/
theorem step_of_describe_error {s : Session} {command : Command} {content : Description}
    {raw : String} {version : ClassVersion} {e : Failure}
    (hcommand : command.described? = some (content, raw, version))
    (he : (s.host.describe content raw version).answer = .error e) :
    s.step command = ⟨.error (.failed e), s, (s.host.describe content raw version).notes,
      (s.host.describe content raw version).events⟩ := by
  -- Three commands describe a class. Two of them go on to the store, which is where the failure
  -- ends them.
  cases command with
  | describe content' raw' version' =>
      cases hcommand
      simp only [step, he]
  | produce sink content' raw' version' =>
      cases hcommand
      rw [step, ofOutcome, s.store.produce_of_error sink he]
      rfl
  | obtain sink content' raw' version' =>
      cases hcommand
      rw [step, ofOutcome, s.store.obtain_of_error sink he]
      rfl
  | _ => cases hcommand

/-- A bad name ends a command before anything of its description is run. -/
theorem step_of_checkName_error {s : Session} {command : Command} {content : Description}
    {raw : String} {version : ClassVersion} {e : Failure}
    (hcommand : command.described? = some (content, raw, version))
    (he : s.host.checkName raw = .error e) : s.step command = ⟨.error (.failed e), s, [], []⟩ := by
  have hdescribe := Host.describe_of_checkName_error he content version
  rw [step_of_describe_error hcommand (congrArg Described.answer hdescribe), hdescribe]

/-- A refused command leaves no trace. The emitted names, the remembered classes
    and the numbered ones are what they were, so that without its refused
    commands a run has the same answers to the others and ends in the same
    session. A bad name is reported before the description does anything,
    whatever that would be. A failed description is reported without asking the
    emitter, whatever it is. -/
theorem refusals_leave_no_trace (s : Session) :
    (∀ command r, (s.step command).answer = .error r → (s.step command).session = s) ∧
    (∀ cs, s.run (s.accepted cs) = (s.run cs).filter Turn.isAnswered ∧
      s.after (s.accepted cs) = s.after cs) ∧
    (∀ raw e, s.host.checkName raw = .error e →
      (∃ problem, e = .badName raw problem) ∧
      (∀ run version, s.host.describeWith run raw version = ⟨.error e, [], []⟩) ∧
      ∀ command content version, command.described? = some (content, raw, version) →
        s.step command = ⟨.error (.failed e), s, [], []⟩) ∧
    (∀ command content raw version e, command.described? = some (content, raw, version) →
      (s.host.describe content raw version).answer = .error e →
      s.step command = ⟨.error (.failed e), s, (s.host.describe content raw version).notes,
        (s.host.describe content raw version).events⟩) ∧
    (∀ content raw version, s.host.describe content raw version =
      s.host.describeWith (Description.run · content) raw version) ∧
    (∀ sink d, s.store.produce sink d = (Store.emitter sink).produce s.store d ∧
      s.store.obtain sink d = (Store.emitter sink).obtain s.store d) ∧
    ∀ (σ : Type) (m : Emitter σ) (x : σ) (d : Described) (e : Failure), d.answer = .error e →
      m.produce x d = ⟨.error e, x, d.events⟩ ∧ m.obtain x d = ⟨.error e, x, d.events⟩ := by
  refine ⟨fun _ _ => session_step_of_error, fun cs => ⟨s.run_accepted cs, s.after_accepted cs⟩,
    fun raw e he => ⟨Host.checkName_error he, ?_, ?_⟩,
    fun _ _ _ _ _ => step_of_describe_error,
    s.host.describe_eq_describeWith,
    fun sink d => ⟨s.store.produce_eq_emitter sink d, s.store.obtain_eq_emitter sink d⟩,
    fun σ m x d e hd => ⟨m.produce_of_error x hd, m.obtain_of_error x hd⟩⟩
  · exact fun run version => Host.describeWith_of_checkName_error he run version
  · exact fun command content version hcommand => step_of_checkName_error hcommand he

/-- A new session beside a host whose method table is empty. -/
def emptySession : Session :=
  start ⟨⟨"p.Main"⟩, .empty ⟨"p.Main"⟩, .standard⟩

/-- A description that gives up after it made a field and an accessor. -/
def givenUp : Description :=
  .script [⟨.addField ⟨"count", .prim .int, ∅⟩, false⟩,
    ⟨.require ⟨⟨⟨"p.Main"⟩, "size", [], .prim .int, ∅⟩, .identity⟩, false⟩,
    ⟨.abort ⟨"p.Lost"⟩, false⟩]

/-- A class is described and emitted. Its name is taken after that, a bad name and
    a failing description come to nothing, and so does a document that is none. -/
def partlyRefused : List Command :=
  [.describe (.bundle []) "p.Aux" .standard, .emit 0, .emit 0,
    .produce .listing (.bundle []) "no name" .standard,
    .obtain .listing givenUp "p.Other" .standard, .load (.text "p.Aux"), .lookup 0]

/-- Of seven commands four are refused, and the session is that of the other three.
    Two more are refused after them and leave it as it is. -/
theorem refusals_leave_no_trace_partlyRefused :
    let s := emptySession.after partlyRefused
    ((s.step (.obtain .listing givenUp "p.Other" .standard)).session = s ∧
      (s.step (.load (.text "p.Aux"))).session = s) ∧
    ((emptySession.run partlyRefused).length = 7 ∧
      (emptySession.run (emptySession.accepted partlyRefused)).length = 3 ∧
      emptySession.after (emptySession.accepted partlyRefused) = s) ∧
    s.step (.produce .listing givenUp "no name" .standard) =
      ⟨.error (.failed (.badName "no name" (.notAName (.notIdentifier "no name")))), s, [], []⟩ ∧
    (s.step (.produce .listing givenUp "p.Other" .standard)).notes.length = 3 ∧
    ((Store.emitter .listing).obtain s.store
        (s.host.describe givenUp "p.Other" .standard)).state = s.store := by
  intro s
  rcases refusals_leave_no_trace s with ⟨hsame, -, hname, hdescribe, -, -, hemitter⟩
  -- That a command is refused is computed, but with what it is not written out.
  have herror : ∀ command, (s.step command).isAnswered = false →
      ∃ r, (s.step command).answer = .error r := by
    intro command hrefused
    cases h : (s.step command).answer with
    | error r => exact ⟨r, rfl⟩
    | ok a =>
        rw [Turn.isAnswered_of_ok h] at hrefused
        cases hrefused
  have hlost : (s.host.describe givenUp "p.Other" .standard).answer =
      .error (.unregistered ⟨"p.Lost"⟩) := by
    decide +kernel
  refine ⟨⟨?_, ?_⟩, ⟨by decide +kernel, ?_, ?_⟩, ?_, ?_, ?_⟩
  · rcases herror (.obtain .listing givenUp "p.Other" .standard) (by decide +kernel) with ⟨r, hr⟩
    exact hsame _ r hr
  · rcases herror (.load (.text "p.Aux")) (by decide +kernel) with ⟨r, hr⟩
    exact hsame _ r hr
  · rw [((refusals_leave_no_trace emptySession).2.1 partlyRefused).1]
    decide +kernel
  · exact ((refusals_leave_no_trace emptySession).2.1 partlyRefused).2
  · exact (hname "no name" _ (by decide +kernel)).2.2 _ givenUp .standard rfl
  · rw [hdescribe _ givenUp "p.Other" .standard _ rfl hlost]
    decide +kernel
  · rw [(hemitter Store (Store.emitter .listing) s.store _ _ hlost).2]

end Session

end SyntheticAccess
