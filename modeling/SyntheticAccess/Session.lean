import SyntheticAccess.Session.Command
import SyntheticAccess.Store
import SyntheticAccess.Stored.Classes

/-!
# Sessions

Work on the classes generated beside one host, as a sequence of commands. A
session keeps a store and a numbered list of the classes that were described or
loaded, so that later commands can refer to them. Every command answers or is
refused, and a refusal does not end the session.

## Main definitions

* `Session`: A host with a store and the classes described so far.
* `Session.step`: Running one command.
* `Session.run`: Running a list of commands.

## Theorems

* `session_step_of_error`: A refused command leaves the session as it was.
-/

namespace SyntheticAccess

/-- Work on the classes beside one host. -/
structure Session where
  host : Host
  store : Store
  /-- The classes that were described or loaded, by number. -/
  classes : List AccessorClass
  deriving DecidableEq

namespace Session

/-- What running a command leads to. -/
structure Turn where
  answer : Except Refusal Answer
  session : Session
  /-- What each action of a script in the command answered. -/
  notes : List (Except Failure Note)
  events : List Event

/-- A session in which nothing was done. -/
def start (h : Host) : Session :=
  ⟨h, .empty, []⟩

/-- A command that looks without changing anything. -/
def look (s : Session) (a : Answer) : Turn :=
  ⟨.ok a, s, [], []⟩

/-- A command that is refused. -/
def refuse (s : Session) (r : Refusal) : Turn :=
  ⟨.error r, s, [], []⟩

/-- Keep a class under the next number. -/
def keep (s : Session) (c : AccessorClass) : Session :=
  { s with classes := s.classes ++ [c] }

/-- Run a command on the class with a number, if there is one. -/
def withClass (s : Session) (number : Nat) (command : AccessorClass → Turn) : Turn :=
  match s.classes[number]? with
  | none => s.refuse (.noSuchClass number)
  | some c => command c

/-- The turn of a command that used the store. -/
def ofOutcome (s : Session) (notes : List (Except Failure Note))
    (o : Outcome Failure Store Listing) : Turn :=
  ⟨(o.answer.map Answer.listing).mapError .failed, { s with store := o.state }, notes, o.events⟩

/-- Run one command. -/
def step (s : Session) : Command → Turn
  | .showHost => s.look (.host s.host.name s.host.settings)
  | .checkName raw =>
    match s.host.checkName raw with
    | .error e => s.refuse (.failed e)
    | .ok n => s.look (.name n)
  | .describe content raw version =>
    let d := s.host.describe content raw version
    match d.answer with
    | .error e => ⟨.error (.failed e), s, d.notes, d.events⟩
    | .ok c => ⟨.ok (.kept s.classes.length c), s.keep c, d.notes, d.events⟩
  | .produce sink content raw version =>
    let d := s.host.describe content raw version
    s.ofOutcome d.notes (s.store.produce sink d)
  | .obtain sink content raw version =>
    let d := s.host.describe content raw version
    s.ofOutcome d.notes (s.store.obtain sink d)
  | .emit number => s.withClass number fun c => s.ofOutcome [] (s.store.emit .listing c)
  | .lookup number => s.withClass number fun c => s.look (.found (s.store.lookup c))
  | .isTaken name => s.look (.flag (s.store.isTaken name))
  | .print number => s.withClass number fun c => s.look (.text c.listingText)
  | .compare a b =>
    s.withClass a fun c => s.withClass b fun d =>
      s.look (.comparison (c.agrees d) (c == d))
  | .count =>
    s.look (.counts s.store.emitted.length s.store.cached.length s.classes.length)
  | .save number => s.withClass number fun c => s.look (.document c.save)
  | .load d =>
    match AccessorClass.load? d with
    | none => s.refuse .unreadable
    | some c => ⟨.ok (.kept s.classes.length c), s.keep c, [], []⟩
  | .reload number =>
    s.withClass number fun c =>
      match AccessorClass.load? c.save with
      | none => s.refuse .unreadable
      | some d => ⟨.ok (.reloaded s.classes.length (c == d)), s.keep d, [], []⟩

/-- Run commands one after the other. A refused one does not stop the rest. -/
def run (s : Session) : List Command → List Turn
  | [] => []
  | c :: cs =>
    let t := s.step c
    t :: t.session.run cs

/-- The session after a list of commands. -/
def after (s : Session) (cs : List Command) : Session :=
  cs.foldl (fun s c => (s.step c).session) s

theorem session_withClass_of_error {s : Session} {number : Nat} {command : AccessorClass → Turn}
    {r : Refusal} (hc : ∀ c, (command c).answer = .error r → (command c).session = s)
    (h : (s.withClass number command).answer = .error r) :
    (s.withClass number command).session = s := by
  revert h
  rw [withClass]
  split
  · exact fun _ => rfl
  · exact hc _

theorem session_ofOutcome_of_error {s : Session} {notes : List (Except Failure Note)}
    {o : Outcome Failure Store Listing} {r : Refusal}
    (ho : ∀ e, o.answer = .error e → o.state = s.store)
    (h : (s.ofOutcome notes o).answer = .error r) : (s.ofOutcome notes o).session = s := by
  rw [ofOutcome] at h ⊢
  cases ha : o.answer with
  | error e => rw [ho e ha]
  | ok l =>
      rw [ha] at h
      exact nomatch h

/-- A refused command leaves the session as it was: the emitted names, the
    remembered classes, and the numbered ones. -/
theorem session_step_of_error {s : Session} {c : Command} {r : Refusal}
    (h : (s.step c).answer = .error r) : (s.step c).session = s := by
  cases c with
  | showHost | isTaken | count => rfl
  | checkName raw =>
      rw [step] at h ⊢
      cases s.host.checkName raw <;> rfl
  | describe content raw version =>
      revert h
      rw [step]
      split
      · exact fun _ => rfl
      · exact fun h => nomatch h
  | produce sink content raw version =>
      exact session_ofOutcome_of_error (fun _ => Store.state_produce_of_error) h
  | obtain sink content raw version =>
      exact session_ofOutcome_of_error (fun _ => Store.state_obtain_of_error) h
  | emit number =>
      exact session_withClass_of_error
        (fun _ => session_ofOutcome_of_error fun _ => Store.state_emit_of_error) h
  | lookup | print | save => exact session_withClass_of_error (fun _ _ => rfl) h
  | compare a b =>
      exact session_withClass_of_error
        (fun _ => session_withClass_of_error fun _ _ => rfl) h
  | load d =>
      revert h
      rw [step]
      split
      · exact fun _ => rfl
      · exact fun h => nomatch h
  | reload number =>
      refine session_withClass_of_error (fun c => ?_) h
      split
      · exact fun _ => rfl
      · exact fun h => nomatch h

end Session

end SyntheticAccess
