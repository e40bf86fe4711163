import SyntheticAccess.Host
import SyntheticAccess.Listing

/-!
# Emission and Reuse

Described classes are emitted as listings, each name at most once. A store
remembers which names were emitted, and for classes made through it also the
class itself with its listing. When an equal class is made again through the
store it gets the first listing back and nothing is emitted; a different class
of the same name is refused, because its name is taken.

Emission goes to a sink. One sink refuses every class, and a class found in the
store does not notice, since it never gets there.

## Main definitions

* `Store`: The emitted names and the remembered classes.
* `Sink`: Where emitted classes go.
* `Store.emit`: Emitting a class.
* `Store.produce`: Emitting what a description led to.
* `Store.obtain`: The same, but reusing an equal class.

## Theorems

* `state_emit_of_error`, `state_produce_of_error`, `state_obtain_of_error`:
  Failures change nothing.
-/

namespace SyntheticAccess

/-- Where emitted classes go. -/
inductive Sink where
  | listing
  /-- Every class is refused as if its name were taken. -/
  | refusing
  deriving DecidableEq

/-- What has been emitted and what can be reused. -/
structure Store where
  /-- The names of emitted classes, in order. -/
  emitted : List BinaryName
  /-- Classes with the listings they were emitted as. -/
  cached : List (AccessorClass × Listing)
  deriving DecidableEq

namespace Store

/-- Nothing emitted and nothing to reuse. -/
def empty : Store :=
  ⟨[], []⟩

/-- Whether a class of this name was emitted. -/
def isTaken (s : Store) (name : BinaryName) : Bool :=
  s.emitted.contains name

/-- The listing that an equal class was emitted as. -/
def lookup (s : Store) (c : AccessorClass) : Option Listing :=
  s.cached.lookup c

/-- Emit a class. -/
def emit (s : Store) (sink : Sink) (c : AccessorClass) : Outcome Failure Store Listing :=
  match sink with
  | .refusing => ⟨.error (.nameTaken c.name), s, []⟩
  | .listing =>
    if s.isTaken c.name then ⟨.error (.nameTaken c.name), s, []⟩
    else ⟨.ok c.listing, { s with emitted := s.emitted ++ [c.name] }, []⟩

/-- Emit the class that a description led to. -/
def produce (s : Store) (sink : Sink) (d : Described) : Outcome Failure Store Listing :=
  match d.answer with
  | .error e => ⟨.error e, s, d.events⟩
  | .ok c =>
    let o := s.emit sink c
    ⟨o.answer, o.state, d.events ++ .emitting c.name c.version c.accessors.length :: o.events⟩

/-- Remember a class with its listing. -/
def remember (s : Store) (c : AccessorClass) (l : Listing) : Store :=
  { s with cached := s.cached ++ [(c, l)] }

/-- The listing of the class that a description led to: the one that an equal
    class has already, or else a new one. -/
def obtain (s : Store) (sink : Sink) (d : Described) : Outcome Failure Store Listing :=
  match d.answer with
  | .error e => ⟨.error e, s, d.events⟩
  | .ok c =>
    match s.lookup c with
    | some l => ⟨.ok l, s, d.events ++ [.cacheHit c.name]⟩
    | none =>
      let o := (s.emit sink c).andThen fun l s => ⟨.ok l, s.remember c l, []⟩
      ⟨o.answer, o.state, d.events ++ o.events⟩

/-- A class that is refused leaves the store as it was. -/
theorem state_emit_of_error {s : Store} {sink : Sink} {c : AccessorClass} {e : Failure}
    (h : (s.emit sink c).answer = .error e) : (s.emit sink c).state = s := by
  revert h
  cases sink with
  | refusing => exact fun _ => rfl
  | listing =>
      rw [emit]
      split
      · exact fun _ => rfl
      · exact fun h => nomatch h

theorem state_produce_of_error {s : Store} {sink : Sink} {d : Described} {e : Failure}
    (h : (s.produce sink d).answer = .error e) : (s.produce sink d).state = s := by
  revert h
  rw [produce]
  split
  · exact fun _ => rfl
  · exact state_emit_of_error

/-- Nothing is remembered unless it was emitted. -/
theorem state_obtain_of_error {s : Store} {sink : Sink} {d : Described} {e : Failure}
    (h : (s.obtain sink d).answer = .error e) : (s.obtain sink d).state = s := by
  revert h
  rw [obtain]
  split
  · exact fun _ => rfl
  · split
    · exact fun _ => rfl
    · next c _ _ =>
      rw [Outcome.andThen]
      split
      · next e' he => exact fun _ => state_emit_of_error he
      · exact fun h => nomatch h

end Store

end SyntheticAccess
