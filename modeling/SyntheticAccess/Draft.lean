import SyntheticAccess.AccessorClass
import SyntheticAccess.Outcome
import SyntheticAccess.Settings

/-!
# Drafts

An accessor class while it is described. Members are only added, by requiring
an accessor or by adding a field, and the class is taken out at the end.

Requiring is idempotent: an index remembers which accessor answered which
request, and the same request gets the same accessor again. Requests count as
the same only when target and resolution are equal, so one target can have an
accessor for either resolution. A target without an accessor yet is resolved
against the method table, and what is found must be callable the way the target
is: static like it, and with a result of the same kind.

The names of accessors end in their position, so accessors never clash whatever
the names of their targets are.

## Main definitions

* `Draft`: A class under description, with its index of requests.
* `Draft.start`: The draft of a class without members.
* `Draft.require`: The accessor for a request, made if there is none.
* `Draft.requireAll`: The accessors for a list of requests.
* `Draft.addField`: One more field.

## Theorems

* `require_of_find?`: A known request changes nothing.
* `state_require_of_error`, `state_addField_of_error`: Failures change nothing.
-/

namespace SyntheticAccess

/-- Whether a method found for a request can be called the way its target is.
    Both must need a receiver or both not, and the results must be handled by
    the same instructions. -/
def Request.accepts (r : Request) (m : Method) : Bool :=
  m.isStatic == r.target.isStatic && m.result.kind == r.target.result.kind

/-- The parameters of an accessor: those of its target, after the receiver if
    the target needs one. -/
def Request.accessorParams (r : Request) : List SigType :=
  if r.target.isStatic then r.target.params
  else .classRef r.target.owner :: r.target.params

/-- A class under description. -/
structure Draft where
  table : MethodTable
  settings : Settings
  product : AccessorClass
  /-- The positions of the accessors that answer the requests made so far. -/
  index : List (Request × Nat)
  deriving DecidableEq

namespace Draft

/-- The draft of a class without members. Its flags come from the settings. -/
def start (table : MethodTable) (settings : Settings) (name : BinaryName)
    (version : ClassVersion) : Draft :=
  ⟨table, settings, .new name version settings.typeFlags, []⟩

/-- The accessor that answers a request already. -/
def find? (d : Draft) (r : Request) : Option Accessor :=
  (d.index.lookup r).bind fun i => d.product.accessors[i]?

/-- The name of an accessor: its target, the tag, and its position. -/
def accessorName (target tag : String) (position : Nat) : String :=
  target ++ "$" ++ tag ++ "$" ++ decimal position

/-- The method that the class declares for a request at a position. -/
def accessorMethod (d : Draft) (r : Request) (position : Nat) : Method where
  owner := d.product.name
  name := accessorName r.target.name d.settings.tag position
  params := r.accessorParams
  result := r.target.result
  flags := d.settings.staticAccessorFlags

/-- The accessor that the next request gets, when it resolves to a method. -/
def nextAccessor (d : Draft) (r : Request) (resolved : Method) : Accessor where
  method := d.accessorMethod r d.product.accessors.length
  request := r
  resolved := resolved
  code := .calling r.accessorParams resolved r.target.result

/-- Add the accessor for a request, and remember where it is. -/
def push (d : Draft) (r : Request) (a : Accessor) : Draft where
  table := d.table
  settings := d.settings
  product := { d.product with accessors := d.product.accessors ++ [a] }
  index := (r, d.product.accessors.length) :: d.index

/-- The accessor for a request. -/
def require (d : Draft) (r : Request) : Outcome Failure Draft Method :=
  match d.find? r with
  | some a => ⟨.ok a.method, d, [.accessorReused a.method.name r.resolution]⟩
  | none =>
    match r.resolve d.table with
    | .error e => ⟨.error e, d, r.resolveEvents d.table⟩
    | .ok m =>
      if r.accepts m then
        let a := d.nextAccessor r m
        ⟨.ok a.method, d.push r a, r.resolveEvents d.table ++
          [.accessorCreated d.product.name a.method.name m r.resolution]⟩
      else ⟨.error (.unreachable r.target d.table.context), d, r.resolveEvents d.table⟩

/-- The accessors for a list of requests, up to the first that fails. The
    accessors made before it stay. -/
def requireAll (d : Draft) : List Request → Outcome Failure Draft Unit
  | [] => ⟨.ok (), d, []⟩
  | r :: rs => (d.require r).andThen fun _ d => d.requireAll rs

/-- Add a field, and answer how many there are then. Fields are told apart by
    name alone. -/
def addField (d : Draft) (f : Field) : Outcome Failure Draft Nat :=
  if d.product.fields.any (·.name == f.name) then
    ⟨.error (.fieldTaken d.product.name f.name), d, []⟩
  else
    let fields := d.product.fields ++ [f]
    ⟨.ok fields.length, { d with product := { d.product with fields := fields } }, []⟩

/-- A request with an accessor is answered with it, and nothing changes. -/
theorem require_of_find? {d : Draft} {r : Request} {a : Accessor} (h : d.find? r = some a) :
    d.require r = ⟨.ok a.method, d, [.accessorReused a.method.name r.resolution]⟩ := by
  rw [require, h]

/-- A request that fails leaves no trace in the draft. -/
theorem state_require_of_error {d : Draft} {r : Request} {e : Failure}
    (h : (d.require r).answer = .error e) : (d.require r).state = d := by
  revert h
  rw [require]
  split
  · exact fun _ => rfl
  · split
    · exact fun _ => rfl
    · split
      · exact fun h => nomatch h
      · exact fun _ => rfl

/-- A field that is refused leaves no trace in the draft. -/
theorem state_addField_of_error {d : Draft} {f : Field} {e : Failure}
    (h : (d.addField f).answer = .error e) : (d.addField f).state = d := by
  revert h
  rw [addField]
  split
  · exact fun _ => rfl
  · exact fun h => nomatch h

end Draft

end SyntheticAccess
