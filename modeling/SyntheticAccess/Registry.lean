import SyntheticAccess.ClassDecl
import SyntheticAccess.Event
import SyntheticAccess.Failure
import SyntheticAccess.MethodTable

/-!
# Registered Classes

Which methods code in a class can call depends on the classes above it. A
registry holds what is known of classes, one declaration for each name, and
computes from it the method table of a class: its own methods come first, then
those of its superclass and so on, so that the more specific declaration takes
the place of a signature. Methods that the class cannot call are left out.

Nothing keeps a registry from holding classes that extend each other in a
cycle. The walk up the superclasses therefore visits at most as many classes
as are registered. That is enough for every class above the first one, since
distinct classes on the way are distinct entries of the registry. On a cycle
some classes are visited again, and their methods are offered to the table a
second time, where the places are already taken.

## Main definitions

* `Registry`: Declarations with different names.
* `Registry.register`: Adding a declaration, in place of one with the same name.
* `Registry.lineage`: The declarations of a class and the classes above it.
* `Registry.tableFor`: The method table of a class.

## Theorems

* `find?_register`: A declaration changes what is known of its own name only.
-/

namespace SyntheticAccess

namespace Registry

/-- Put a declaration in the place of the one with its name, or at the end. -/
def replace (d : ClassDecl) : List ClassDecl → List ClassDecl
  | [] => [d]
  | e :: es => if e.name = d.name then d :: es else e :: replace d es

/-- A declaration takes the place of the one with its name, or adds its name at the
    end. -/
theorem map_name_replace (d : ClassDecl) (es : List ClassDecl) :
    (replace d es).map (·.name) =
      if d.name ∈ es.map (·.name) then es.map (·.name) else es.map (·.name) ++ [d.name] := by
  induction es with
  | nil => simp [replace]
  | cons e es ih =>
      rw [replace]
      split
      · next h => simp [h]
      · next h =>
        rw [List.map_cons, ih]
        have hne : ¬ d.name = e.name := fun heq => h heq.symm
        simp only [List.map_cons, List.mem_cons, hne, false_or]
        split <;> simp

theorem nodup_replace (d : ClassDecl) {es : List ClassDecl} (h : (es.map (·.name)).Nodup) :
    ((replace d es).map (·.name)).Nodup := by
  rw [map_name_replace]
  split
  · exact h
  · next hmem =>
    refine List.nodup_append.mpr ⟨h, by simp, fun a ha b hb heq => hmem ?_⟩
    rw [List.mem_singleton] at hb
    rwa [← hb, ← heq]

theorem find?_replace (d : ClassDecl) (es : List ClassDecl) (n : BinaryName) :
    (replace d es).find? (·.name == n) =
      if d.name = n then some d else es.find? (·.name == n) := by
  induction es with
  | nil => by_cases h : d.name = n <;> simp [replace, h]
  | cons e es ih =>
      rw [replace]
      split
      · next h => by_cases hn : d.name = n <;> simp [h, hn]
      · next h =>
        rw [List.find?_cons, ih, List.find?_cons]
        by_cases hn : d.name = n
        · -- The declaration comes behind this one, which has another name.
          rw [if_pos hn, if_pos hn, beq_false_of_ne fun he => h (he.trans hn.symm)]
        · rw [if_neg hn, if_neg hn]

end Registry

/-- The classes that are known, each under one declaration. -/
structure Registry where
  decls : List ClassDecl
  /-- No class is declared twice. -/
  nodup : (decls.map (·.name)).Nodup

namespace Registry

/-- A registry that knows no class. -/
def empty : Registry :=
  ⟨[], .nil⟩

/-- Add a declaration. An earlier one of the same class is forgotten. -/
def register (r : Registry) (d : ClassDecl) : Registry :=
  ⟨replace d r.decls, nodup_replace d r.nodup⟩

/-- The declaration of a class. -/
def find? (r : Registry) (n : BinaryName) : Option ClassDecl :=
  r.decls.find? (·.name == n)

/-- The number of classes known. -/
def size (r : Registry) : Nat :=
  r.decls.length

/-- The declaration of the superclass, if there is one and it is known. -/
def above? (r : Registry) (d : ClassDecl) : Option ClassDecl :=
  d.superclass.bind r.find?

/-- The declarations met on the way up, at most the given number of them. -/
def climb (r : Registry) : Nat → Option ClassDecl → List ClassDecl
  | 0, _ => []
  | _, none => []
  | n + 1, some d => d :: r.climb n (r.above? d)

/-- A declaration and those of the classes above it, as many as the registry
    has classes. -/
def lineage (r : Registry) (d : ClassDecl) : List ClassDecl :=
  r.climb r.size (some d)

/-- The methods that code in a known class can call, by signature. -/
def tableFor (r : Registry) (context : BinaryName) : Except Failure MethodTable :=
  match r.find? context with
  | none => .error (.unregistered context)
  | some d => .ok (.ofCandidates context ((r.lineage d).flatMap (·.callable context)))

/-- What an observer is told when the table of a class is asked for. -/
def tableEvents (r : Registry) (context : BinaryName) : List Event :=
  match r.tableFor context with
  | .error _ => []
  | .ok table => [.tableBuilt context table.size]

/-- The registry after a sequence of declarations. -/
def ofDecls (ds : List ClassDecl) : Registry :=
  ds.foldl register empty

/-- A declaration changes what is known of its own name only. -/
theorem find?_register (r : Registry) (d : ClassDecl) (n : BinaryName) :
    (r.register d).find? n = if d.name = n then some d else r.find? n :=
  find?_replace d r.decls n

theorem name_of_find? {r : Registry} {n : BinaryName} {d : ClassDecl} (h : r.find? n = some d) :
    d.name = n := by
  simpa using List.find?_some h

end Registry

end SyntheticAccess
