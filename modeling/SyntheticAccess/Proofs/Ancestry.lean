import SyntheticAccess.Registry
import SyntheticAccess.Proofs.Candidates

/-!
# The Classes Above a Class

The walk that a method table is computed from does not remember where it has
been. It counts its steps and stops after as many as there are classes, which
ends it on a cycle, and says nothing by itself about which classes it has seen
by then. Three descriptions of the classes above a class are set against each
other here.

`Ancestor` is the one that says what is meant: a class is its own ancestor,
and what an ancestor extends is one too, as far as it is registered.
`ascent` computes them without repetition, by keeping the names met so far and
stopping at the first one that comes again. `lineage` is the walk itself.

That `ascent` reaches all ancestors needs no counting. It stops only where
there is nothing above, or where everything above has been met, so the classes
met are closed under going up (`above_mem_ascent`). Counting is needed to see
that the walk gets as far as `ascent` does. Every class met is a declaration
that had not been met before, so no more of them can follow than there are
declarations left, and `ascent_prefix_climb` carries that bound along. What
the walk does after that, on a cycle, is to visit ancestors again.

## Main definitions

* `Registry.Ancestor`: A class, and what an ancestor of it extends.
* `Registry.unseen`: The declarations that a walk has not met.
* `Registry.ascent`: The walk that stops where it has been before.

## Theorems

* `length_unseen_cons_lt`: Meeting a declaration leaves fewer of them.
* `ascent_prefix_climb`: Enough steps take the bounded walk as far as `ascent`.
* `mem_ascent_iff`: `ascent` meets the ancestors.
* `ascent_prefix_lineage`: The bounded walk begins with `ascent`.
* `mem_lineage_iff`: It meets the ancestors and nothing else.
-/

namespace SyntheticAccess

namespace Registry

/-- The declarations of a class and of the classes above it. -/
inductive Ancestor (r : Registry) (n : BinaryName) : ClassDecl → Prop where
  /-- The class itself. -/
  | self {d : ClassDecl} : r.find? n = some d → Ancestor r n d
  /-- The superclass of a class found before, if it is known. -/
  | above {d e : ClassDecl} : Ancestor r n d → r.above? d = some e → Ancestor r n e

/-- The declarations whose classes have not been met. -/
def unseen (r : Registry) (seen : List BinaryName) : List ClassDecl :=
  r.decls.filter (·.name ∉ seen)

/-- A declaration that had not been met before is one less to come. -/
theorem length_unseen_cons_lt {r : Registry} {seen : List BinaryName} {d : ClassDecl}
    (hd : d ∈ r.decls) (hnew : d.name ∉ seen) :
    (r.unseen (d.name :: seen)).length < (r.unseen seen).length := by
  have hsplit : r.unseen (d.name :: seen) = (r.unseen seen).filter (·.name ≠ d.name) := by
    rw [unseen, unseen, List.filter_filter]
    congr 1
    funext e
    simp
  rw [hsplit, List.length_filter_lt_length_iff_exists]
  exact ⟨d, List.mem_filter.mpr ⟨hd, by simpa using hnew⟩, by simp⟩

/-- The declarations met on the way up from a class, which ends where there is
    no superclass, where it is not known, or where it has been met. -/
def ascent (r : Registry) (seen : List BinaryName) (next : Option BinaryName) :
    List ClassDecl :=
  match _hfound : next.bind r.find? with
  | none => []
  | some d => if d.name ∈ seen then [] else d :: r.ascent (d.name :: seen) d.superclass
termination_by (r.unseen seen).length
decreasing_by
  rcases Option.bind_eq_some_iff.mp _hfound with ⟨n, -, hn⟩
  exact length_unseen_cons_lt (List.mem_of_find?_eq_some hn) (by assumption)

theorem mem_decls_of_find? {r : Registry} {n : BinaryName} {d : ClassDecl}
    (h : r.find? n = some d) : d ∈ r.decls :=
  List.mem_of_find?_eq_some h

theorem find?_name {r : Registry} {n : BinaryName} {d : ClassDecl} (h : r.find? n = some d) :
    r.find? d.name = some d := by
  rw [name_of_find? h]
  exact h

theorem find?_name_of_above? {r : Registry} {d e : ClassDecl} (h : r.above? d = some e) :
    r.find? e.name = some e := by
  rcases Option.bind_eq_some_iff.mp h with ⟨n, -, hn⟩
  exact find?_name hn

theorem ascent_of_none {r : Registry} {next : Option BinaryName} (seen : List BinaryName)
    (h : next.bind r.find? = none) : r.ascent seen next = [] := by
  rw [ascent]
  split
  · rfl
  · next d hd => rw [h] at hd; cases hd

/-- A class that is known is met unless it was before, and the walk goes on above
    it. -/
theorem ascent_of_some {r : Registry} {next : Option BinaryName} {d : ClassDecl}
    (seen : List BinaryName) (h : next.bind r.find? = some d) :
    r.ascent seen next =
      if d.name ∈ seen then [] else d :: r.ascent (d.name :: seen) d.superclass := by
  rw [ascent]
  split
  · next hnone => rw [h] at hnone; cases hnone
  · next e he =>
    rw [h, Option.some.injEq] at he
    rw [he]

/-- The bounded walk gets at least as far as `ascent` when its bound is not
    below the number of declarations that are left to meet. -/
theorem ascent_prefix_climb (r : Registry) (seen : List BinaryName) (next : Option BinaryName)
    (n : Nat) (hn : (r.unseen seen).length ≤ n) :
    r.ascent seen next <+: r.climb n (next.bind r.find?) := by
  -- The induction is on the bound. A class that is met uses up one step and one of the
  -- declarations left.
  induction n generalizing seen next with
  | zero =>
      cases hnext : next.bind r.find? with
      | none => rw [ascent_of_none seen hnext]; exact List.nil_prefix
      | some d =>
          rw [ascent_of_some seen hnext]
          by_cases hseen : d.name ∈ seen
          · rw [if_pos hseen]
            exact List.nil_prefix
          · -- Nothing is left to meet, so this declaration was met.
            rcases Option.bind_eq_some_iff.mp hnext with ⟨m, -, hm⟩
            have hlt := length_unseen_cons_lt (mem_decls_of_find? hm) hseen
            omega
  | succ n ih =>
      cases hnext : next.bind r.find? with
      | none => rw [ascent_of_none seen hnext]; exact List.nil_prefix
      | some d =>
          rw [ascent_of_some seen hnext, climb]
          by_cases hseen : d.name ∈ seen
          · rw [if_pos hseen]
            exact List.nil_prefix
          · -- Both walks go on above this class, which leaves one declaration less and one step
            -- less.
            rw [if_neg hseen]
            rcases Option.bind_eq_some_iff.mp hnext with ⟨m, -, hm⟩
            have hlt := length_unseen_cons_lt (mem_decls_of_find? hm) hseen
            exact List.cons_prefix_cons.mpr ⟨rfl, ih (d.name :: seen) d.superclass (by omega)⟩

/-- What is above a class that was met has been met as well, now or before. -/
theorem above_mem_ascent {r : Registry} {seen : List BinaryName} {next : Option BinaryName}
    {d e : ClassDecl} (hd : d ∈ r.ascent seen next) (he : r.above? d = some e) :
    e ∈ r.ascent seen next ∨ e.name ∈ seen := by
  -- The cases are those of the walk: nothing above, a class that was met before, and a new one.
  induction seen, next using ascent.induct r with
  | case1 seen next hnext =>
      rw [ascent_of_none seen hnext] at hd
      cases hd
  | case2 seen next c hnext hseen =>
      rw [ascent_of_some seen hnext, if_pos hseen] at hd
      cases hd
  | case3 seen next c hnext hseen ih =>
      rw [ascent_of_some seen hnext, if_neg hseen] at hd ⊢
      have hc : r.find? c.name = some c := by
        rcases Option.bind_eq_some_iff.mp hnext with ⟨n, -, hn⟩
        exact find?_name hn
      -- One name has one declaration, so the class that was just met is not met again.
      have hmet : e.name ∈ c.name :: seen → e ∈ c :: r.ascent (c.name :: seen) c.superclass ∨
          e.name ∈ seen := by
        intro hname
        rcases List.mem_cons.mp hname with hname | hname
        · have heq := find?_name_of_above? he
          rw [hname, hc, Option.some.injEq] at heq
          exact Or.inl (heq ▸ List.mem_cons_self)
        · exact Or.inr hname
      rcases List.mem_cons.mp hd with rfl | hd
      · by_cases hname : e.name ∈ d.name :: seen
        · exact hmet hname
        · -- It has not been met, so the walk goes on with it.
          refine Or.inl (List.mem_cons_of_mem _ ?_)
          rw [ascent_of_some _ he, if_neg hname]
          exact List.mem_cons_self
      · rcases ih hd with hmem | hname
        · exact Or.inl (List.mem_cons_of_mem _ hmem)
        · exact hmet hname

/-- No class is met twice, nor one that was met before. -/
theorem nodup_ascent (r : Registry) (seen : List BinaryName) (next : Option BinaryName) :
    ((r.ascent seen next).map (·.name)).Nodup ∧ ∀ d ∈ r.ascent seen next, d.name ∉ seen := by
  induction seen, next using ascent.induct r with
  | case1 seen next hnext =>
      rw [ascent_of_none seen hnext]
      exact ⟨.nil, fun d hd => nomatch hd⟩
  | case2 seen next c hnext hseen =>
      rw [ascent_of_some seen hnext, if_pos hseen]
      exact ⟨.nil, fun d hd => nomatch hd⟩
  | case3 seen next c hnext hseen ih =>
      rw [ascent_of_some seen hnext, if_neg hseen, List.map_cons, List.nodup_cons]
      -- Later classes are none that had been met by then, this one included.
      refine ⟨⟨fun hmem => ?_, ih.1⟩, fun d hd => ?_⟩
      · rcases List.mem_map.mp hmem with ⟨d, hd, hname⟩
        exact ih.2 d hd (hname ▸ List.mem_cons_self)
      · rcases List.mem_cons.mp hd with rfl | hd
        · exact hseen
        · exact fun hmem => ih.2 d hd (List.mem_cons_of_mem _ hmem)

/-- Whatever the number of steps, a walk that starts at an ancestor meets ancestors
    only. -/
theorem ancestor_of_mem_climb {r : Registry} {n : BinaryName} {steps : Nat} {d e : ClassDecl}
    (hd : Ancestor r n d) (he : e ∈ r.climb steps (some d)) : Ancestor r n e := by
  induction steps generalizing d with
  | zero => cases he
  | succ steps ih =>
      rw [climb] at he
      rcases List.mem_cons.mp he with rfl | he
      · exact hd
      · cases habove : r.above? d with
        | none =>
            rw [habove] at he
            cases steps <;> cases he
        | some c =>
            rw [habove] at he
            exact ih (hd.above habove) he

/-- The walk of a known class begins with all declarations that `ascent` meets,
    however many there are and whatever they extend. -/
theorem ascent_prefix_lineage {r : Registry} {n : BinaryName} {d : ClassDecl}
    (h : r.find? n = some d) : r.ascent [] (some n) <+: r.lineage d := by
  -- The bound is the number of declarations, all of them unmet.
  have hall : (r.unseen []).length ≤ r.size := by
    rw [unseen, size]
    exact List.length_filter_le _ _
  have hclimb := ascent_prefix_climb r [] (some n) r.size hall
  rwa [Option.bind_some, h] at hclimb

/-- Going up and stopping at the first repetition meets the ancestors. -/
theorem mem_ascent_iff {r : Registry} {n : BinaryName} {d : ClassDecl} :
    d ∈ r.ascent [] (some n) ↔ Ancestor r n d := by
  constructor
  · intro h
    cases hn : r.find? n with
    | none =>
        rw [ascent_of_none [] (show (some n).bind r.find? = none from hn)] at h
        cases h
    | some c => exact ancestor_of_mem_climb (.self hn) ((ascent_prefix_lineage hn).subset h)
  · -- Nothing had been met at the start, so what was met is closed under going up.
    intro h
    induction h with
    | @self d hd =>
        rw [ascent_of_some [] (show (some n).bind r.find? = some d from hd),
          if_neg List.not_mem_nil]
        exact List.mem_cons_self
    | above _ he ih => exact (above_mem_ascent ih he).resolve_right List.not_mem_nil

/-- The bounded walk cuts no ancestor off, and meets nothing but ancestors. -/
theorem mem_lineage_iff {r : Registry} {n : BinaryName} {d e : ClassDecl}
    (h : r.find? n = some d) : e ∈ r.lineage d ↔ Ancestor r n e :=
  ⟨ancestor_of_mem_climb (.self h),
    fun he => (ascent_prefix_lineage h).subset (mem_ascent_iff.mpr he)⟩

end Registry

end SyntheticAccess
