import SyntheticAccess.Proofs.Reachability

/-!
# What a Table Depends On

A registry may know thousands of classes, and the table of one class should be
a matter of the few that are above it. By the way it is computed it is not. The
walk up the superclasses may take as many steps as there are classes, so on a
cycle every class that is added anywhere makes it go on for longer, and some
methods are offered to the table once more.

`Consults` has the names that a walk looks up: the class it starts from, and
what the classes met extend, the last of which may be unknown. Registries that
have the same declarations under these names have the same walk as long as it
does not meet a class again (`ascent_eq_of_agree`). The table is a function of
that part of the walk, because what is offered again changes nothing, and so it
is the same table (`tableFor_eq_of_agree`), however many steps either registry
allows. Everything else is a case of this: a declaration under a name that is
not looked up, and declarations in another order or with earlier ones that were
replaced.

## Main definitions

* `Registry.Consults`: The names that the walk from a class looks up.

## Theorems

* `ancestor_of_consults`: What is found under such a name is an ancestor.
* `ascent_eq_of_agree`: The names looked up determine the walk.
* `tableFor_eq_of_agree`: They determine the table.
* `unrelated_declarations_do_not_interfere`: Which declarations do not matter.
-/

namespace SyntheticAccess

namespace Registry

/-- The names that are looked up on the way up from a class: its own, and the
    superclasses of the classes found. -/
inductive Consults (r : Registry) (context : BinaryName) : BinaryName → Prop where
  | self : Consults r context context
  /-- The superclass of a class on the way, whether it is known or not. -/
  | superclass {d : ClassDecl} {n : BinaryName} :
      r.Ancestor context d → d.superclass = some n → Consults r context n

theorem ancestor_of_consults {r : Registry} {context n : BinaryName} {d : ClassDecl}
    (h : r.Consults context n) (hd : r.find? n = some d) : r.Ancestor context d := by
  cases h with
  | self => exact .self hd
  | superclass ha hsuper =>
      refine .above ha ?_
      rw [above?, hsuper, Option.bind_some, hd]

/-- A name that is looked up is the name of an ancestor, or else it is unknown
    and the way up ends there. -/
theorem consults_cases {r : Registry} {context n : BinaryName} (h : r.Consults context n) :
    (∃ a, r.Ancestor context a ∧ a.name = n) ∨
      r.find? n = none ∧ (context = n ∨ ∃ a, r.Ancestor context a ∧ a.superclass = some n) := by
  cases hfind : r.find? n with
  | some a => exact Or.inl ⟨a, ancestor_of_consults h hfind, name_of_find? hfind⟩
  | none =>
      refine Or.inr ⟨rfl, ?_⟩
      cases h with
      | self => exact Or.inl rfl
      | superclass ha hsuper => exact Or.inr ⟨_, ha, hsuper⟩

/-- Registries that agree on the names looked up have the same walk, from each
    of these names on and whatever has been met before. -/
theorem ascent_eq_of_agree {r q : Registry} {context : BinaryName}
    (hagree : ∀ n, r.Consults context n → q.find? n = r.find? n) (seen : List BinaryName)
    (next : Option BinaryName) (hnext : ∀ n, next = some n → r.Consults context n) :
    q.ascent seen next = r.ascent seen next := by
  -- The names come one at a time, and each of them is looked up in both registries.
  have hlookup : ∀ next : Option BinaryName, (∀ n, next = some n → r.Consults context n) →
      next.bind q.find? = next.bind r.find? := by
    intro next hnext
    cases next with
    | none => rfl
    | some n => exact hagree n (hnext n rfl)
  -- The induction is along the walk in the first registry, which the other one follows.
  induction seen, next using ascent.induct r with
  | case1 seen next hnone =>
      rw [ascent_of_none seen hnone, ascent_of_none seen ((hlookup next hnext).trans hnone)]
  | case2 seen next d hsome hseen =>
      rw [ascent_of_some seen hsome, ascent_of_some seen ((hlookup next hnext).trans hsome),
        if_pos hseen, if_pos hseen]
  | case3 seen next d hsome hseen ih =>
      rw [ascent_of_some seen hsome, ascent_of_some seen ((hlookup next hnext).trans hsome),
        if_neg hseen, if_neg hseen]
      -- The class found is an ancestor, so the name it extends is looked up as well.
      refine congrArg (d :: ·) (ih fun n hn => ?_)
      rcases Option.bind_eq_some_iff.mp hsome with ⟨m, hm, hfound⟩
      exact .superclass (ancestor_of_consults (hnext m hm) hfound) hn

/-- Registries that agree on the names looked up have the same table, or lack
    it alike. How many classes either of them knows does not matter. -/
theorem tableFor_eq_of_agree {r q : Registry} {context : BinaryName}
    (hagree : ∀ n, r.Consults context n → q.find? n = r.find? n) :
    q.tableFor context = r.tableFor context := by
  have hself := hagree context .self
  cases hfind : r.find? context with
  | none => rw [tableFor, tableFor, hself, hfind]
  | some d =>
      -- What the walks do after the first repetition is not compared, as the tables do not depend
      -- on it.
      have hwalk : q.ascent [] (some context) = r.ascent [] (some context) :=
        ascent_eq_of_agree hagree [] (some context) fun n hn => Option.some.inj hn ▸ .self
      rw [tableFor_of_find? hfind, tableFor_of_find? (hself.trans hfind), reachable, reachable,
        hwalk]

/-- Declarations that the way up from a class does not come by do not matter to
    its table. The first half is about one more declaration, new or in place of
    another: its name is not that of the class itself nor of a class above it,
    and not the unknown name at which the way ends. The second half is about
    histories: only the last declaration of each name counts, not the order nor
    what was replaced. -/
theorem unrelated_declarations_do_not_interfere :
    (∀ (r : Registry) (context : BinaryName) (d : ClassDecl),
      (∀ a, r.Ancestor context a → a.name ≠ d.name) →
      (∀ a n, r.Ancestor context a → a.superclass = some n → r.find? n = none → n ≠ d.name) →
      (r.find? context = none → context ≠ d.name) →
      (r.register d).tableFor context = r.tableFor context) ∧
    ∀ ds es : List ClassDecl,
      (∀ n, ds.reverse.find? (·.name == n) = es.reverse.find? (·.name == n)) →
      ∀ context, (ofDecls ds).tableFor context = (ofDecls es).tableFor context := by
  constructor
  · intro r context d hwalk hend hself
    refine tableFor_eq_of_agree fun n hn => ?_
    -- Every name that is looked up is one of those that the declaration does not have.
    have hne : d.name ≠ n := by
      rintro rfl
      rcases consults_cases hn with ⟨a, ha, hname⟩ | ⟨hnone, hcontext | ⟨a, ha, hsuper⟩⟩
      · exact hwalk a ha hname
      · exact hself (hcontext ▸ hnone) hcontext
      · exact hend a d.name ha hsuper hnone rfl
    rw [find?_register, if_neg hne]
  · intro ds es hlast context
    refine tableFor_eq_of_agree fun n _ => ?_
    rw [find?_ofDecls, find?_ofDecls, hlast n]

/-- A class off the ring, under which nothing was known before. -/
def newcomer : ClassDecl :=
  ⟨⟨"p.New"⟩, some ⟨"p.Start"⟩, [⟨⟨"p.New"⟩, "get", [], .prim .int, .accPublic⟩]⟩

/-- A first declaration of a class on the ring, which is replaced later. -/
def outdated : ClassDecl :=
  ⟨⟨"p.Left"⟩, none, [⟨⟨"p.Left"⟩, "get", [], .prim .long, .accPublic⟩]⟩

/-- A newcomer off the ring lets the walk go round for one more step, and the table
    stays the same. So it does when the ring had another declaration before. -/
theorem unrelated_declarations_do_not_interfere_ring :
    (((ofDecls ring).register newcomer).find? ⟨"p.Start"⟩).map
        (fun start => (((ofDecls ring).register newcomer).lineage start).map (·.name.text)) =
      some ["p.Start", "p.Left", "p.Right", "p.Left", "p.Right"] ∧
    ((ofDecls ring).register newcomer).tableFor ⟨"p.Start"⟩ =
      (ofDecls ring).tableFor ⟨"p.Start"⟩ ∧
    (ofDecls (outdated :: ring)).tableFor ⟨"p.Start"⟩ = (ofDecls ring).tableFor ⟨"p.Start"⟩ := by
  rcases unrelated_declarations_do_not_interfere with ⟨hone, hhistory⟩
  -- The way up from the first class does not come by the newcomer.
  have hoff : ∀ a, (ofDecls ring).Ancestor ⟨"p.Start"⟩ a →
      a.name ≠ newcomer.name ∧ a.superclass ≠ some newcomer.name := by
    have hknown : ((ofDecls ring).find? ⟨"p.Start"⟩).isSome = true := by decide +kernel
    rcases Option.isSome_iff_exists.mp hknown with ⟨start, hstart⟩
    have hwalk : ∀ a ∈ ((ofDecls ring).find? ⟨"p.Start"⟩).elim [] (ofDecls ring).lineage,
        a.name ≠ newcomer.name ∧ a.superclass ≠ some newcomer.name := by
      decide +kernel
    rw [hstart] at hwalk
    exact fun a ha => hwalk a ((mem_lineage_iff hstart).mpr ha)
  refine ⟨by decide +kernel, hone _ _ _ (fun a ha => (hoff a ha).1) ?_ (fun _ => by decide),
    hhistory _ _ ?_ _⟩
  · rintro a n ha hsuper - rfl
    exact (hoff a ha).2 hsuper
  · -- In the longer history the declaration that comes first is asked for last.
    intro n
    rw [List.reverse_cons, List.find?_append]
    by_cases hn : outdated.name = n
    · subst hn
      decide +kernel
    · rw [List.find?_cons_of_neg (by simpa using hn), List.find?_nil, Option.or_none]

end Registry

end SyntheticAccess
