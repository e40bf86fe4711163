import SyntheticAccess.Proofs.Ancestry

/-!
# What a Class Can Call

The methods that code in a class can call, computed without a bound. `Admits`
states the access rules as a proposition. `reachable` applies them to the
classes met by a walk that stops at the first repetition, and so lists every
callable method once, the more specific classes first.

The table of a class is filled from the bounded walk instead, which goes round
a cycle as long as its bound lasts. Its candidates are those of `reachable`
followed by some of them again, and candidates that are offered again change
nothing. So the table has, under every signature, what `reachable` prefers.

## Main definitions

* `ClassDecl.Admits`: The access rules.
* `Registry.reachable`: The methods that code in a class can call.

## Theorems

* `isCallable_iff`: The rules as they are checked.
* `mem_reachable_iff`: A reachable method is declared by an ancestor.
* `find?_ofDecls`: The last declaration of a name counts.
* `tableFor_ofDecls`: Tables hold the preferred reachable methods.
-/

namespace SyntheticAccess

namespace ClassDecl

/-- Whether the access rules let code in the context call a method of this
    class: never an initializer, otherwise all of its own methods, and of
    other classes the public and protected ones and those with package access
    in its package. -/
def Admits (d : ClassDecl) (context : BinaryName) (m : Method) : Prop :=
  m.name ≠ "<init>" ∧ m.name ≠ "<clinit>" ∧
    (d.name = context ∨ m.flags.level = .publicAccess ∨ m.flags.level = .protectedAccess ∨
      m.flags.level = .packageAccess ∧ d.name.package = context.package)

instance (d : ClassDecl) (context : BinaryName) (m : Method) : Decidable (d.Admits context m) :=
  inferInstanceAs (Decidable (_ ∧ _))

/-- What is checked of a method is the access rules, level by level. -/
theorem isCallable_iff (d : ClassDecl) (context : BinaryName) (m : Method) :
    d.isCallable context m = true ↔ d.Admits context m := by
  rw [isCallable, Admits, Method.initializes, BinaryName.sharesPackage]
  cases m.flags.level with
  | publicAccess => simp
  | protectedAccess => simp
  | packageAccess => simp [and_assoc]
  | privateAccess => simp [and_assoc]

theorem callable_eq (d : ClassDecl) (context : BinaryName) :
    d.callable context = d.methods.filter fun m => d.Admits context m := by
  rw [callable]
  refine List.filter_congr fun m _ => ?_
  rw [Bool.eq_iff_iff, isCallable_iff, decide_eq_true_eq]

end ClassDecl

namespace Registry

/-- The methods that code in a class can call, the more specific classes first
    and in each class in the order of declaration. -/
def reachable (r : Registry) (context : BinaryName) : List Method :=
  (r.ascent [] (some context)).flatMap fun d => d.methods.filter fun m => d.Admits context m

/-- A method is reachable when some ancestor declares it and lets it be called. -/
theorem mem_reachable_iff {r : Registry} {context : BinaryName} {m : Method} :
    m ∈ r.reachable context ↔
      ∃ d, r.Ancestor context d ∧ m ∈ d.methods ∧ d.Admits context m := by
  simp only [reachable, List.mem_flatMap, List.mem_filter, decide_eq_true_eq, mem_ascent_iff]

/-- The walk of a known class offers its reachable methods, and then perhaps
    some of them again. -/
theorem lineage_candidates {r : Registry} {context : BinaryName} {d : ClassDecl}
    (h : r.find? context = some d) :
    ∃ again, (r.lineage d).flatMap (·.callable context) = r.reachable context ++ again ∧
      ∀ m ∈ again, m ∈ r.reachable context := by
  rcases ascent_prefix_lineage h with ⟨rest, hrest⟩
  refine ⟨rest.flatMap (·.callable context), ?_, ?_⟩
  · -- The part of the walk that meets new classes offers what is reachable, and the rest offers
    -- the methods of classes met before.
    rw [← hrest, List.flatMap_append, reachable]
    simp only [ClassDecl.callable_eq]
  · intro m hm
    rcases List.mem_flatMap.mp hm with ⟨e, he, hmem⟩
    -- A class of the rest is an ancestor like any other.
    have hanc : r.Ancestor context e :=
      (mem_lineage_iff h).mp (hrest ▸ List.mem_append_right _ he)
    rw [ClassDecl.callable_eq, List.mem_filter, decide_eq_true_eq] at hmem
    exact mem_reachable_iff.mpr ⟨e, hanc, hmem⟩

/-- Candidates that are offered again may be left out. -/
theorem tableFor_of_find? {r : Registry} {context : BinaryName} {d : ClassDecl}
    (h : r.find? context = some d) :
    r.tableFor context = .ok (.ofCandidates context (r.reachable context)) := by
  rcases lineage_candidates h with ⟨again, hcandidates, hagain⟩
  rw [tableFor, h]
  refine congrArg Except.ok (MethodTable.ext_get? ?_ fun s => ?_)
  · rw [MethodTable.context_ofCandidates, MethodTable.context_ofCandidates]
  · rw [MethodTable.get?_ofCandidates, MethodTable.get?_ofCandidates, hcandidates,
      MethodTable.preferred_append_of_subset hagain]

/-- A table that is computed is filled from the reachable methods. -/
theorem eq_of_tableFor {r : Registry} {context : BinaryName} {table : MethodTable}
    (h : r.tableFor context = .ok table) : table = .ofCandidates context (r.reachable context) := by
  cases hfind : r.find? context with
  | none =>
      rw [tableFor, hfind] at h
      cases h
  | some d =>
      rw [tableFor_of_find? hfind, Except.ok.injEq] at h
      exact h.symm

/-- What a sequence of declarations leaves under a name is the last one of it. -/
theorem find?_ofDecls (ds : List ClassDecl) (n : BinaryName) :
    (ofDecls ds).find? n = ds.reverse.find? (·.name == n) := by
  -- Later declarations come first in the reversed list and replace earlier ones here.
  have general : ∀ r : Registry,
      (ds.foldl register r).find? n = (ds.reverse.find? (·.name == n)).or (r.find? n) := by
    induction ds with
    | nil => exact fun _ => rfl
    | cons d ds ih =>
        intro r
        rw [List.foldl_cons, ih, find?_register, List.reverse_cons, List.find?_append,
          Option.or_assoc]
        -- The first declaration is the last in the reversed list, and counts when no later one has
        -- its name.
        by_cases hd : d.name = n
        · rw [if_pos hd, List.find?_cons_of_pos (by simpa using hd), Option.some_or]
        · rw [if_neg hd, List.find?_cons_of_neg (by simpa using hd), List.find?_nil,
            Option.none_or]
  rw [ofDecls, general, show empty.find? n = none from rfl, Option.or_none]

theorem find?_ofDecls_eq_none_iff (ds : List ClassDecl) (n : BinaryName) :
    (ofDecls ds).find? n = none ↔ ∀ d ∈ ds, d.name ≠ n := by
  rw [find?_ofDecls, List.find?_eq_none]
  simp

/-- The table of a class after any sequence of declarations. A class that was
    never declared has none. For any other the walk that stops at the first
    repetition decides: the table has what is preferred of the methods it
    reaches, and the bounded walk, which cuts no ancestor off however long
    the way is, adds nothing to that by meeting some of them again. -/
theorem tableFor_ofDecls (ds : List ClassDecl) (context : BinaryName) :
    ((∀ d ∈ ds, d.name ≠ context) →
      (ofDecls ds).tableFor context = .error (.unregistered context)) ∧
    ((∃ d ∈ ds, d.name = context) → ∃ start table,
      (ofDecls ds).find? context = some start ∧
      (ofDecls ds).tableFor context = .ok table ∧
      table.context = context ∧
      (∀ s, table.get? s = MethodTable.preferred s ((ofDecls ds).reachable context)) ∧
      (((ofDecls ds).ascent [] (some context)).map (·.name)).Nodup ∧
      (∀ d, d ∈ (ofDecls ds).ascent [] (some context) ↔ (ofDecls ds).Ancestor context d) ∧
      (ofDecls ds).ascent [] (some context) <+: (ofDecls ds).lineage start ∧
      ∀ d, d ∈ (ofDecls ds).lineage start ↔ (ofDecls ds).Ancestor context d) := by
  constructor
  · intro h
    rw [tableFor, (find?_ofDecls_eq_none_iff ds context).mpr h]
  · rintro ⟨d, hd, hname⟩
    cases hstart : (ofDecls ds).find? context with
    | none => exact absurd hname ((find?_ofDecls_eq_none_iff ds context).mp hstart d hd)
    | some start =>
        exact ⟨start, _, rfl, tableFor_of_find? hstart, MethodTable.context_ofCandidates _ _,
          MethodTable.get?_ofCandidates _ _, (nodup_ascent _ _ _).1, fun _ => mem_ascent_iff,
          ascent_prefix_lineage hstart, fun _ => mem_lineage_iff hstart⟩

/-- Three classes of which the last extends the second, so that the walk from
    the first goes round a cycle that the first is not on, and one more class,
    which lets it go round for longer. The first has only a bridge, and the
    method it is there for is inherited. -/
def ring : List ClassDecl :=
  [⟨⟨"p.Start"⟩, some ⟨"p.Left"⟩,
      [⟨⟨"p.Start"⟩, "get", [], .classRef ⟨"p.Item"⟩, .accPublic ∪ .accBridge⟩]⟩,
    ⟨⟨"p.Left"⟩, some ⟨"p.Right"⟩, [⟨⟨"p.Left"⟩, "get", [], .classRef ⟨"p.Fact"⟩, .accPublic⟩]⟩,
    ⟨⟨"p.Right"⟩, some ⟨"p.Left"⟩, []⟩, ⟨⟨"p.Other"⟩, none, []⟩]

/-- On the ring the walk meets one class twice, and the method is found all the
    same, in place of the bridge that is declared below it. -/
theorem tableFor_ring :
    (ofDecls ring).tableFor ⟨"p.Item"⟩ = .error (.unregistered ⟨"p.Item"⟩) ∧
    ∃ start table,
      (ofDecls ring).find? ⟨"p.Start"⟩ = some start ∧
      ((ofDecls ring).lineage start).map (·.name.text) =
        ["p.Start", "p.Left", "p.Right", "p.Left"] ∧
      (ofDecls ring).tableFor ⟨"p.Start"⟩ = .ok table ∧
      (table.get? (.of "get" [])).map (·.owner.text) = some "p.Left" ∧
      ∀ s, table.get? s = MethodTable.preferred s ((ofDecls ring).reachable ⟨"p.Start"⟩) := by
  refine ⟨(tableFor_ofDecls ring ⟨"p.Item"⟩).1 (by decide), ?_⟩
  have hdecl : ∃ d ∈ ring, d.name = ⟨"p.Start"⟩ := by decide
  have hwalk : ((ofDecls ring).find? ⟨"p.Start"⟩).map
      (fun start => ((ofDecls ring).lineage start).map (·.name.text)) =
        some ["p.Start", "p.Left", "p.Right", "p.Left"] := by
    decide +kernel
  have hentry : ((ofDecls ring).tableFor ⟨"p.Start"⟩).toOption.map
      (fun table => (table.get? (.of "get" [])).map (·.owner.text)) = some (some "p.Left") := by
    decide +kernel
  rcases (tableFor_ofDecls ring ⟨"p.Start"⟩).2 hdecl with ⟨start, table, hstart, htable, -, hget, -⟩
  rw [hstart, Option.map_some, Option.some.injEq] at hwalk
  rw [htable] at hentry
  exact ⟨start, table, hstart, hwalk, htable, Option.some.inj hentry, hget⟩

end Registry

end SyntheticAccess
