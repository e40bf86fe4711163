import SyntheticAccess.Proofs.Reachability

/-!
# Inherited Methods

A class can call what its superclass can call, except where access stops at
the superclass. Between the two tables that say so there is no direct way. Both
are filled by walks of the same length, and the walk from the class below comes
by the superclass one step late, so that its last step falls short of where the
other walk ends. The access rules are applied anew for each of them, and let
the two contexts call different methods of the same declarations.

The walks need not be compared. Both of them meet all ancestors, whatever their
lengths are, and an ancestor of the superclass is an ancestor of the class
(`Ancestor.trans`). Of what the superclass can call there, access stops private
methods, and those with package access in front of another package; `Passes`
lists what is left. A table has something under each signature of a reachable
method. It need not be the same method, because a class further down may
declare its own one, which for a private one is the only one that counts.

## Main definitions

* `AccessLevel.Passes`: The levels that are handed down from class to class.

## Theorems

* `Ancestor.trans`: The ancestors of an ancestor are ancestors.
* `Admits.of_passes`: Access that is handed down.
* `mem_reachable_of_ancestor`: What is reachable from above.
* `superclass_methods_are_inherited`: Tables of a class and its superclass.
-/

namespace SyntheticAccess

/-- Whether methods of this level which code in a class above can call can be
    called from the context as well. -/
def AccessLevel.Passes (l : AccessLevel) (above context : BinaryName) : Prop :=
  l = .publicAccess ∨ l = .protectedAccess ∨
    l = .packageAccess ∧ above.package = context.package

/-- A method is private when its level is. The bit for private access is looked at
    before the others. -/
theorem Method.isPrivate_iff (m : Method) :
    m.isPrivate = true ↔ m.flags.level = .privateAccess := by
  rw [isPrivate, AccessFlags.level]
  by_cases hprivate : m.flags.has .accPrivate = true
  · simp [hprivate]
  · -- Without the bit the level is one of the others.
    rw [if_neg hprivate]
    split
    · simp [hprivate]
    · split
      · simp [hprivate]
      · simp [hprivate]

/-- In one package only private methods are not handed down. -/
theorem Method.passes_of_not_private {m : Method} {above context : BinaryName}
    (hpackage : above.package = context.package) (h : m.isPrivate = false) :
    m.flags.level.Passes above context := by
  have hlevel : m.flags.level ≠ .privateAccess := by
    rw [ne_eq, ← m.isPrivate_iff, h]
    exact Bool.false_ne_true
  cases hl : m.flags.level with
  | publicAccess => exact Or.inl rfl
  | protectedAccess => exact Or.inr (Or.inl rfl)
  | packageAccess => exact Or.inr (Or.inr ⟨rfl, hpackage⟩)
  | privateAccess => exact absurd hl hlevel

/-- A method that code in a class above can call can be called from the context
    if its level is handed down. -/
theorem ClassDecl.Admits.of_passes {d : ClassDecl} {above context : BinaryName} {m : Method}
    (h : d.Admits above m) (hpass : m.flags.level.Passes above context) :
    d.Admits context m := by
  rcases h with ⟨hinit, hclinit, hlevel⟩
  refine ⟨hinit, hclinit, Or.inr ?_⟩
  rcases hpass with hpublic | hprotected | ⟨hpackage, hsame⟩
  · exact Or.inl hpublic
  · exact Or.inr (Or.inl hprotected)
  · -- Package access comes from the class above itself or from its package.
    refine Or.inr (Or.inr ⟨hpackage, ?_⟩)
    rcases hlevel with hself | hpublic | hprotected | ⟨-, hshared⟩
    · rw [hself, hsame]
    · rw [hpackage] at hpublic
      cases hpublic
    · rw [hpackage] at hprotected
      cases hprotected
    · exact hshared.trans hsame

namespace Registry

theorem find?_name_of_ancestor {r : Registry} {n : BinaryName} {d : ClassDecl}
    (h : r.Ancestor n d) : r.find? d.name = some d := by
  cases h with
  | self hd => exact find?_name hd
  | above _ hd => exact find?_name_of_above? hd

/-- Going on from a class on the way up is going on the way up. -/
theorem Ancestor.trans {r : Registry} {n : BinaryName} {d e : ClassDecl}
    (hd : r.Ancestor n d) (he : r.Ancestor d.name e) : r.Ancestor n e := by
  -- The induction is on the way up from the ancestor, which is put behind the way to it.
  induction he with
  | self hfound =>
      rw [find?_name_of_ancestor hd, Option.some.injEq] at hfound
      exact hfound ▸ hd
  | above _ hnext ih => exact ih.above hnext

/-- What code in an ancestor can reach, and what is handed down, code in the class
    can reach. -/
theorem mem_reachable_of_ancestor {r : Registry} {context : BinaryName} {a : ClassDecl}
    (ha : r.Ancestor context a) {m : Method} (hm : m ∈ r.reachable a.name)
    (hpass : m.flags.level.Passes a.name context) : m ∈ r.reachable context := by
  rcases mem_reachable_iff.mp hm with ⟨d, hd, hmem, hadmits⟩
  exact mem_reachable_iff.mpr ⟨d, ha.trans hd, hmem, hadmits.of_passes hpass⟩

/-- What the table of an ancestor has under a signature, and hands down, leaves
    a place taken in the table of the class. -/
theorem contains_of_ancestor {r : Registry} {context : BinaryName} {a : ClassDecl}
    (ha : r.Ancestor context a) {own upper : MethodTable} (hown : r.tableFor context = .ok own)
    (hupper : r.tableFor a.name = .ok upper) {s : ErasedSignature} {m : Method}
    (hget : upper.get? s = some m) (hpass : m.flags.level.Passes a.name context) :
    own.contains s = true := by
  rw [eq_of_tableFor hupper, MethodTable.get?_ofCandidates] at hget
  rcases MethodTable.mem_of_preferred hget with ⟨hmem, rfl⟩
  -- The place is taken, be it by this method or by one that is preferred to it.
  rw [eq_of_tableFor hown, MethodTable.contains_ofCandidates_iff]
  exact List.mem_map_of_mem (mem_reachable_of_ancestor ha hmem hpass)

/-- What the superclass of a class can call is callable from the class too, when
    both are known: under every signature for which the table of the superclass
    has a public or protected method the table of the class has a method, and
    when they share their package, under every signature for which it has one
    that is not private. It does not matter where the classes above lead, be it
    back to one of the two. -/
theorem superclass_methods_are_inherited (r : Registry) {context superclass : BinaryName}
    {d e : ClassDecl} (hd : r.find? context = some d) (hsuper : d.superclass = some superclass)
    (he : r.find? superclass = some e) :
    ∃ own upper, r.tableFor context = .ok own ∧ r.tableFor superclass = .ok upper ∧
      (∀ s m, upper.get? s = some m →
        m.flags.level = .publicAccess ∨ m.flags.level = .protectedAccess →
        own.contains s = true) ∧
      (context.sharesPackage superclass = true →
        ∀ s m, upper.get? s = some m → m.isPrivate = false → own.contains s = true) := by
  have habove : r.above? d = some e := by
    rw [above?, hsuper, Option.bind_some, he]
  -- The superclass is one step up, and it may be the class itself.
  have hancestor : r.Ancestor context e := .above (.self hd) habove
  have hown := tableFor_of_find? hd
  have hupper := tableFor_of_find? he
  rw [← name_of_find? he] at hupper ⊢
  refine ⟨_, _, hown, hupper, ?_, ?_⟩
  · intro s m hget hlevel
    refine contains_of_ancestor hancestor hown hupper hget ?_
    rcases hlevel with hpublic | hprotected
    · exact Or.inl hpublic
    · exact Or.inr (Or.inl hprotected)
  · intro hshares s m hget hprivate
    have hpackage : e.name.package = context.package := (beq_iff_eq.mp hshares).symm
    exact contains_of_ancestor hancestor hown hupper hget
      (Method.passes_of_not_private hpackage hprivate)

/-- A public method, one with package access, and a private one. -/
def topMethods : List Method :=
  [⟨⟨"p.Top"⟩, "run", [], .void, .accPublic⟩, ⟨⟨"p.Top"⟩, "near", [.prim .int], .void, ∅⟩,
    ⟨⟨"p.Top"⟩, "own", [], .void, .accPrivate⟩]

/-- Three classes on a cycle. From each of them the walk has just the steps that
    it needs to meet the other two. -/
def triangle : List ClassDecl :=
  [⟨⟨"p.Low"⟩, some ⟨"p.Mid"⟩, [⟨⟨"p.Low"⟩, "run", [], .void, .accPrivate⟩]⟩,
    ⟨⟨"p.Mid"⟩, some ⟨"p.Top"⟩, []⟩, ⟨⟨"p.Top"⟩, some ⟨"p.Low"⟩, topMethods⟩]

/-- On the triangle the class in the middle has the public method of the top and the
    one with package access. The class below has an entry for both, and under the
    first it is its own private one. -/
theorem superclass_methods_are_inherited_triangle :
    ∃ own upper, (ofDecls triangle).tableFor ⟨"p.Low"⟩ = .ok own ∧
      (ofDecls triangle).tableFor ⟨"p.Mid"⟩ = .ok upper ∧
      (upper.get? (.of "run" [])).map (·.owner.text) = some "p.Top" ∧
      (own.get? (.of "run" [])).map (·.owner.text) = some "p.Low" ∧
      own.contains (.of "run" []) = true ∧ own.contains (.of "near" [.prim .int]) = true := by
  have hlow : (ofDecls triangle).find? ⟨"p.Low"⟩ = triangle[0]? := by decide +kernel
  have hmid : (ofDecls triangle).find? ⟨"p.Mid"⟩ = triangle[1]? := by decide +kernel
  have hrun : ((ofDecls triangle).tableFor ⟨"p.Mid"⟩).toOption.bind (·.get? (.of "run" [])) =
      topMethods[0]? := by
    decide +kernel
  have hnear : ((ofDecls triangle).tableFor ⟨"p.Mid"⟩).toOption.bind
      (·.get? (.of "near" [.prim .int])) = topMethods[1]? := by
    decide +kernel
  have hshadow : ((ofDecls triangle).tableFor ⟨"p.Low"⟩).toOption.bind
      (fun own => (own.get? (.of "run" [])).map (·.owner.text)) = some "p.Low" := by
    decide +kernel
  rcases superclass_methods_are_inherited (ofDecls triangle) hlow rfl hmid with
    ⟨own, upper, hown, hupper, hlevel, hpackage⟩
  rw [hupper] at hrun hnear
  rw [hown] at hshadow
  exact ⟨own, upper, hown, hupper, congrArg (Option.map (·.owner.text)) hrun, hshadow,
    hlevel _ _ hrun (Or.inl (by decide)), hpackage (by decide +kernel) _ _ hnear (by decide)⟩

end Registry

end SyntheticAccess
