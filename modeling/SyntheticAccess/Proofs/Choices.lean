import Mathlib.Data.List.DropRight
import SyntheticAccess.Proofs.AccessorNames

/-!
# Where Choices End Up

Settings are made by one change after another, and a class is made from what is
left in the end. What a change was meant to do can be undone by a later one, in
whole or in part, and only the end of the sequence tells.

For the flags and the tag of accessors this is simple. A change either replaces
them or leaves them alone, so the last one that replaces them decides, and
`read_ofChanges` says so for whatever part of the settings is treated like
that.

The flags of the class are not. They can be replaced as a whole, and their
level can be replaced alone, which keeps the other thirteen bits, those without
a name among them. A level is forgotten when the flags are replaced after it,
but survives any other change. What counts are therefore the last flags chosen
and the last level chosen after them. One level set over another leaves no
trace of the first, not even when the flags carried several level bits at once,
so the levels in between do not show.

None of this would be worth much if the settings were not used. That they are
follows from the coherence of drafts: every accessor is the one that its
request is given where it stands.

## Main definitions

* `Settings.lastChoice`: What the last change of some kind chooses.
* `Settings.sinceTypeFlags`: The changes made after the flags were last chosen.
* `Settings.lastTypeFlags`: The flags last chosen for the class.

## Theorems

* `read_ofChanges`: What is only ever replaced is what was chosen last.
* `typeFlags_ofChanges`: The flags of the class, after any changes.
* `exists_draft_of_describe`: A described class is made from the settings.
* `choices_reach_every_member`: What the changes mean for a described class.
-/

namespace SyntheticAccess

namespace Settings

/-- The flags that a change chooses for the class. -/
def Change.typeFlags? : Change → Option AccessFlags
  | .typeFlags f => some f
  | _ => none

/-- The level that a change chooses for the class. -/
def Change.typeLevel? : Change → Option AccessLevel
  | .typeLevel l => some l
  | _ => none

/-- The flags that a change chooses for accessors. -/
def Change.accessorFlags? : Change → Option AccessFlags
  | .accessorFlags f => some f
  | _ => none

/-- The tag that a change chooses. -/
def Change.tag? : Change → Option String
  | .tag t => some t
  | _ => none

/-- What is chosen by the last of the changes that choose something. -/
def lastChoice {α : Type} (choose : Change → Option α) (changes : List Change) : Option α :=
  changes.reverse.findSome? choose

/-- The changes after the last one that chooses the flags of the class; all of
    them when there is none. -/
def sinceTypeFlags (changes : List Change) : List Change :=
  changes.rtakeWhile fun c => c.typeFlags?.isNone

/-- The flags last chosen for the class, or those of the standard settings. -/
def lastTypeFlags (changes : List Change) : AccessFlags :=
  (lastChoice Change.typeFlags? changes).getD standard.typeFlags

theorem lastChoice_append_singleton {α : Type} (choose : Change → Option α)
    (changes : List Change) (c : Change) :
    lastChoice choose (changes ++ [c]) = (choose c).or (lastChoice choose changes) := by
  rw [lastChoice, lastChoice, List.reverse_append, List.reverse_singleton, List.singleton_append,
    List.findSome?_cons]
  cases choose c with
  | none => rw [Option.none_or]
  | some a => rw [Option.some_or]

theorem ofChanges_append_singleton (changes : List Change) (c : Change) :
    ofChanges (changes ++ [c]) = (ofChanges changes).apply c := by
  rw [ofChanges, List.foldl_append, List.foldl_cons, List.foldl_nil, ofChanges]

/-- A part of the settings that a change either replaces or leaves alone is
    what the last change that replaces it makes it. -/
theorem read_ofChanges {α : Type} (read : Settings → α) (choose : Change → Option α)
    (h : ∀ s c, read (s.apply c) = (choose c).getD (read s)) (changes : List Change) :
    read (ofChanges changes) = (lastChoice choose changes).getD (read standard) := by
  induction changes using List.reverseRecOn with
  | nil => rfl
  | append_singleton changes c ih =>
      rw [ofChanges_append_singleton, h, ih, lastChoice_append_singleton, Option.getD_or]

/-- The flags of accessors are those that were chosen last. -/
theorem accessorFlags_ofChanges (changes : List Change) :
    (ofChanges changes).accessorFlags =
      (lastChoice Change.accessorFlags? changes).getD standard.accessorFlags := by
  refine read_ofChanges accessorFlags Change.accessorFlags? (fun s c => ?_) changes
  cases c <;> rfl

theorem tag_ofChanges (changes : List Change) :
    (ofChanges changes).tag = (lastChoice Change.tag? changes).getD standard.tag := by
  refine read_ofChanges tag Change.tag? (fun s c => ?_) changes
  cases c <;> rfl

theorem lastTypeFlags_append_singleton (changes : List Change) (c : Change) :
    lastTypeFlags (changes ++ [c]) = c.typeFlags?.getD (lastTypeFlags changes) := by
  rw [lastTypeFlags, lastChoice_append_singleton, Option.getD_or, lastTypeFlags]

/-- A change is one of those since the flags were chosen, unless it chooses them.
    Then there are none. -/
theorem sinceTypeFlags_append_singleton (changes : List Change) (c : Change) :
    sinceTypeFlags (changes ++ [c]) =
      if c.typeFlags?.isNone then sinceTypeFlags changes ++ [c] else [] := by
  rw [sinceTypeFlags, List.rtakeWhile_concat, sinceTypeFlags]

/-- The flags of the class are the last ones chosen, with the last level chosen
    after them if there is one. -/
theorem typeFlags_ofChanges (changes : List Change) :
    (ofChanges changes).typeFlags =
      ((lastChoice Change.typeLevel? (sinceTypeFlags changes)).map
        (lastTypeFlags changes).withLevel).getD (lastTypeFlags changes) := by
  -- The induction takes the last change off, which is the one that was made on top.
  induction changes using List.reverseRecOn with
  | nil => rfl
  | append_singleton changes c ih =>
      rw [ofChanges_append_singleton, lastTypeFlags_append_singleton,
        sinceTypeFlags_append_singleton]
      cases c with
      | typeFlags f =>
          -- No change has been made since, and the level from before is gone.
          rfl
      | typeLevel l =>
          -- The level goes over the flags, and over a level that was set on them before.
          simp only [Change.typeFlags?, Option.isNone_none, if_true, Option.getD_none,
            lastChoice_append_singleton, Change.typeLevel?, Option.some_or, Option.map_some,
            Option.getD_some, apply]
          rw [ih]
          cases lastChoice Change.typeLevel? (sinceTypeFlags changes) with
          | none => rw [Option.map_none, Option.getD_none]
          | some k => exact AccessFlags.withLevel_withLevel _ k l
      | accessorFlags _ | tag _ =>
          -- Neither the flags of the class nor the choices about them are concerned.
          simp only [Change.typeFlags?, Option.isNone_none, if_true, Option.getD_none,
            lastChoice_append_singleton, Change.typeLevel?, Option.none_or]
          exact ih

end Settings

namespace Host

/-- A described class is the product of a coherent draft with the settings of the
    host, and its flags are those that the settings have for classes. -/
theorem exists_draft_of_describe {h : Host} {content : Description} {raw : String}
    {version : ClassVersion} {c : AccessorClass}
    (hok : (h.describe content raw version).answer = .ok c) :
    c.flags = h.settings.typeFlags ∧
      ∃ d : Draft, d.Coherent ∧ d.settings = h.settings ∧ d.product = c := by
  rcases exists_coherent_of_describe hok with ⟨d, hd, -, hsettings, hproduct⟩
  rcases exists_after_of_describe hok with ⟨name, cs, -, hafter, -⟩
  refine ⟨?_, d, hd, hsettings, hproduct⟩
  rw [hafter, Draft.flags_after]
  rfl

open Settings in
/-- A class is described by a host whose settings come from a sequence of
    changes. Its accessors have the flags last chosen for accessors and are
    static, and their names have the tag last chosen. Outside of the level the
    flags of the class are those last chosen for it, and its level is the one
    last chosen after these flags, stated by no bit but its own. If no level
    was chosen after them, the level bits are those of the flags as well. Where
    nothing was chosen the standard settings count. -/
theorem choices_reach_every_member {h : Host} {changes : List Change}
    (hsettings : h.settings = .ofChanges changes) {content : Description} {raw : String}
    {version : ClassVersion} {c : AccessorClass}
    (hok : (h.describe content raw version).answer = .ok c) :
    (∀ a ∈ c.accessors,
      a.method.flags =
        (lastChoice Change.accessorFlags? changes).getD standard.accessorFlags ∪ .accStatic ∧
      a.method.isStatic = true) ∧
    (∀ i a, c.accessors[i]? = some a →
      a.method.name = Draft.accessorName a.request.target.name
        ((lastChoice Change.tag? changes).getD standard.tag) i) ∧
    c.flags.without .levelMask = (lastTypeFlags changes).without .levelMask ∧
    (∀ l, lastChoice Change.typeLevel? (sinceTypeFlags changes) = some l →
      c.flags.bits &&& AccessFlags.levelMask.bits = (AccessFlags.ofLevel l).bits ∧
      c.flags.level = l) ∧
    (lastChoice Change.typeLevel? (sinceTypeFlags changes) = none →
      c.flags.bits &&& AccessFlags.levelMask.bits =
        (lastTypeFlags changes).bits &&& AccessFlags.levelMask.bits) := by
  rcases exists_draft_of_describe hok with ⟨hflags, d, hd, hdsettings, rfl⟩
  rw [hsettings] at hflags hdsettings
  have htype := typeFlags_ofChanges changes
  rw [← hflags] at htype
  refine ⟨fun a ha => ?_, fun i a hi => ?_, ?_, fun l hl => ?_, fun hnone => ?_⟩
  · -- The accessor was made from the settings, wherever it stands.
    rcases List.getElem?_of_mem ha with ⟨i, hi⟩
    have haccessor : a.method.flags = d.settings.staticAccessorFlags :=
      congrArg (·.method.flags) (hd.eq_accessorAt i a hi)
    rw [hdsettings, staticAccessorFlags, accessorFlags_ofChanges] at haccessor
    refine ⟨haccessor, ?_⟩
    rw [Method.isStatic, haccessor]
    exact AccessFlags.has_union_right _ _
  · rw [hd.name_of_getElem? hi, hdsettings, tag_ofChanges]
  · -- With a level or without one, the other bits are those of the flags last chosen.
    rw [htype]
    cases lastChoice Change.typeLevel? (sinceTypeFlags changes) with
    | none => rw [Option.map_none, Option.getD_none]
    | some l => rw [Option.map_some, Option.getD_some, AccessFlags.without_withLevel]
  · rw [hl, Option.map_some, Option.getD_some] at htype
    rw [htype]
    exact ⟨AccessFlags.and_levelMask_withLevel _ l, AccessFlags.level_withLevel _ l⟩
  · rw [hnone, Option.map_none, Option.getD_none] at htype
    rw [htype]

/-- Choices that are made again: a level before the flags, flags with all level
    bits and two bits without a name, and two levels after them. -/
def revisedChanges : List Settings.Change :=
  [.typeLevel .publicAccess, .tag "call", .typeFlags ⟨0x8027⟩, .accessorFlags .accPublic,
    .typeLevel .privateAccess, .accessorFlags ⟨0x0020⟩, .typeLevel .protectedAccess, .tag "via"]

/-- A host with settings from a sequence of changes. -/
def revisedHost (changes : List Settings.Change) : Host :=
  ⟨⟨"p.Sub"⟩, .empty ⟨"p.Sub"⟩, .ofChanges changes⟩

/-- A bundle with one request for an instance method. -/
def oneRequest : Description :=
  .bundle [⟨⟨⟨"p.Sub"⟩, "size", [], .prim .int, .accPrivate⟩, .identity⟩]

/-- With the choices made again a described class has the last tag, the last flags
    of accessors with the static one, and the last level on the flags last chosen.
    When flags are chosen after that, the level is gone. -/
theorem choices_reach_every_member_revisedChanges :
    let settled := revisedHost revisedChanges
    let reset := revisedHost (revisedChanges ++ [.typeFlags ⟨0x0043⟩])
    (∃ c, (settled.describe oneRequest "p.Aux" .standard).answer = .ok c ∧
      c.accessors.map (·.method.name) = ["size$via$0"] ∧
      (∀ a ∈ c.accessors, a.method.flags = ⟨0x0028⟩ ∧ a.method.isStatic = true) ∧
      c.flags.without .levelMask = ⟨0x8020⟩ ∧ c.flags.level = .protectedAccess) ∧
    ∃ c, (reset.describe oneRequest "p.Aux" .standard).answer = .ok c ∧
      c.flags.without .levelMask = .accBridge ∧
      c.flags.bits &&& AccessFlags.levelMask.bits = 0x0003 := by
  intro settled reset
  constructor
  · have hsettings : settled.settings = .ofChanges revisedChanges := rfl
    have hnames : (settled.describe oneRequest "p.Aux" .standard).answer.toOption.map
        (·.accessors.map (·.method.name)) = some ["size$via$0"] := by
      decide +kernel
    cases hc : (settled.describe oneRequest "p.Aux" .standard).answer with
    | error e =>
        rw [hc] at hnames
        cases hnames
    | ok c =>
        rw [hc] at hnames
        rcases choices_reach_every_member hsettings hc with ⟨haccessors, -, hothers, hlevel, -⟩
        exact ⟨c, rfl, Option.some.inj hnames, haccessors, hothers,
          (hlevel .protectedAccess (by decide)).2⟩
  · have hsettings : reset.settings = .ofChanges (revisedChanges ++ [.typeFlags ⟨0x0043⟩]) := rfl
    have hsome : (reset.describe oneRequest "p.Aux" .standard).answer.toOption.isSome = true := by
      decide +kernel
    cases hc : (reset.describe oneRequest "p.Aux" .standard).answer with
    | error e =>
        rw [hc] at hsome
        cases hsome
    | ok c =>
        rcases choices_reach_every_member hsettings hc with ⟨-, -, hothers, -, hbits⟩
        exact ⟨c, rfl, hothers, hbits (by decide)⟩

end Host

end SyntheticAccess
