import Mathlib.Data.List.Nodup
import Mathlib.Data.List.Perm.Subperm
import SyntheticAccess.Store

/-!
# What a Store Knows

A store has two memories that are written at different times. The emitted names
grow whenever a class is emitted, in whatever way it was asked for. The
remembered classes grow only when a class was emitted on behalf of a store that
reuses classes, and they are looked up by the whole class and not by its name.
Nothing in either memory points to the other.

`Sound` is what holds between them all the same. A remembered class was emitted
under its name, so its name is taken, and since every later class of that name
is refused no second one can be remembered under it. With at most one class for
each name, looking up a class is the same as looking for its name and comparing.

All ways of using a store come to emitting a class or not. `emit_cases`,
`produce_cases` and `obtain_cases` list what can happen, with the condition
under which it does, and everything else is read off these lists.

## Main definitions

* `Store.withName`: The store after a class was emitted.
* `Store.Sound`: What holds between the two memories.

## Theorems

* `emit_cases`, `produce_cases`, `obtain_cases`: What using a store can lead to.
* `Sound.withName`, `Sound.remember`: Soundness is kept.
* `Sound.lookup_eq_some_iff`: What is found is what was remembered.
* `listing_of_emit`, `listing_of_produce`, `Sound.listing_of_obtain`: A class is
  answered with its own listing.
* `Sound.length_cached_le`: No more classes are remembered than were emitted.
-/

namespace SyntheticAccess

theorem toOption_eq_some_iff {ε α : Type} {x : Except ε α} {a : α} :
    x.toOption = some a ↔ x = .ok a := by
  cases x with
  | error e => simp [Except.toOption]
  | ok b => simp [Except.toOption]

namespace Store

/-- The store after a class of the given name was emitted. -/
def withName (s : Store) (n : BinaryName) : Store :=
  { s with emitted := s.emitted ++ [n] }

@[simp] theorem emitted_withName (s : Store) (n : BinaryName) :
    (s.withName n).emitted = s.emitted ++ [n] := rfl

@[simp] theorem cached_withName (s : Store) (n : BinaryName) :
    (s.withName n).cached = s.cached := rfl

@[simp] theorem emitted_remember (s : Store) (c : AccessorClass) (l : Listing) :
    (s.remember c l).emitted = s.emitted := rfl

@[simp] theorem cached_remember (s : Store) (c : AccessorClass) (l : Listing) :
    (s.remember c l).cached = s.cached ++ [(c, l)] := rfl

theorem isTaken_iff (s : Store) (n : BinaryName) : s.isTaken n = true ↔ n ∈ s.emitted := by
  rw [isTaken, List.contains_iff_mem]

/-- A class is emitted when it goes to the listing sink and its name is free,
    and refused otherwise. -/
theorem emit_cases (s : Store) (sink : Sink) (c : AccessorClass) :
    (sink = .listing ∧ c.name ∉ s.emitted ∧
        s.emit sink c = ⟨.ok c.listing, s.withName c.name, []⟩) ∨
      ((sink = .listing → c.name ∈ s.emitted) ∧
        s.emit sink c = ⟨.error (.nameTaken c.name), s, []⟩) := by
  cases sink with
  | refusing => exact Or.inr ⟨(fun h => nomatch h), rfl⟩
  | listing =>
      -- Only the listing sink asks whether the name is taken.
      by_cases htaken : s.isTaken c.name = true
      · refine Or.inr ⟨fun _ => (s.isTaken_iff c.name).mp htaken, ?_⟩
        rw [emit, if_pos htaken]
      · refine Or.inl ⟨rfl, fun hmem => htaken ((s.isTaken_iff c.name).mpr hmem), ?_⟩
        rw [emit, if_neg htaken]
        rfl

theorem produce_of_error (s : Store) (sink : Sink) {d : Described} {e : Failure}
    (h : d.answer = .error e) : s.produce sink d = ⟨.error e, s, d.events⟩ := by
  rw [produce, h]

theorem obtain_of_error (s : Store) (sink : Sink) {d : Described} {e : Failure}
    (h : d.answer = .error e) : s.obtain sink d = ⟨.error e, s, d.events⟩ := by
  rw [obtain, h]

theorem produce_of_ok (s : Store) (sink : Sink) {d : Described} {c : AccessorClass}
    (h : d.answer = .ok c) :
    s.produce sink d = ⟨(s.emit sink c).answer, (s.emit sink c).state,
      d.events ++ .emitting c.name c.version c.accessors.length :: (s.emit sink c).events⟩ := by
  rw [produce, h]

/-- A class that is found is answered from memory, and the store stays as it is. -/
theorem obtain_of_lookup_some (s : Store) (sink : Sink) {d : Described} {c : AccessorClass}
    {l : Listing} (h : d.answer = .ok c) (hl : s.lookup c = some l) :
    s.obtain sink d = ⟨.ok l, s, d.events ++ [.cacheHit c.name]⟩ := by
  simp only [obtain, h, hl]

/-- A class that is not found is emitted, and remembered if the emitter takes it. -/
theorem obtain_of_lookup_none (s : Store) (sink : Sink) {d : Described} {c : AccessorClass}
    (h : d.answer = .ok c) (hl : s.lookup c = none) :
    (s.obtain sink d).answer =
        ((s.emit sink c).andThen fun l s => ⟨.ok l, s.remember c l, []⟩).answer ∧
      (s.obtain sink d).state =
        ((s.emit sink c).andThen fun l s => ⟨.ok l, s.remember c l, []⟩).state := by
  simp only [obtain, h, hl, and_self]

/-- A described class that is to be emitted is, or else it is refused. -/
theorem produce_cases (s : Store) (sink : Sink) {d : Described} {c : AccessorClass}
    (h : d.answer = .ok c) :
    (sink = .listing ∧ c.name ∉ s.emitted ∧ (s.produce sink d).answer = .ok c.listing ∧
        (s.produce sink d).state = s.withName c.name) ∨
      ((sink = .listing → c.name ∈ s.emitted) ∧
        (s.produce sink d).answer = .error (.nameTaken c.name) ∧
        (s.produce sink d).state = s) := by
  rw [s.produce_of_ok sink h]
  rcases s.emit_cases sink c with ⟨hsink, hfree, hemit⟩ | ⟨htaken, hemit⟩
  · rw [hemit]
    exact Or.inl ⟨hsink, hfree, rfl, rfl⟩
  · rw [hemit]
    exact Or.inr ⟨htaken, rfl, rfl⟩

/-- A described class that may be reused is, if it is remembered. If not, it is
    emitted and remembered, or else it is refused. -/
theorem obtain_cases (s : Store) (sink : Sink) {d : Described} {c : AccessorClass}
    (h : d.answer = .ok c) :
    (∃ l, s.lookup c = some l ∧ (s.obtain sink d).answer = .ok l ∧
        (s.obtain sink d).state = s) ∨
      (s.lookup c = none ∧ sink = .listing ∧ c.name ∉ s.emitted ∧
        (s.obtain sink d).answer = .ok c.listing ∧
        (s.obtain sink d).state = (s.withName c.name).remember c c.listing) ∨
      (s.lookup c = none ∧ (sink = .listing → c.name ∈ s.emitted) ∧
        (s.obtain sink d).answer = .error (.nameTaken c.name) ∧
        (s.obtain sink d).state = s) := by
  cases hlookup : s.lookup c with
  | some l =>
      rw [s.obtain_of_lookup_some sink h hlookup]
      exact Or.inl ⟨l, rfl, rfl, rfl⟩
  | none =>
      rcases s.obtain_of_lookup_none sink h hlookup with ⟨hanswer, hstate⟩
      rw [hanswer, hstate]
      rcases s.emit_cases sink c with ⟨hsink, hfree, hemit⟩ | ⟨htaken, hemit⟩
      · rw [hemit]
        exact Or.inr (Or.inl ⟨rfl, hsink, hfree, rfl, rfl⟩)
      · rw [hemit]
        exact Or.inr (Or.inr ⟨rfl, htaken, rfl, rfl⟩)

/-- What holds between the two memories of a store. -/
structure Sound (s : Store) : Prop where
  /-- A class is remembered with its own listing. -/
  listing_eq : ∀ e ∈ s.cached, e.2 = e.1.listing
  /-- What is remembered was emitted. -/
  name_mem : ∀ e ∈ s.cached, e.1.name ∈ s.emitted
  /-- Remembered classes have different names. -/
  nodup_cached : (s.cached.map (·.1.name)).Nodup
  /-- No name was emitted twice. -/
  nodup_emitted : s.emitted.Nodup

theorem sound_empty : empty.Sound where
  listing_eq _ he := nomatch he
  name_mem _ he := nomatch he
  nodup_cached := .nil
  nodup_emitted := .nil

theorem Sound.withName {s : Store} (h : s.Sound) {n : BinaryName} (hfree : n ∉ s.emitted) :
    (s.withName n).Sound where
  listing_eq := h.listing_eq
  name_mem e he := List.mem_append_left _ (h.name_mem e he)
  nodup_cached := h.nodup_cached
  nodup_emitted := by
    refine List.nodup_append.mpr ⟨h.nodup_emitted, List.nodup_singleton n, fun m hm k hk heq => ?_⟩
    rw [heq, List.mem_singleton.mp hk] at hm
    exact hfree hm

/-- A class may be remembered once it was emitted, because no class of its name
    was remembered before. -/
theorem Sound.remember {s : Store} (h : s.Sound) {c : AccessorClass} (hfree : c.name ∉ s.emitted) :
    ((s.withName c.name).remember c c.listing).Sound where
  listing_eq e he := by
    rcases List.mem_append.mp he with he | he
    · exact h.listing_eq e he
    · rw [List.mem_singleton.mp he]
  name_mem e he := by
    rcases List.mem_append.mp he with he | he
    · exact List.mem_append_left _ (h.name_mem e he)
    · rw [List.mem_singleton.mp he]
      exact List.mem_append_right _ (List.mem_singleton_self _)
  nodup_cached := by
    rw [cached_remember, cached_withName, List.map_append]
    refine List.nodup_append.mpr ⟨h.nodup_cached, List.nodup_singleton _, fun m hm k hk heq => ?_⟩
    -- A class of the same name would have been emitted under it, but the name was free.
    rcases List.mem_map.mp hm with ⟨e, he, rfl⟩
    have hname : e.1.name = c.name := heq.trans (List.mem_singleton.mp hk)
    exact hfree (hname ▸ h.name_mem e he)
  nodup_emitted := (h.withName hfree).nodup_emitted

theorem mem_cached_of_lookup {s : Store} {c : AccessorClass} {l : Listing}
    (h : s.lookup c = some l) : (c, l) ∈ s.cached := by
  rcases List.lookup_eq_some_iff.mp h with ⟨before, after, hcached, -⟩
  rw [hcached]
  exact List.mem_append_right _ List.mem_cons_self

/-- Two remembered classes of one name are the same, and so are their listings. -/
theorem Sound.eq_of_name_eq {s : Store} (h : s.Sound) {e f : AccessorClass × Listing}
    (he : e ∈ s.cached) (hf : f ∈ s.cached) (hname : e.1.name = f.1.name) : e = f :=
  List.inj_on_of_nodup_map h.nodup_cached he hf hname

/-- A class is found with a listing when it was remembered with it. -/
theorem Sound.lookup_eq_some_iff {s : Store} (h : s.Sound) (c : AccessorClass) (l : Listing) :
    s.lookup c = some l ↔ (c, l) ∈ s.cached := by
  constructor
  · exact mem_cached_of_lookup
  · intro hmem
    cases hlookup : s.lookup c with
    | none =>
        have hne := List.lookup_eq_none_iff.mp hlookup (c, l) hmem
        simp at hne
    | some k =>
        -- Something is found, and no other entry has the name of the class.
        have heq := h.eq_of_name_eq (mem_cached_of_lookup hlookup) hmem rfl
        rw [(Prod.mk.inj heq).2]

/-- What is found for a class is its listing. -/
theorem Sound.eq_of_lookup {s : Store} (h : s.Sound) {c : AccessorClass} {l : Listing}
    (hl : s.lookup c = some l) : l = c.listing :=
  h.listing_eq (c, l) (mem_cached_of_lookup hl)

/-- A class that is emitted is answered with its own listing. -/
theorem listing_of_emit {s : Store} {sink : Sink} {c : AccessorClass} {l : Listing}
    (h : (s.emit sink c).answer = .ok l) : l = c.listing := by
  rcases s.emit_cases sink c with ⟨-, -, hemit⟩ | ⟨-, hemit⟩
  · rw [hemit, Except.ok.injEq] at h
    exact h.symm
  · rw [hemit] at h
    cases h

theorem listing_of_produce {s : Store} {sink : Sink} {d : Described} {l : Listing}
    (h : (s.produce sink d).answer = .ok l) : ∃ c, d.answer = .ok c ∧ l = c.listing := by
  cases hd : d.answer with
  | error e =>
      rw [s.produce_of_error sink hd] at h
      cases h
  | ok c =>
      refine ⟨c, rfl, ?_⟩
      rw [s.produce_of_ok sink hd] at h
      exact listing_of_emit h

/-- A listing that is found is the one that would be made. -/
theorem Sound.listing_of_obtain {s : Store} (hs : s.Sound) {sink : Sink} {d : Described}
    {l : Listing} (h : (s.obtain sink d).answer = .ok l) :
    ∃ c, d.answer = .ok c ∧ l = c.listing := by
  cases hd : d.answer with
  | error e =>
      rw [s.obtain_of_error sink hd] at h
      cases h
  | ok c =>
      refine ⟨c, rfl, ?_⟩
      -- A class that is found was remembered with its own listing, and one that is emitted is
      -- answered with it.
      rcases s.obtain_cases sink hd with
        ⟨k, hlookup, hanswer, -⟩ | ⟨-, -, -, hanswer, -⟩ | ⟨-, -, hanswer, -⟩
      · rw [hanswer, Except.ok.injEq] at h
        exact h ▸ hs.eq_of_lookup hlookup
      · rw [hanswer, Except.ok.injEq] at h
        exact h.symm
      · rw [hanswer] at h
        cases h

/-- No more classes are remembered than were emitted, since their names are
    different and all among the emitted ones. -/
theorem Sound.length_cached_le {s : Store} (h : s.Sound) :
    s.cached.length ≤ s.emitted.length := by
  have hsub : s.cached.map (·.1.name) ⊆ s.emitted := by
    intro n hn
    rcases List.mem_map.mp hn with ⟨e, he, rfl⟩
    exact h.name_mem e he
  have hlength := (h.nodup_cached.subperm hsub).length_le
  rwa [List.length_map] at hlength

end Store

end SyntheticAccess
