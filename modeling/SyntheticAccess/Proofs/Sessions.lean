import SyntheticAccess.Proofs.Emission
import SyntheticAccess.Session

/-!
# The Store of a Session

A session reaches its store in three ways. A class may be emitted as soon as it
is described, it may be looked for first, or it may be one that was described or
loaded long before and is now emitted by number. Each way ends at the same
emitter, but a class that is found never gets there, and a description may also
be sent to a sink that refuses every class.

`store_step` says what that amounts to for any command. Either the store stays
as it is and nothing is emitted, or one class is emitted whose name was free, its
listing is the answer, and the class is remembered or not. Everything that is
said here about all commands in any order is an induction with this one step.

To count emissions without looking at the store, `emission?` asks the emitter
itself: which class does a command hand over to it, and does it take the class?

## Main definitions

* `Session.subject?`: The class that a command is about.
* `Session.emission?`, `Session.emissions`: What a command, and a run of them,
  emits.
* `Session.Turn.listing?`: The listing that a command answers.

## Theorems

* `store_step`: What a command does to the store.
* `sound_after`: The store of a session is sound.
* `emitted_after`: The emitted names are those of the emissions.
* `listing?_step`: A listing that is answered is that of the subject.
* `emissions_and_listings`: What holds after any commands.
-/

namespace SyntheticAccess

/-- The listing in an answer. -/
def Answer.listing? : Answer → Option Listing
  | .listing l => some l
  | .found l => l
  | _ => none

namespace Session

/-- The listing that a command answers. -/
def Turn.listing? (t : Turn) : Option Listing :=
  t.answer.toOption.bind Answer.listing?

/-- The class that a command emits or looks for, if there is one: the one that
    its description leads to, or the one of its number. -/
def subject? (s : Session) : Command → Option AccessorClass
  | .produce _ content raw version | .obtain _ content raw version =>
    (s.host.describe content raw version).answer.toOption
  | .emit number | .lookup number => s.classes[number]?
  | _ => none

/-- The class that a command hands over to be emitted as a listing. A class that
    is found is not handed over. -/
def handed? (s : Session) : Command → Option AccessorClass
  | .produce .listing content raw version =>
    (s.host.describe content raw version).answer.toOption
  | .obtain .listing content raw version =>
    (s.host.describe content raw version).answer.toOption.filter fun c =>
      (s.store.lookup c).isNone
  | .emit number => s.classes[number]?
  | _ => none

/-- What is emitted as a listing by a command. -/
def emission? (s : Session) (command : Command) : Option Listing :=
  (s.handed? command).bind fun c => (s.store.emit .listing c).answer.toOption

/-- What is emitted by a run of commands, in order. -/
def emissions (s : Session) : List Command → List Listing
  | [] => []
  | c :: cs => (s.emission? c).toList ++ (s.step c).session.emissions cs

theorem store_withClass {s : Session} {number : Nat} {command : AccessorClass → Turn}
    (h : ∀ c, (command c).session.store = s.store) :
    (s.withClass number command).session.store = s.store := by
  rw [withClass]
  cases s.classes[number]? with
  | none => rfl
  | some c => exact h c

theorem handed?_produce_eq_some_iff {s : Session} {sink : Sink} {content : Description}
    {raw : String} {version : ClassVersion} {c : AccessorClass} :
    s.handed? (.produce sink content raw version) = some c ↔
      sink = .listing ∧ (s.host.describe content raw version).answer = .ok c := by
  cases sink with
  | refusing => exact ⟨(fun h => nomatch h), fun h => nomatch h.1⟩
  | listing =>
      rw [handed?, toOption_eq_some_iff]
      exact (and_iff_right rfl).symm

/-- A class that is found is not handed over. -/
theorem handed?_obtain_eq_some_iff {s : Session} {sink : Sink} {content : Description}
    {raw : String} {version : ClassVersion} {c : AccessorClass} :
    s.handed? (.obtain sink content raw version) = some c ↔
      sink = .listing ∧ (s.host.describe content raw version).answer = .ok c ∧
        s.store.lookup c = none := by
  cases sink with
  | refusing => exact ⟨(fun h => nomatch h), fun h => nomatch h.1⟩
  | listing =>
      rw [handed?, Option.filter_eq_some_iff, toOption_eq_some_iff, Option.isNone_iff_eq_none]
      exact (and_iff_right rfl).symm

/-- The emitter takes a class that is handed over unless its name is taken. -/
theorem emission?_of_handed {s : Session} {command : Command} {c : AccessorClass}
    (h : s.handed? command = some c) :
    s.emission? command = if c.name ∈ s.store.emitted then none else some c.listing := by
  rw [emission?, h, Option.bind_some]
  rcases s.store.emit_cases .listing c with ⟨-, hfree, hemit⟩ | ⟨htaken, hemit⟩
  · rw [hemit, if_neg hfree]
    rfl
  · rw [hemit, if_pos (htaken rfl)]
    rfl

/-- Nothing is emitted, and the store stays as it is. -/
def Idle (s : Session) (command : Command) : Prop :=
  s.emission? command = none ∧ (s.step command).session.store = s.store

/-- A class with a free name is emitted, which is also the answer, and it may be
    remembered. -/
def Emits (s : Session) (command : Command) (c : AccessorClass) : Prop :=
  c.name ∉ s.store.emitted ∧ s.emission? command = some c.listing ∧
    (s.step command).answer = .ok (.listing c.listing) ∧
    ((s.step command).session.store = s.store.withName c.name ∨
      (s.step command).session.store = (s.store.withName c.name).remember c c.listing)

/-- A command is idle when it hands over no class with a free name. -/
theorem idle_of_taken {s : Session} {command : Command}
    (htaken : ∀ c, s.handed? command = some c → c.name ∈ s.store.emitted)
    (hstore : (s.step command).session.store = s.store) : s.Idle command := by
  refine ⟨?_, hstore⟩
  cases hc : s.handed? command with
  | none => rw [emission?, hc, Option.bind_none]
  | some c => rw [emission?_of_handed hc, if_pos (htaken c hc)]

theorem answer_ofOutcome {s : Session} {notes : List (Except Failure Note)}
    {o : Outcome Failure Store Listing} {l : Listing} (h : o.answer = .ok l) :
    (s.ofOutcome notes o).answer = .ok (.listing l) := by
  rw [ofOutcome, h]
  rfl

/-- A command to emit a class that it describes emits that class, or does nothing. -/
theorem store_step_produce (s : Session) (sink : Sink) (content : Description) (raw : String)
    (version : ClassVersion) :
    s.Idle (.produce sink content raw version) ∨
      ∃ c, s.Emits (.produce sink content raw version) c := by
  cases hc : (s.host.describe content raw version).answer with
  | error e =>
      -- Nothing was described, so nothing is handed over.
      refine Or.inl (idle_of_taken (fun d hd => ?_) ?_)
      · rw [(handed?_produce_eq_some_iff.mp hd).2] at hc
        cases hc
      · rw [step, ofOutcome, s.store.produce_of_error sink hc]
  | ok c =>
      rcases s.store.produce_cases sink hc with
        ⟨hsink, hfree, hanswer, hstate⟩ | ⟨htaken, -, hstate⟩
      · refine Or.inr ⟨c, hfree, ?_, answer_ofOutcome hanswer, Or.inl hstate⟩
        rw [emission?_of_handed (handed?_produce_eq_some_iff.mpr ⟨hsink, hc⟩), if_neg hfree]
      · -- The class was handed over, but its name is taken.
        refine Or.inl (idle_of_taken (fun d hd => ?_) hstate)
        rcases handed?_produce_eq_some_iff.mp hd with ⟨hsink, hd⟩
        rw [hc, Except.ok.injEq] at hd
        exact hd ▸ htaken hsink

/-- A command to reuse a class that it describes, or else to emit it, emits that
    class or does nothing. Finding the class is a case of doing nothing. -/
theorem store_step_obtain (s : Session) (sink : Sink) (content : Description) (raw : String)
    (version : ClassVersion) :
    s.Idle (.obtain sink content raw version) ∨
      ∃ c, s.Emits (.obtain sink content raw version) c := by
  cases hc : (s.host.describe content raw version).answer with
  | error e =>
      refine Or.inl (idle_of_taken (fun d hd => ?_) ?_)
      · rw [(handed?_obtain_eq_some_iff.mp hd).2.1] at hc
        cases hc
      · rw [step, ofOutcome, s.store.obtain_of_error sink hc]
  | ok c =>
      -- If any class is handed over it is the one that was described.
      have hsame : ∀ d, s.handed? (.obtain sink content raw version) = some d → d = c := by
        intro d hd
        have hok := (handed?_obtain_eq_some_iff.mp hd).2.1
        rw [hc, Except.ok.injEq] at hok
        exact hok.symm
      rcases s.store.obtain_cases sink hc with
        ⟨l, hlookup, -, hstate⟩ | ⟨hlookup, hsink, hfree, hanswer, hstate⟩ | ⟨-, htaken, -, hstate⟩
      · -- A class that is found stays away from the emitter.
        refine Or.inl (idle_of_taken (fun d hd => ?_) hstate)
        have hnone := (handed?_obtain_eq_some_iff.mp hd).2.2
        rw [hsame d hd, hlookup] at hnone
        cases hnone
      · refine Or.inr ⟨c, hfree, ?_, answer_ofOutcome hanswer, Or.inr hstate⟩
        rw [emission?_of_handed (handed?_obtain_eq_some_iff.mpr ⟨hsink, hc, hlookup⟩),
          if_neg hfree]
      · refine Or.inl (idle_of_taken (fun d hd => ?_) hstate)
        rw [hsame d hd]
        exact htaken (handed?_obtain_eq_some_iff.mp hd).1

/-- A command to emit a class by its number emits that class, or does nothing. -/
theorem store_step_emit (s : Session) (number : Nat) :
    s.Idle (.emit number) ∨ ∃ c, s.Emits (.emit number) c := by
  have hhanded : s.handed? (.emit number) = s.classes[number]? := rfl
  cases hc : s.classes[number]? with
  | none =>
      -- There is no class of the number.
      refine Or.inl (idle_of_taken (fun d hd => ?_) ?_)
      · rw [hhanded, hc] at hd
        cases hd
      · rw [step, withClass, hc]
        rfl
  | some c =>
      have hstep : s.step (.emit number) = s.ofOutcome [] (s.store.emit .listing c) := by
        rw [step, withClass, hc]
      rcases s.store.emit_cases .listing c with ⟨-, hfree, hemit⟩ | ⟨htaken, hemit⟩
      · rw [hemit] at hstep
        refine Or.inr ⟨c, hfree, ?_, by rw [hstep]; rfl, Or.inl (by rw [hstep]; rfl)⟩
        rw [emission?_of_handed (hhanded.trans hc), if_neg hfree]
      · refine Or.inl (idle_of_taken (fun d hd => ?_) ?_)
        · rw [hhanded, hc, Option.some.injEq] at hd
          exact hd ▸ htaken rfl
        · rw [hstep, hemit]
          rfl

/-- What a command does to the store. It leaves the store alone, or it emits one
    class and may remember it. -/
theorem store_step (s : Session) (command : Command) :
    s.Idle command ∨ ∃ c, s.Emits command c := by
  cases command with
  | produce sink content raw version => exact s.store_step_produce sink content raw version
  | obtain sink content raw version => exact s.store_step_obtain sink content raw version
  | emit number => exact s.store_step_emit number
  -- The other commands have nothing to do with the emitter.
  | showHost | isTaken | count => exact Or.inl ⟨rfl, rfl⟩
  | checkName raw =>
      refine Or.inl ⟨rfl, ?_⟩
      rw [step]
      cases s.host.checkName raw <;> rfl
  | describe content raw version =>
      refine Or.inl ⟨rfl, ?_⟩
      rw [step]
      cases (s.host.describe content raw version).answer <;> rfl
  | lookup number | print number | save number =>
      exact Or.inl ⟨rfl, store_withClass fun _ => rfl⟩
  | compare a b =>
      exact Or.inl ⟨rfl, store_withClass fun _ => store_withClass fun _ => rfl⟩
  | load d =>
      refine Or.inl ⟨rfl, ?_⟩
      rw [step]
      cases AccessorClass.load? d <;> rfl
  | reload number =>
      refine Or.inl ⟨rfl, store_withClass fun c => ?_⟩
      cases AccessorClass.load? c.save <;> rfl

/-- Every command keeps the store of a session sound. A class that is emitted has a
    free name, and that is all soundness asks for. -/
theorem sound_step {s : Session} (h : s.store.Sound) (command : Command) :
    (s.step command).session.store.Sound := by
  rcases s.store_step command with ⟨-, hstore⟩ | ⟨c, hfree, -, -, hstore | hstore⟩
  · rw [hstore]
    exact h
  · rw [hstore]
    exact h.withName hfree
  · rw [hstore]
    exact h.remember hfree

/-- A command adds the name of what it emits to the emitted names, and no other. -/
theorem emitted_step (s : Session) (command : Command) :
    (s.step command).session.store.emitted =
      s.store.emitted ++ ((s.emission? command).toList.map (·.name)) := by
  rcases s.store_step command with ⟨hnone, hstore⟩ | ⟨c, -, hsome, -, hstore | hstore⟩
  · rw [hnone, hstore]
    exact (List.append_nil _).symm
  · rw [hsome, hstore]
    rfl
  · rw [hsome, hstore]
    rfl

/-- What a command emits is what it answers. -/
theorem answer_of_emission? {s : Session} {command : Command} {l : Listing}
    (h : s.emission? command = some l) : (s.step command).answer = .ok (.listing l) := by
  rcases s.store_step command with ⟨hnone, -⟩ | ⟨c, -, hsome, hanswer, -⟩
  · rw [hnone] at h
    cases h
  · rw [hsome, Option.some.injEq] at h
    rw [hanswer, h]

theorem store_of_emission?_none {s : Session} {command : Command}
    (h : s.emission? command = none) : (s.step command).session.store = s.store := by
  rcases s.store_step command with ⟨-, hstore⟩ | ⟨c, -, hsome, -⟩
  · exact hstore
  · rw [h] at hsome
    cases hsome

theorem sound_after {s : Session} (h : s.store.Sound) (cs : List Command) :
    (s.after cs).store.Sound := by
  induction cs generalizing s with
  | nil => exact h
  | cons c cs ih => exact ih (sound_step h c)

/-- After a run of commands the names of what it emitted stand behind those that
    were emitted before, in order. -/
theorem emitted_after (s : Session) (cs : List Command) :
    (s.after cs).store.emitted = s.store.emitted ++ (s.emissions cs).map (·.name) := by
  induction cs generalizing s with
  | nil => exact (List.append_nil _).symm
  | cons c cs ih =>
      -- The name of the first emission goes with the names before it, and the rest is the run from
      -- there.
      rw [emissions, List.map_append, ← List.append_assoc, ← emitted_step]
      exact ih _

theorem listing?_ofOutcome {s : Session} {notes : List (Except Failure Note)}
    {o : Outcome Failure Store Listing} {l : Listing} :
    (s.ofOutcome notes o).listing? = some l ↔ o.answer = .ok l := by
  rw [Turn.listing?, ofOutcome]
  cases o.answer with
  | error e =>
      constructor
      · intro h
        cases h
      · intro h
        cases h
  | ok k =>
      simp [Except.map, Except.mapError, Except.toOption, Answer.listing?]

/-- A listing that is answered to a command by number is one for the class of that
    number. -/
theorem listing?_withClass {s : Session} {number : Nat} {command : AccessorClass → Turn}
    {l : Listing} (h : (s.withClass number command).listing? = some l) :
    ∃ c, s.classes[number]? = some c ∧ (command c).listing? = some l := by
  rw [withClass] at h
  cases hc : s.classes[number]? with
  | none =>
      rw [hc] at h
      cases h
  | some c =>
      rw [hc] at h
      exact ⟨c, rfl, h⟩

/-- A listing that is answered is that of the class the command is about. When
    it was found, that is because the store is sound. -/
theorem listing?_step {s : Session} (hs : s.store.Sound) {command : Command} {l : Listing}
    (h : (s.step command).listing? = some l) :
    ∃ c, s.subject? command = some c ∧ l = c.listing := by
  cases command with
  | produce sink content raw version =>
      rcases Store.listing_of_produce (listing?_ofOutcome.mp h) with ⟨c, hc, hl⟩
      exact ⟨c, toOption_eq_some_iff.mpr hc, hl⟩
  | obtain sink content raw version =>
      rcases hs.listing_of_obtain (listing?_ofOutcome.mp h) with ⟨c, hc, hl⟩
      exact ⟨c, toOption_eq_some_iff.mpr hc, hl⟩
  | emit number =>
      rcases listing?_withClass h with ⟨c, hc, hl⟩
      exact ⟨c, hc, Store.listing_of_emit (listing?_ofOutcome.mp hl)⟩
  | lookup number =>
      rcases listing?_withClass h with ⟨c, hc, hl⟩
      exact ⟨c, hc, hs.eq_of_lookup hl⟩
  -- No other command answers a listing.
  | showHost | isTaken | count => cases h
  | checkName raw =>
      rw [step] at h
      cases hn : s.host.checkName raw <;> rw [hn] at h <;> cases h
  | describe content raw version =>
      revert h
      rw [step]
      cases (s.host.describe content raw version).answer with
      | error e =>
          intro h
          cases h
      | ok d =>
          intro h
          cases h
  | print number | save number =>
      rcases listing?_withClass h with ⟨c, -, hl⟩
      cases hl
  | compare a b =>
      rcases listing?_withClass h with ⟨c, -, hl⟩
      rcases listing?_withClass hl with ⟨d, -, hl⟩
      cases hl
  | load d =>
      rw [step] at h
      cases hd : AccessorClass.load? d <;> rw [hd] at h <;> cases h
  | reload number =>
      rcases listing?_withClass h with ⟨c, -, hl⟩
      cases hd : AccessorClass.load? c.save <;> rw [hd] at hl <;> cases hl

/-- What holds after any commands, whatever was described, loaded, found,
    emitted or refused among them. Every class is remembered with its own
    listing. Remembered classes were emitted and have different names, so there
    are no more of them than emitted ones. The names in use are those of the
    emissions so far, one for each emission and none twice. A listing that is
    answered, be it new or found again, is that of the class in question. -/
theorem emissions_and_listings (h : Host) (cs : List Command) :
    let s := (start h).after cs
    let emissions := (start h).emissions cs
    (∀ e ∈ s.store.cached, e.2 = ⟨e.1.name, e.1.listingText⟩) ∧
    ((∀ e ∈ s.store.cached, e.1.name ∈ s.store.emitted) ∧
      (s.store.cached.map (·.1.name)).Nodup ∧
      s.store.cached.length ≤ s.store.emitted.length) ∧
    (s.store.emitted = emissions.map (·.name) ∧
      s.store.emitted.length = emissions.length ∧
      (emissions.map (·.name)).Nodup) ∧
    ∀ command,
      (s.emission? command = none → (s.step command).session.store = s.store) ∧
      (∀ l, s.emission? command = some l → (s.step command).answer = .ok (.listing l)) ∧
      ∀ l, (s.step command).listing? = some l →
        ∃ c, s.subject? command = some c ∧ l = ⟨c.name, c.listingText⟩ := by
  intro s emissions
  have hs : s.store.Sound := sound_after Store.sound_empty cs
  have hemitted : s.store.emitted = emissions.map (·.name) := emitted_after (start h) cs
  refine ⟨hs.listing_eq, ⟨hs.name_mem, hs.nodup_cached, hs.length_cached_le⟩, ⟨hemitted, ?_, ?_⟩,
    fun command => ⟨store_of_emission?_none, fun l hl => answer_of_emission? hl,
      fun l hl => listing?_step hs hl⟩⟩
  · rw [hemitted, List.length_map]
  · rw [← hemitted]
    exact hs.nodup_emitted

/-- A host whose method table is empty. -/
def bareHost : Host :=
  ⟨⟨"p.Main"⟩, .empty ⟨"p.Main"⟩, .standard⟩

/-- A class with one field and nothing else. -/
def oneField : Description :=
  .script [⟨.addField ⟨"count", .prim .int, ∅⟩, false⟩]

/-- One class is emitted by number, and its name is refused after that. Another is
    emitted and remembered, and found again even when emission is refused. -/
def mixedCommands : List Command :=
  [.describe oneField "p.First" .standard, .emit 0,
    .produce .listing oneField "p.First" .standard,
    .obtain .listing oneField "p.Second" .standard,
    .obtain .refusing oneField "p.Second" .standard,
    .describe oneField "p.Second" .standard, .reload 0]

/-- After seven commands two classes were emitted and one of them is remembered. A
    third is emitted under its own name, and what is found for a number is the
    listing of its class. -/
theorem emissions_and_listings_mixedCommands :
    let s := (start bareHost).after mixedCommands
    (∃ e ∈ s.store.cached, e.2 = ⟨e.1.name, e.1.listingText⟩ ∧ e.1.name ∈ s.store.emitted) ∧
    s.store.emitted.length = 2 ∧ ((start bareHost).emissions mixedCommands).length = 2 ∧
    (s.step (.emit 0)).session.store = s.store ∧
    (∃ l, s.emission? (.produce .listing oneField "p.Third" .standard) = some l ∧
      (s.step (.produce .listing oneField "p.Third" .standard)).answer = .ok (.listing l)) ∧
    ∃ c l, s.subject? (.lookup 1) = some c ∧ (s.step (.lookup 1)).listing? = some l ∧
      l = ⟨c.name, c.listingText⟩ := by
  intro s
  rcases emissions_and_listings bareHost mixedCommands with
    ⟨hlisting, ⟨hmem, -, -⟩, ⟨-, hlength, -⟩, hstep⟩
  have hcached : s.store.cached.length = 1 := by decide +kernel
  have hemitted : s.store.emitted.length = 2 := by decide +kernel
  refine ⟨?_, hemitted, hlength ▸ hemitted, (hstep (.emit 0)).1 (by decide +kernel), ?_, ?_⟩
  · rcases List.length_eq_one_iff.mp hcached with ⟨e, he⟩
    have hin : e ∈ s.store.cached := he ▸ List.mem_singleton_self e
    exact ⟨e, hin, hlisting e hin, hmem e hin⟩
  · have hsome : (s.emission? (.produce .listing oneField "p.Third" .standard)).isSome := by
      decide +kernel
    rcases Option.isSome_iff_exists.mp hsome with ⟨l, hl⟩
    exact ⟨l, hl, (hstep _).2.1 l hl⟩
  · have hsome : (s.step (.lookup 1)).listing?.isSome := by decide +kernel
    rcases Option.isSome_iff_exists.mp hsome with ⟨l, hl⟩
    rcases (hstep (.lookup 1)).2.2 l hl with ⟨c, hc, heq⟩
    exact ⟨c, l, hc, hl, heq⟩

end Session

end SyntheticAccess
