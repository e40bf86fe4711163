import Mathlib.Data.Finset.Card
import SyntheticAccess.Proofs.Bundles
import SyntheticAccess.Proofs.Emission

/-!
# Reuse over a History

A store that is asked for bundles, one after the other, under names that may
repeat. Two memories decide the answer, the names that were emitted and the
classes that were remembered, and the first is written by name while the second
is read by class. What a caller sees is simpler and mentions neither: the first
answer under a name is the one for good. Asked again under the name, a store
answers it to every job that comes to the same bundle in the same version, and
refuses every other.

`Recalls` ties a store to the answers of its history. Every name that was ever
answered has a class that the first answer was for, and that class is remembered
with that answer. A job for which the name is free is answered and is the first
from then on; for any other job the lookup succeeds exactly when its class is
the remembered one, and `eq_iff_of_describe_bundle` says when that is.

## Main definitions

* `Job`: A bundle to be made under a name.
* `Store.serve`, `Store.afterJobs`, `Store.served`: One job, a run of them, and
  the jobs of a run that were answered.
* `Store.Recalls`: A store agrees with what was answered.

## Theorems

* `Recalls.serve`, `Recalls.afterJobs`: One job, and a run of them.
* `Recalls.length_emitted`: A store counts the names that were answered.
* `reuse_is_structural`: What any job of a history is answered.
-/

namespace SyntheticAccess

/-- A bundle to be made under a name that is yet to be read. -/
structure Job where
  requests : List Request
  raw : String
  version : ClassVersion
  deriving DecidableEq

namespace Job

/-- What the bundle leads to beside a host. -/
def described (j : Job) (h : Host) : Described :=
  h.describe (.bundle j.requests) j.raw j.version

/-- Whether the name of the job is read as the given one. -/
def isFor (j : Job) (h : Host) (n : BinaryName) : Bool :=
  decide (h.checkName j.raw = .ok n)

/-- The name of the job, when it is accepted. -/
def name? (j : Job) (h : Host) : Option BinaryName :=
  (h.checkName j.raw).toOption

theorem isFor_iff (j : Job) (h : Host) (n : BinaryName) :
    j.isFor h n = true ↔ h.checkName j.raw = .ok n := by
  rw [isFor, decide_eq_true_eq]

theorem name?_eq_some_iff (j : Job) (h : Host) (n : BinaryName) :
    j.name? h = some n ↔ j.isFor h n = true := by
  rw [isFor_iff, name?, toOption_eq_some_iff]

/-- A job that leads to a class is for the name of that class and no other. -/
theorem isFor_of_described {j : Job} {h : Host} {c : AccessorClass}
    (hc : (j.described h).answer = .ok c) (n : BinaryName) : j.isFor h n = true ↔ c.name = n := by
  rw [isFor_iff, (Host.parts_of_describe_bundle hc).1, Except.ok.injEq]

end Job

namespace Store

/-- Do a job, reusing what can be reused. -/
def serve (s : Store) (h : Host) (j : Job) : Outcome Failure Store Listing :=
  s.obtain .listing (j.described h)

/-- The store after a run of jobs, failed ones among them. -/
def afterJobs (s : Store) (h : Host) (js : List Job) : Store :=
  js.foldl (fun s j => (s.serve h j).state) s

/-- The job with its answer, if it is answered. -/
def answered (s : Store) (h : Host) (j : Job) : List (Job × Listing) :=
  match (s.serve h j).answer with
  | .ok l => [(j, l)]
  | .error _ => []

/-- The jobs of a run that are answered, in order and with their answers. -/
def served (s : Store) (h : Host) : List Job → List (Job × Listing)
  | [] => []
  | j :: js => s.answered h j ++ (s.serve h j).state.served h js

theorem answered_of_ok {s : Store} {h : Host} {j : Job} {l : Listing}
    (hl : (s.serve h j).answer = .ok l) : s.answered h j = [(j, l)] := by
  rw [answered, hl]

theorem answered_of_error {s : Store} {h : Host} {j : Job} {e : Failure}
    (he : (s.serve h j).answer = .error e) : s.answered h j = [] := by
  rw [answered, he]

/-- A store agrees with the jobs that were answered so far. -/
structure Recalls (s : Store) (h : Host) (ps : List (Job × Listing)) : Prop where
  sound : s.Sound
  /-- Whatever was emitted is remembered. -/
  emitted_eq : s.emitted = s.cached.map (·.1.name)
  /-- The names in use are those that were answered. -/
  find?_eq_none_iff : ∀ n, ps.find? (·.1.isFor h n) = none ↔ n ∉ s.emitted
  /-- The first answer under a name is the one that is remembered, under the
      class that the job led to. -/
  mem_of_find? : ∀ n p, ps.find? (·.1.isFor h n) = some p →
    ∃ c, (p.1.described h).answer = .ok c ∧ c.name = n ∧ (c, p.2) ∈ s.cached

theorem recalls_empty (h : Host) : empty.Recalls h [] where
  sound := sound_empty
  emitted_eq := rfl
  find?_eq_none_iff n := by simp [empty]
  mem_of_find? n p hp := nomatch hp

/-- An answer counts as the first one under its own name, unless there was one,
    and under no other name. -/
theorem find?_append_answer {h : Host} {j : Job} {c : AccessorClass}
    (hc : (j.described h).answer = .ok c) (ps : List (Job × Listing)) (l : Listing)
    (n : BinaryName) :
    (ps ++ [(j, l)]).find? (·.1.isFor h n) =
      if c.name = n then (ps.find? (·.1.isFor h n)).or (some (j, l))
      else ps.find? (·.1.isFor h n) := by
  rw [List.find?_append]
  by_cases hn : c.name = n
  · -- The new entry is for this name, but an earlier one is found before it.
    have hfor : j.isFor h n = true := (Job.isFor_of_described hc n).mpr hn
    simp only [if_pos hn, List.find?_cons, hfor]
  · have hfor : j.isFor h n = false :=
      Bool.eq_false_iff.mpr fun hfor => hn ((Job.isFor_of_described hc n).mp hfor)
    simp only [if_neg hn, List.find?_cons, hfor, List.find?_nil, Option.or_none]

/-- A job under a free name is answered, and is the first under it. -/
theorem Recalls.remember {s : Store} {h : Host} {ps : List (Job × Listing)} (hs : s.Recalls h ps)
    {j : Job} {c : AccessorClass} (hc : (j.described h).answer = .ok c)
    (hfree : c.name ∉ s.emitted) :
    ((s.withName c.name).remember c c.listing).Recalls h (ps ++ [(j, c.listing)]) where
  sound := hs.sound.remember hfree
  emitted_eq := by
    simp only [emitted_remember, emitted_withName, cached_remember, cached_withName, hs.emitted_eq,
      List.map_append, List.map_cons, List.map_nil]
  find?_eq_none_iff n := by
    rw [find?_append_answer hc, emitted_remember, emitted_withName, List.mem_append,
      List.mem_singleton]
    by_cases hn : c.name = n
    · rw [if_pos hn, Option.or_eq_none_iff]
      simp [hn]
    · rw [if_neg hn, hs.find?_eq_none_iff]
      have hne : ¬ n = c.name := fun heq => hn heq.symm
      simp [hne]
  mem_of_find? n p hp := by
    rw [find?_append_answer hc] at hp
    -- Under the name that was free the new answer is the first. Under any other name nothing is
    -- new.
    by_cases hn : c.name = n
    · subst hn
      rw [if_pos rfl, (hs.find?_eq_none_iff c.name).mpr hfree, Option.none_or,
        Option.some.injEq] at hp
      subst hp
      exact ⟨c, hc, rfl, List.mem_append_right _ (List.mem_singleton_self _)⟩
    · rw [if_neg hn] at hp
      rcases hs.mem_of_find? n p hp with ⟨d, hd, hname, hmem⟩
      -- What was remembered before stays remembered, with the same answer.
      exact ⟨d, hd, hname, List.mem_append_left _ hmem⟩

/-- An answer under a name in use is not the first under it and is forgotten. -/
theorem Recalls.append_of_mem {s : Store} {h : Host} {ps : List (Job × Listing)}
    (hs : s.Recalls h ps) {j : Job} {c : AccessorClass} (hc : (j.described h).answer = .ok c)
    (hmem : c.name ∈ s.emitted) (l : Listing) : s.Recalls h (ps ++ [(j, l)]) := by
  have hsame : ∀ n, (ps ++ [(j, l)]).find? (·.1.isFor h n) = ps.find? (·.1.isFor h n) := by
    intro n
    rw [find?_append_answer hc]
    by_cases hn : c.name = n
    · -- The name was in use, so some job was answered under it first.
      cases hfind : ps.find? (·.1.isFor h n) with
      | none => exact absurd (hn ▸ hmem) ((hs.find?_eq_none_iff n).mp hfind)
      | some p => rw [if_pos hn, Option.some_or]
    · rw [if_neg hn]
  exact ⟨hs.sound, hs.emitted_eq, fun n => by rw [hsame]; exact hs.find?_eq_none_iff n,
    fun n p hp => hs.mem_of_find? n p (hsame n ▸ hp)⟩

/-- One job keeps a store in agreement with its history, whether the job is answered
    or fails. A failed job changes neither, and the answer of any other is put
    behind the history. -/
theorem Recalls.serve {s : Store} {h : Host} {ps : List (Job × Listing)} (hs : s.Recalls h ps)
    (j : Job) : (s.serve h j).state.Recalls h (ps ++ s.answered h j) := by
  cases hc : (j.described h).answer with
  | error e =>
      have hserve : s.serve h j = ⟨.error e, s, (j.described h).events⟩ :=
        s.obtain_of_error .listing hc
      rw [answered_of_error (by rw [hserve]), hserve, List.append_nil]
      exact hs
  | ok c =>
      -- An answer is taken from memory, emitted and remembered, or refused because the name is
      -- taken.
      rcases s.obtain_cases .listing hc with
        ⟨l, hlookup, hanswer, hstate⟩ | ⟨-, -, hfree, hanswer, hstate⟩ | ⟨-, -, hanswer, hstate⟩
      · rw [answered_of_ok hanswer, Store.serve, hstate]
        exact hs.append_of_mem hc (hs.sound.name_mem _ (mem_cached_of_lookup hlookup)) l
      · rw [answered_of_ok hanswer, Store.serve, hstate]
        exact hs.remember hc hfree
      · rw [answered_of_error hanswer, Store.serve, hstate, List.append_nil]
        exact hs

/-- A store agrees with its history after any run of jobs, since every one of them
    preserves that. -/
theorem Recalls.afterJobs {s : Store} {h : Host} {ps : List (Job × Listing)} (hs : s.Recalls h ps)
    (js : List Job) : (s.afterJobs h js).Recalls h (ps ++ s.served h js) := by
  induction js generalizing s ps with
  | nil =>
      rw [served, List.append_nil]
      exact hs
  | cons j js ih =>
      rw [served, ← List.append_assoc]
      exact ih (hs.serve j)

/-- The different names among those of answered jobs are the emitted ones. -/
theorem Recalls.length_emitted {s : Store} {h : Host} {ps : List (Job × Listing)}
    (hs : s.Recalls h ps) :
    s.emitted.length = (ps.filterMap fun p => p.1.name? h).toFinset.card := by
  rw [← List.toFinset_card_of_nodup hs.sound.nodup_emitted]
  congr 1
  ext n
  rw [List.mem_toFinset, List.mem_toFinset, List.mem_filterMap]
  -- A name is emitted when some answered job is for it.
  have hmem : n ∈ s.emitted ↔ ∃ p ∈ ps, p.1.isFor h n = true := by
    rw [← not_iff_not, ← hs.find?_eq_none_iff n, List.find?_eq_none]
    push Not
    rfl
  simp only [hmem, Job.name?_eq_some_iff]

/-- A job under a name in use gets the first answer under it, when it comes to the
    same bundle in the same version, and is refused otherwise. The class that the
    first answer was for is remembered, so all depends on whether the class of this
    job is that one, and `eq_iff_of_describe_bundle` says when it is. -/
theorem Recalls.serve_of_find? {s : Store} {h : Host} {ps : List (Job × Listing)}
    (hs : s.Recalls h ps) {j first : Job} {c : AccessorClass} {l : Listing}
    (hc : (j.described h).answer = .ok c)
    (hfirst : ps.find? (·.1.isFor h c.name) = some (first, l)) :
    (j.version = first.version ∧ j.requests.eraseDups = first.requests.eraseDups →
        (s.serve h j).answer = .ok l ∧ (s.serve h j).state = s) ∧
      (¬ (j.version = first.version ∧ j.requests.eraseDups = first.requests.eraseDups) →
        (s.serve h j).answer = .error (.nameTaken c.name)) := by
  rcases hs.mem_of_find? c.name (first, l) hfirst with ⟨d, hd, hname, hmem⟩
  -- Both classes have the name already, so that only requests and version remain to be compared.
  have hsame : c = d ↔ j.version = first.version ∧
      j.requests.eraseDups = first.requests.eraseDups := by
    rw [Host.eq_iff_of_describe_bundle hc hd]
    exact and_iff_right hname.symm
  constructor
  · intro hequal
    -- Equal classes are looked up alike, and the first one is remembered with its answer.
    have hlookup : s.lookup c = some l := by
      rw [hsame.mpr hequal]
      exact (hs.sound.lookup_eq_some_iff d l).mpr hmem
    rw [Store.serve, s.obtain_of_lookup_some .listing hc hlookup]
    exact ⟨rfl, rfl⟩
  · intro hdiffer
    rcases s.obtain_cases .listing hc with
      ⟨k, hlookup, -, -⟩ | ⟨-, -, hfree, -, -⟩ | ⟨-, -, hanswer, -⟩
    · -- A class that is found has the name, so it is the one that is remembered under it.
      have heq := hs.sound.eq_of_name_eq (mem_cached_of_lookup hlookup) hmem hname.symm
      exact absurd (hsame.mp (Prod.mk.inj heq).1) hdiffer
    · -- The name cannot be free, for the remembered class has it.
      exact absurd (hname ▸ hs.sound.name_mem _ hmem) hfree
    · exact hanswer

/-- What a job is answered, after any history of jobs beside one host. A name
    that is refused and a bundle that fails are answered with their failures.
    Any other job is answered by emitting its class, if no job was answered
    under its name before. If one was, the first such job decides: its answer
    is given again, and nothing is emitted, to a job that has its version and,
    repetitions left out, its requests, and every other job is refused. At any
    time as many classes are emitted, and as many remembered, as there are
    names under which a job was answered. -/
theorem reuse_is_structural (h : Host) (before : List Job) (j : Job) :
    let s := empty.afterJobs h before
    let earlier := empty.served h before
    (∀ e, h.checkName j.raw = .error e → (s.serve h j).answer = .error e) ∧
    (∀ e, (j.described h).answer = .error e → (s.serve h j).answer = .error e) ∧
    (∀ n c, h.checkName j.raw = .ok n → (j.described h).answer = .ok c →
      (earlier.find? (·.1.isFor h n) = none →
        (s.serve h j).answer = .ok ⟨n, c.listingText⟩ ∧
          (s.serve h j).state.emitted = s.emitted ++ [n]) ∧
      ∀ first l, earlier.find? (·.1.isFor h n) = some (first, l) →
        (j.version = first.version ∧ j.requests.eraseDups = first.requests.eraseDups →
          (s.serve h j).answer = .ok l ∧ (s.serve h j).state = s) ∧
        (¬ (j.version = first.version ∧ j.requests.eraseDups = first.requests.eraseDups) →
          (s.serve h j).answer = .error (.nameTaken n))) ∧
    s.emitted.length = (earlier.filterMap fun p => p.1.name? h).toFinset.card ∧
    s.cached.length = (earlier.filterMap fun p => p.1.name? h).toFinset.card := by
  intro s earlier
  have hs : s.Recalls h earlier := (recalls_empty h).afterJobs before
  have hfailed : ∀ e, (j.described h).answer = .error e → (s.serve h j).answer = .error e := by
    intro e he
    rw [serve, s.obtain_of_error .listing he]
  refine ⟨fun e he => hfailed e ?_, hfailed, fun n c hn hc => ?_, hs.length_emitted, ?_⟩
  · rw [Job.described, Host.describe_of_checkName_error he]
  · -- The class has the name that was read.
    rw [(Host.parts_of_describe_bundle hc).1, Except.ok.injEq] at hn
    subst hn
    refine ⟨fun hnone => ?_, fun first l hfirst => hs.serve_of_find? hc hfirst⟩
    -- No answered job was for the name, so it is not in use, and a class that is remembered would
    -- have used it.
    have hfree := (hs.find?_eq_none_iff c.name).mp hnone
    rcases s.obtain_cases .listing hc with
      ⟨l, hlookup, -, -⟩ | ⟨-, -, -, hanswer, hstate⟩ | ⟨-, htaken, -, -⟩
    · exact absurd (hs.sound.name_mem _ (mem_cached_of_lookup hlookup)) hfree
    · refine ⟨hanswer, ?_⟩
      rw [serve, hstate]
      rfl
    · exact absurd (htaken rfl) hfree
  · -- Each emitted class is remembered once.
    rw [← hs.length_emitted, hs.emitted_eq, List.length_map]

/-- A host beside which only trusted requests are answered. -/
def sparseHost : Host :=
  ⟨⟨"p.Sub"⟩, .empty ⟨"p.Sub"⟩, .standard⟩

/-- A request that is trusted. -/
def addRequest : Request :=
  ⟨⟨⟨"p.Sub"⟩, "add", [.prim .int], .prim .long, ∅⟩, .identity⟩

/-- Another one, for a static method of another class. -/
def getRequest : Request :=
  ⟨⟨⟨"p.Base"⟩, "get", [], .classRef ⟨"p.Item"⟩, .accStatic⟩, .identity⟩

/-- Two requests, one of them repeated. -/
def firstJob : Job :=
  ⟨[addRequest, getRequest, addRequest], "p.Aux", .standard⟩

/-- The first job, one under a name of another package, one that comes too late
    for its name, one without requests, and one that cannot be answered. -/
def repeatedJobs : List Job :=
  [firstJob, ⟨[addRequest], "q.Aux", .standard⟩, ⟨[getRequest], "p.Aux", .standard⟩,
    ⟨[], "p.Other", .standard⟩,
    ⟨[addRequest, ⟨getRequest.target, .signature⟩], "p.Lost", .standard⟩]

/-- After five jobs, of which two failed and one came too late, a sixth is answered
    from memory when it differs from the first in its repetitions only, and refused
    when it asks in another order. Names of failed jobs are still free. -/
theorem reuse_after_repeatedJobs :
    let s := empty.afterJobs sparseHost repeatedJobs
    (∃ l, (empty.served sparseHost repeatedJobs).find? (·.1.isFor sparseHost ⟨"p.Aux"⟩) =
        some (firstJob, l) ∧
      (s.serve sparseHost ⟨[addRequest, addRequest, getRequest], "p.Aux", .standard⟩).answer =
        .ok l) ∧
    (s.serve sparseHost ⟨[getRequest, addRequest], "p.Aux", .standard⟩).answer =
      .error (.nameTaken ⟨"p.Aux"⟩) ∧
    (s.serve sparseHost ⟨[getRequest], "p.Lost", .standard⟩).state.emitted =
      s.emitted ++ [⟨"p.Lost"⟩] ∧
    (s.serve sparseHost ⟨[], "no name", .standard⟩).answer =
      .error (.badName "no name" (.notAName (.notIdentifier "no name"))) ∧
    (s.serve sparseHost ⟨[⟨getRequest.target, .signature⟩], "p.Lost", .standard⟩).answer =
      .error (.unreachable getRequest.target ⟨"p.Sub"⟩) ∧
    s.emitted.length = 2 := by
  intro s
  -- That these bundles lead to classes is computed, while the classes are not written out.
  have described : ∀ j : Job, (j.described sparseHost).answer.isOk = true →
      ∃ c, (j.described sparseHost).answer = .ok c := by
    intro j hj
    cases hc : (j.described sparseHost).answer with
    | error e =>
        rw [hc] at hj
        cases hj
    | ok c => exact ⟨c, rfl⟩
  have hfirst : ((empty.served sparseHost repeatedJobs).find?
      (·.1.isFor sparseHost ⟨"p.Aux"⟩)).map (·.1) = some firstJob := by
    decide +kernel
  rcases Option.map_eq_some_iff.mp hfirst with ⟨⟨j, l⟩, hfind, rfl⟩
  refine ⟨⟨l, hfind, ?_⟩, ?_, ?_, ?_, ?_, ?_⟩
  · rcases described ⟨[addRequest, addRequest, getRequest], "p.Aux", .standard⟩
      (by decide +kernel) with ⟨c, hc⟩
    have hreuse := reuse_is_structural sparseHost repeatedJobs
      ⟨[addRequest, addRequest, getRequest], "p.Aux", .standard⟩
    exact (((hreuse.2.2.1 ⟨"p.Aux"⟩ c (by decide +kernel) hc).2 _ l hfind).1
      (by decide +kernel)).1
  · rcases described ⟨[getRequest, addRequest], "p.Aux", .standard⟩ (by decide +kernel) with
      ⟨c, hc⟩
    have hreuse := reuse_is_structural sparseHost repeatedJobs
      ⟨[getRequest, addRequest], "p.Aux", .standard⟩
    exact ((hreuse.2.2.1 ⟨"p.Aux"⟩ c (by decide +kernel) hc).2 _ l hfind).2 (by decide +kernel)
  · rcases described ⟨[getRequest], "p.Lost", .standard⟩ (by decide +kernel) with ⟨c, hc⟩
    have hreuse := reuse_is_structural sparseHost repeatedJobs ⟨[getRequest], "p.Lost", .standard⟩
    exact ((hreuse.2.2.1 ⟨"p.Lost"⟩ c (by decide +kernel) hc).1 (by decide +kernel)).2
  · exact (reuse_is_structural sparseHost repeatedJobs ⟨[], "no name", .standard⟩).1 _
      (by decide +kernel)
  · exact (reuse_is_structural sparseHost repeatedJobs
      ⟨[⟨getRequest.target, .signature⟩], "p.Lost", .standard⟩).2.1 _ (by decide +kernel)
  · rw [(reuse_is_structural sparseHost repeatedJobs firstJob).2.2.2.1]
    decide +kernel

end Store

end SyntheticAccess
