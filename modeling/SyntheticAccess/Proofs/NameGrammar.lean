import SyntheticAccess.Proofs.Names

/-!
# The Grammar of Names

What a text has to look like to be read as a name, and what is reported of a
text that does not.

Reading walks over the segments from the left and counts the bytes it has
passed, so its answer is a matter of what it met first. The grammar says nothing
of an order: a name is words with a dot between each two of them. For a text
that is no name the two views meet in `LeftmostBad`, which describes the place
where reading stops by the text before it. That text is all words, each with its
dot, and its length in bytes is the count. Nothing more is known of the part
after, which may hold further defects, or none.

Texts are taken apart at their dots and put together again in lists of segments,
and `segments_eq_cons` is the one step of that: a first segment is the whole
text, or a dot follows it and then the other segments.

## Main definitions

* `BinaryName.Spelled`: A text in the form of an identifier.
* `BinaryName.IsWord`: An identifier that the language does not keep for itself.
* `BinaryName.Dotted`: Words with dots between them.
* `BinaryName.LeftmostBad`: The first segment that is no word, and what is before it.

## Theorems

* `segments_eq_cons`: How the list of segments begins.
* `parse_eq_ok_iff`: The names that are read are words with dots between them.
* `firstDefect_eq_some_iff`: A defect is that of the first bad segment.
* `leftmostBad_iff`: The first bad segment, in the text and in the list.
* `parse_accepts_grammar`: Every answer of reading a name, and when it is given.
-/

namespace SyntheticAccess

namespace BinaryName

/-- A letter, an underscore or a dollar sign, and then any of these and digits. -/
def Spelled (s : String) : Prop :=
  ∃ c cs, s.toList = c :: cs ∧ (isAlphabetic c = true ∨ c = '_' ∨ c = '$') ∧
    ∀ d ∈ cs, isAlphabetic d = true ∨ isNumeric d = true ∨ d = '_' ∨ d = '$'

/-- What may stand between the dots of a name. -/
def IsWord (s : String) : Prop :=
  Spelled s ∧ s ∉ reservedWords

/-- One or more words with a dot between each two of them. -/
def Dotted (raw : String) : Prop :=
  ∃ ws ≠ [], raw = ".".intercalate ws ∧ ∀ w ∈ ws, IsWord w

/-- Each segment with the dot that follows it. -/
def passed (ws : List String) : String :=
  String.join (ws.map (· ++ "."))

/-- Among the segments of `raw`, `bad` is the leftmost that is no word, and
    `before` is the text that leads up to it. -/
structure LeftmostBad (raw before bad : String) : Prop where
  /-- Words come before it, and a dot comes after each. -/
  before_words : ∃ ws, before = passed ws ∧ ∀ w ∈ ws, IsWord w
  /-- The text ends with it, or a dot comes after it too. -/
  followed : raw = before ++ bad ∨ ∃ rest, raw = before ++ bad ++ "." ++ rest
  dotless : '.' ∉ bad.toList
  not_word : ¬ IsWord bad

/-! ### Words -/

theorem isIdentifierPart_eq_true_iff (c : Char) :
    isIdentifierPart c = true ↔
      isAlphabetic c = true ∨ isNumeric c = true ∨ c = '_' ∨ c = '$' := by
  simp only [isIdentifierPart, isIdentifierStart, Bool.or_eq_true, beq_iff_eq]
  tauto

/-- The test for identifiers is the grammar of a word, as far as its characters go. -/
theorem isIdentifier_iff_spelled (s : String) : isIdentifier s.toList = true ↔ Spelled s := by
  simp only [isIdentifier_iff, isIdentifierPart_eq_true_iff, isIdentifierStart, Bool.or_eq_true,
    beq_iff_eq, or_assoc, Spelled]

theorem Spelled.ne_empty {s : String} (h : Spelled s) : s ≠ "" := by
  rintro rfl
  rcases h with ⟨c, cs, hs, -⟩
  cases hs

/-- No dot is among the characters of identifiers. -/
theorem Spelled.dot_not_mem {s : String} (h : Spelled s) : '.' ∉ s.toList := by
  intro hdot
  have hpart := isIdentifierPart_of_mem ((isIdentifier_iff_spelled s).mpr h) hdot
  exact absurd hpart (by decide +kernel)

/-- The segments in which nothing is found wrong are the words. That a word is not
    empty follows from its first character. -/
theorem segmentDefect_eq_none_iff_isWord (position : Nat) (s : String) :
    segmentDefect position s = none ↔ IsWord s := by
  rw [segmentDefect_eq_none_iff, isIdentifier_iff_spelled]
  exact ⟨fun h => h.2, fun h => ⟨h.1.ne_empty, h⟩⟩

/-- A segment is looked at in three ways, and the first that finds fault with it
    gives the defect. -/
theorem segmentDefect_eq_some_iff (position : Nat) (s : String) (d : Defect) :
    segmentDefect position s = some d ↔
      (s = "" ∧ d = .gap position) ∨
      (s ≠ "" ∧ ¬ Spelled s ∧ d = .notIdentifier s) ∨
      (Spelled s ∧ s ∈ reservedWords ∧ d = .reserved s) := by
  rw [segmentDefect, ← isIdentifier_iff_spelled]
  by_cases hempty : s = ""
  · simp [hempty, isIdentifier, eq_comm]
  · by_cases hid : isIdentifier s.toList = true
    · by_cases hres : s ∈ reservedWords
      · simp [hempty, hid, hres, eq_comm]
      · simp [hempty, hid, hres]
    · simp [hempty, hid, eq_comm]

/-! ### Segments -/

theorem toList_append_dot (s t : String) :
    (s ++ "." ++ t).toList = s.toList ++ '.' :: t.toList := by
  rw [String.toList_append, String.toList_append, List.append_assoc]
  rfl

theorem eq_append_dot_of_toList_eq {raw : String} {cs ds : List Char}
    (h : raw.toList = cs ++ '.' :: ds) : raw = String.ofList cs ++ "." ++ String.ofList ds := by
  rw [← String.toList_inj, h, toList_append_dot, String.toList_ofList, String.toList_ofList]

theorem segments_of_not_mem {s : String} (h : '.' ∉ s.toList) : segments s = [s] := by
  rw [segments, List.splitOn_eq_singleton h, List.map_singleton, String.ofList_toList]

/-- A dot separates what is before it from what is after. -/
theorem segments_append (s t : String) :
    segments (s ++ "." ++ t) = segments s ++ segments t := by
  rw [segments, toList_append_dot, List.splitOn_append_cons_self, List.map_append, segments,
    segments]

theorem intercalate_segments (raw : String) : ".".intercalate (segments raw) = raw := by
  rw [← String.toList_inj, String.toList_intercalate, segments, List.map_map]
  have hid : String.toList ∘ String.ofList = id := by
    funext cs
    exact String.toList_ofList
  rw [hid, List.map_id]
  exact List.intercalate_splitOn '.'

theorem segments_ne_nil (raw : String) : segments raw ≠ [] := by
  rw [segments, Ne, List.map_eq_nil_iff]
  exact List.splitOn_ne_nil '.' raw.toList

/-- Taking apart undoes putting together when no dot is within the parts. There has
    to be a part, for the empty text has a segment too. -/
theorem segments_intercalate {ws : List String} (hne : ws ≠ [])
    (h : ∀ w ∈ ws, '.' ∉ w.toList) : segments (".".intercalate ws) = ws := by
  induction ws with
  | nil => exact absurd rfl hne
  | cons w ws ih =>
      have hw := segments_of_not_mem (h w List.mem_cons_self)
      -- A single part has no dot after it, so the step is for two parts or more.
      cases ws with
      | nil => rw [String.intercalate_singleton, hw]
      | cons v vs =>
          have hrest := ih (List.cons_ne_nil v vs) fun u hu => h u (List.mem_cons_of_mem w hu)
          rw [String.intercalate_cons_cons, segments_append, hw, hrest, List.singleton_append]

/-- The first segment has no dot. It is the whole text, or a dot follows it and
    after that dot the other segments. -/
theorem segments_eq_cons {raw w : String} {ws : List String} (h : segments raw = w :: ws) :
    '.' ∉ w.toList ∧
      (raw = w ∧ ws = [] ∨ ∃ rest, raw = w ++ "." ++ rest ∧ segments rest = ws) := by
  by_cases hdot : '.' ∈ raw.toList
  · -- The text is split at its first dot, and of that one is known that nothing before it is a
    -- dot.
    rcases List.eq_append_cons_of_mem hdot with ⟨cs, ds, hraw, hcs⟩
    have hshape := eq_append_dot_of_toList_eq hraw
    have hfirst : '.' ∉ (String.ofList cs).toList := by rwa [String.toList_ofList]
    rw [hshape, segments_append, segments_of_not_mem hfirst, List.singleton_append] at h
    injection h with hw hws
    exact ⟨hw ▸ hfirst, Or.inr ⟨String.ofList ds, hw ▸ hshape, hws⟩⟩
  · rw [segments_of_not_mem hdot] at h
    injection h with hw hws
    exact ⟨hw ▸ hdot, Or.inl ⟨hw, hws.symm⟩⟩

theorem passed_nil : passed [] = "" :=
  String.join_nil

theorem passed_cons (w : String) (ws : List String) :
    passed (w :: ws) = w ++ "." ++ passed ws := by
  rw [passed, List.map_cons, String.join_cons, passed]

/-- A segment that is passed adds its own bytes and that of the dot. -/
theorem add_utf8ByteSize_passed_cons (position : Nat) (w : String) (ws : List String) :
    position + (passed (w :: ws)).utf8ByteSize =
      position + w.utf8ByteSize + 1 + (passed ws).utf8ByteSize := by
  have hdot : ".".utf8ByteSize = 1 := rfl
  rw [passed_cons, String.utf8ByteSize_append, String.utf8ByteSize_append, hdot]
  omega

/-- Words with their dots in front of a text are so many segments in front of its
    own. -/
theorem segments_passed_append {ws : List String} (h : ∀ w ∈ ws, IsWord w) (t : String) :
    segments (passed ws ++ t) = ws ++ segments t := by
  induction ws with
  | nil => rw [passed_nil, String.empty_append, List.nil_append]
  | cons w ws ih =>
      have hw := segments_of_not_mem (h w List.mem_cons_self).1.dot_not_mem
      have hrest := ih fun v hv => h v (List.mem_cons_of_mem w hv)
      rw [passed_cons, String.append_assoc, segments_append, hw, hrest, List.singleton_append,
        List.cons_append]

/-- Segments in front can be taken off the text as well as off the list. -/
theorem eq_passed_append_of_segments {raw : String} {ws vs : List String} (hne : vs ≠ [])
    (h : segments raw = ws ++ vs) : ∃ rest, raw = passed ws ++ rest ∧ segments rest = vs := by
  induction ws generalizing raw with
  | nil =>
      refine ⟨raw, ?_, h⟩
      rw [passed_nil, String.empty_append]
  | cons w ws ih =>
      rcases segments_eq_cons h with ⟨-, ⟨-, hnil⟩ | ⟨t, hraw, ht⟩⟩
      · -- Some segment is left over, so the first cannot be all of the text.
        exact absurd (List.append_eq_nil_iff.mp hnil).2 hne
      · rcases ih ht with ⟨rest, hrest, hvs⟩
        refine ⟨rest, ?_, hvs⟩
        simp only [hraw, hrest, passed_cons, String.append_assoc]

/-! ### Reading -/

theorem firstDefect_cons_of_isWord {s : String} (h : IsWord s) (position : Nat)
    (ss : List String) :
    firstDefect position (s :: ss) = firstDefect (position + s.utf8ByteSize + 1) ss := by
  rw [firstDefect, (segmentDefect_eq_none_iff_isWord position s).mpr h, Option.none_or]

/-- Nothing is looked at after the first segment that is no word. -/
theorem firstDefect_cons_of_not_isWord {s : String} (h : ¬ IsWord s) (position : Nat)
    (ss : List String) : firstDefect position (s :: ss) = segmentDefect position s := by
  rw [firstDefect]
  cases hs : segmentDefect position s with
  | some d => rfl
  | none => exact absurd ((segmentDefect_eq_none_iff_isWord position s).mp hs) h

/-- The defect of a list is that of its first bad member, at the byte where the
    members before it and their dots have led. -/
theorem firstDefect_eq_some_iff (position : Nat) (ss : List String) (d : Defect) :
    firstDefect position ss = some d ↔
      ∃ good bad rest, ss = good ++ bad :: rest ∧ (∀ w ∈ good, IsWord w) ∧ ¬ IsWord bad ∧
        segmentDefect (position + (passed good).utf8ByteSize) bad = some d := by
  -- The induction follows the walk. At a word the walk goes on, with the word and its dot added to
  -- the position, and at anything else it ends.
  induction ss generalizing position with
  | nil => simp [firstDefect]
  | cons s ss ih =>
      by_cases hword : IsWord s
      · rw [firstDefect_cons_of_isWord hword, ih]
        constructor
        · rintro ⟨good, bad, rest, rfl, hgood, hbad, hd⟩
          refine ⟨s :: good, bad, rest, rfl, List.forall_mem_cons.mpr ⟨hword, hgood⟩, hbad, ?_⟩
          rwa [add_utf8ByteSize_passed_cons]
        · rintro ⟨good, bad, rest, hss, hgood, hbad, hd⟩
          -- The list begins with a word, so the bad member is not its first.
          cases good with
          | nil =>
              injection hss with hfirst
              exact absurd (hfirst ▸ hword) hbad
          | cons w ws =>
              injection hss with hfirst hss
              rw [← hfirst, add_utf8ByteSize_passed_cons] at hd
              exact ⟨ws, bad, rest, hss, (List.forall_mem_cons.mp hgood).2, hbad, hd⟩
      · rw [firstDefect_cons_of_not_isWord hword]
        constructor
        · intro hd
          exact ⟨[], s, ss, rfl, List.forall_mem_nil _, hword, hd⟩
        · rintro ⟨good, bad, rest, hss, hgood, -, hd⟩
          -- The first member is bad, so no word comes before a bad one.
          cases good with
          | nil =>
              injection hss with hfirst
              rwa [← hfirst] at hd
          | cons w ws =>
              injection hss with hfirst
              exact absurd (hgood s (hfirst ▸ List.mem_cons_self)) hword

/-- The text before the first bad segment is made of the segments before it. -/
theorem leftmostBad_iff (raw before bad : String) :
    LeftmostBad raw before bad ↔
      ∃ good rest, segments raw = good ++ bad :: rest ∧ (∀ w ∈ good, IsWord w) ∧
        before = passed good ∧ ¬ IsWord bad := by
  constructor
  · rintro ⟨⟨ws, rfl, hws⟩, hraw | ⟨rest, hraw⟩, hdot, hbad⟩
    · -- The bad segment ends the text, and no segment follows.
      refine ⟨ws, [], ?_, hws, rfl, hbad⟩
      rw [hraw, segments_passed_append hws, segments_of_not_mem hdot]
    · refine ⟨ws, segments rest, ?_, hws, rfl, hbad⟩
      have hshape : raw = passed ws ++ (bad ++ "." ++ rest) := by
        simp only [hraw, String.append_assoc]
      rw [hshape, segments_passed_append hws, segments_append, segments_of_not_mem hdot,
        List.singleton_append]
  · rintro ⟨good, rest, hraw, hgood, rfl, hbad⟩
    -- The words before the bad segment are taken off the text, and then the bad segment itself.
    rcases eq_passed_append_of_segments (List.cons_ne_nil bad rest) hraw with ⟨t, rfl, ht⟩
    rcases segments_eq_cons ht with ⟨hdot, ⟨rfl, -⟩ | ⟨u, rfl, -⟩⟩
    · exact ⟨⟨good, rfl, hgood⟩, Or.inl rfl, hdot, hbad⟩
    · refine ⟨⟨good, rfl, hgood⟩, Or.inr ⟨u, ?_⟩, hdot, hbad⟩
      simp only [String.append_assoc]

/-- The defect found in a text is that of its leftmost bad segment. -/
theorem firstDefect_segments_iff (raw : String) (d : Defect) :
    firstDefect 0 (segments raw) = some d ↔
      ∃ before bad, LeftmostBad raw before bad ∧
        segmentDefect before.utf8ByteSize bad = some d := by
  simp only [firstDefect_eq_some_iff, leftmostBad_iff, Nat.zero_add]
  constructor
  · rintro ⟨good, bad, rest, hraw, hgood, hbad, hd⟩
    exact ⟨passed good, bad, ⟨good, rest, hraw, hgood, rfl, hbad⟩, hd⟩
  · rintro ⟨before, bad, ⟨good, rest, hraw, hgood, rfl, hbad⟩, hd⟩
    exact ⟨good, bad, rest, hraw, hgood, hbad, hd⟩

/-- A text is put together from its segments with dots, and from no other words. -/
theorem dotted_iff_forall_segments (raw : String) : Dotted raw ↔ ∀ s ∈ segments raw, IsWord s := by
  constructor
  · rintro ⟨ws, hne, rfl, hws⟩
    rwa [segments_intercalate hne fun w hw => (hws w hw).1.dot_not_mem]
  · intro h
    exact ⟨segments raw, segments_ne_nil raw, (intercalate_segments raw).symm, h⟩

theorem firstDefect_eq_none_iff_dotted (raw : String) :
    firstDefect 0 (segments raw) = none ↔ Dotted raw := by
  simp only [dotted_iff_forall_segments, firstDefect_eq_none_iff, ← segmentDefect_eq_none_iff 0,
    segmentDefect_eq_none_iff_isWord]

/-- A text is read as itself or not at all, and it is read when it has the form
    of a name. -/
theorem parse_eq_ok_iff (raw : String) (n : BinaryName) :
    parse raw = .ok n ↔ n.text = raw ∧ Dotted raw := by
  constructor
  · intro h
    have htext : n.text = raw := parse_eq_ok h
    have hgood := (wellFormed_of_parse h).firstDefect_eq_none
    rw [htext] at hgood
    exact ⟨htext, (firstDefect_eq_none_iff_dotted raw).mp hgood⟩
  · rintro ⟨rfl, hdotted⟩
    have hgood := (firstDefect_eq_none_iff_dotted n.text).mpr hdotted
    -- Neither of the earlier refusals applies to words with dots between them.
    have hempty : n.text ≠ "" := by
      intro h
      rw [h] at hgood
      cases hgood
    have hslash : '/' ∉ n.text.toList := fun h =>
      absurd (isPart_of_firstDefect_eq_none hgood h) (by decide +kernel)
    rw [parse, if_neg hempty, if_neg hslash, hgood]

/-- Why a text is refused, in the order in which it is looked at: it is empty, it
    has a slash anywhere, or its leftmost bad segment has a defect. -/
theorem parse_eq_error_iff (raw : String) (d : Defect) :
    parse raw = .error d ↔
      (raw = "" ∧ d = .empty) ∨
      (raw ≠ "" ∧ '/' ∈ raw.toList ∧ d = .slashed) ∨
      (raw ≠ "" ∧ '/' ∉ raw.toList ∧ ∃ before bad, LeftmostBad raw before bad ∧
        segmentDefect before.utf8ByteSize bad = some d) := by
  rw [← firstDefect_segments_iff, parse]
  -- Each test of the reader is one case, and the later causes are of use only where the earlier
  -- tests are passed.
  by_cases hempty : raw = ""
  · simp [hempty, eq_comm]
  · by_cases hslash : '/' ∈ raw.toList
    · simp [hempty, hslash, eq_comm]
    · cases hfirst : firstDefect 0 (segments raw) <;> simp [hempty, hslash]

/-- A text is read as the name with that text when it is words with dots between
    them, and every other text gets the one defect that comes first: being
    empty, then a slash wherever it is, then what is wrong with the leftmost
    segment that is no word. A gap there is given by the bytes before it. -/
theorem parse_accepts_grammar (raw : String) :
    (∀ n, parse raw = .ok n ↔ n.text = raw ∧ Dotted raw) ∧
    (parse raw = .error .empty ↔ raw = "") ∧
    (parse raw = .error .slashed ↔ '/' ∈ raw.toList) ∧
    (∀ p, parse raw = .error (.gap p) ↔
      raw ≠ "" ∧ '/' ∉ raw.toList ∧
        ∃ before, LeftmostBad raw before "" ∧ p = before.utf8ByteSize) ∧
    (∀ s, parse raw = .error (.notIdentifier s) ↔
      raw ≠ "" ∧ '/' ∉ raw.toList ∧
        ∃ before, LeftmostBad raw before s ∧ s ≠ "" ∧ ¬ Spelled s) ∧
    (∀ s, parse raw = .error (.reserved s) ↔
      raw ≠ "" ∧ '/' ∉ raw.toList ∧
        ∃ before, LeftmostBad raw before s ∧ Spelled s ∧ s ∈ reservedWords) := by
  -- Every cause has a defect of its own, so of the causes one remains each time.
  refine ⟨parse_eq_ok_iff raw, ?_, ?_, fun p => ?_, fun s => ?_, fun s => ?_⟩
  · simp [parse_eq_error_iff, segmentDefect_eq_some_iff]
  · have hempty : '/' ∈ raw.toList → raw ≠ "" := by
      rintro h rfl
      cases h
    simpa [parse_eq_error_iff, segmentDefect_eq_some_iff] using hempty
  · simp [parse_eq_error_iff, segmentDefect_eq_some_iff]
  · simp [parse_eq_error_iff, segmentDefect_eq_some_iff]
  · simp [parse_eq_error_iff, segmentDefect_eq_some_iff]

-- Two bytes lead up to the first gap, and three to the second.
example : parse "a..class" = .error (.gap 2) ∧ parse "é..class" = .error (.gap 3) := by
  decide +kernel

end BinaryName

end SyntheticAccess
