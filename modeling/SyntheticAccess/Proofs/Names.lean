import Mathlib.Data.List.Basic
import SyntheticAccess.BinaryName

/-!
# Well-Formed Names

What is known of a name because it was read. A `BinaryName` may hold any text,
and the readers of stored documents make use of that, so everything that
depends on the text of a name being checked has to ask for it. `WellFormed` is
how it asks: reading the text gives the name back.

What later proofs need of a name is which characters it can hold. Signatures
and descriptors are written without escapes, and they can be taken apart again
only because the characters that structure them never occur in a name.
`isPart_of_mem_text` says which characters do occur, and the punctuation of
descriptors is not among them.

The internal form of a name replaces dots by slashes. No name has a slash of
its own, so the dots can be put back, which makes the internal form as good as
the name itself.

## Main definitions

* `BinaryName.WellFormed`: Reading the text of the name gives the name back.
* `BinaryName.isPart`: The characters of names.
* `BinaryName.ofInternal`: The name with the given internal form.

## Theorems

* `wellFormed_of_parse`: What was read is well formed.
* `firstDefect_eq_none_iff`: A text without defects has good segments only.
* `isPart_of_mem_text`: Names consist of dots and identifier characters.
* `isPart_of_mem_internalName`: Internal forms of slashes and such characters.
* `ofInternal_internalName`: The dots can be put back.
-/

namespace SyntheticAccess

namespace BinaryName

/-- Reading the text of the name gives the name back. -/
def WellFormed (n : BinaryName) : Prop :=
  parse n.text = .ok n

instance (n : BinaryName) : Decidable n.WellFormed :=
  inferInstanceAs (Decidable (parse n.text = .ok n))

/-- Well-formed names are exactly those that some text is read as. -/
theorem wellFormed_of_parse {raw : String} {n : BinaryName} (h : parse raw = .ok n) :
    n.WellFormed := by
  rw [WellFormed, parse_eq_ok h]
  exact h

/-- A segment passes when it is not empty, is an identifier and is not kept by the
    language. The position only goes into the defect. -/
theorem segmentDefect_eq_none_iff (position : Nat) (segment : String) :
    segmentDefect position segment = none ↔
      segment ≠ "" ∧ isIdentifier segment.toList = true ∧ segment ∉ reservedWords := by
  rw [segmentDefect]
  by_cases hempty : segment = ""
  · simp [hempty]
  · by_cases hid : isIdentifier segment.toList = true
    · by_cases hres : segment ∈ reservedWords
      · simp [hempty, hid, hres]
      · simp [hempty, hid, hres]
    · simp [hempty, hid]

/-- Where the segments start decides which defect is found, but not whether
    there is one. -/
theorem firstDefect_eq_none_iff (position : Nat) (ss : List String) :
    firstDefect position ss = none ↔
      ∀ s ∈ ss, s ≠ "" ∧ isIdentifier s.toList = true ∧ s ∉ reservedWords := by
  -- The position moves on from segment to segment, so the induction is for any position.
  induction ss generalizing position with
  | nil => simp [firstDefect]
  | cons s ss ih =>
      rw [firstDefect, Option.or_eq_none_iff, segmentDefect_eq_none_iff, ih, List.forall_mem_cons]

/-- What stands between two separators, together with the separator, is all
    there is. -/
theorem eq_or_mem_splitOn {a c : Char} {cs : List Char} (h : c ∈ cs) :
    c = a ∨ ∃ s ∈ cs.splitOn a, c ∈ s := by
  have hjoin : [a].intercalate (cs.splitOn a) = cs := List.intercalate_splitOn a
  -- The induction is on the parts and needs to know of them only how they are joined.
  rw [← hjoin] at h
  generalize cs.splitOn a = ss at h
  induction ss with
  | nil => simp at h
  | cons s ss ih =>
      cases ss with
      | nil => exact Or.inr ⟨s, List.mem_cons_self, by simpa using h⟩
      | cons t ts =>
          rw [List.intercalate_cons_cons] at h
          rcases List.mem_append.mp h with h | h
          · rcases List.mem_append.mp h with h | h
            · exact Or.inr ⟨s, List.mem_cons_self, h⟩
            · exact Or.inl (List.mem_singleton.mp h)
          · rcases ih h with h | ⟨u, hu, hc⟩
            · exact Or.inl h
            · exact Or.inr ⟨u, List.mem_cons_of_mem _ hu, hc⟩

/-- The characters that the text of a name may hold. -/
def isPart (c : Char) : Bool :=
  c == '.' || isIdentifierPart c

theorem isIdentifierPart_of_mem {cs : List Char} (h : isIdentifier cs = true) {c : Char}
    (hc : c ∈ cs) : isIdentifierPart c = true := by
  rcases (isIdentifier_iff cs).mp h with ⟨d, ds, rfl, hd, hds⟩
  rcases List.mem_cons.mp hc with rfl | hc
  · exact isIdentifierPart_of_isIdentifierStart hd
  · exact hds c hc

theorem WellFormed.firstDefect_eq_none {n : BinaryName} (h : n.WellFormed) :
    firstDefect 0 (segments n.text) = none := by
  -- Reading refuses an empty text, then a slash, then a defective segment.
  rw [WellFormed, parse] at h
  split at h
  · cases h
  · split at h
    · cases h
    · split at h
      · cases h
      · assumption

/-- A character of a text without defects is one of the dots it was taken apart at,
    or it is in a segment and so in an identifier. -/
theorem isPart_of_firstDefect_eq_none {raw : String}
    (h : firstDefect 0 (segments raw) = none) {c : Char} (hc : c ∈ raw.toList) :
    isPart c = true := by
  rcases eq_or_mem_splitOn (a := '.') hc with rfl | ⟨s, hs, hcs⟩
  · rfl
  · have hgood := (firstDefect_eq_none_iff 0 _).mp h (String.ofList s) (List.mem_map_of_mem hs)
    have hid : isIdentifier s = true := by simpa using hgood.2.1
    rw [isPart, isIdentifierPart_of_mem hid hcs, Bool.or_true]

/-- Names are made of dots and the characters of identifiers. What else signatures
    and descriptors are written with is in no name. -/
theorem WellFormed.isPart_of_mem_text {n : BinaryName} (h : n.WellFormed) {c : Char}
    (hc : c ∈ n.text.toList) : isPart c = true :=
  isPart_of_firstDefect_eq_none h.firstDefect_eq_none hc

theorem toList_internalName (n : BinaryName) :
    n.internalName.toList = n.text.toList.map fun c => if c = '.' then '/' else c :=
  String.toList_map

theorem WellFormed.isPart_of_mem_internalName {n : BinaryName} (h : n.WellFormed) {c : Char}
    (hc : c ∈ n.internalName.toList) : c = '/' ∨ isPart c = true := by
  rw [toList_internalName] at hc
  rcases List.mem_map.mp hc with ⟨d, hd, rfl⟩
  by_cases hdot : d = '.'
  · exact Or.inl (if_pos hdot)
  · rw [if_neg hdot]
    exact Or.inr (h.isPart_of_mem_text hd)

/-- The name that has the given internal form. -/
def ofInternal (cs : List Char) : BinaryName :=
  ⟨String.ofList (cs.map fun c => if c = '/' then '.' else c)⟩

/-- Names have no slash of their own, so every slash of the internal form
    stands for a dot. -/
theorem WellFormed.ofInternal_internalName {n : BinaryName} (h : n.WellFormed) :
    ofInternal n.internalName.toList = n := by
  -- Both forms have the same length, and it is enough to go there and back with one character.
  have hback : n.text.toList.map
      ((fun c => if c = '/' then '.' else c) ∘ fun c => if c = '.' then '/' else c) =
        n.text.toList.map id := by
    refine List.map_congr_left fun c hc => ?_
    by_cases hdot : c = '.'
    · rw [hdot]
      rfl
    · -- Any other character is left alone both ways, unless it was a slash before.
      have hslash : c ≠ '/' := by
        rintro rfl
        exact absurd (h.isPart_of_mem_text hc) (by decide)
      simp only [Function.comp_apply, if_neg hdot, if_neg hslash, id_eq]
  rw [ofInternal, toList_internalName, List.map_map, hback, List.map_id, String.ofList_toList]

end BinaryName

end SyntheticAccess
