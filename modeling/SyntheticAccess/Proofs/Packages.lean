import Mathlib.Data.List.TakeWhile
import SyntheticAccess.Host
import SyntheticAccess.Proofs.NameGrammar

/-!
# Packages and Simple Names

A name is read by its segments but taken apart at its last dot only, and neither
of the two parts is read again. That the parts are names all the same, and that
comparing the texts before the last dots compares segment by segment, is what
has to be shown of the two ways to look at a text.

`eq_package_append` is the link. Of a text with dots it says that the last dot
is where the package ends and that no dot comes later, and the segments of such
a text are those of the package and one more. A text without dots has no package,
and an empty package would be a text with a dot in front, which is not a name, so
an empty text before the last dot always means that there is no such dot.

A class that is generated beside another is accepted by its package alone, so
what is known of packages is known of the names a host accepts.

## Theorems

* `eq_package_append`: A text is put together again from the sides of its last dot.
* `segments_eq_concat`: The simple name is the last segment.
* `WellFormed.dropLast_segments`: The others are the segments of the package.
* `WellFormed.package_eq_iff`: Equal packages are equal lists of segments.
* `WellFormed.exists_parse_internalName_iff`: Internal forms that are names.
* `packages_follow_segments`: Parts of names, packages and accepted names.
-/

namespace SyntheticAccess

namespace BinaryName

/-! ### The last dot -/

theorem ne_dot_of_mem_reverse {cs : List Char} (h : '.' ∉ cs) :
    ∀ c ∈ cs.reverse, (c != '.') = true := by
  intro c hc
  exact bne_iff_ne.mpr fun hdot => h (hdot ▸ List.mem_reverse.mp hc)

theorem sides_of_not_mem {n : BinaryName} (h : '.' ∉ n.text.toList) :
    n.package = "" ∧ n.simpleName = n.text := by
  have hall := ne_dot_of_mem_reverse h
  constructor
  · rw [package, List.dropWhile_eq_nil_iff.mpr hall]
    rfl
  · rw [simpleName, List.takeWhile_eq_self_iff.mpr hall, List.reverse_reverse,
      String.ofList_toList]

/-- Where the last dot is known, so are the two sides. -/
theorem sides_of_text_eq {n : BinaryName} {front last : String}
    (hn : n.text = front ++ "." ++ last) (h : '.' ∉ last.toList) :
    n.package = front ∧ n.simpleName = last := by
  have hall := ne_dot_of_mem_reverse h
  have hshape : n.text.toList.reverse = last.toList.reverse ++ '.' :: front.toList.reverse := by
    rw [hn, toList_append_dot, List.reverse_append, List.reverse_cons, List.append_assoc,
      List.singleton_append]
  constructor
  · rw [package, hshape, List.dropWhile_append_of_pos hall]
    simp
  · rw [simpleName, hshape, List.takeWhile_append_of_pos hall]
    simp

/-- A text with a dot consists of the two sides of its last dot. -/
theorem eq_package_append {n : BinaryName} (h : '.' ∈ n.text.toList) :
    n.text = n.package ++ "." ++ n.simpleName ∧ '.' ∉ n.simpleName.toList := by
  -- The last dot is the first from the other end.
  rcases List.eq_append_cons_of_mem (List.mem_reverse.mpr h) with ⟨cs, ds, hreversed, hcs⟩
  have htext : n.text.toList = ds.reverse ++ '.' :: cs.reverse := by
    rw [← List.reverse_inj, hreversed]
    simp
  have hn := eq_append_dot_of_toList_eq htext
  have hlast : '.' ∉ (String.ofList cs.reverse).toList := by
    rwa [String.toList_ofList, List.mem_reverse]
  rcases sides_of_text_eq hn hlast with ⟨hpackage, hsimple⟩
  rw [hpackage, hsimple]
  exact ⟨hn, hlast⟩

/-- The last dot of a text is also the last place where it is taken apart. -/
theorem segments_of_mem {n : BinaryName} (h : '.' ∈ n.text.toList) :
    segments n.text = segments n.package ++ [n.simpleName] := by
  rcases eq_package_append h with ⟨hn, hlast⟩
  conv_lhs => rw [hn]
  rw [segments_append, segments_of_not_mem hlast]

/-- Dots or not, the last segment is the simple name. -/
theorem segments_eq_concat (n : BinaryName) :
    segments n.text = (segments n.text).dropLast ++ [n.simpleName] := by
  by_cases hdot : '.' ∈ n.text.toList
  · rw [segments_of_mem hdot, List.dropLast_concat]
  · rw [segments_of_not_mem hdot, (sides_of_not_mem hdot).2]
    rfl

/-! ### The two sides of a name -/

theorem WellFormed.isWord_of_mem_segments {n : BinaryName} (h : n.WellFormed) {s : String}
    (hs : s ∈ segments n.text) : IsWord s := by
  have hdotted := ((parse_eq_ok_iff n.text n).mp h).2
  exact (dotted_iff_forall_segments n.text).mp hdotted s hs

/-- A dot in front is no part of a name, so only a name without dots has nothing
    before its last dot. -/
theorem WellFormed.package_eq_empty_iff {n : BinaryName} (h : n.WellFormed) :
    n.package = "" ↔ '.' ∉ n.text.toList := by
  constructor
  · intro hpackage hdot
    -- With a dot in it the name would have an empty first segment, which is no word.
    have hmem : "" ∈ segments n.text := by
      rw [segments_of_mem hdot, hpackage]
      exact List.mem_append_left _ (List.mem_singleton_self "")
    exact (h.isWord_of_mem_segments hmem).1.ne_empty rfl
  · exact fun hdot => (sides_of_not_mem hdot).1

theorem WellFormed.dot_mem_of_package_ne_empty {n : BinaryName} (h : n.WellFormed)
    (hne : n.package ≠ "") : '.' ∈ n.text.toList := by
  by_contra hdot
  exact hne (h.package_eq_empty_iff.mpr hdot)

theorem WellFormed.isWord_simpleName {n : BinaryName} (h : n.WellFormed) :
    IsWord n.simpleName := by
  refine h.isWord_of_mem_segments ?_
  rw [segments_eq_concat]
  exact List.mem_append_right _ (List.mem_singleton_self _)

/-- The simple name is a single word, and so a name on its own. -/
theorem WellFormed.parse_simpleName {n : BinaryName} (h : n.WellFormed) :
    parse n.simpleName = .ok ⟨n.simpleName⟩ := by
  refine (parse_eq_ok_iff _ _).mpr ⟨rfl, (dotted_iff_forall_segments _).mpr ?_⟩
  rw [segments_of_not_mem h.isWord_simpleName.1.dot_not_mem]
  exact List.forall_mem_singleton.mpr h.isWord_simpleName

/-- The words of a package are words of the name. -/
theorem WellFormed.parse_package {n : BinaryName} (h : n.WellFormed) (hne : n.package ≠ "") :
    parse n.package = .ok ⟨n.package⟩ := by
  have hdot := h.dot_mem_of_package_ne_empty hne
  refine (parse_eq_ok_iff _ _).mpr ⟨rfl, (dotted_iff_forall_segments _).mpr fun s hs => ?_⟩
  refine h.isWord_of_mem_segments ?_
  rw [segments_of_mem hdot]
  exact List.mem_append_left _ hs

/-- The segments before the last are those of the package, and there are none
    without a package. The case is needed because an empty text has a segment as
    well. -/
theorem WellFormed.dropLast_segments {n : BinaryName} (h : n.WellFormed) :
    (segments n.text).dropLast = if n.package = "" then [] else segments n.package := by
  by_cases hdot : '.' ∈ n.text.toList
  · rw [if_neg fun hpackage => h.package_eq_empty_iff.mp hpackage hdot, segments_of_mem hdot,
      List.dropLast_concat]
  · rw [if_pos (h.package_eq_empty_iff.mpr hdot), segments_of_not_mem hdot]
    rfl

/-- The package is a text, and it is compared as one, but it stands for a list of
    segments. -/
theorem WellFormed.package_eq_iff {a b : BinaryName} (ha : a.WellFormed) (hb : b.WellFormed) :
    a.package = b.package ↔ (segments a.text).dropLast = (segments b.text).dropLast := by
  constructor
  · intro h
    rw [ha.dropLast_segments, hb.dropLast_segments, h]
  · intro h
    rw [ha.dropLast_segments, hb.dropLast_segments] at h
    -- A text always has a segment, so the list is empty only without a package.
    by_cases hea : a.package = ""
    · by_cases heb : b.package = ""
      · rw [hea, heb]
      · rw [if_pos hea, if_neg heb] at h
        exact absurd h.symm (segments_ne_nil b.package)
    · by_cases heb : b.package = ""
      · rw [if_neg hea, if_pos heb] at h
        exact absurd h (segments_ne_nil a.package)
      · rw [if_neg hea, if_neg heb] at h
        rw [← intercalate_segments a.package, h, intercalate_segments]

/-! ### Internal forms -/

theorem WellFormed.map_internalName {n : BinaryName} (h : n.WellFormed) :
    n.internalName.map (fun c => if c = '/' then '.' else c) = n.text := by
  rw [← String.toList_inj, String.toList_map, ← String.toList_ofList
    (l := n.internalName.toList.map fun c => if c = '/' then '.' else c)]
  exact congrArg (fun m : BinaryName => m.text.toList) h.ofInternal_internalName

/-- Every dot becomes a slash, and a name with a slash is refused. -/
theorem WellFormed.exists_parse_internalName_iff {n : BinaryName} (h : n.WellFormed) :
    (∃ m, parse n.internalName = .ok m) ↔ n.package = "" := by
  rw [h.package_eq_empty_iff]
  constructor
  · rintro ⟨m, hm⟩ hdot
    -- The dot has become a slash, and a name that was read has no slash.
    have hslash : '/' ∈ n.internalName.toList := by
      rw [toList_internalName]
      exact List.mem_map.mpr ⟨'.', hdot, rfl⟩
    have hm' := wellFormed_of_parse hm
    rw [← parse_eq_ok hm] at hslash
    exact absurd (hm'.isPart_of_mem_text hslash) (by decide +kernel)
  · intro hdot
    refine ⟨n, ?_⟩
    -- There is no dot to replace, so the internal form is the text itself.
    have hself : n.internalName = n.text := by
      rw [← String.toList_inj, toList_internalName]
      refine (List.map_congr_left fun c hc => ?_).trans (List.map_id _)
      exact if_neg fun hc' => hdot (by rwa [hc'] at hc)
    rw [hself]
    exact h

end BinaryName

namespace Host

open BinaryName

variable {h : Host} {raw : String}

theorem checkName_of_parse_error {d : Defect} (hraw : parse raw = .error d) :
    h.checkName raw = .error (.badName raw (.notAName d)) := by
  rw [checkName, hraw]

/-- Of a text that is a name the host looks at all segments but the last. -/
theorem checkName_of_parse_ok (hname : h.name.WellFormed) {n : BinaryName}
    (hraw : parse raw = .ok n) :
    h.checkName raw =
      if (segments raw).dropLast = (segments h.name.text).dropLast then .ok n
      else .error (.badName raw (.otherPackage h.name.package n.package)) := by
  have hshare : n.sharesPackage h.name = true ↔
      (segments raw).dropLast = (segments h.name.text).dropLast := by
    rw [sharesPackage, beq_iff_eq, (wellFormed_of_parse hraw).package_eq_iff hname,
      parse_eq_ok hraw]
  rw [checkName, hraw]
  by_cases heq : (segments raw).dropLast = (segments h.name.text).dropLast
  · rw [if_pos heq]
    exact if_pos (hshare.mpr heq)
  · rw [if_neg heq]
    exact if_neg (mt hshare.mp heq)

/-- What a host accepts are the names in its own package, under the text they were
    given by. -/
theorem checkName_eq_ok_iff (hname : h.name.WellFormed) (m : BinaryName) :
    h.checkName raw = .ok m ↔
      m.text = raw ∧ (∃ n, parse raw = .ok n) ∧
        (segments raw).dropLast = (segments h.name.text).dropLast := by
  cases hraw : parse raw with
  | error d => simp [checkName_of_parse_error hraw]
  | ok n =>
      have htext : n.text = raw := parse_eq_ok hraw
      rw [checkName_of_parse_ok hname hraw]
      by_cases heq : (segments raw).dropLast = (segments h.name.text).dropLast
      · rw [if_pos heq]
        constructor
        · rintro ⟨⟩
          exact ⟨htext, ⟨m, rfl⟩, heq⟩
        · rintro ⟨hm, -, -⟩
          -- The name that was read has the same text, and nothing but its text.
          exact congrArg Except.ok (congrArg BinaryName.mk (htext.trans hm.symm))
      · simp [heq]

end Host

open BinaryName in
/-- The two sides of the last dot of a name are names, and put together they are
    the name. Packages agree when all segments but the last do, and that is all a
    host asks of a name; otherwise it tells the defect of a text that is no name,
    or the two packages of names that are in different ones. -/
theorem packages_follow_segments :
    (∀ n : BinaryName, n.WellFormed →
      (n.package = "" → n.simpleName = n.text) ∧
      (n.package ≠ "" → n.text = n.package ++ "." ++ n.simpleName) ∧
      '.' ∉ n.simpleName.toList ∧
      parse n.simpleName = .ok ⟨n.simpleName⟩ ∧
      (n.package = "" ∨ parse n.package = .ok ⟨n.package⟩) ∧
      n.internalName.map (fun c => if c = '/' then '.' else c) = n.text ∧
      ((∃ m, parse n.internalName = .ok m) ↔ n.package = "")) ∧
    (∀ a b : BinaryName, a.WellFormed → b.WellFormed →
      (a.sharesPackage b = true ↔
        (segments a.text).dropLast = (segments b.text).dropLast)) ∧
    (∀ h : Host, h.name.WellFormed → ∀ raw,
      (∀ m, h.checkName raw = .ok m ↔
        m.text = raw ∧ (∃ n, parse raw = .ok n) ∧
          (segments raw).dropLast = (segments h.name.text).dropLast) ∧
      (∀ d, parse raw = .error d →
        h.checkName raw = .error (.badName raw (.notAName d))) ∧
      (∀ n, parse raw = .ok n →
        (segments raw).dropLast ≠ (segments h.name.text).dropLast →
        h.checkName raw = .error (.badName raw (.otherPackage h.name.package n.package)) ∧
          h.name.package ≠ n.package)) := by
  refine ⟨fun n hn => ?_, fun a b ha hb => ?_, fun h hname raw => ?_⟩
  · refine ⟨fun hpackage => ?_, fun hpackage => ?_, hn.isWord_simpleName.1.dot_not_mem,
      hn.parse_simpleName, ?_, hn.map_internalName, hn.exists_parse_internalName_iff⟩
    · exact (sides_of_not_mem (hn.package_eq_empty_iff.mp hpackage)).2
    · exact (eq_package_append (hn.dot_mem_of_package_ne_empty hpackage)).1
    · exact or_iff_not_imp_left.mpr hn.parse_package
  · rw [sharesPackage, beq_iff_eq]
    exact ha.package_eq_iff hb
  · refine ⟨Host.checkName_eq_ok_iff hname, fun d => Host.checkName_of_parse_error, ?_⟩
    -- Two packages that are told to differ do differ: equal packages would have been accepted.
    intro n hraw hne
    refine ⟨?_, fun hpackage => hne ?_⟩
    · rw [Host.checkName_of_parse_ok hname hraw, if_neg hne]
    · rw [← parse_eq_ok hraw]
      exact ((wellFormed_of_parse hraw).package_eq_iff hname).mp hpackage.symm

open BinaryName in
theorem packages_follow_segments_nested :
    let n : BinaryName := ⟨"p.é.Host$1"⟩
    let h : Host := ⟨n, .empty n, .standard⟩
    n.WellFormed ∧ n.text = "p.é" ++ "." ++ "Host$1" ∧ parse "p.é" = .ok ⟨"p.é"⟩ ∧
    n.sharesPackage ⟨"p.é.Aux"⟩ = true ∧
    h.checkName "p.é.Aux" = .ok ⟨"p.é.Aux"⟩ ∧
    h.checkName "p.é..Aux" = .error (.badName "p.é..Aux" (.notAName (.gap 5))) ∧
    h.checkName "é.Aux" = .error (.badName "é.Aux" (.otherPackage "p.é" "é")) := by
  intro n h
  have hn : n.WellFormed := by decide +kernel
  have hpackage : n.package = "p.é" := by decide +kernel
  have hsimple : n.simpleName = "Host$1" := by decide +kernel
  rcases packages_follow_segments with ⟨hsides, hshare, hcheck⟩
  rcases hsides n hn with ⟨-, htext, -, -, hparse, -, -⟩
  rw [hpackage, hsimple] at htext
  rw [hpackage] at hparse
  rcases hcheck h hn "p.é.Aux" with ⟨hok, -, -⟩
  rcases hcheck h hn "p.é..Aux" with ⟨-, hdefect, -⟩
  rcases hcheck h hn "é.Aux" with ⟨-, -, hforeign⟩
  refine ⟨hn, htext (by decide), hparse.resolve_left (by decide), ?_, ?_, ?_, ?_⟩
  · exact (hshare n ⟨"p.é.Aux"⟩ hn (by decide +kernel)).mpr (by decide +kernel)
  · exact (hok ⟨"p.é.Aux"⟩).mpr ⟨rfl, ⟨⟨"p.é.Aux"⟩, by decide +kernel⟩, by decide +kernel⟩
  · exact hdefect (.gap 5) (by decide +kernel)
  · rcases hforeign ⟨"é.Aux"⟩ (by decide +kernel) (by decide +kernel) with ⟨hother, -⟩
    have hfound : (⟨"é.Aux"⟩ : BinaryName).package = "é" := by decide +kernel
    rwa [show h.name.package = "p.é" from hpackage, hfound] at hother

end SyntheticAccess
