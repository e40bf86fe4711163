import Mathlib.Data.List.Forall2
import SyntheticAccess.Proofs.SingleLines

/-!
# What a Listing Tells

A listing is one text, in which a header, any number of fields and any number
of blocks of any length follow each other, and nothing in it says how many
there are of anything. To read it means to find the boundaries again.

There are two kinds of them, and they are found in the same way. Lines end in
line feeds, which lines do not have. Blocks start with blank lines, and no
other line is blank, since all of them start with an indentation. Both are
separators that do not occur in what they separate, and what is joined with
such a separator can be split again (`eq_of_intercalate_eq`). For the second
step the lines have to be looked at as a sequence in which the fields come
first, then a blank line and a block, and so on, with the closing brace off.

What is left is within lines. The numeral of a line or a version is that of one
number, and the words for the two resolutions do not begin alike, so that the
method after the arrow can be told from the word before it.

## Main definitions

* `Accessor.block`: The lines of an accessor after the blank one.
* `Accessor.ListedAlike`: Two accessors that a listing does not tell apart.

## Theorems

* `eq_of_intercalate_eq`: What a separator separates.
* `ClassVersion.display_eq_iff`, `Resolution.word_append_inj`: Inside of lines.
* `Accessor.block_eq_iff`: What the block of an accessor tells.
* `AccessorClass.lines_eq_iff`: What the lines of a listing tell.
* `AccessorClass.listingText_eq_iff_lines`: The text tells the lines.
* `listing_tells_line_by_line`: Both together.
-/

namespace SyntheticAccess

section Separators

variable {α : Type} [DecidableEq α] {a : α}

/-- What a separator joins can be told from the result when the separator does
    not occur in it. -/
theorem eq_of_intercalate_eq {xs ys : List (List α)} (hxs : ∀ x ∈ xs, a ∉ x)
    (hys : ∀ y ∈ ys, a ∉ y) (hx : xs ≠ []) (hy : ys ≠ [])
    (h : [a].intercalate xs = [a].intercalate ys) : xs = ys := by
  rw [← List.splitOn_intercalate a hxs hx, h, List.splitOn_intercalate a hys hy]

omit [DecidableEq α] in
/-- Parts that end in a separator are separated by it, with nothing behind the
    last one. -/
theorem flatMap_append_singleton (xs : List (List α)) :
    xs.flatMap (· ++ [a]) = [a].intercalate (xs ++ [[]]) := by
  induction xs with
  | nil => rfl
  | cons x xs ih =>
      -- The last part has its separator from the empty part behind it.
      cases xs with
      | nil => simp [List.intercalate_cons_cons]
      | cons y ys =>
          rw [List.flatMap_cons, ih]
          simp only [List.cons_append, List.intercalate_cons_cons]

omit [DecidableEq α] in
/-- Parts that start with a separator are separated by it from each other and
    from what is in front of them. -/
theorem append_flatMap_cons (x : List α) (xs : List (List α)) :
    x ++ xs.flatMap (a :: ·) = [a].intercalate (x :: xs) := by
  induction xs generalizing x with
  | nil => simp
  | cons y ys ih =>
      rw [List.intercalate_cons_cons, ← ih y, List.flatMap_cons]
      simp

end Separators

/-- A version is told by how it is shown, for there are two numerals and a dot
    between them. -/
theorem ClassVersion.display_eq_iff {v w : ClassVersion} : v.display = w.display ↔ v = w := by
  constructor
  · intro h
    -- The dot is not a digit, so it stands between the two numerals.
    have hparts : ∀ u : ClassVersion, u.display.toList =
        ['.'].intercalate [(decimal u.major.toNat).toList, (decimal u.minor.toNat).toList] := by
      intro u
      simp [display]
    have hdot : ∀ u : ClassVersion,
        ∀ x ∈ [(decimal u.major.toNat).toList, (decimal u.minor.toNat).toList], '.' ∉ x := by
      intro u x hx
      simp only [List.mem_cons, List.not_mem_nil, or_false] at hx
      rcases hx with rfl | rfl
      · exact not_mem_decimal rfl _
      · exact not_mem_decimal rfl _
    have hjoined := congrArg String.toList h
    rw [hparts v, hparts w] at hjoined
    have hboth := eq_of_intercalate_eq (hdot v) (hdot w) (by simp) (by simp) hjoined
    simp only [List.cons.injEq, String.toList_inj, decimal_eq_iff, UInt16.toNat_inj] at hboth
    cases v
    cases w
    rw [ClassVersion.mk.injEq]
    exact ⟨hboth.1, hboth.2.1⟩
  · rintro rfl
    rfl

/-- Neither word is the beginning of the other. -/
theorem Resolution.word_append_inj {p q : Resolution} {x y : String}
    (h : p.word ++ x = q.word ++ y) : p = q ∧ x = y := by
  have hfirst := congrArg (·.toList.head?) h
  cases p with
  | identity =>
      cases q with
      | identity => exact ⟨rfl, (String.append_right_inj _).mp h⟩
      | signature => simp [word] at hfirst
  | signature =>
      cases q with
      | identity => simp [word] at hfirst
      | signature => exact ⟨rfl, (String.append_right_inj _).mp h⟩

/-- The lines of an accessor without the blank line that sets them off. -/
def Accessor.block (a : Accessor) : List String :=
  a.lines.tail

/-- The accessors agree in everything that a listing shows of them. -/
structure Accessor.ListedAlike (a b : Accessor) : Prop where
  declaration_eq : a.method.declaration = b.method.declaration
  resolution_eq : a.request.resolution = b.request.resolution
  display_resolved_eq : a.resolved.display = b.resolved.display
  maxLocals_eq : a.code.maxLocals = b.code.maxLocals
  display_instrs_eq : a.code.instrs.map Instr.display = b.code.instrs.map Instr.display

namespace Accessor

theorem lines_eq_cons_block (a : Accessor) : a.lines = "" :: a.block := rfl

/-- All lines of the block are indented. -/
theorem blank_not_mem_block (a : Accessor) : "" ∉ a.block := by
  intro h
  simp [block, lines, Method.declaration] at h

/-- The block of an accessor tells what is listed of it, and nothing else. How it is
    laid out is the same for every accessor. -/
theorem block_eq_iff {a b : Accessor} : a.block = b.block ↔ a.ListedAlike b := by
  have hindent : ∀ c : Accessor, c.code.instrs.map (fun i => "      " ++ i.display) =
      (c.code.instrs.map Instr.display).map ("      " ++ ·) := by
    intro c
    rw [List.map_map]
    rfl
  simp only [block, lines, List.tail_cons, List.cons.injEq, hindent]
  constructor
  · rintro ⟨hdeclaration, hresolved, hlocals, hinstrs⟩
    simp only [String.append_assoc, String.append_right_inj] at hresolved hlocals
    -- The word ends where the arrow begins, and the method is what comes after it.
    rcases Resolution.word_append_inj hresolved with ⟨hresolution, harrow⟩
    -- Instructions are all indented alike.
    have hinjective : Function.Injective fun s : String => "      " ++ s :=
      fun s t h => (String.append_right_inj _).mp h
    exact ⟨hdeclaration, hresolution, (String.append_right_inj _).mp harrow,
      UInt16.toNat_inj.mp (decimal_eq_iff.mp hlocals),
      List.map_injective_iff.mpr hinjective hinstrs⟩
  · rintro ⟨hdeclaration, hresolution, hresolved, hlocals, hinstrs⟩
    rw [hresolution, hresolved, hlocals, hinstrs]
    exact ⟨hdeclaration, rfl, rfl, rfl⟩

theorem map_block_eq_iff {as bs : List Accessor} :
    as.map block = bs.map block ↔ List.Forall₂ ListedAlike as bs := by
  rw [← List.forall₂_eq_eq_eq, List.forall₂_map_left_iff, List.forall₂_map_right_iff]
  simp only [block_eq_iff]

end Accessor

namespace AccessorClass

/-- The members of a class as the lines between blank lines: the fields, and
    the block of each accessor. -/
def sections (c : AccessorClass) : List (List String) :=
  c.fields.map Field.declaration :: c.accessors.map Accessor.block

/-- Between the first two lines and the closing brace a listing is its sections,
    with a blank line between each two of them. -/
theorem lines_eq_sections (c : AccessorClass) :
    c.lines = c.header :: ("  // class file version " ++ c.version.display) ::
      ([""].intercalate c.sections ++ ["\x7d"]) := by
  -- Every accessor brings the blank line that sets its block off.
  have hblocks : c.accessors.flatMap Accessor.lines =
      c.accessors.flatMap fun a => "" :: a.block :=
    congrArg (c.accessors.flatMap ·) (funext Accessor.lines_eq_cons_block)
  rw [lines, hblocks, sections, ← append_flatMap_cons, List.flatMap_map]

/-- No line of a section is blank, since all of them are indented. -/
theorem blank_not_mem_sections {c : AccessorClass} {ls : List String} (h : ls ∈ c.sections) :
    "" ∉ ls := by
  rcases List.mem_cons.mp h with rfl | h
  · intro hmem
    rcases List.mem_map.mp hmem with ⟨f, -, hf⟩
    simp [Field.declaration] at hf
  · rcases List.mem_map.mp h with ⟨a, -, rfl⟩
    exact a.blank_not_mem_block

theorem sections_eq_iff {c d : AccessorClass} :
    c.sections = d.sections ↔
      c.fields.map Field.declaration = d.fields.map Field.declaration ∧
        List.Forall₂ Accessor.ListedAlike c.accessors d.accessors := by
  rw [sections, sections, List.cons.injEq, Accessor.map_block_eq_iff]

/-- The lines tell the members, because blank lines stand nowhere but in front
    of the block of an accessor. -/
theorem lines_eq_iff {c d : AccessorClass} :
    c.lines = d.lines ↔ c.header = d.header ∧ c.version = d.version ∧ c.sections = d.sections := by
  rw [lines_eq_sections, lines_eq_sections, List.cons.injEq, List.cons.injEq,
    String.append_right_inj, ClassVersion.display_eq_iff, List.append_left_inj]
  constructor
  · rintro ⟨hheader, hversion, hjoined⟩
    -- There is a section for the fields even if there are no fields, so neither list is empty.
    have hsections := eq_of_intercalate_eq (fun _ => blank_not_mem_sections)
      (fun _ => blank_not_mem_sections) (List.cons_ne_nil _ _) (List.cons_ne_nil _ _) hjoined
    exact ⟨hheader, hversion, hsections⟩
  · rintro ⟨hheader, hversion, hsections⟩
    exact ⟨hheader, hversion, by rw [hsections]⟩

/-- A listing has a line feed behind every line, so what follows the last one is
    empty. -/
theorem toList_listingText (c : AccessorClass) :
    c.listingText.toList = ['\n'].intercalate (c.lines.map String.toList ++ [[]]) := by
  rw [listingText, String.toList_join, List.flatMap_map, ← flatMap_append_singleton,
    List.flatMap_map]
  simp

/-- The text of a listing tells its lines, as long as there are no line feeds
    but those at their ends. -/
theorem listingText_eq_iff_lines {c d : AccessorClass} (hc : c.OneLined) (hd : d.OneLined) :
    c.listingText = d.listingText ↔ c.lines = d.lines := by
  constructor
  · intro h
    -- The text behind the last line feed is empty and counts as a line here.
    have hlines : ∀ {e : AccessorClass}, e.OneLined →
        ∀ x ∈ e.lines.map String.toList ++ [[]], '\n' ∉ x := by
      intro e he x hx
      rcases List.mem_append.mp hx with hx | hx
      · rcases List.mem_map.mp hx with ⟨l, hl, rfl⟩
        exact he.oneLine_of_mem_lines hl
      · rw [List.mem_singleton.mp hx]
        exact List.not_mem_nil
    have hjoined := congrArg String.toList h
    rw [toList_listingText, toList_listingText] at hjoined
    have hparts := eq_of_intercalate_eq (hlines hc) (hlines hd) (by simp) (by simp) hjoined
    exact List.map_injective_iff.mpr (fun _ _ => String.toList_inj.mp)
      (List.append_cancel_right hparts)
  · intro h
    rw [listingText, h, listingText]

/-- Two classes without line feeds in their names have one listing exactly when
    they agree in everything that a listing shows: in the header and the
    version, in the lines of their fields, one by one, and in their accessors,
    one by one. Accessors agree when their signature lines do, and how the
    request was resolved, the method it was resolved to as it is shown, the
    number of local variables, and the instructions as they are shown. -/
theorem listing_tells_line_by_line {c d : AccessorClass} (hc : c.OneLined) (hd : d.OneLined) :
    c.listingText = d.listingText ↔
      c.header = d.header ∧ c.version = d.version ∧
      c.fields.map Field.declaration = d.fields.map Field.declaration ∧
      List.Forall₂ Accessor.ListedAlike c.accessors d.accessors := by
  rw [listingText_eq_iff_lines hc hd, lines_eq_iff, sections_eq_iff]

/-- With a line feed in its name one field is listed like two. -/
example :
    (AccessorClass.mk ⟨"p.Aux"⟩ .standard ∅ [⟨"a;\n  int b", .prim .int, ∅⟩] []).listingText =
      (AccessorClass.mk ⟨"p.Aux"⟩ .standard ∅
        [⟨"a", .prim .int, ∅⟩, ⟨"b", .prim .int, ∅⟩] []).listingText := by
  decide +kernel

/-- A class with names that look like parts of a listing. The method that was
    asked for and the bound of a type variable are not shown. -/
def disguisedClass (asked : String) (bound : BinaryName) : AccessorClass where
  name := ⟨"p.Aux"⟩
  version := .standard
  flags := .accSynthetic
  fields := [⟨"\x7d", .generic ⟨"p.Bag"⟩ [.typeVar "    locals: 0" bound], .accStatic⟩]
  accessors :=
    [⟨⟨⟨"p.Aux"⟩, "run$a$0", [.typeVar "T" bound], .prim .int, .accStatic⟩,
      ⟨⟨⟨"p.Sub"⟩, asked, [.typeVar "T" bound], .prim .int, .accStatic⟩, .signature⟩,
      ⟨⟨"p.Sub"⟩, " -> ", [.classRef ⟨"p.Item"⟩], .prim .int, .accStatic⟩,
      ⟨[.load 0 .reference,
        .invoke .static ⟨⟨"p.Sub"⟩, " -> ", [.classRef ⟨"p.Item"⟩], .prim .int, .accStatic⟩,
        .ret .int], 1⟩⟩,
    ⟨⟨⟨"p.Aux"⟩, "", [], .void, ∅⟩, ⟨⟨⟨"p.Sub"⟩, asked, [], .void, ∅⟩, .identity⟩,
      ⟨⟨"p.Sub"⟩, "", [], .void, ∅⟩, ⟨[], 0⟩⟩]

/-- Two classes that differ in what is not shown have one listing, even with names
    that look like parts of one, and all that is shown agrees. -/
theorem listing_tells_line_by_line_disguisedClass :
    let c := disguisedClass "run" ⟨"p.Item"⟩
    let d := disguisedClass "walk" ⟨"p.Fact"⟩
    c.OneLined ∧ d.OneLined ∧ c ≠ d ∧ c.listingText = d.listingText ∧ c.version = d.version ∧
      c.fields.map Field.declaration = d.fields.map Field.declaration ∧
      List.Forall₂ Accessor.ListedAlike c.accessors d.accessors := by
  intro c d
  have hc : c.OneLined := by decide +kernel
  have hd : d.OneLined := by decide +kernel
  -- The classes differ, and still the listings are the same text.
  have htext : c.listingText = d.listingText := by decide +kernel
  rcases (listing_tells_line_by_line hc hd).mp htext with ⟨-, hversion, hfields, haccessors⟩
  exact ⟨hc, hd, by decide +kernel, htext, hversion, hfields, haccessors⟩

end AccessorClass

end SyntheticAccess
