import SyntheticAccess.Listing

/-!
# Texts of One Line

A listing is put together from lines, and the only thing that says where one
ends is the line feed behind it. So a line must not have one of its own. None
of the fixed parts of a line does, and neither do numerals. What is left are
the names, and a name may be any text: method names and the names of type
variables are never checked, and class names are not when they are loaded.

`texts` collects all of these for a class, wherever they stand in it. When none
of them has a line feed, no line has one. The way there follows the definitions
of what is shown. Types are shown in two ways, as source code writes them and
as descriptors do, and since the second has no place for the names of type
variables it has to be gone through on its own.

## Main definitions

* `OneLine`: A text without line feeds.
* `SigType.texts`, `Method.texts`, `Field.texts`, `Instr.texts`,
  `Accessor.texts`, `AccessorClass.texts`: The names that occur in what is shown.
* `AccessorClass.OneLined`: None of them has a line feed.

## Theorems

* `oneLine_append`, `oneLine_intercalate`: Texts are put together on one line.
* `SigType.oneLine_display`, `SigType.not_mem_descriptorChars`: Types as source
  code writes them, and as descriptors do.
* `Instr.oneLine_display`: An instruction takes one line.
* `AccessorClass.oneLine_of_mem_lines`: The lines of a listing are lines.
-/

namespace SyntheticAccess

/-- The text has no line feed. -/
def OneLine (s : String) : Prop :=
  '\n' ∉ s.toList

instance (s : String) : Decidable (OneLine s) :=
  inferInstanceAs (Decidable ('\n' ∉ s.toList))

@[simp] theorem oneLine_append {s t : String} : OneLine (s ++ t) ↔ OneLine s ∧ OneLine t := by
  rw [OneLine, String.toList_append, List.mem_append, not_or, OneLine, OneLine]

/-- Texts of one line that are joined by such a text are one line. -/
theorem oneLine_intercalate {sep : String} {ss : List String} (hsep : OneLine sep)
    (h : ∀ s ∈ ss, OneLine s) : OneLine (sep.intercalate ss) := by
  induction ss with
  | nil => simp [OneLine]
  | cons s ss ih =>
      -- The separator stands between two texts, so the last one is a case of its own.
      cases ss with
      | nil =>
          rw [String.intercalate_singleton]
          exact h s List.mem_cons_self
      | cons t ts =>
          rw [String.intercalate_cons_cons]
          simp only [oneLine_append]
          exact ⟨⟨h s List.mem_cons_self, hsep⟩, ih fun u hu => h u (List.mem_cons_of_mem s hu)⟩

theorem oneLine_decimal (n : Nat) : OneLine (decimal n) :=
  not_mem_decimal rfl n

theorem oneLine_ofList {cs : List Char} : OneLine (String.ofList cs) ↔ '\n' ∉ cs := by
  rw [OneLine, String.toList_ofList]

/-- Replacing dots by slashes adds no line feed. -/
theorem BinaryName.oneLine_internalName {n : BinaryName} (h : OneLine n.text) :
    OneLine n.internalName := by
  intro hmem
  rw [internalName, String.toList_map] at hmem
  rcases List.mem_map.mp hmem with ⟨c, hc, heq⟩
  -- What was a dot is a slash, and the line feed must have been there before.
  by_cases hdot : c = '.'
  · rw [if_pos hdot] at heq
    exact absurd heq (by decide)
  · rw [if_neg hdot] at heq
    exact h (heq ▸ hc)

/-- The words that flags are shown by are fixed, and none has a line feed. -/
theorem AccessFlags.oneLine_of_mem_words {f : AccessFlags} {w : String} (h : w ∈ f.words) :
    OneLine w := by
  rcases List.mem_append.mp h with h | h
  · -- There is a word for the level, or none, and then one for each flag that is shown.
    have hlevel : ∀ l : AccessLevel, ∀ w ∈ (levelWord l).toList, OneLine w := by
      intro l
      cases l <;> decide
    exact hlevel f.level w h
  · rcases List.mem_map.mp h with ⟨e, he, rfl⟩
    have hall : ∀ e ∈ [(accAbstract, "abstract"), (accStatic, "static"), (accFinal, "final"),
        (accSynthetic, "synthetic"), (accBridge, "bridge")], OneLine e.2 := by
      decide
    exact hall e (List.mem_filter.mp he).1

/-- A declaration starts with the words for its flags. -/
theorem AccessFlags.oneLine_words_append (f : AccessFlags) {ws : List String}
    (h : ∀ w ∈ ws, OneLine w) : OneLine (" ".intercalate (f.words ++ ws)) := by
  refine oneLine_intercalate (by decide) fun w hw => ?_
  rcases List.mem_append.mp hw with hw | hw
  · exact oneLine_of_mem_words hw
  · exact h w hw

namespace SigType

mutual

/-- The names in a type: of classes at any depth, and of type variables. -/
def texts : SigType → List String
  | prim _ => []
  | classRef n => [n.text]
  | arrayOf t => texts t
  | generic raw args => raw.text :: textsAll args
  | typeVar name bound => [name, bound.text]

/-- The names in the types of a list. -/
def textsAll : List SigType → List String
  | [] => []
  | t :: ts => texts t ++ textsAll ts

end

-- Types have type arguments, which are types: one recursion proves both.
mutual

/-- A type is shown on one line when the names in it are. -/
theorem oneLine_display : ∀ t : SigType, (∀ s ∈ t.texts, OneLine s) → OneLine t.display
  | prim p, _ => by cases p <;> decide
  | classRef n, h => h n.text (List.mem_singleton_self _)
  | arrayOf t, h => by
      rw [display, oneLine_append]
      exact ⟨oneLine_display t h, by decide⟩
  | generic raw args, h => by
      have hraw := h raw.text List.mem_cons_self
      have hargs := oneLine_displayAll args fun s hs => h s (List.mem_cons_of_mem _ hs)
      simp only [display, oneLine_append, and_assoc]
      exact ⟨hraw, by decide, oneLine_intercalate (by decide) hargs, by decide⟩
  | typeVar name bound, h => h name List.mem_cons_self

theorem oneLine_displayAll : ∀ ts : List SigType, (∀ s ∈ textsAll ts, OneLine s) →
    ∀ d ∈ displayAll ts, OneLine d
  | [], _, _, hd => nomatch hd
  | t :: ts, h, d, hd => by
      rcases List.mem_cons.mp hd with rfl | hd
      · exact oneLine_display t fun s hs => h s (List.mem_append_left _ hs)
      · exact oneLine_displayAll ts (fun s hs => h s (List.mem_append_right _ hs)) d hd

end

theorem mem_textsAll {ts : List SigType} {t : SigType} (ht : t ∈ ts) {s : String}
    (hs : s ∈ t.texts) : s ∈ textsAll ts := by
  induction ts with
  | nil => cases ht
  | cons u us ih =>
      rcases List.mem_cons.mp ht with rfl | ht
      · exact List.mem_append_left _ hs
      · exact List.mem_append_right _ (ih ht)

/-- Descriptors have the internal forms of class names, between marks that are
    letters and punctuation. -/
theorem not_mem_descriptorChars {t : SigType} (h : ∀ s ∈ t.texts, OneLine s) :
    '\n' ∉ t.descriptorChars := by
  have hclass : ∀ n : BinaryName, OneLine n.text →
      '\n' ∉ 'L' :: (n.internalName.toList ++ [';']) := by
    intro n hn hmem
    rcases List.mem_cons.mp hmem with hmark | hmem
    · exact absurd hmark (by decide)
    · rcases List.mem_append.mp hmem with hname | hend
      · exact n.oneLine_internalName hn hname
      · exact absurd (List.mem_singleton.mp hend) (by decide)
  -- Descriptors ignore type arguments, like erasure, so there is nothing to say about them.
  induction t using erasure.induct with
  | case1 p => cases p <;> decide
  | case2 n => exact hclass n (h n.text (List.mem_singleton_self _))
  | case3 t ih =>
      intro hmem
      rcases List.mem_cons.mp hmem with hmark | hmem
      · exact absurd hmark (by decide)
      · exact ih h hmem
  | case4 raw args => exact hclass raw (h raw.text List.mem_cons_self)
  | case5 name bound =>
      exact hclass bound (h bound.text (List.mem_cons_of_mem _ List.mem_cons_self))

theorem oneLine_castOperand {t : SigType} (h : ∀ s ∈ t.texts, OneLine s) :
    OneLine t.castOperand := by
  cases t with
  | classRef n => exact n.oneLine_internalName (h n.text (List.mem_singleton_self _))
  | generic raw args => exact raw.oneLine_internalName (h raw.text List.mem_cons_self)
  | typeVar name bound =>
      exact bound.oneLine_internalName (h bound.text (List.mem_cons_of_mem _ List.mem_cons_self))
  | prim p => exact oneLine_ofList.mpr (not_mem_descriptorChars h)
  | arrayOf t => exact oneLine_ofList.mpr (not_mem_descriptorChars h)

end SigType

namespace Method

/-- The names in a method. -/
def texts (m : Method) : List String :=
  m.owner.text :: m.name :: (m.result.texts ++ SigType.textsAll m.params)

variable {m : Method} (h : ∀ s ∈ m.texts, OneLine s)
include h

theorem oneLine_owner : OneLine m.owner.text :=
  h m.owner.text List.mem_cons_self

theorem oneLine_name : OneLine m.name :=
  h m.name (List.mem_cons_of_mem _ List.mem_cons_self)

theorem oneLine_of_mem_result : ∀ s ∈ m.result.texts, OneLine s :=
  fun s hs => h s (List.mem_cons_of_mem _ (List.mem_cons_of_mem _ (List.mem_append_left _ hs)))

theorem oneLine_of_mem_params {t : SigType} (ht : t ∈ m.params) : ∀ s ∈ t.texts, OneLine s :=
  fun s hs => h s (List.mem_cons_of_mem _ (List.mem_cons_of_mem _
    (List.mem_append_right _ (SigType.mem_textsAll ht hs))))

theorem oneLine_paramList : OneLine (", ".intercalate (m.params.map SigType.display)) := by
  refine oneLine_intercalate (by decide) fun d hd => ?_
  rcases List.mem_map.mp hd with ⟨t, ht, rfl⟩
  exact t.oneLine_display (oneLine_of_mem_params h ht)

/-- A method is shown with its result, its owner, its name and its parameters. -/
theorem oneLine_display : OneLine m.display := by
  simp only [display, oneLine_append, and_assoc]
  exact ⟨m.result.oneLine_display (oneLine_of_mem_result h), by decide, oneLine_owner h, by decide,
    oneLine_name h, by decide, oneLine_paramList h, by decide⟩

theorem oneLine_declaration : OneLine m.declaration := by
  have hresult : ∀ w ∈ [m.result.display], OneLine w := by
    intro w hw
    rw [List.mem_singleton.mp hw]
    exact m.result.oneLine_display (oneLine_of_mem_result h)
  simp only [declaration, oneLine_append, and_assoc]
  exact ⟨by decide, m.flags.oneLine_words_append hresult, by decide, oneLine_name h, by decide,
    oneLine_paramList h, by decide⟩

theorem oneLine_descriptor : OneLine m.descriptor := by
  rw [descriptor, oneLine_ofList, List.mem_append, not_or, parameterChars]
  refine ⟨?_, SigType.not_mem_descriptorChars (oneLine_of_mem_result h)⟩
  intro hmem
  rcases List.mem_cons.mp hmem with hmark | hmem
  · exact absurd hmark (by decide)
  · rcases List.mem_append.mp hmem with hparam | hend
    · -- A line feed would be within the descriptor of one parameter.
      rcases List.mem_flatMap.mp hparam with ⟨t, ht, hc⟩
      exact SigType.not_mem_descriptorChars (oneLine_of_mem_params h ht) hc
    · exact absurd (List.mem_singleton.mp hend) (by decide)

end Method

/-- The names in a field. -/
def Field.texts (f : Field) : List String :=
  f.name :: f.type.texts

/-- A field takes one line, for its type and its name do. -/
theorem Field.oneLine_declaration {f : Field} (h : ∀ s ∈ f.texts, OneLine s) :
    OneLine f.declaration := by
  have hparts : ∀ w ∈ [f.type.display, f.name], OneLine w := by
    intro w hw
    rcases List.mem_cons.mp hw with rfl | hw
    · exact f.type.oneLine_display fun s hs => h s (List.mem_cons_of_mem _ hs)
    · rw [List.mem_singleton.mp hw]
      exact h f.name List.mem_cons_self
  simp only [declaration, oneLine_append, and_assoc]
  exact ⟨by decide, f.flags.oneLine_words_append hparts, by decide⟩

/-- The names in an instruction. -/
def Instr.texts : Instr → List String
  | load _ _ | ret _ => []
  | invoke _ m => m.texts
  | cast t => t.texts

/-- An instruction takes one line. A call shows most: the internal form of the
    owner, the name and the descriptor of the method. -/
theorem Instr.oneLine_display {i : Instr} (h : ∀ s ∈ i.texts, OneLine s) : OneLine i.display := by
  have hletter : ∀ k : StackKind, OneLine k.letter := by
    intro k
    cases k <;> decide
  cases i with
  | load slot kind =>
      simp only [display, oneLine_append, and_assoc]
      exact ⟨hletter kind, by decide, oneLine_decimal _⟩
  | invoke mode m =>
      have hmode : OneLine mode.mnemonic := by
        cases mode <;> decide
      simp only [display, oneLine_append, and_assoc]
      exact ⟨hmode, by decide, m.owner.oneLine_internalName (Method.oneLine_owner h), by decide,
        Method.oneLine_name h, Method.oneLine_descriptor h⟩
  | cast t =>
      simp only [display, oneLine_append]
      exact ⟨by decide, SigType.oneLine_castOperand h⟩
  | ret kind =>
      simp only [display, oneLine_append]
      exact ⟨hletter kind, by decide⟩

/-- The names in an accessor, those of its target included. -/
def Accessor.texts (a : Accessor) : List String :=
  a.method.texts ++ a.request.target.texts ++ a.resolved.texts ++ a.code.instrs.flatMap Instr.texts

theorem Accessor.oneLine_of_mem_lines {a : Accessor} (h : ∀ s ∈ a.texts, OneLine s) {l : String}
    (hl : l ∈ a.lines) : OneLine l := by
  simp only [texts, List.forall_mem_append] at h
  -- A listing has the method that the request came to, and not the one it asked for.
  rcases h with ⟨⟨⟨hmethod, -⟩, hresolved⟩, hinstrs⟩
  have hword : OneLine a.request.resolution.word := by
    cases a.request.resolution <;> decide
  rw [lines] at hl
  simp only [List.mem_cons, List.mem_map] at hl
  rcases hl with rfl | rfl | rfl | rfl | ⟨i, hi, rfl⟩
  · decide
  · exact Method.oneLine_declaration hmethod
  · simp only [oneLine_append, and_assoc]
    exact ⟨by decide, hword, by decide, Method.oneLine_display hresolved⟩
  · simp only [oneLine_append]
    exact ⟨by decide, oneLine_decimal _⟩
  · simp only [oneLine_append]
    exact ⟨by decide, Instr.oneLine_display fun s hs =>
      hinstrs s (List.mem_flatMap.mpr ⟨i, hi, hs⟩)⟩

namespace AccessorClass

/-- The names in a class: its own, and those of everything in it. -/
def texts (c : AccessorClass) : List String :=
  c.name.text :: (c.fields.flatMap Field.texts ++ c.accessors.flatMap Accessor.texts)

/-- No name in the class has a line feed. -/
def OneLined (c : AccessorClass) : Prop :=
  ∀ s ∈ c.texts, OneLine s

instance (c : AccessorClass) : Decidable c.OneLined :=
  inferInstanceAs (Decidable (∀ s ∈ c.texts, OneLine s))

theorem OneLined.oneLine_header {c : AccessorClass} (h : c.OneLined) : OneLine c.header := by
  simp only [header, oneLine_append, and_assoc]
  exact ⟨c.flags.oneLine_words_append (by decide), by decide, h c.name.text List.mem_cons_self,
    by decide⟩

/-- What a listing is put together from are lines, as long as the names are. -/
theorem OneLined.oneLine_of_mem_lines {c : AccessorClass} (h : c.OneLined) {l : String}
    (hl : l ∈ c.lines) : OneLine l := by
  have hparts := List.forall_mem_append.mp (List.forall_mem_cons.mp h).2
  rw [lines] at hl
  simp only [List.mem_cons, List.mem_append, List.mem_map, List.mem_flatMap, List.not_mem_nil,
    or_false] at hl
  -- A line is the header, the version, a field, a line of an accessor or the closing brace.
  rcases hl with rfl | rfl | (⟨f, hf, rfl⟩ | ⟨a, ha, hl⟩) | rfl
  · exact h.oneLine_header
  · simp only [ClassVersion.display, oneLine_append, and_assoc]
    exact ⟨by decide, oneLine_decimal _, by decide, oneLine_decimal _⟩
  · exact Field.oneLine_declaration fun s hs => hparts.1 s (List.mem_flatMap.mpr ⟨f, hf, hs⟩)
  · exact Accessor.oneLine_of_mem_lines
      (fun s hs => hparts.2 s (List.mem_flatMap.mpr ⟨a, ha, hs⟩)) hl
  · decide

end AccessorClass

end SyntheticAccess
