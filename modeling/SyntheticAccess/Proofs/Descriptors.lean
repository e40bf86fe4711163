import SyntheticAccess.Member
import SyntheticAccess.Proofs.Names

/-!
# Descriptors Can Be Read Back

Descriptors are written without escapes and the signature of a method strings
them together without separators, after a name that may hold any characters.
That two methods have one signature only when they have one name and the same
erased parameters is therefore not obvious. It rests on the class names in the
parameters being well formed, which keeps the characters that structure a
descriptor out of them.

`readDescriptor` is the second side of the encoding: it takes one descriptor
off the front of a text and answers the erased type with what follows. That it
undoes the encoding whatever follows (`readDescriptor_append`) says that the
descriptors are a prefix code, and a list of them is read one by one up to the
closing parenthesis. The opening parenthesis is found from the right: it is
the last one of a signature, since no descriptor holds one, whatever the name
holds.

## Main definitions

* `SigType.names`, `Method.names`: The class names that occur in a type or method.
* `SigType.WellNamed`, `Method.WellNamed`: All of them are well formed.
* `SigType.readDescriptor`: One descriptor off the front of a text.

## Theorems

* `readDescriptor_append`: Reading undoes writing.
* `descriptorChars_append_inj`: Descriptors are a prefix code of erased types.
* `flatMap_descriptorChars_inj`: So a list of them can be taken apart.
* `ErasedSignature.of_eq_of_iff`: Signatures are names with erased parameters.
* `Method.signature_eq_iff`: The same for two methods.
-/

namespace SyntheticAccess

namespace SigType

mutual

/-- The class names that occur in a type, at any depth. -/
def names : SigType → List BinaryName
  | prim _ => []
  | classRef n => [n]
  | arrayOf t => names t
  | generic raw args => raw :: namesAll args
  | typeVar _ bound => [bound]

/-- The class names that occur in the types of a list. -/
def namesAll : List SigType → List BinaryName
  | [] => []
  | t :: ts => names t ++ namesAll ts

end

/-- All class names in the type were read from text. -/
def WellNamed (t : SigType) : Prop :=
  ∀ n ∈ t.names, n.WellFormed

theorem mem_namesAll {n : BinaryName} {ts : List SigType} :
    n ∈ namesAll ts ↔ ∃ t ∈ ts, n ∈ t.names := by
  induction ts with
  | nil => simp [namesAll]
  | cons t ts ih => simp [namesAll, ih]

end SigType

/-- The primitive type with the given letter. -/
def Primitive.ofLetter? (c : Char) : Option Primitive :=
  all.find? fun p => p.letter == c

namespace SigType

/-- Take one descriptor off the front of a text: the erased type it stands
    for, and the text after it. -/
def readDescriptor : List Char → Option (SigType × List Char)
  | [] => none
  | '[' :: cs => (readDescriptor cs).map fun p => (arrayOf p.1, p.2)
  | 'L' :: cs =>
    some (classRef (.ofInternal (cs.takeWhile (· != ';'))), (cs.dropWhile (· != ';')).drop 1)
  | c :: cs => (Primitive.ofLetter? c).map fun p => (prim p, cs)

/-- The semicolon ends the class name, because no name has one. -/
theorem readDescriptor_class {n : BinaryName} (h : n.WellFormed) (rest : List Char) :
    readDescriptor ('L' :: (n.internalName.toList ++ [';']) ++ rest) =
      some (classRef n, rest) := by
  have hname : ∀ c ∈ n.internalName.toList, (c != ';') = true := by
    intro c hc
    -- A semicolon is neither a slash nor a character of names.
    rw [bne_iff_ne]
    rintro rfl
    rcases h.isPart_of_mem_internalName hc with hslash | hpart
    · exact absurd hslash (by decide)
    · exact absurd hpart (by decide)
  -- So the name is what comes before the first semicolon, and the rest starts right behind it.
  have htake : ((n.internalName.toList ++ [';']) ++ rest).takeWhile (· != ';') =
      n.internalName.toList := by
    rw [List.append_assoc, List.takeWhile_append_of_pos hname]
    simp
  have hdrop : ((n.internalName.toList ++ [';']) ++ rest).dropWhile (· != ';') =
      ';' :: rest := by
    rw [List.append_assoc, List.dropWhile_append_of_pos hname]
    simp
  rw [List.cons_append, readDescriptor, htake, hdrop, h.ofInternal_internalName]
  rfl

/-- Reading a descriptor yields the erased type it was written for, and leaves
    what follows it. -/
theorem readDescriptor_append {t : SigType} (h : t.WellNamed) (rest : List Char) :
    readDescriptor (t.descriptorChars ++ rest) = some (t.erasure, rest) := by
  -- The cases are those of the erasure, since what is written is the erased type.
  induction t using erasure.induct with
  | case1 p => cases p <;> rfl
  | case2 n => exact readDescriptor_class (h n (by simp [names])) rest
  | case3 t ih =>
      have ht : t.WellNamed := fun n hn => h n (by simpa [names] using hn)
      -- One bracket is read, and the induction hypothesis reads the component with the same rest.
      rw [descriptorChars, List.cons_append, readDescriptor, ih ht]
      rfl
  | case4 raw args => exact readDescriptor_class (h raw (by simp [names])) rest
  | case5 name bound => exact readDescriptor_class (h bound (by simp [names])) rest

/-- Two texts that start with descriptors and agree start with descriptors of
    one erased type, and agree after them. -/
theorem descriptorChars_append_inj {t u : SigType} (ht : t.WellNamed) (hu : u.WellNamed)
    {xs ys : List Char} (h : t.descriptorChars ++ xs = u.descriptorChars ++ ys) :
    t.erasure = u.erasure ∧ xs = ys := by
  have hread := readDescriptor_append ht xs
  rw [h, readDescriptor_append hu ys, Option.some.injEq, Prod.mk.injEq] at hread
  exact ⟨hread.1.symm, hread.2.symm⟩

/-- A list of descriptors ends where the closing parenthesis stands, which no
    descriptor starts with. -/
theorem flatMap_descriptorChars_inj {ts us : List SigType} (hts : ∀ t ∈ ts, t.WellNamed)
    (hus : ∀ u ∈ us, u.WellNamed) {xs ys : List Char}
    (h : ts.flatMap descriptorChars ++ ')' :: xs = us.flatMap descriptorChars ++ ')' :: ys) :
    ts.map erasure = us.map erasure ∧ xs = ys := by
  induction ts generalizing us with
  | nil =>
      cases us with
      | nil => exact ⟨rfl, (List.cons.inj h).2⟩
      | cons u us =>
          -- Nothing can be read at a closing parenthesis, but a descriptor can.
          have hread := readDescriptor_append (hus u List.mem_cons_self)
            (us.flatMap descriptorChars ++ ')' :: ys)
          rw [← List.append_assoc, ← List.flatMap_cons, ← h] at hread
          cases hread
  | cons t ts ih =>
      cases us with
      | nil =>
          have hread := readDescriptor_append (hts t List.mem_cons_self)
            (ts.flatMap descriptorChars ++ ')' :: xs)
          rw [← List.append_assoc, ← List.flatMap_cons, h] at hread
          cases hread
      | cons u us =>
          -- Both lists go on, so the first descriptors are read off and the induction takes the
          -- others.
          rw [List.flatMap_cons, List.flatMap_cons, List.append_assoc, List.append_assoc] at h
          rcases descriptorChars_append_inj (hts t List.mem_cons_self) (hus u List.mem_cons_self) h
            with ⟨hhead, htail⟩
          rcases ih (fun t ht => hts t (List.mem_cons_of_mem _ ht))
            (fun u hu => hus u (List.mem_cons_of_mem _ hu)) htail with ⟨hmap, hrest⟩
          exact ⟨by rw [List.map_cons, List.map_cons, hhead, hmap], hrest⟩

/-- What a descriptor consists of: the letters of primitive types, the marks
    around names and before components, and internal forms of names. -/
theorem mem_descriptorChars {t : SigType} (h : t.WellNamed) {c : Char}
    (hc : c ∈ t.descriptorChars) : c = '[' ∨ c = ';' ∨ c = '/' ∨ BinaryName.isPart c = true := by
  -- Three kinds of types are written as classes.
  have hclass : ∀ n : BinaryName, n.WellFormed → c ∈ 'L' :: (n.internalName.toList ++ [';']) →
      c = '[' ∨ c = ';' ∨ c = '/' ∨ BinaryName.isPart c = true := by
    intro n hn hc
    simp only [List.mem_cons, List.mem_append, List.not_mem_nil, or_false] at hc
    rcases hc with rfl | hc | rfl
    · exact Or.inr (Or.inr (Or.inr (by decide)))
    · exact Or.inr (Or.inr (hn.isPart_of_mem_internalName hc))
    · exact Or.inr (Or.inl rfl)
  induction t using erasure.induct with
  | case1 p =>
      rw [descriptorChars, List.mem_singleton] at hc
      subst hc
      -- The letters of primitive types may all stand in a name.
      exact Or.inr (Or.inr (Or.inr (by cases p <;> decide)))
  | case2 n => exact hclass n (h n (by simp [names])) hc
  | case3 t ih =>
      rw [descriptorChars, List.mem_cons] at hc
      rcases hc with rfl | hc
      · exact Or.inl rfl
      · exact ih (fun n hn => h n (by simpa [names] using hn)) hc
  | case4 raw args => exact hclass raw (h raw (by simp [names])) hc
  | case5 name bound => exact hclass bound (h bound (by simp [names])) hc

end SigType

/-- A separator that stands in neither of the two ends is the last one of
    either text, so both texts are split at the same place. -/
theorem append_cons_inj_of_not_mem_right {a : Char} {xs ys us vs : List Char} (hus : a ∉ us)
    (hvs : a ∉ vs) (h : xs ++ a :: us = ys ++ a :: vs) : xs = ys ∧ us = vs := by
  -- Read from the right the separator is the first one.
  have hrev : us.reverse ++ a :: xs.reverse = vs.reverse ++ a :: ys.reverse := by
    simpa using congrArg List.reverse h
  have hother : ∀ {ws : List Char}, a ∉ ws → ∀ c ∈ ws.reverse, (c != a) = true := by
    intro ws hws c hc
    rw [bne_iff_ne]
    rintro rfl
    exact hws (List.mem_reverse.mp hc)
  have hend : us = vs := by
    have htake := congrArg (List.takeWhile (· != a)) hrev
    rw [List.takeWhile_append_of_pos (hother hus),
      List.takeWhile_append_of_pos (hother hvs)] at htake
    simpa using htake
  subst hend
  exact ⟨List.append_cancel_right h, rfl⟩

/-- Signatures agree when names and erased parameters do. The name may be any
    text, with parentheses in it or not: the parameters start behind the last
    opening parenthesis, because no descriptor has one. -/
theorem ErasedSignature.of_eq_of_iff {x y : String} {ts us : List SigType}
    (hts : ∀ t ∈ ts, t.WellNamed) (hus : ∀ u ∈ us, u.WellNamed) :
    ErasedSignature.of x ts = ErasedSignature.of y us ↔
      x = y ∧ ts.map SigType.erasure = us.map SigType.erasure := by
  constructor
  · intro h
    -- The name may hold an opening parenthesis, what follows it may not.
    have hopen : ∀ {ws : List SigType}, (∀ w ∈ ws, w.WellNamed) →
        '(' ∉ ws.flatMap SigType.descriptorChars ++ [')'] := by
      intro ws hws hmem
      rcases List.mem_append.mp hmem with hmem | hmem
      · rcases List.mem_flatMap.mp hmem with ⟨w, hw, hc⟩
        exact absurd (SigType.mem_descriptorChars (hws w hw) hc) (by decide)
      · exact absurd hmem (by decide)
    have htext : x.toList ++ '(' :: (ts.flatMap SigType.descriptorChars ++ [')']) =
        y.toList ++ '(' :: (us.flatMap SigType.descriptorChars ++ [')']) := by
      have := congrArg (fun s => s.text.toList) h
      simpa [ErasedSignature.of, parameterChars] using this
    rcases append_cons_inj_of_not_mem_right (hopen hts) (hopen hus) htext with ⟨hname, hparams⟩
    exact ⟨String.toList_inj.mp hname, (SigType.flatMap_descriptorChars_inj hts hus hparams).1⟩
  · rintro ⟨rfl, hmap⟩
    rw [ErasedSignature.of, ErasedSignature.of, ← parameterChars_erasure ts, hmap,
      parameterChars_erasure us]

namespace Method

/-- The class names that occur in a method. -/
def names (m : Method) : List BinaryName :=
  m.owner :: (SigType.namesAll m.params ++ m.result.names)

/-- All class names in the method were read from text. -/
def WellNamed (m : Method) : Prop :=
  ∀ n ∈ m.names, n.WellFormed

instance (m : Method) : Decidable m.WellNamed :=
  inferInstanceAs (Decidable (∀ n ∈ m.names, n.WellFormed))

theorem WellNamed.of_mem_params {m : Method} (h : m.WellNamed) {t : SigType}
    (ht : t ∈ m.params) : t.WellNamed := by
  intro n hn
  have hall : n ∈ SigType.namesAll m.params := SigType.mem_namesAll.mpr ⟨t, ht, hn⟩
  exact h n (List.mem_cons_of_mem _ (List.mem_append_left _ hall))

/-- Methods have one signature when name and erased parameters agree. Owner, result
    and flags do not enter. -/
theorem signature_eq_iff {m n : Method} (hm : m.WellNamed) (hn : n.WellNamed) :
    m.signature = n.signature ↔
      m.name = n.name ∧ m.params.map SigType.erasure = n.params.map SigType.erasure :=
  ErasedSignature.of_eq_of_iff (fun _ => hm.of_mem_params) (fun _ => hn.of_mem_params)

end Method

end SyntheticAccess
