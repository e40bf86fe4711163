import SyntheticAccess.StackKind
import SyntheticAccess.Proofs.Descriptors

/-!
# What Descriptors Tell

Class files speak of types and methods in three encodings: the descriptor of a
type, the operand of a cast, and the signature or descriptor of a method. Each
of them is computed from the type as declared, without erasing it first, and
each tells the erased type and nothing more. Two things have to be seen for
that. Types with one erasure are encoded alike, which holds for any names. And
types that are encoded alike have one erasure, which holds only because the
names in them are well formed.

The second half starts from `descriptorChars_append_inj`, where the two
descriptors may have anything behind them. Asking for nothing behind the longer
one gives `descriptorChars_prefix_iff`: a descriptor that another one starts
with is that descriptor. Equality is the special case in which each starts with
the other.

A cast writes classes without the marks that a descriptor puts around them, so
its operands are not a prefix code, and the operand of a class called `I` is
the descriptor of `int`. What keeps the operands of reference types apart is
that arrays start with a bracket and internal forms of names have none.

## Theorems

* `internalName_eq_iff`: The internal form is as good as the name.
* `descriptorChars_prefix_iff`: No descriptor is a proper prefix of another.
* `descriptor_eq_iff`, `castOperand_eq_iff`: What the encodings of a type tell.
* `Method.descriptor_eq_iff`: What the descriptor of a method tells.
* `descriptors_tell_erasures`: All of it for two types and two methods.
* `signatures_never_collide`: A signature tells the name and the erased parameters.
-/

namespace SyntheticAccess

namespace BinaryName

/-- Names with one internal form are one name. -/
theorem WellFormed.internalName_eq_iff {m n : BinaryName} (hm : m.WellFormed)
    (hn : n.WellFormed) : m.internalName = n.internalName ↔ m = n := by
  constructor
  · intro h
    rw [← hm.ofInternal_internalName, h, hn.ofInternal_internalName]
  · intro h
    rw [h]

theorem WellFormed.bracket_not_mem_internalName {n : BinaryName} (h : n.WellFormed) :
    '[' ∉ n.internalName.toList := by
  intro hmem
  rcases h.isPart_of_mem_internalName hmem with hslash | hpart
  · exact absurd hslash (by decide)
  · exact absurd hpart (by decide)

end BinaryName

namespace SigType

instance (t : SigType) : Decidable t.WellNamed :=
  inferInstanceAs (Decidable (∀ n ∈ t.names, n.WellFormed))

@[simp] theorem toList_descriptor (t : SigType) : t.descriptor.toList = t.descriptorChars := by
  rw [descriptor, String.toList_ofList]

@[simp] theorem descriptor_erasure (t : SigType) : t.erasure.descriptor = t.descriptor := by
  rw [descriptor, descriptor, descriptorChars_erasure]

/-- A cast to a type is a cast to its erasure. -/
@[simp] theorem castOperand_erasure (t : SigType) : t.erasure.castOperand = t.castOperand := by
  cases t with
  | arrayOf c => exact descriptor_erasure (arrayOf c)
  | _ => rfl

/-- A descriptor that another one starts with is of the same erased type, so
    there is nothing left of the other. -/
theorem descriptorChars_prefix_iff {t u : SigType} (ht : t.WellNamed) (hu : u.WellNamed) :
    t.descriptorChars <+: u.descriptorChars ↔ t.erasure = u.erasure := by
  constructor
  · intro h
    rcases h with ⟨rest, hrest⟩
    -- What is left of the longer one stands behind the shorter, and nothing behind the longer.
    have happend : t.descriptorChars ++ rest = u.descriptorChars ++ [] := by
      rw [hrest, List.append_nil]
    exact (descriptorChars_append_inj ht hu happend).1
  · intro h
    -- Types of one erasure have one descriptor, which begins with itself.
    have hchars : t.descriptorChars = u.descriptorChars := by
      rw [← descriptorChars_erasure t, h, descriptorChars_erasure u]
    exact hchars ▸ List.prefix_rfl

/-- The descriptor of a type tells the erased type, and nothing else of it. -/
theorem descriptor_eq_iff {t u : SigType} (ht : t.WellNamed) (hu : u.WellNamed) :
    t.descriptor = u.descriptor ↔ t.erasure = u.erasure := by
  constructor
  · intro h
    -- Equal descriptors begin with each other.
    have hchars : t.descriptorChars = u.descriptorChars := by
      rw [← toList_descriptor, h, toList_descriptor]
    exact (descriptorChars_prefix_iff ht hu).mp (hchars ▸ List.prefix_rfl)
  · intro h
    rw [← descriptor_erasure t, h, descriptor_erasure u]

/-- A reference type is a class to the virtual machine, under a name that
    occurs in it, or else an array. -/
theorem class_or_array_of_isReference {t : SigType} (h : t.isReference = true) :
    (∃ n ∈ t.names, t.erasure = classRef n ∧ t.castOperand = n.internalName) ∨
      ∃ c, t = arrayOf c := by
  cases t with
  | prim p => cases h
  | classRef n => exact Or.inl ⟨n, by simp [names], rfl, rfl⟩
  | arrayOf c => exact Or.inr ⟨c, rfl⟩
  | generic raw args => exact Or.inl ⟨raw, by simp [names], rfl, rfl⟩
  | typeVar x bound => exact Or.inl ⟨bound, by simp [names], rfl, rfl⟩

/-- No class is cast to like an array, because the operand for an array starts
    with a bracket. -/
theorem internalName_ne_castOperand_arrayOf {n : BinaryName} (h : n.WellFormed) (c : SigType) :
    n.internalName ≠ (arrayOf c).castOperand := by
  intro heq
  have hbracket : '[' ∈ (arrayOf c).descriptor.toList := by
    rw [toList_descriptor, descriptorChars]
    exact List.mem_cons_self
  -- The operand for an array is its descriptor.
  change n.internalName = (arrayOf c).descriptor at heq
  rw [← heq] at hbracket
  exact h.bracket_not_mem_internalName hbracket

/-- The operand of a cast to a reference type tells the erased type. -/
theorem castOperand_eq_iff {t u : SigType} (ht : t.WellNamed) (hu : u.WellNamed)
    (htref : t.isReference = true) (huref : u.isReference = true) :
    t.castOperand = u.castOperand ↔ t.erasure = u.erasure := by
  constructor
  · intro h
    -- A reference type is written as a class or as an array, so there are four cases.
    rcases class_or_array_of_isReference htref with ⟨m, hm, hmerase, hmcast⟩ | ⟨c, rfl⟩
    · rcases class_or_array_of_isReference huref with ⟨n, hn, hnerase, hncast⟩ | ⟨d, rfl⟩
      · -- Two classes have one internal form, so they are one class.
        rw [hmcast, hncast] at h
        rw [hmerase, hnerase, ((ht m hm).internalName_eq_iff (hu n hn)).mp h]
      · -- A class against an array.
        rw [hmcast] at h
        exact absurd h (internalName_ne_castOperand_arrayOf (ht m hm) d)
    · rcases class_or_array_of_isReference huref with ⟨n, hn, hnerase, hncast⟩ | ⟨d, rfl⟩
      · -- An array against a class.
        rw [hncast] at h
        exact absurd h.symm (internalName_ne_castOperand_arrayOf (hu n hn) c)
      · -- Two arrays are cast to under their descriptors.
        exact (descriptor_eq_iff ht hu).mp h
  · intro h
    rw [← castOperand_erasure t, h, castOperand_erasure u]

end SigType

namespace Method

theorem WellNamed.of_result {m : Method} (h : m.WellNamed) : m.result.WellNamed := by
  intro n hn
  exact h n (List.mem_cons_of_mem _ (List.mem_append_right _ hn))

/-- The descriptor of a method tells its erased parameters and its erased
    result. Where the parameters end is told by the closing parenthesis. -/
theorem descriptor_eq_iff {m n : Method} (hm : m.WellNamed) (hn : n.WellNamed) :
    m.descriptor = n.descriptor ↔
      m.params.map SigType.erasure = n.params.map SigType.erasure ∧
        m.result.erasure = n.result.erasure := by
  constructor
  · intro h
    have hchars : m.params.flatMap SigType.descriptorChars ++ ')' :: m.result.descriptorChars =
        n.params.flatMap SigType.descriptorChars ++ ')' :: n.result.descriptorChars := by
      have := congrArg String.toList h
      simpa [descriptor, parameterChars] using this
    rcases SigType.flatMap_descriptorChars_inj (fun _ => hm.of_mem_params)
      (fun _ => hn.of_mem_params) hchars with ⟨hparams, hresult⟩
    -- The result is what follows the parameters, so it is one descriptor against another.
    have hbegins : m.result.descriptorChars <+: n.result.descriptorChars :=
      hresult ▸ List.prefix_rfl
    exact ⟨hparams, (SigType.descriptorChars_prefix_iff hm.of_result hn.of_result).mp hbegins⟩
  · rintro ⟨hparams, hresult⟩
    rw [descriptor, descriptor, ← parameterChars_erasure m.params, hparams,
      parameterChars_erasure n.params, ← SigType.descriptorChars_erasure m.result, hresult,
      SigType.descriptorChars_erasure n.result]

end Method

/-- Descriptors tell erased types, no more and no less. Erasing changes nothing
    about a type that the virtual machine can see, neither how its values are
    kept nor how it is encoded. Two types have one descriptor exactly when they
    have one erasure, a descriptor is never the beginning of another, and of
    reference types the operand of a cast tells as much. The descriptor of a
    method tells its erased parameters and its erased result. -/
theorem descriptors_tell_erasures :
    (∀ t : SigType, t.erasure.erasure = t.erasure ∧ t.erasure.slots = t.slots ∧
      t.erasure.isReference = t.isReference ∧ t.erasure.kind = t.kind ∧
      t.erasure.descriptor = t.descriptor ∧ t.erasure.castOperand = t.castOperand) ∧
    (∀ t u : SigType, t.WellNamed → u.WellNamed →
      (t.descriptor = u.descriptor ↔ t.erasure = u.erasure) ∧
      (t.descriptor.toList <+: u.descriptor.toList → t.descriptor = u.descriptor) ∧
      (t.isReference = true → u.isReference = true →
        (t.castOperand = u.castOperand ↔ t.erasure = u.erasure))) ∧
    ∀ m n : Method, m.WellNamed → n.WellNamed →
      (m.descriptor = n.descriptor ↔
        m.params.map SigType.erasure = n.params.map SigType.erasure ∧
          m.result.erasure = n.result.erasure) := by
  refine ⟨?_, ?_, ?_⟩
  · intro t
    exact ⟨t.erasure_erasure, t.slots_erasure, t.isReference_erasure, t.kind_erasure,
      t.descriptor_erasure, t.castOperand_erasure⟩
  · intro t u ht hu
    refine ⟨SigType.descriptor_eq_iff ht hu, ?_, ?_⟩
    · intro hbegins
      rw [SigType.toList_descriptor, SigType.toList_descriptor,
        SigType.descriptorChars_prefix_iff ht hu] at hbegins
      exact (SigType.descriptor_eq_iff ht hu).mpr hbegins
    · intro htref huref
      exact SigType.castOperand_eq_iff ht hu htref huref
  · intro m n hm hn
    exact Method.descriptor_eq_iff hm hn

/-- Rows of bags, declared with a type argument and without, and a class whose
    name is a letter of descriptors. -/
theorem descriptors_tell_erasures_bags :
    let keyed : SigType := .arrayOf (.generic ⟨"p.Bag"⟩ [.typeVar "K" ⟨"p.Key"⟩])
    let raw : SigType := .arrayOf (.classRef ⟨"p.Bag"⟩)
    let letter : SigType := .classRef ⟨"I"⟩
    let put : Method := ⟨⟨"p.Store"⟩, "put", [keyed, .prim .int], letter, ∅⟩
    let add : Method := ⟨⟨"q.Other"⟩, "add", [raw, .prim .int], .typeVar "T" ⟨"I"⟩, .accStatic⟩
    keyed.WellNamed ∧ raw.WellNamed ∧ letter.WellNamed ∧ put.WellNamed ∧ add.WellNamed ∧
      keyed.descriptor = raw.descriptor ∧ keyed.castOperand = raw.castOperand ∧
      letter.castOperand ≠ raw.castOperand ∧ letter.castOperand = SigType.descriptor (.prim .int) ∧
      ¬ letter.descriptor.toList <+: raw.descriptor.toList ∧ put.descriptor = add.descriptor := by
  intro keyed raw letter put add
  have hkeyed : keyed.WellNamed := by decide +kernel
  have hraw : raw.WellNamed := by decide +kernel
  have hletter : letter.WellNamed := by decide +kernel
  have hput : put.WellNamed := by decide +kernel
  have hadd : add.WellNamed := by decide +kernel
  rcases descriptors_tell_erasures with ⟨-, htypes, hmethods⟩
  rcases htypes keyed raw hkeyed hraw with ⟨hdescriptor, -, hcast⟩
  rcases htypes letter raw hletter hraw with ⟨hdescriptor', hbegins, hcast'⟩
  have herasure : letter.erasure ≠ raw.erasure := by decide
  refine ⟨hkeyed, hraw, hletter, hput, hadd, hdescriptor.mpr rfl, (hcast rfl rfl).mpr rfl, ?_,
    by decide +kernel, ?_, (hmethods put add hput hadd).mpr ⟨rfl, rfl⟩⟩
  · intro h
    exact herasure ((hcast' rfl rfl).mp h)
  · intro h
    exact herasure (hdescriptor'.mp (hbegins h))

/-- A signature tells the name and the erased parameters, whatever characters
    are in the name: two signatures agree exactly when the names do and the
    parameters are as many and agree one by one up to erasure. -/
theorem signatures_never_collide {x y : String} {ts us : List SigType}
    (hts : ∀ t ∈ ts, t.WellNamed) (hus : ∀ u ∈ us, u.WellNamed) :
    ErasedSignature.of x ts = ErasedSignature.of y us ↔
      x = y ∧ ts.length = us.length ∧
        ∀ i (ht : i < ts.length) (hu : i < us.length), ts[i].erasure = us[i].erasure := by
  -- Lists of erased types agree when their lengths and members do.
  have hmap : ts.map SigType.erasure = us.map SigType.erasure ↔ ts.length = us.length ∧
      ∀ i (ht : i < ts.length) (hu : i < us.length), ts[i].erasure = us[i].erasure := by
    rw [List.ext_getElem_iff]
    simp only [List.length_map, List.getElem_map]
  rw [ErasedSignature.of_eq_of_iff hts hus, hmap]

/-- Names with parentheses in them, and a class that is named like two letters
    of descriptors. -/
theorem signatures_never_collide_parentheses :
    ErasedSignature.of "run(" [.arrayOf (.generic ⟨"p.Bag"⟩ [.prim .int])] =
        ErasedSignature.of "run(" [.arrayOf (.typeVar "B" ⟨"p.Bag"⟩)] ∧
      ErasedSignature.of "run(I)" [] ≠ ErasedSignature.of "run" [.prim .int] ∧
      ErasedSignature.of "run" [.classRef ⟨"IJ"⟩] ≠
        ErasedSignature.of "run" [.prim .int, .prim .long] := by
  refine ⟨?_, ?_, ?_⟩
  · refine (signatures_never_collide (by decide +kernel) (by decide +kernel)).mpr ⟨rfl, rfl, ?_⟩
    intro i ht hu
    -- There is one parameter.
    have hi : i = 0 := Nat.lt_one_iff.mp ht
    subst hi
    rfl
  · intro h
    have hname := ((signatures_never_collide (by decide) (by decide)).mp h).1
    exact absurd hname (by decide)
  · intro h
    have hlength := ((signatures_never_collide (by decide +kernel) (by decide)).mp h).2.1
    exact absurd hlength (by decide)

end SyntheticAccess
