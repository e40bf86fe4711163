import SyntheticAccess.Proofs.Descriptions
import SyntheticAccess.Proofs.Typing

/-!
# The Names of Accessors

An accessor is named after its target, with the tag and its own position behind
it. The target may have any name and the tag may be any text, with the separator
or with digits in it or with nothing in it at all, so names of different targets
can run into each other in many ways. What keeps them apart is at the end. The
position is written in digits, none of which is the separator, so the last
separator of a name is the one before the position. Two names that agree have
therefore one position, and no two accessors of a class stand at one position.

Signatures put the parameters behind the name, and they can be told apart from
it as long as the class names in them are well formed. A class can then be made
the context of a table of its own accessors, in which each is found under its
own signature.

## Theorems

* `accessorName_eq_iff`: A name tells its target and its position.
* `Coherent.nodup_names`: Accessors have different names.
* `Coherent.nodup_accessor_signatures`: So they have different signatures.
* `accessor_names_never_clash`: Names, signatures and the table of a class.
-/

namespace SyntheticAccess

/-- The parameters of an accessor are those of its target and the class that
    declares it, so their names were read from text if those of the target were. -/
theorem Request.wellNamed_of_mem_accessorParams {r : Request} (h : r.target.WellNamed)
    {t : SigType} (ht : t ∈ r.accessorParams) : t.WellNamed := by
  rw [accessorParams_eq, List.mem_append] at ht
  rcases ht with ht | ht
  · rw [Method.receiver] at ht
    by_cases hstatic : r.target.isStatic = true
    · rw [if_pos hstatic] at ht
      cases ht
    · rw [if_neg hstatic, List.mem_singleton] at ht
      rw [ht]
      intro n hn
      exact h n (List.mem_cons.mpr (Or.inl (List.mem_singleton.mp hn)))
  · exact h.of_mem_params ht

namespace Draft

/-- The last separator of a name stands before the position, and what is before
    it ends in the tag. -/
theorem accessorName_eq_iff {x y tag : String} {i j : Nat} :
    accessorName x tag i = accessorName y tag j ↔ x = y ∧ i = j := by
  constructor
  · intro h
    have hchars : (x ++ "$" ++ tag).toList ++ '$' :: (decimal i).toList =
        (y ++ "$" ++ tag).toList ++ '$' :: (decimal j).toList := by
      simpa [accessorName] using congrArg String.toList h
    -- The numerals at the end are made of digits only.
    rcases append_cons_inj_of_not_mem_right (not_mem_decimal rfl i) (not_mem_decimal rfl j)
      hchars with ⟨hfront, hnumeral⟩
    have hposition : i = j := decimal_eq_iff.mp (String.toList_inj.mp hnumeral)
    rw [String.toList_inj, String.append_assoc, String.append_assoc] at hfront
    exact ⟨(String.append_left_inj _).mp hfront, hposition⟩
  · rintro ⟨rfl, rfl⟩
    rfl

/-- The position of an accessor is the number in its name. -/
theorem Coherent.name_of_getElem? {d : Draft} (h : d.Coherent) {i : Nat} {a : Accessor}
    (ha : d.product.accessors[i]? = some a) :
    a.method.name = accessorName a.request.target.name d.settings.tag i :=
  congrArg (·.method.name) (h.eq_accessorAt i a ha)

/-- Accessors of one name would stand at one position. -/
theorem Coherent.nodup_names {d : Draft} (h : d.Coherent) :
    (d.product.accessors.map (·.method.name)).Nodup := by
  rw [List.Nodup, List.pairwise_map, List.pairwise_iff_getElem]
  intro i j hi hj hlt heq
  rw [h.name_of_getElem? (List.getElem?_eq_getElem hi),
    h.name_of_getElem? (List.getElem?_eq_getElem hj)] at heq
  exact Nat.ne_of_lt hlt (accessorName_eq_iff.mp heq).2

/-- A signature tells the name, so different names make different signatures. -/
theorem Coherent.nodup_accessor_signatures {d : Draft} (h : d.Coherent)
    (hnamed : ∀ a ∈ d.product.accessors, a.request.target.WellNamed) :
    (d.product.accessors.map (·.method.signature)).Nodup := by
  -- Signatures can be taken apart because the names in the parameters are well formed, which has
  -- to be seen of the accessor and not of its target.
  have hparams : ∀ a ∈ d.product.accessors, ∀ t ∈ a.method.params, t.WellNamed := by
    intro a ha t ht
    rcases List.getElem?_of_mem ha with ⟨i, hi⟩
    rw [h.eq_accessorAt i a hi] at ht
    exact Request.wellNamed_of_mem_accessorParams (hnamed a ha) ht
  have hnames := h.nodup_names
  rw [List.Nodup, List.pairwise_map] at hnames ⊢
  refine hnames.imp_of_mem fun {a b} ha hb hne heq => hne ?_
  exact ((ErasedSignature.of_eq_of_iff (hparams a ha) (hparams b hb)).mp heq).1

/-- Whatever a class was asked for, and whatever the tag is, its accessors have
    different names. When the class names in the targets are well formed they
    have different signatures as well. A table of the accessors then has an
    entry for each, and a request for one of them by signature leads to it. -/
theorem accessor_names_never_clash (table : MethodTable) (settings : Settings)
    (name : BinaryName) (version : ClassVersion) (cs : List Call) :
    let accessors := ((start table settings name version).after cs).product.accessors
    (accessors.map (·.method.name)).Nodup ∧
    ((∀ r, .require r ∈ cs → r.target.WellNamed) →
      (accessors.map (·.method.signature)).Nodup ∧
      ∀ context : BinaryName,
        let own := MethodTable.ofCandidates context (accessors.map (·.method))
        own.size = accessors.length ∧
        ∀ a ∈ accessors, Request.resolve ⟨a.method, .signature⟩ own = .ok a.method) := by
  intro accessors
  have hcoherent := coherent_after table settings name version cs
  refine ⟨hcoherent.nodup_names, fun hcs => ?_⟩
  have hnamed : ∀ a ∈ accessors, a.request.target.WellNamed := by
    intro a ha
    rcases require_mem_of_mem_after ha with hmem | hmem
    · cases hmem
    · exact hcs a.request hmem
  have hsignatures := hcoherent.nodup_accessor_signatures hnamed
  refine ⟨hsignatures, ?_⟩
  intro context own
  have hmethods : ((accessors.map (·.method)).map Method.signature).Nodup := by
    rw [List.map_map]
    exact hsignatures
  constructor
  · rw [MethodTable.size_ofCandidates, hmethods.dedup, List.length_map, List.length_map]
  · intro a ha
    -- No other accessor has the signature, so there is no rival in the table.
    have hfound := MethodTable.get?_ofCandidates_of_mem context hmethods (List.mem_map_of_mem ha)
    exact (Request.resolve_eq_ok_iff ⟨a.method, .signature⟩ own a.method).mpr
      (Or.inr ⟨rfl, hfound⟩)

/-- Requests for methods whose names look like those of accessors. -/
def lookalikes : List Request :=
  [⟨⟨⟨"p.Sub"⟩, "run$0$1", [.classRef ⟨"p.Bag"⟩], .void, .accStatic⟩, .identity⟩,
    ⟨⟨⟨"p.Sub"⟩, "run", [.classRef ⟨"p.Bag"⟩], .void, .accStatic⟩, .identity⟩,
    ⟨⟨⟨"p.Sub"⟩, "run", [.classRef ⟨"p.Bag"⟩], .void, .accStatic⟩, .signature⟩,
    ⟨⟨⟨"p.Sub"⟩, "run$0$1$0", [.typeVar "T" ⟨"p.Bag"⟩], .void, .accStatic⟩, .identity⟩]

/-- Targets and a tag with separators and digits in them lead to names that begin
    alike, and still each accessor is found under its own. -/
theorem accessor_names_never_clash_lookalikes :
    let d := start (.empty ⟨"p.Sub"⟩) (.ofChanges [.tag "0"]) ⟨"p.Aux"⟩ .standard
    let accessors := (d.after (lookalikes.map .require)).product.accessors
    accessors.map (·.method.name) = ["run$0$1$0$0", "run$0$1", "run$0$1$0$0$2"] ∧
    (MethodTable.ofCandidates ⟨"p.Aux"⟩ (accessors.map (·.method))).size = 3 ∧
    ∀ a ∈ accessors, Request.resolve ⟨a.method, .signature⟩
      (.ofCandidates ⟨"p.Aux"⟩ (accessors.map (·.method))) = .ok a.method := by
  intro d accessors
  have hall : ∀ r ∈ lookalikes, r.target.WellNamed := by decide +kernel
  rcases accessor_names_never_clash (.empty ⟨"p.Sub"⟩) (.ofChanges [.tag "0"]) ⟨"p.Aux"⟩ .standard
    (lookalikes.map .require) with ⟨-, hsignatures⟩
  rcases hsignatures fun r hr => hall r (mem_of_require_mem_map hr) with ⟨-, htable⟩
  rcases htable ⟨"p.Aux"⟩ with ⟨hsize, hresolve⟩
  exact ⟨by decide +kernel, hsize.trans (by decide +kernel), hresolve⟩

end Draft

end SyntheticAccess
