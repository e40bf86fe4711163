import Mathlib.Data.List.Nodup
import SyntheticAccess.Proofs.FlagText
import SyntheticAccess.Session

/-!
# Stored Classes Are Loaded Again

Writing a class into a document and reading it from there are two functions for
every type that is stored, and nothing but these proofs keeps the two in step.
Each lemma says of one type that what was written is read, and uses the lemmas
of the types that it contains. So there is one for every type, from names and
flags up to whole classes, and when one of the types changes then so do its two
functions and its one lemma.

Three kinds of argument occur. A case without content is stored under its name
and found again because no two cases share a name. A structure is stored as
fields under different keys, so that asking for a key passes over the fields
before it. Types contain types, directly and in lists, so the induction is on a
type and on a list of types at the same time.

The entries of a table are stored as fields too, in any order. They may be read
in any order because they have different signatures, so that no entry replaces
another one.

## Theorems

* `field?_cons_self`, `field?_cons_of_ne`: Asking for a field.
* `load?_save` for each type: What was stored is loaded.
* `MethodTable.load?_of_perm`: The order of entries does not matter.
* `loaded_as_stored`: What loading leads to, for everything that is stored.
* `step_reload`: Reloading a class in a session keeps an equal one.
-/

namespace SyntheticAccess

namespace Document

variable {α : Type}

@[simp] theorem field?_cons_self (key : String) (d : Document) (fs : List (String × Document))
    (load? : Document → Option α) : (fields ((key, d) :: fs)).field? key load? = load? d := by
  rw [field?, List.lookup_cons_self, Option.bind_some]

/-- The fields under other keys are passed over. -/
@[simp] theorem field?_cons_of_ne {key other : String} (h : key ≠ other) (d : Document)
    (fs : List (String × Document)) (load? : Document → Option α) :
    (fields ((other, d) :: fs)).field? key load? = (fields fs).field? key load? := by
  rw [field?, field?, List.lookup_cons, beq_false_of_ne h]

end Document

open Document (list?_map caseOf?_name)

@[simp] theorem BinaryName.load?_save (n : BinaryName) : load? n.save = some n := rfl

@[simp] theorem ErasedSignature.load?_save (s : ErasedSignature) : load? s.save = some s := rfl

/-- Flags are stored as the text that shows them. -/
@[simp] theorem AccessFlags.load?_save (f : AccessFlags) : load? f.save = some f :=
  f.ofText?_toText

/-- A case without content is found again by its name. -/
@[simp] theorem Resolution.load?_save (p : Resolution) : load? p.save = some p :=
  caseOf?_name (fun a b => by cases a <;> cases b <;> decide) (by cases p <;> decide)

@[simp] theorem AccessLevel.load?_save (l : AccessLevel) : load? l.save = some l :=
  caseOf?_name (fun a b => by cases a <;> cases b <;> decide) (by cases l <;> decide)

@[simp] theorem Primitive.load?_save (p : Primitive) : load? p.save = some p :=
  caseOf?_name (fun a b => by cases a <;> cases b <;> decide) (by cases p <;> decide)

@[simp] theorem StackKind.load?_save (k : StackKind) : load? k.save = some k :=
  caseOf?_name (fun a b => by cases a <;> cases b <;> decide) (by cases k <;> decide)

@[simp] theorem CallMode.load?_save (k : CallMode) : load? k.save = some k :=
  caseOf?_name (fun a b => by cases a <;> cases b <;> decide) (by cases k <;> decide)

@[simp] theorem ClassVersion.load?_save (v : ClassVersion) : load? v.save = some v := by
  simp [load?, save]

/-- A position is stored as it is, but only one of 64 bits is loaded. -/
theorem BinaryName.Defect.load?_save {d : Defect}
    (h : ∀ position, d = .gap position → position < 0x10000000000000000) :
    load? d.save = some d := by
  cases d with
  | empty | slashed => rfl
  -- Reading the position checks that it fits.
  | gap position => simp [load?, save, Document.nat?, h position rfl]
  | notIdentifier segment | reserved segment => simp [load?, save, Document.text?]

namespace SigType

mutual

-- Arguments are read by a function for the fields and one for their list, so that the
-- case of a generic type needs the lemma about lists, and that one needs this.
@[simp] theorem load?_save : ∀ t : SigType, load? t.save = some t
  | prim p => by simp [load?, save]
  | classRef n => by simp [load?, save]
  | arrayOf t => by simp [load?, save, load?_save t]
  | generic raw args => by simp [load?, save, loadArgs?, loadItems?, loadAll?_saveAll args]
  | typeVar name bound => by simp [load?, save, Document.text?]

theorem loadAll?_saveAll : ∀ ts : List SigType, loadAll? (saveAll ts) = some ts
  | [] => rfl
  | t :: ts => by simp [loadAll?, saveAll, load?_save t, loadAll?_saveAll ts]

end

end SigType

@[simp] theorem Method.load?_save (m : Method) : load? m.save = some m := by
  have hparams := list?_map fun t (_ : t ∈ m.params) => SigType.load?_save t
  simp [load?, save, Document.text?, hparams]

@[simp] theorem Field.load?_save (f : Field) : load? f.save = some f := by
  simp [load?, save, Document.text?]

@[simp] theorem Instr.load?_save (i : Instr) : load? i.save = some i := by
  cases i <;> simp [load?, save]

@[simp] theorem ForwardCode.load?_save (c : ForwardCode) : load? c.save = some c := by
  have hinstrs := list?_map fun i (_ : i ∈ c.instrs) => Instr.load?_save i
  simp [load?, save, hinstrs]

@[simp] theorem Request.load?_save (r : Request) : load? r.save = some r := by
  simp [load?, save]

@[simp] theorem Accessor.load?_save (a : Accessor) : load? a.save = some a := by
  simp [load?, save]

/-- A class is stored with all members, and the lists of them are read member by
    member. -/
@[simp] theorem AccessorClass.load?_save (c : AccessorClass) : load? c.save = some c := by
  have hfields := list?_map fun f (_ : f ∈ c.fields) => Field.load?_save f
  have haccessors := list?_map fun a (_ : a ∈ c.accessors) => Accessor.load?_save a
  simp [load?, save, hfields, haccessors]

namespace MethodTable

/-- Entries that are filed one after the other are found under their signatures,
    which are all different. -/
theorem get?_foldl_insert {es : List (ErasedSignature × Method)} (h : Ascending es)
    (t : MethodTable) (s : ErasedSignature) :
    (es.foldl (fun t e => t.insert e.1 e.2) t).get? s = (es.lookup s).or (t.get? s) := by
  -- The induction is on the entries, the first of which goes into the table before the others.
  -- Only their ascent tells that none of those has its signature.
  induction es generalizing t with
  | nil => rfl
  | cons e es ih =>
      rcases List.pairwise_cons.mp h with ⟨hfirst, hrest⟩
      rw [List.foldl_cons, ih hrest, get?_insert, List.lookup_cons]
      by_cases hs : s = e.1
      · -- Nothing after the first entry replaces it.
        rw [hs, lookup_eq_none_of_lt hfirst, if_pos rfl, beq_self_eq_true]
        rfl
      · rw [if_neg hs, beq_false_of_ne hs]

theorem context_foldl_insert (es : List (ErasedSignature × Method)) (t : MethodTable) :
    (es.foldl (fun t e => t.insert e.1 e.2) t).context = t.context := by
  induction es generalizing t with
  | nil => rfl
  | cons e es ih => rw [List.foldl_cons, ih, context_insert]

/-- A table is made of its entries. -/
theorem ofEntries_entries (t : MethodTable) : ofEntries t.context t.entries = t := by
  refine ext_get? (context_foldl_insert _ _) fun s => ?_
  rw [ofEntries, get?_foldl_insert t.ascending, get?_empty, Option.or_none]
  rfl

/-- Methods under different signatures may be filed in either order. -/
theorem insert_comm (t : MethodTable) {r s : ErasedSignature} (h : r ≠ s) (m n : Method) :
    (t.insert r m).insert s n = (t.insert s n).insert r m := by
  refine ext_get? rfl fun q => ?_
  rw [get?_insert, get?_insert, get?_insert, get?_insert]
  -- Tables are equal when they have the same method under every signature.
  by_cases hr : q = r
  · rw [if_pos hr, if_pos hr, if_neg (hr ▸ h)]
  · rw [if_neg hr, if_neg hr]

/-- The order of its entries does not matter to a table. -/
theorem ofEntries_of_perm {t : MethodTable} {es : List (ErasedSignature × Method)}
    (h : es.Perm t.entries) : ofEntries t.context es = t := by
  refine Eq.trans (h.foldl_eq' (fun d hd e he u => ?_) _) t.ofEntries_entries
  -- Two entries may change places because they are filed under different signatures, unless they
  -- are one entry.
  by_cases hkey : d.1 = e.1
  · have hnodup : (es.map (·.1)).Nodup := (h.map _).nodup_iff.mpr t.nodup_signatures
    rw [List.inj_on_of_nodup_map hnodup hd he hkey]
  · exact u.insert_comm hkey d.2 e.2

/-- Entries are read in the order in which they were written, whatever it is. -/
theorem loadEntries?_map_saveEntry (es : List (ErasedSignature × Method)) :
    loadEntries? (.fields (es.map saveEntry)) = some es := by
  rw [loadEntries?]
  induction es with
  | nil => rfl
  | cons e es ih =>
      rw [List.map_cons, List.mapM_cons, ih, loadEntry?, saveEntry, Method.load?_save]
      rfl

/-- A table is loaded from its entries in any order. -/
theorem load?_of_perm {t : MethodTable} {es : List (ErasedSignature × Method)}
    (h : es.Perm t.entries) :
    load? (.fields [("context", t.context.save), ("methods", .fields (es.map saveEntry))]) =
      some t := by
  simp [load?, loadEntries?_map_saveEntry, ofEntries_of_perm h]

@[simp] theorem load?_save (t : MethodTable) : load? t.save = some t :=
  load?_of_perm (List.Perm.refl t.entries)

end MethodTable

/-- Reloading a class keeps an equal one under the next number. -/
theorem Session.step_reload {s : Session} {number : Nat} {c : AccessorClass}
    (h : s.classes[number]? = some c) :
    s.step (.reload number) = ⟨.ok (.reloaded s.classes.length true), s.keep c, [], []⟩ := by
  simp only [step, withClass, h, AccessorClass.load?_save, beq_self_eq_true]

/-- Storing loses nothing. Every accessor class is loaded from its document as an
    equal one, whatever its names, types, flags and members are. The two agree in
    every part, have the same listing, and are found in the same stores. The same
    holds for what a class is made of, for defects of names, and for tables, whose
    entries may be stored in any order. -/
theorem loaded_as_stored :
    (∀ c : AccessorClass, ∃ d, AccessorClass.load? c.save = some d ∧ d = c ∧
      c.agrees d = true ∧ d.listingText = c.listingText ∧
      ∀ s : Store, s.lookup d = s.lookup c) ∧
    (∀ t : SigType, SigType.load? t.save = some t) ∧
    (∀ m : Method, Method.load? m.save = some m) ∧
    (∀ f : Field, Field.load? f.save = some f) ∧
    (∀ f : AccessFlags, AccessFlags.load? f.save = some f) ∧
    (∀ s : ErasedSignature, ErasedSignature.load? s.save = some s) ∧
    (∀ d : BinaryName.Defect, (∀ position, d = .gap position → position < 0x10000000000000000) →
      BinaryName.Defect.load? d.save = some d) ∧
    ∀ t : MethodTable, MethodTable.load? t.save = some t ∧
      ∀ es : List (ErasedSignature × Method), es.Perm t.entries →
        MethodTable.load? (.fields [("context", t.context.save),
          ("methods", .fields (es.map MethodTable.saveEntry))]) = some t := by
  refine ⟨fun c => ⟨c, c.load?_save, rfl, (c.agrees_iff c).mpr rfl, rfl, fun _ => rfl⟩,
    SigType.load?_save, Method.load?_save, Field.load?_save, AccessFlags.load?_save,
    ErasedSignature.load?_save, fun d hd => BinaryName.Defect.load?_save hd, fun t => ?_⟩
  exact ⟨t.load?_save, fun es hes => MethodTable.load?_of_perm hes⟩

/-- An array of lists of a type variable. -/
def nestedType : SigType :=
  .arrayOf (.generic ⟨"java.util.List"⟩ [.typeVar "T" ⟨"p.Item"⟩, .arrayOf (.prim .long)])

/-- A method with flags of which some have no name. -/
def oddMethod : Method :=
  ⟨⟨"p.Main"⟩, "a | b", [nestedType], .prim .int, ⟨0x8029⟩⟩

/-- A class with a member of each sort, under a name that is none. -/
def oddClass : AccessorClass :=
  ⟨⟨"not a name"⟩, .standard, ⟨0xffff⟩, [⟨"", nestedType, ∅⟩],
    [⟨oddMethod, ⟨oddMethod, .signature⟩, oddMethod,
      ⟨[.load 0 .reference, .invoke .static oddMethod, .cast nestedType, .ret .int], 1⟩⟩]⟩

/-- A table with two methods. -/
def twoEntries : MethodTable :=
  .ofCandidates ⟨"p.Main"⟩ [oddMethod, { oddMethod with name := "c", params := [] }]

/-- A class with a name that is none, with unnamed flags and with every kind of
    instruction is loaded as it was stored, and so are a defect and a table with its
    entries in reverse. -/
theorem loaded_as_stored_oddClass :
    (∃ d, AccessorClass.load? oddClass.save = some d ∧ d = oddClass ∧
      d.listingText = oddClass.listingText) ∧
    BinaryName.Defect.load? (BinaryName.Defect.gap 7).save = some (.gap 7) ∧
    twoEntries.size = 2 ∧
    MethodTable.load? (.fields [("context", twoEntries.context.save),
      ("methods", .fields (twoEntries.entries.reverse.map MethodTable.saveEntry))]) =
        some twoEntries := by
  rcases loaded_as_stored with ⟨hclass, -, -, -, -, -, hdefect, htable⟩
  refine ⟨?_, hdefect _ ?_, by decide +kernel, ?_⟩
  · rcases hclass oddClass with ⟨d, hload, heq, -, hlisting, -⟩
    exact ⟨d, hload, heq, hlisting⟩
  · intro position hposition
    rw [← BinaryName.Defect.gap.inj hposition]
    decide
  · exact (htable twoEntries).2 _ (List.reverse_perm _)

end SyntheticAccess
