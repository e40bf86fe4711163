/-!
# Access Flags

The flags of classes, methods and fields, as the sixteen bits that class files
store. Bits without a name are legal and are kept by every operation, so two
flag sets are equal only when all sixteen bits are.

Three of the flags say who may use a member. They are separate bits and a value
may carry several of them, which no declaration would do. `level` settles this
by taking the most restrictive reading first: a private bit decides, then a
protected one, then a public one.

## Main definitions

* `AccessFlags`: Sixteen flag bits.
* `AccessFlags.has`: All bits of one value are set in another.
* `AccessLevel`: Who may use a member.
* `AccessFlags.level`, `AccessFlags.withLevel`: Reading and replacing the level.
* `AccessFlags.ofLevel`, `AccessFlags.levelMask`: The flag of a level, and all of them.
* `AccessFlags.words`: The words a declaration with the flags starts with.

## Theorems

* `has_iff`, `has_twoPow`: Having flags, bit by bit.
* `has_union_right`: What was added is there.
* `level_withLevel`: The level last set is the level read.
* `and_levelMask_withLevel`, `without_withLevel`: What setting a level does to
  the level bits, and to the others.
* `withLevel_withLevel`: Of two levels the second one counts.
-/

namespace SyntheticAccess

/-- Who may use a member, from the fewest to the most. -/
inductive AccessLevel where
  /-- Only the declaring class. -/
  | privateAccess
  /-- The classes of the package. -/
  | packageAccess
  /-- The package and all subclasses. -/
  | protectedAccess
  /-- Every class. -/
  | publicAccess
  deriving DecidableEq, Ord

/-- The flag bits of a class, method or field. -/
structure AccessFlags where
  /-- The bits in the layout of class files. -/
  bits : BitVec 16
  deriving DecidableEq

namespace AccessFlags

instance : EmptyCollection AccessFlags := ⟨⟨0⟩⟩

instance : Union AccessFlags := ⟨fun f g => ⟨f.bits ||| g.bits⟩⟩

/-- Usable by every class. -/
def accPublic : AccessFlags := ⟨0x0001⟩

/-- Usable by the declaring class. -/
def accPrivate : AccessFlags := ⟨0x0002⟩

/-- Usable by the package and by subclasses. -/
def accProtected : AccessFlags := ⟨0x0004⟩

/-- Belongs to the class and not to its instances. -/
def accStatic : AccessFlags := ⟨0x0008⟩

/-- May not be overridden or changed. -/
def accFinal : AccessFlags := ⟨0x0010⟩

/-- A method the compiler added to keep an erased signature callable. -/
def accBridge : AccessFlags := ⟨0x0040⟩

/-- A method that takes a variable number of arguments. -/
def accVarargs : AccessFlags := ⟨0x0080⟩

/-- Has no body of its own. -/
def accAbstract : AccessFlags := ⟨0x0400⟩

/-- Does not appear in source code. -/
def accSynthetic : AccessFlags := ⟨0x1000⟩

/-- The three bits that say who may use a member. -/
def levelMask : AccessFlags := accPublic ∪ accPrivate ∪ accProtected

/-- Whether every bit of `g` is set in `f`. -/
def has (f g : AccessFlags) : Bool :=
  f.bits &&& g.bits == g.bits

/-- The bits of `f` that are not set in `g`. -/
def without (f g : AccessFlags) : AccessFlags :=
  ⟨f.bits &&& ~~~g.bits⟩

/-- Who may use a member with these flags. -/
def level (f : AccessFlags) : AccessLevel :=
  if f.has accPrivate then .privateAccess
  else if f.has accProtected then .protectedAccess
  else if f.has accPublic then .publicAccess
  else .packageAccess

/-- The one flag that states a level; package access is stated by none. -/
def ofLevel : AccessLevel → AccessFlags
  | .privateAccess => accPrivate
  | .packageAccess => ∅
  | .protectedAccess => accProtected
  | .publicAccess => accPublic

/-- The same flags with another level. -/
def withLevel (f : AccessFlags) (l : AccessLevel) : AccessFlags :=
  f.without levelMask ∪ ofLevel l

/-- The word for a level, if there is one. -/
def levelWord : AccessLevel → Option String
  | .privateAccess => some "private"
  | .packageAccess => none
  | .protectedAccess => some "protected"
  | .publicAccess => some "public"

/-- The words of a declaration, in the order in which they are written. The
    flags for variable arguments and those without a name have none. -/
def words (f : AccessFlags) : List String :=
  (levelWord f.level).toList ++
    ([(accAbstract, "abstract"), (accStatic, "static"), (accFinal, "final"),
      (accSynthetic, "synthetic"), (accBridge, "bridge")].filter fun e => f.has e.1).map (·.2)

theorem bits_union (f g : AccessFlags) : (f ∪ g).bits = f.bits ||| g.bits := rfl

theorem bits_empty : (∅ : AccessFlags).bits = 0 := rfl

/-- Flag sets are compared bit by bit. -/
theorem has_iff (f g : AccessFlags) :
    f.has g = true ↔ ∀ i, i < 16 → g.bits.getLsbD i = true → f.bits.getLsbD i = true := by
  rw [has, beq_iff_eq]
  constructor
  · intro h i _ hg
    rw [← h, BitVec.getLsbD_and] at hg
    exact (Bool.and_eq_true_iff.mp hg).1
  · intro h
    apply BitVec.eq_of_getLsbD_eq
    intro i hi
    rw [BitVec.getLsbD_and]
    -- A bit that is not asked for is in neither side.
    cases hg : g.bits.getLsbD i with
    | false => rw [Bool.and_false]
    | true => rw [h i hi hg, Bool.and_true]

theorem has_union_right (f g : AccessFlags) : (f ∪ g).has g = true := by
  rw [has_iff]
  intro i _ hg
  rw [bits_union, BitVec.getLsbD_or, hg, Bool.or_true]

/-- Whether a flag of one bit is set is one bit of the value. -/
theorem has_twoPow (f : AccessFlags) {n : Nat} (hn : n < 16) :
    f.has ⟨BitVec.twoPow 16 n⟩ = f.bits.getLsbD n := by
  rw [Bool.eq_iff_iff, has_iff]
  constructor
  · exact fun h => h n hn (by simp [hn])
  · intro h i _ hi
    simp only [BitVec.getLsbD_twoPow, Bool.and_eq_true, decide_eq_true_eq] at hi
    rw [← hi.2]
    exact h

/-- The three bits of the level are those of the level that was set. -/
theorem getLsbD_withLevel (f : AccessFlags) (l : AccessLevel) {i : Nat}
    (h : levelMask.bits.getLsbD i = true) :
    (f.withLevel l).bits.getLsbD i = (ofLevel l).bits.getLsbD i := by
  simp only [withLevel, without, bits_union, BitVec.getLsbD_or, BitVec.getLsbD_and,
    BitVec.getLsbD_not, h, Bool.not_true, Bool.and_false, Bool.false_or]

/-- The level of a value after it was given one. The other bits do not count,
    because the three bits of the level are cleared first. -/
theorem level_withLevel (f : AccessFlags) (l : AccessLevel) : (f.withLevel l).level = l := by
  -- The level is read from three bits, and each of them is that of the level that was set.
  have h0 : (f.withLevel l).has accPublic = (ofLevel l).bits.getLsbD 0 := by
    rw [show accPublic = ⟨BitVec.twoPow 16 0⟩ from rfl, has_twoPow _ (by decide)]
    exact getLsbD_withLevel f l (by decide)
  have h1 : (f.withLevel l).has accPrivate = (ofLevel l).bits.getLsbD 1 := by
    rw [show accPrivate = ⟨BitVec.twoPow 16 1⟩ from rfl, has_twoPow _ (by decide)]
    exact getLsbD_withLevel f l (by decide)
  have h2 : (f.withLevel l).has accProtected = (ofLevel l).bits.getLsbD 2 := by
    rw [show accProtected = ⟨BitVec.twoPow 16 2⟩ from rfl, has_twoPow _ (by decide)]
    exact getLsbD_withLevel f l (by decide)
  rw [level, h0, h1, h2]
  cases l <;> decide

/-- The flag of a level is one of the three bits, or none. -/
theorem getLsbD_ofLevel_of_not (l : AccessLevel) {i : Nat} (hi : i < 16)
    (h : levelMask.bits.getLsbD i = false) : (ofLevel l).bits.getLsbD i = false := by
  have hmask : levelMask.has (ofLevel l) = true := by
    cases l <;> decide
  rw [Bool.eq_false_iff]
  intro hbit
  rw [(has_iff _ _).mp hmask i hi hbit] at h
  cases h

/-- Of the three level bits only that of the new level is set. -/
theorem and_levelMask_withLevel (f : AccessFlags) (l : AccessLevel) :
    (f.withLevel l).bits &&& levelMask.bits = (ofLevel l).bits := by
  apply BitVec.eq_of_getLsbD_eq
  intro i hi
  rw [BitVec.getLsbD_and]
  -- Within the mask the bits are those of the level, and outside of it neither side has any.
  cases hmask : levelMask.bits.getLsbD i with
  | true => rw [Bool.and_true, getLsbD_withLevel f l hmask]
  | false => rw [Bool.and_false, getLsbD_ofLevel_of_not l hi hmask]

/-- The bits that do not concern the level are what they were. -/
theorem without_withLevel (f : AccessFlags) (l : AccessLevel) :
    (f.withLevel l).without levelMask = f.without levelMask := by
  have hbits : ((f.withLevel l).without levelMask).bits = (f.without levelMask).bits := by
    apply BitVec.eq_of_getLsbD_eq
    intro i hi
    cases hmask : levelMask.bits.getLsbD i with
    | true => simp only [without, BitVec.getLsbD_and, BitVec.getLsbD_not, hmask, Bool.not_true,
        Bool.and_false]
    | false =>
        -- The flag of the level is not among the bits that are left.
        simp only [withLevel, without, bits_union, BitVec.getLsbD_and, BitVec.getLsbD_or,
          BitVec.getLsbD_not, getLsbD_ofLevel_of_not l hi hmask, hmask, hi, decide_true,
          Bool.not_false, Bool.and_true, Bool.or_false]
  exact congrArg AccessFlags.mk hbits

/-- A level that is set over another one leaves no trace of it. -/
theorem withLevel_withLevel (f : AccessFlags) (k l : AccessLevel) :
    (f.withLevel k).withLevel l = f.withLevel l := by
  rw [withLevel, without_withLevel, withLevel]

end AccessFlags

end SyntheticAccess
