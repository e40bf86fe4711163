import SyntheticAccess.Text.Numeral

/-!
# Class File Versions

The version of the format that a class file is written in. Each release of the
platform raised the major number by one, and release 5 wrote 49, so the major
number of a release is the release plus 44. Versions before that release are
not offered by number. The order is by major, then by minor number.

## Main definitions

* `ClassVersion`: A major and a minor number.
* `ClassVersion.ofRelease?`: The version of a platform release.
* `ClassVersion.standard`: The version that is used when none is given.
* `ClassVersion.display`: Both numbers with a dot between them.

## Theorems

* `ofRelease?_eq_none_iff`: Which releases have no version.
-/

namespace SyntheticAccess

/-- A version of the class file format. -/
structure ClassVersion where
  major : UInt16
  minor : UInt16
  deriving DecidableEq, Ord

namespace ClassVersion

/-- The version that a release of the platform writes, unless the release is
    older than 5 or its number does not fit. -/
def ofRelease? (release : UInt16) : Option ClassVersion :=
  if release.toNat < 5 then none
  else if release.toNat + 44 < 0x10000 then some ⟨release + 44, 0⟩
  else none

/-- The version of release 5. -/
def release5 : ClassVersion := ⟨49, 0⟩

/-- The version of release 6. -/
def release6 : ClassVersion := ⟨50, 0⟩

/-- The version of release 7. -/
def release7 : ClassVersion := ⟨51, 0⟩

/-- The version of release 8. -/
def release8 : ClassVersion := ⟨52, 0⟩

/-- The version of release 11. -/
def release11 : ClassVersion := ⟨55, 0⟩

/-- The version of release 17. -/
def release17 : ClassVersion := ⟨61, 0⟩

/-- The version of release 21. -/
def release21 : ClassVersion := ⟨65, 0⟩

/-- The version of classes for which none is asked for. -/
def standard : ClassVersion := release8

/-- The version as text. -/
def display (v : ClassVersion) : String :=
  decimal v.major.toNat ++ "." ++ decimal v.minor.toNat

/-- A release has no version when it is older than the fifth or its number does not
    fit. -/
theorem ofRelease?_eq_none_iff (release : UInt16) :
    ofRelease? release = none ↔ release.toNat < 5 ∨ 0x10000 ≤ release.toNat + 44 := by
  rw [ofRelease?]
  split
  · simp [*]
  · split
    · simp only [reduceCtorEq, false_iff]
      omega
    · simp only [true_iff]
      omega

example : ofRelease? 8 = some release8 ∧ ofRelease? 21 = some release21 := by decide

end ClassVersion

end SyntheticAccess
