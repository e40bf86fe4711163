import SyntheticAccess.AccessFlags
import SyntheticAccess.Text.Blank
import SyntheticAccess.Text.Numeral

/-!
# Access Flags as Text

The form flags take in stored documents: the names of the flags that are set,
separated by bars, and the bits without a name as one hexadecimal numeral at
the end. Every value has exactly one written form.

Reading is more generous. The parts may come in any order, may repeat and
overlap, may be surrounded by blanks, and may use the name of the three level
bits together, which writing never does. A part that is empty or unknown makes
the whole text unreadable.

## Main definitions

* `AccessFlags.named`: The flags of one bit with their names.
* `AccessFlags.toText`: The written form.
* `AccessFlags.ofText?`: Reading a text.
-/

namespace SyntheticAccess

namespace AccessFlags

/-- The flags of one bit with their names, from the lowest bit up. -/
def named : List (String × AccessFlags) :=
  [("PUBLIC", accPublic), ("PRIVATE", accPrivate), ("PROTECTED", accProtected),
    ("STATIC", accStatic), ("FINAL", accFinal), ("BRIDGE", accBridge), ("VARARGS", accVarargs),
    ("ABSTRACT", accAbstract), ("SYNTHETIC", accSynthetic)]

/-- The union of a list of flag sets. -/
def unionAll (fs : List AccessFlags) : AccessFlags :=
  fs.foldr (· ∪ ·) ∅

/-- All bits that have a name. -/
def allNamed : AccessFlags :=
  unionAll (named.map (·.2))

/-- The names of the flags that are set. -/
def setNames (f : AccessFlags) : List String :=
  (named.filter fun e => f.has e.2).map (·.1)

/-- The parts of the written form: names, then the remaining bits if any. -/
def textParts (f : AccessFlags) : List String :=
  let rest := (f.without allNamed).bits.toNat
  f.setNames ++ if rest = 0 then [] else [String.ofList ('0' :: 'x' :: hexadecimal rest)]

/-- The written form of a flag set. -/
def toText (f : AccessFlags) : String :=
  " | ".intercalate f.textParts

/-- The flags that one part of a text stands for: a numeral of sixteen bits
    after `0x`, or a name. -/
def readPart : List Char → Option AccessFlags
  | '0' :: 'x' :: digits =>
    (readHexadecimal digits).bind fun n =>
      if n < 0x10000 then some ⟨BitVec.ofNat 16 n⟩ else none
  | cs => (("VISIBILITY", levelMask) :: named).lookup (String.ofList cs)

/-- The flags that a text stands for. A blank text has none. -/
def ofText? (text : String) : Option AccessFlags :=
  if trimBlanks text.toList = [] then some ∅
  else ((text.toList.splitOn '|').mapM fun part => readPart (trimBlanks part)).map unionAll

end AccessFlags

end SyntheticAccess
