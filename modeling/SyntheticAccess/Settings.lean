import SyntheticAccess.AccessFlags

/-!
# Settings

What may be chosen about generated classes: the flags of the class, the flags
of its accessors, and the tag in the names of accessors. Accessors are static
whatever is chosen. Settings are built by applying changes one after the other
to the standard settings, and a later change acts on what earlier ones left.

## Main definitions

* `Settings`: The choices.
* `Settings.standard`: The choices when none are made.
* `Settings.Change`, `Settings.apply`: One choice, and making it.
* `Settings.ofChanges`: Choices made in a sequence.
* `Settings.staticAccessorFlags`: The flags that accessors get.
-/

namespace SyntheticAccess

/-- The choices that can be made about generated classes. -/
structure Settings where
  typeFlags : AccessFlags
  accessorFlags : AccessFlags
  /-- The middle part of the names of accessors. -/
  tag : String
  deriving DecidableEq

namespace Settings

/-- Classes for the package alone, with accessors that are hidden from source
    code like the classes themselves. -/
def standard : Settings where
  typeFlags := .accSynthetic
  accessorFlags := .accStatic ∪ .accSynthetic
  tag := "accessor"

/-- One choice. -/
inductive Change where
  | typeFlags (f : AccessFlags)
  /-- Who may use the class, leaving its other flags as they are. -/
  | typeLevel (l : AccessLevel)
  | accessorFlags (f : AccessFlags)
  | tag (s : String)
  deriving DecidableEq

/-- Make a choice. -/
def apply (s : Settings) : Change → Settings
  | .typeFlags f => { s with typeFlags := f }
  | .typeLevel l => { s with typeFlags := s.typeFlags.withLevel l }
  | .accessorFlags f => { s with accessorFlags := f }
  | .tag t => { s with tag := t }

/-- The standard settings after a sequence of choices. -/
def ofChanges (changes : List Change) : Settings :=
  changes.foldl apply standard

/-- The flags that accessors get. Whatever was chosen, they are static, because
    they are called without an instance of the class that holds them. -/
def staticAccessorFlags (s : Settings) : AccessFlags :=
  s.accessorFlags ∪ .accStatic

end Settings

end SyntheticAccess
