import SyntheticAccess.AccessorClass

/-!
# Listings

The readable form of an accessor class: a header, a comment with the version,
the fields, and a block for each accessor with its signature, what it forwards
to, how many local variables it uses and its instructions. A listing is a
function of the class alone, so equal classes have equal listings.

The text is put together from lines, and every line ends in a line feed, the
last one too.

## Main definitions

* `Field.declaration`, `Method.declaration`: Members as a listing shows them.
* `Accessor.lines`: The block of an accessor.
* `AccessorClass.lines`: The whole listing.
* `AccessorClass.listingText`: Its text.
* `Listing`: A text with the name of the class it lists.
-/

namespace SyntheticAccess

/-- The line for a field. -/
def Field.declaration (f : Field) : String :=
  "  " ++ " ".intercalate (f.flags.words ++ [f.type.display, f.name]) ++ ";"

/-- The line for the signature of an accessor. -/
def Method.declaration (m : Method) : String :=
  "  " ++ " ".intercalate (m.flags.words ++ [m.result.display]) ++ " " ++ m.name ++
    "(" ++ ", ".intercalate (m.params.map SigType.display) ++ ");"

/-- The block of an accessor. A blank line sets it off from what is above. -/
def Accessor.lines (a : Accessor) : List String :=
  "" :: a.method.declaration ::
    ("    // " ++ a.request.resolution.word ++ " -> " ++ a.resolved.display) ::
    ("    locals: " ++ decimal a.code.maxLocals.toNat) ::
    a.code.instrs.map fun i => "      " ++ i.display

namespace AccessorClass

/-- The first line: the words for the flags, the name, and an opening brace. -/
def header (c : AccessorClass) : String :=
  " ".intercalate (c.flags.words ++ ["class"]) ++ " " ++ c.name.text ++ " \x7b"

/-- The lines of a listing. -/
def lines (c : AccessorClass) : List String :=
  c.header :: ("  // class file version " ++ c.version.display) ::
    (c.fields.map Field.declaration ++ c.accessors.flatMap Accessor.lines ++ ["\x7d"])

/-- The listing of a class as text. -/
def listingText (c : AccessorClass) : String :=
  String.join (c.lines.map (· ++ "\n"))

end AccessorClass

/-- The text that stands for an emitted class. -/
structure Listing where
  name : BinaryName
  text : String
  deriving DecidableEq

/-- The listing of a class under its name. -/
def AccessorClass.listing (c : AccessorClass) : Listing :=
  ⟨c.name, c.listingText⟩

end SyntheticAccess
