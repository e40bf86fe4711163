import SyntheticAccess.Member

/-!
# Class Declarations

What is known of a class that code may inherit from: its superclass and its
methods. Code in another class, the context, can call those of the methods that
the access rules let it see. A class sees all of its own methods. Of another
class, which is a superclass here, it sees the public and the protected ones,
those with package access when both classes share the package, and no private
ones. Initializers are never called by name and nobody sees them.

## Main definitions

* `ClassDecl`: What is declared about a class.
* `ClassDecl.isCallable`: Whether a method of it can be called from a context.
* `ClassDecl.callable`: All that can be called from a context.
-/

namespace SyntheticAccess

/-- What is declared about a class. -/
structure ClassDecl where
  name : BinaryName
  /-- The class it extends, where that is declared. -/
  superclass : Option BinaryName
  methods : List Method
  deriving DecidableEq

/-- Whether code in the context can call a method that this class declares. -/
def ClassDecl.isCallable (d : ClassDecl) (context : BinaryName) (m : Method) : Bool :=
  !m.initializes &&
    (d.name == context ||
      match m.flags.level with
      | .publicAccess | .protectedAccess => true
      | .packageAccess => d.name.sharesPackage context
      | .privateAccess => false)

/-- The methods of this class that code in the context can call. -/
def ClassDecl.callable (d : ClassDecl) (context : BinaryName) : List Method :=
  d.methods.filter (d.isCallable context)

end SyntheticAccess
