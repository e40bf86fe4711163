/-!
# Resolutions

How the target of an accessor request becomes the method that is called. One
kind of request is trusted as it stands, the other only states a signature and
leaves it to a method table which method that is.

## Main definitions

* `Resolution`: The two ways of resolving a target.
* `Resolution.word`: The word for a resolution in listings and events.
-/

namespace SyntheticAccess

/-- How a requested method is turned into the one that is called. -/
inductive Resolution where
  /-- The request is trusted: what is named is what is called. -/
  | identity
  /-- The request names a signature, and what the method table of the
      instrumented class has under it is called. -/
  | signature
  deriving DecidableEq, Ord

namespace Resolution

/-- The word for a resolution. -/
def word : Resolution → String
  | identity => "identity"
  | signature => "signature"

end Resolution

end SyntheticAccess
