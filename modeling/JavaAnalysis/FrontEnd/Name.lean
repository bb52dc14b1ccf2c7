/-!
# Names of front-ends
-/

set_option autoImplicit false

namespace JavaAnalysis

/-- What a front-end is called, and which version of it is meant. -/
structure FrontEndName where
  name : String
  version : String
deriving DecidableEq, Repr, Inhabited

/-- The front-end that is used unless another one is given. -/
def FrontEndName.standard : FrontEndName := ⟨"javelin-java", "0.1.0"⟩

end JavaAnalysis
