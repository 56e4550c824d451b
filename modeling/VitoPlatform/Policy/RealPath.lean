import VitoPlatform.Policy.Confinement

/-!
# A real path as a request

The rules of a policy, checked at the real path of an object, against the evaluator asked for
this path. The two agree as long as the path means itself when it is requested: the evaluator
decodes percent signs, turns backslashes and refuses control characters.
-/

namespace Policy

open Text PosixPath

/-- A text that means the same as a path and as a request. -/
def Plain (p : Str) : Prop := ∀ c ∈ p, c ≠ '%' ∧ c ≠ '\\' ∧ isControl c = false

section RealPath

variable {host : Host} {location : List Str}

end RealPath

end Policy
