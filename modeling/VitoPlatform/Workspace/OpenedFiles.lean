import VitoPlatform.Policy.Confinement
import VitoPlatform.Workspace.FileTool

/-!
# What the file tool opens

Wherever the file tool succeeds, the object it has opened is the one its target canonicalizes
to, in the sense of the policy's own `canonicalizePath`, and it lies in the dereferenced
working directory. For reading and writing this is the real path of the target. For creating
it takes the probe: the directories are made below the nearest ancestor that exists.
-/

namespace Workspace

open Text PosixPath Policy Invocation

/-! ## What a successful run has opened -/

/-- The adapter has opened the object at `location`, below the dereferenced working directory,
and it is what its target canonicalizes to. -/
structure Opened (host : Host) (target : List Str) (baseReal : Str) (location : List Str) :
    Prop where
  canonical : canonicalizePath host (render target) = some (render location)
  isName : ∀ n ∈ location, IsName n
  inside : ∀ base, baseReal = render base → (∀ n ∈ base, IsName n) → base <+: location

end Workspace
