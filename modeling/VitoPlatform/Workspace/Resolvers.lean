import VitoPlatform.Invocation.Environment

/-!
# The governed workspace

`governed-workspace.resolvers.ts` and `trusted-execution-policy.resolver.ts`: the root of the
workspace from the server configuration, the directory of an organization below it, and the
execution policy over the whole root. What the source throws is `none`, or a program's error.
SHA-256 in hexadecimal digits is a parameter.
-/

namespace Workspace

open Text PosixPath Policy Invocation

/-- The parsed root; `none` is `GOVERNED_WORKSPACE_ROOT_INVALID`. -/
def parseGovernedWorkspaceRoot (raw : Option Str) : Option Str :=
  match truthy raw with
  | none => none
  | some raw =>
      if isAbsolute raw then
        let normalized := normalizePathText raw
        some (if normalized.length > 1 then
          normalized.rdropWhile fun c => c == '/' || c == '\\'
        else normalized)
      else none

/-- The directory name derived from an organization. -/
def governedOrgDirectoryName (sha256 : Str → Str) (organizationId : Str) : Str :=
  sha256 ("vito-governed-org:".toList ++ organizationId)

def orgWorkspaceDirectory (sha256 : Str → Str) (workspaceRoot organizationId : Str) :
    Option Str :=
  (parseGovernedWorkspaceRoot (some workspaceRoot)).map fun root =>
    joinPaths [root, "orgs".toList, governedOrgDirectoryName sha256 organizationId]

/-- A root that the constructors of the resolvers have accepted. -/
structure GovernedWorkspace where
  configured : Option Str
  workspaceRoot : Str
  parsed : parseGovernedWorkspaceRoot configured = some workspaceRoot

/-- `GovernedWorkingDirectoryResolver.resolve`. -/
def GovernedWorkingDirectoryResolver.resolve (sha256 : Str → Str)
    (workspace : GovernedWorkspace) (context : ResolutionContext) : Option Str :=
  orgWorkspaceDirectory sha256 workspace.workspaceRoot context.organizationId

/-- `GovernedHomeDirectoryResolver.resolve`: the same directory. -/
def GovernedHomeDirectoryResolver.resolve (sha256 : Str → Str)
    (workspace : GovernedWorkspace) (context : ResolutionContext) : Option Str :=
  orgWorkspaceDirectory sha256 workspace.workspaceRoot context.organizationId

/-! ## The execution policy -/

/-- The resolver: its root, and which of its optional collaborators it was given. -/
structure TrustedExecutionPolicyResolver extends GovernedWorkspace where
  providerResolver : Bool
  cloudProfileRegistry : Bool
  trustedExecutableResolver : Bool

namespace TrustedExecutionPolicyResolver

/-- The launcher on which provider, cloud profile and executable agree; an error is `none`. -/
def trustedLauncher (context : ResolutionContext)
    (launcherAlias : CloudExecutionProfile → Option Str) : Program (Option Str) :=
  Prog.tryCatch
    (do
      let provider ← ask (.resolveProvider context.providerId context.organizationId)
      match provider with
      | none => pure none
      | some provider =>
          if !isCloudGovernedProviderType provider.providerType then pure none
          else do
            let profile ← ask (.resolveCloudProfile provider.providerCode)
            match truthy (profile.bind fun profile =>
              if profile.enabled then launcherAlias profile else none) with
            | none => pure none
            | some launcher => do
                let trusted ← ask (.resolveExecutable launcher
                  { organizationId := context.organizationId
                    workflowRunId := context.workflowRunId
                    capabilityCode := context.capabilityCode
                    providerId := context.providerId })
                pure (trusted.map fun _ => launcher))
    fun _ => pure none

/-- All collaborators are there, and a command is asked for. -/
def mayTrustLauncher (resolver : TrustedExecutionPolicyResolver)
    (requestedAction : EnumValue ExecutionAction) : Bool :=
  requestedAction == .known .runCommand && resolver.providerResolver &&
    resolver.cloudProfileRegistry && resolver.trustedExecutableResolver

def resolveBuilderPolicy (resolver : TrustedExecutionPolicyResolver)
    (context : ResolutionContext) (requestedAction : EnumValue ExecutionAction) :
    Program ExecutionPolicyConfig :=
  let base := createBuilderPolicy resolver.workspaceRoot
  if context.capabilityCode == "TEST_EXECUTION".toList &&
      resolver.mayTrustLauncher requestedAction then do
    let launcher ← trustedLauncher context (·.testExecutionLauncherAlias)
    match launcher with
    | none => pure base
    | some launcher => pure { base with trustedCodingAgentAliases := some [launcher] }
  else pure base

def resolveReviewerPolicy (resolver : TrustedExecutionPolicyResolver)
    (context : ResolutionContext) (requestedAction : EnumValue ExecutionAction) :
    Program ExecutionPolicyConfig :=
  let base := createReviewerPolicy resolver.workspaceRoot
  if ["REVIEW_PACKAGE", "RED_TEAM", "RELEASE_VERIFICATION"].any
      (fun code => context.capabilityCode == code.toList) &&
      resolver.mayTrustLauncher requestedAction then do
    let launcher ← trustedLauncher context fun profile => some profile.trustedLauncherAlias
    match launcher with
    | none => pure base
    | some launcher => pure { base with trustedReviewerAgentAliases := some [launcher] }
  else pure base

/-- Builder and reviewer have a policy, the other profiles have none. -/
def resolve (resolver : TrustedExecutionPolicyResolver) (context : ResolutionContext)
    (executionProfile : ExecutionProfile) (requestedAction : EnumValue ExecutionAction) :
    Program (Option ExecutionPolicyConfig) :=
  match executionProfile with
  | .builder => do
      let policy ← resolver.resolveBuilderPolicy context requestedAction
      pure (some policy)
  | .reviewer => do
      let policy ← resolver.resolveReviewerPolicy context requestedAction
      pure (some policy)
  | _ => pure none

/-- The paths that every policy of the resolver denies. -/
def deniedPaths : List Str := [".env", ".env.*", ".ssh/", ".gnupg/", ".aws/"].map String.toList

variable {resolver : TrustedExecutionPolicyResolver} {context : ResolutionContext}
variable {requestedAction : EnumValue ExecutionAction} {t : List Happened}

end TrustedExecutionPolicyResolver

end Workspace
