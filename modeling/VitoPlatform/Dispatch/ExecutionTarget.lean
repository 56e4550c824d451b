import VitoPlatform.Library.Json
import VitoPlatform.Invocation.Types

/-!
# The execution target of a build

`code-build-execution-target.ts` and the tiers of `execution-tier.ts`: what exactly an approved
build runs on, and the checks by which it is recognized. A regular expression of the source is
a predicate on the text; all of its classes are ASCII.
-/

namespace Dispatch

open Text Invocation

inductive ExecutionTier where
  | localIsolated
  | cloudGoverned
  deriving DecidableEq

/-- A cloud execution profile with the bound on the duration, as the registry holds it. -/
structure RegisteredProfile extends CloudExecutionProfile where
  maxDurationMs : Int

/-- `CloudExecutionProfileRegistry`: the profile bound to a provider code. -/
abbrev CloudExecutionProfileRegistry := Str → Option RegisteredProfile

namespace CloudExecutionProfileRegistry

/-- Raw lookup, disabled profiles included. -/
def peek (registry : CloudExecutionProfileRegistry) (providerCode : Str) :
    Option RegisteredProfile :=
  registry providerCode

def resolve (registry : CloudExecutionProfileRegistry) (providerCode : Str) :
    Option RegisteredProfile :=
  (registry providerCode).filter fun profile => profile.enabled

end CloudExecutionProfileRegistry

def resolveExecutionTier (providerType : ProviderType)
    (cloudProfile : Option RegisteredProfile) : Option ExecutionTier :=
  if providerType = .localTool then
    if cloudProfile.isNone then some .localIsolated else none
  else if isCloudGovernedProviderType providerType then
    if cloudProfile.any fun profile => profile.enabled then some .cloudGoverned else none
  else none

def isLowerOrDigit (c : Char) : Bool :=
  ('a' ≤ c && c ≤ 'z') || ('0' ≤ c && c ≤ '9')

def isNameChar (c : Char) : Bool := isLowerOrDigit c || c == '.' || c == '_' || c == '-'

/-- `FEATURE_BRANCH`. -/
def isFeatureBranch (branch : Str) : Bool :=
  startsWith branch "feat/".toList &&
    match branch.drop 5 with
    | first :: rest => isLowerOrDigit first && rest.all fun c => isLowerOrDigit c || c == '-'
    | [] => false

/-- `PROVIDER_CODE`. -/
def isProviderCode (code : Str) : Bool :=
  1 ≤ code.length && code.length ≤ 128 &&
    code.all fun c => isNameChar c || ('A' ≤ c && c ≤ 'Z')

/-- `COMMAND_ALIAS`. -/
def isCommandAlias (name : Str) : Bool :=
  match name with
  | first :: rest => isLowerOrDigit first && rest.length ≤ 63 && rest.all isNameChar
  | [] => false

def CODE_BUILD_EXECUTION_TARGET_VERSION : Str := "CODE_BUILD_TARGET_V1".toList
def CODE_BUILD_REPOSITORY : Str := "lavolpeofficial/vito-platform".toList
def CODE_BUILD_BASE_REF : Str := "main".toList

structure CodeBuildExecutionTarget where
  version : Str
  organizationId : Str
  missionId : Str
  workflowRunId : Str
  workflowStepRunId : Str
  repository : Str
  publicationBranch : Str
  baseRef : Str
  providerId : Str
  providerCode : Str
  executionTier : ExecutionTier
  commandAlias : Str

def isCodeBuildExecutionTarget (target : CodeBuildExecutionTarget) : Bool :=
  target.version == CODE_BUILD_EXECUTION_TARGET_VERSION && target.organizationId != [] &&
    target.missionId != [] && target.workflowRunId != [] && target.workflowStepRunId != [] &&
    target.repository == CODE_BUILD_REPOSITORY && isFeatureBranch target.publicationBranch &&
    target.baseRef == CODE_BUILD_BASE_REF && target.providerId != [] &&
    isProviderCode target.providerCode && isCommandAlias target.commandAlias

/-- What an approval is given for. -/
structure ApprovalScope where
  organizationId : Str
  missionId : Str
  repository : Str
  branch : Str

def codeBuildTargetMatchesApprovalScope (target : CodeBuildExecutionTarget)
    (input : ApprovalScope) : Bool :=
  target.organizationId == input.organizationId && target.missionId == input.missionId &&
    target.repository == input.repository && target.publicationBranch == input.branch

theorem codeBuildTargetMatchesApprovalScope_iff {target : CodeBuildExecutionTarget}
    {input : ApprovalScope} :
    codeBuildTargetMatchesApprovalScope target input = true ↔
      (⟨target.organizationId, target.missionId, target.repository,
        target.publicationBranch⟩ : ApprovalScope) = input := by
  obtain ⟨organizationId, missionId, repository, branch⟩ := input
  simp [codeBuildTargetMatchesApprovalScope, and_assoc]

end Dispatch
