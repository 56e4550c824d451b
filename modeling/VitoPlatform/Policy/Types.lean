import VitoPlatform.Library.Text

/-!
# The vocabulary of the execution policy

Profiles, actions, reason codes, the policy configuration, the evaluation context and the
decision record, as `execution-policy.ts` declares them. A place typed by an enumeration
can hold any text at run time, so the context carries an `EnumValue`: the membership tests
of the evaluator are decisions about it.
-/

namespace Policy

open Text

/-- A run-time value in a place typed by the enumeration `α`. -/
inductive EnumValue (α : Type) where
  | known (value : α)
  | unknown (text : Str)
  deriving DecidableEq

/-- `Object.values(E).includes(v)`, returning the member. -/
def EnumValue.member? {α : Type} : EnumValue α → Option α
  | .known value => some value
  | .unknown _ => none

inductive ExecutionProfile where
  | builder
  | reviewer
  | orchestrator
  | releaseAuthority
  deriving DecidableEq

inductive ExecutionAction where
  | readFile
  | writeFile
  | createFile
  | deleteFile
  | runCommand
  | networkAccess
  | readSecret
  | gitRead
  | gitCommit
  | gitPush
  | gitMerge
  | gitRebase
  | gitBranchDelete
  | remoteRefDelete
  deriving DecidableEq

inductive PolicyReasonCode where
  | policyAllowed
  | policyMissing
  | policyInvalid
  | executionProfileUnknown
  | actionUnknown
  | pathOutsideAllowedRoot
  | pathExplicitlyDenied
  | pathTraversalRejected
  | homeAccessDenied
  | secretAccessDenied
  | reviewerWriteDenied
  | commandNotAllowed
  | gitCommitDenied
  | gitPushDenied
  | gitMergeDenied
  | gitRebaseDenied
  | gitBranchDeleteDenied
  | remoteRefDeleteDenied
  | networkAccessDenied
  | releaseGateNotApproved
  | executionTimeout
  | executionBudgetExceeded
  deriving DecidableEq

/-- `POLICY_REASON_MESSAGES`. -/
def policyReasonMessage : PolicyReasonCode → String
  | .policyAllowed => "Action is permitted by policy."
  | .policyMissing => "No execution policy is defined for this context."
  | .policyInvalid => "Policy definition is malformed or unresolvable."
  | .executionProfileUnknown => "Execution profile is not recognized."
  | .actionUnknown => "Requested action is not recognized."
  | .pathOutsideAllowedRoot => "Requested path is outside the allowed root."
  | .pathExplicitlyDenied => "Requested path matches an explicitly denied path pattern."
  | .pathTraversalRejected => "Path traversal attempt detected and rejected."
  | .homeAccessDenied => "Unrestricted HOME access is denied."
  | .secretAccessDenied => "Access to secrets is denied."
  | .reviewerWriteDenied => "Reviewer profile may not write production/source files."
  | .commandNotAllowed => "Command is not classified as allowed."
  | .gitCommitDenied => "Git commit is denied before approved release gate."
  | .gitPushDenied => "Git push is denied before approved release gate."
  | .gitMergeDenied => "Git merge is denied in EO-01 v0.1."
  | .gitRebaseDenied => "Git rebase is denied in EO-01 v0.1."
  | .gitBranchDeleteDenied => "Git branch deletion is denied."
  | .remoteRefDeleteDenied => "Remote ref deletion is denied."
  | .networkAccessDenied => "Network access requires explicit policy grant."
  | .releaseGateNotApproved => "Release gate is not approved."
  | .executionTimeout => "Execution exceeded maximum allowed duration."
  | .executionBudgetExceeded => "Execution exceeded budget constraints."

inductive ReleaseGateStatus where
  | notRequested
  | pending
  | approved
  | rejected
  deriving DecidableEq

/-- The fields of `ExecutionPolicyConfig` that the evaluator reads. -/
structure ExecutionPolicyConfig where
  policyVersion : Str
  allowedRoot : Str
  deniedPaths : List Str
  allowedCommands : List Str
  trustedCodingAgentAliases : Option (List Str)
  trustedReviewerAgentAliases : Option (List Str)
  allowNetwork : Bool
  allowGitCommit : Bool
  allowGitPush : Bool
  deriving DecidableEq

structure PolicyEvaluationContext where
  executionProfile : EnumValue ExecutionProfile
  requestedAction : EnumValue ExecutionAction
  requestedPath : Option Str
  requestedCommand : Option Str
  homeDir : Option Str
  policy : Option ExecutionPolicyConfig
  releaseGateStatus : Option ReleaseGateStatus
  organizationId : Option Str
  workflowRunId : Option Str
  workflowStepRunId : Option Str
  correlationId : Option Str

structure PolicyDecision where
  allowed : Bool
  executionProfile : EnumValue ExecutionProfile
  requestedAction : EnumValue ExecutionAction
  reasonCode : PolicyReasonCode
  reason : String
  organizationId : Option Str
  workflowRunId : Option Str
  workflowStepRunId : Option Str
  correlationId : Option Str
  requestedPath : Option Str
  normalizedPath : Option Str
  requestedCommand : Option Str
  policyVersion : Str
  /-- Milliseconds since the epoch. -/
  evaluatedAt : Int

def allow (base : PolicyDecision) (reason : String) : PolicyDecision :=
  { base with allowed := true, reasonCode := .policyAllowed, reason := reason }

def deny (base : PolicyDecision) (reasonCode : PolicyReasonCode) (reason : String) :
    PolicyDecision :=
  { base with allowed := false, reasonCode := reasonCode, reason := reason }

@[simp] theorem allow_allowed (base : PolicyDecision) (reason : String) :
    (allow base reason).allowed = true := rfl

@[simp] theorem deny_allowed (base : PolicyDecision) (code : PolicyReasonCode)
    (reason : String) : (deny base code reason).allowed = false := rfl

@[simp] theorem allow_normalizedPath (base : PolicyDecision) (reason : String) :
    (allow base reason).normalizedPath = base.normalizedPath := rfl

/-- `createBuilderPolicy`, restricted to the fields the evaluator reads. -/
def createBuilderPolicy (worktreeRoot : Str) : ExecutionPolicyConfig where
  policyVersion := "eo-01.4-v1".toList
  allowedRoot := worktreeRoot
  deniedPaths := [".env", ".env.*", ".ssh/", ".gnupg/", ".aws/"].map String.toList
  allowedCommands :=
    ["git status", "git diff", "git show", "git log", "git rev-parse",
      "git branch --show-current", "npm test", "npm run test", "npm run build",
      "npm run lint", "yarn test", "yarn run test", "yarn run build", "yarn run lint",
      "pnpm test", "pnpm run test", "pnpm run build", "pnpm run lint", "tsc", "eslint",
      "prettier", "jest", "vitest", "npx prisma generate", "prisma generate"].map
      String.toList
  trustedCodingAgentAliases := none
  trustedReviewerAgentAliases := none
  allowNetwork := false
  allowGitCommit := false
  allowGitPush := false

/-- `createReviewerPolicy`, restricted to the fields the evaluator reads. -/
def createReviewerPolicy (worktreeRoot : Str) : ExecutionPolicyConfig where
  policyVersion := "eo-01.4-v1".toList
  allowedRoot := worktreeRoot
  deniedPaths := [".env", ".env.*", ".ssh/", ".gnupg/", ".aws/"].map String.toList
  allowedCommands :=
    ["git status", "git diff", "git show", "git log", "git rev-parse",
      "git branch --show-current", "npm test", "npm run test", "npm run lint", "yarn test",
      "yarn run test", "yarn run lint", "pnpm test", "pnpm run test", "pnpm run lint", "jest",
      "vitest"].map String.toList
  trustedCodingAgentAliases := none
  trustedReviewerAgentAliases := none
  allowNetwork := false
  allowGitCommit := false
  allowGitPush := false

end Policy
