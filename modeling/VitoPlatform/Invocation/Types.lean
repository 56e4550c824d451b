import VitoPlatform.Policy.Evaluate

/-!
# The vocabulary of governed invocations

Requests, provider declarations, bindings and results of `invocation.ts`,
`provider-registry.ts` and `execution.ts`, with the predicates that decide about them. Amounts
of money and durations are integers; a place typed by an enumeration holds an `EnumValue`.
-/

namespace Invocation

open Text Policy

inductive AgentExecutionStatus where
  | queued
  | starting
  | running
  | succeeded
  | failed
  | timedOut
  | cancelled
  | policyBlocked
  | quotaBlocked
  deriving DecidableEq

/-- `VALID_INVOCATION_TRANSITIONS`. -/
def validInvocationTransitions : AgentExecutionStatus → List AgentExecutionStatus
  | .queued => [.starting, .cancelled, .policyBlocked]
  | .starting => [.running, .failed, .cancelled, .policyBlocked]
  | .running => [.succeeded, .failed, .timedOut, .cancelled, .quotaBlocked]
  | .succeeded | .failed | .timedOut | .cancelled | .policyBlocked | .quotaBlocked => []

/-- Check if a state transition is valid. A value that is no status is not a valid target. -/
def isValidInvocationTransition (source : AgentExecutionStatus)
    (target : EnumValue AgentExecutionStatus) : Bool :=
  match target.member? with
  | some status => (validInvocationTransitions source).contains status
  | none => false

inductive InvocationFailureReason where
  | providerUnavailable
  | adapterNotRegistered
  | capabilityNotSupported
  | providerNotEligible
  | invocationInvalid
  | executionFailed
  | capabilityProviderMismatch
  | organizationMismatch
  | unknownAdapterType
  | unknownProviderType
  | malformedInvocation
  | humanGateNotBound
  | humanGateExpired
  | humanGateContextMismatch
  | invocationDuplicate
  | invocationIdempotencyConflict
  | executableNotTrusted
  | environmentNotAllowed
  | credentialInjectionFailed
  | policyBlocked
  | workingDirectoryNotGoverned
  | executionProfileNotGoverned
  deriving DecidableEq

/-- Map invocation failure reason to `AgentExecutionStatus`. -/
def invocationFailureToStatus : InvocationFailureReason → AgentExecutionStatus
  | .humanGateNotBound | .humanGateExpired | .humanGateContextMismatch | .invocationDuplicate
  | .invocationIdempotencyConflict | .executionProfileNotGoverned | .policyBlocked =>
      .policyBlocked
  | _ => .failed

structure ExecutionBudget where
  maxDurationMs : Option Int
  maxTokens : Option Int
  maxCostMinorUnits : Option Int

structure GovernedCapabilityInvocationRequest where
  invocationId : Str
  organizationId : Str
  workflowRunId : Str
  workflowStepRunId : Str
  correlationId : Str
  capabilityCode : Str
  providerId : Str
  /-- Non-authoritative hint. -/
  executionProfile : EnumValue ExecutionProfile
  assuranceLevel : Option Str
  inputReference : Option Str
  governedInputPayload : Option Str
  executionBudget : Option ExecutionBudget
  requestedAction : EnumValue ExecutionAction
  requestedPath : Option Str
  requestedCommand : Option Str
  humanApprovalReference : Option Str
  requestedAt : Option Int

inductive ProviderType where
  | cloudLlm
  | localLlm
  | deterministicTool
  | localTool
  deriving DecidableEq

inductive ProviderStatus where
  | active
  | disabled
  | degraded
  deriving DecidableEq

inductive ProviderHealthStatus where
  | unknown
  | healthy
  | degraded
  | quotaLimited
  | unavailable
  | disabled
  deriving DecidableEq

inductive ProviderQuotaStatus where
  | unknown
  | available
  | limited
  | exhausted
  deriving DecidableEq

inductive ProviderCredentialRequirement where
  | required
  | notRequired
  | unknown
  deriving DecidableEq

structure ProviderCapabilityAssignment where
  capabilityCode : Str
  isEnabled : Bool
  deriving DecidableEq

structure ProviderDeclaration where
  id : Str
  organizationId : Str
  providerCode : Str
  providerType : ProviderType
  status : ProviderStatus
  capabilityAssignments : List ProviderCapabilityAssignment
  estimatedCostMinorUnits : Option Int
  healthStatus : ProviderHealthStatus
  quotaStatus : ProviderQuotaStatus
  assuranceLevels : List Str
  /-- `none` is a missing value, read as UNKNOWN. -/
  credentialRequirement : Option ProviderCredentialRequirement
  modelFamily : Option Str := none
  deriving DecidableEq

def providerSupportsCapability (provider : ProviderDeclaration) (capability : Str) : Bool :=
  provider.capabilityAssignments.any fun assignment =>
    assignment.capabilityCode == capability && assignment.isEnabled

/-- A provider that declares no assurance levels supports all of them. -/
def providerSupportsAssuranceLevel (provider : ProviderDeclaration) (level : Str) : Bool :=
  provider.assuranceLevels.length == 0 || provider.assuranceLevels.contains level

def isProviderRoutable (provider : ProviderDeclaration) : Bool :=
  provider.status == .active &&
    (provider.healthStatus == .healthy || provider.healthStatus == .degraded)

def isCloudGovernedProviderType (providerType : ProviderType) : Bool :=
  providerType == .cloudLlm

/-- The fields of a cloud execution profile that authorization reads. -/
structure CloudExecutionProfile where
  trustedLauncherAlias : Str
  testExecutionLauncherAlias : Option Str
  enabled : Bool

structure HumanGateBinding where
  organizationId : Str
  workflowRunId : Str
  workflowStepRunId : Str
  capabilityCode : Str
  providerId : Option Str
  artifactReference : Option Str
  inputReference : Option Str
  requestedAction : Option (EnumValue ExecutionAction)
  expiresAt : Option Int

/-- What a trusted resolver is told about the invocation. -/
structure ResolutionContext where
  organizationId : Str
  workflowRunId : Str
  workflowStepRunId : Str
  capabilityCode : Str
  providerId : Str

def resolutionContext (request : GovernedCapabilityInvocationRequest) : ResolutionContext where
  organizationId := request.organizationId
  workflowRunId := request.workflowRunId
  workflowStepRunId := request.workflowStepRunId
  capabilityCode := request.capabilityCode
  providerId := request.providerId

structure TrustedExecutable where
  commandName : Str
  resolvedPath : Str

/-- `[]` and `undefined` are falsy. -/
def truthy : Option Str → Option Str
  | some [] => none
  | value => value

theorem truthy_eq_some {value : Option Str} {text : Str} :
    truthy value = some text ↔ value = some text ∧ text ≠ [] := by
  cases value with
  | none => simp [truthy]
  | some found =>
      cases found with
      | nil => simp [truthy]
      | cons c rest =>
          simp only [truthy, Option.some.injEq]
          exact ⟨fun h => ⟨h, h ▸ List.cons_ne_nil c rest⟩, fun h => h.1⟩

/-- Actions for which an approval without an action scope is no authority. -/
def releaseConsequentialActions : List ExecutionAction := [.gitCommit, .gitPush]

/-- The action scope of `validateHumanGateBinding`. -/
def actionScopeMatches (binding : HumanGateBinding) (action : EnumValue ExecutionAction) : Bool :=
  match binding.requestedAction with
  | none | some (.unknown []) =>
      match action.member? with
      | some known => !releaseConsequentialActions.contains known
      | none => true
  | some scope => scope == action

/-- Validates a `HumanGateBinding` against the invocation context. The context carries no
artifact reference, so a binding that claims one fails. -/
def validateHumanGateBinding (binding : Option HumanGateBinding)
    (request : GovernedCapabilityInvocationRequest) (now : Int) : ReleaseGateStatus :=
  match binding with
  | none => .notRequested
  | some binding =>
      if binding.organizationId ≠ request.organizationId then .notRequested
      else if binding.workflowRunId ≠ request.workflowRunId then .notRequested
      else if binding.workflowStepRunId ≠ request.workflowStepRunId then .notRequested
      else if binding.capabilityCode ≠ request.capabilityCode then .notRequested
      else if (truthy binding.providerId).any (· ≠ request.providerId) then .notRequested
      else if (truthy binding.inputReference).any (some · ≠ request.inputReference) then
        .notRequested
      else if !actionScopeMatches binding request.requestedAction then .notRequested
      else if binding.artifactReference ≠ none then .notRequested
      else if binding.expiresAt.any (· < now) then .notRequested
      else .approved

/-- `CONSEQUENTIAL_INVOCATION_ACTIONS`. -/
def consequentialInvocationActions : List ExecutionAction :=
  [.writeFile, .createFile, .deleteFile, .runCommand, .networkAccess, .gitCommit, .gitPush]

def isConsequentialExecutionAction (action : EnumValue ExecutionAction) : Bool :=
  match action.member? with
  | some known => consequentialInvocationActions.contains known
  | none => false

/-- `FILE_MUTATION_INVOCATION_ACTIONS`. -/
def fileMutationInvocationActions : List ExecutionAction := [.writeFile, .createFile, .deleteFile]

def isFileMutationExecutionAction (action : EnumValue ExecutionAction) : Bool :=
  match action.member? with
  | some known => fileMutationInvocationActions.contains known
  | none => false

structure GovernedExecutionEnvironment where
  allowlist : List (String × Str)
  workingDirectory : Str

structure GovernedExecutionContext where
  invocationId : Str
  organizationId : Str
  workflowRunId : Str
  workflowStepRunId : Str
  correlationId : Str
  capabilityCode : Str
  providerId : Str
  providerType : ProviderType
  providerCode : Str
  executionProfile : ExecutionProfile
  assuranceLevel : Option Str
  executionBudget : ExecutionBudget
  policyDecision : PolicyDecision
  environment : GovernedExecutionEnvironment
  trustedExecutable : Option TrustedExecutable
  credentialReference : Option Str
  timeoutMs : Int

structure GovernedAdapterRequest where
  inputReference : Option Str
  governedInputPayload : Option Str

/-- The part of an adapter's result that decides about the invocation. -/
structure GovernedAdapterResult where
  status : EnumValue AgentExecutionStatus
  /-- The result carries an error. -/
  error : Bool
  /-- What normalizing the metadata throws, when it is not of the declared shape. -/
  malformed : Option Str

structure InvocationError where
  reason : InvocationFailureReason
  agentExecutionStatus : EnumValue AgentExecutionStatus
  /-- `providerMetadata.duplicateOfInvocationId`. -/
  duplicateOfInvocationId : Option Str

structure GovernedCapabilityInvocationResult where
  invocationId : Str
  organizationId : Str
  workflowRunId : Str
  workflowStepRunId : Str
  correlationId : Str
  capabilityCode : Str
  providerId : Str
  status : EnumValue AgentExecutionStatus
  normalizedError : Option InvocationError

end Invocation
