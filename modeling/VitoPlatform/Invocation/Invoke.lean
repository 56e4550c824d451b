import VitoPlatform.Invocation.Environment

/-!
# The governed invocation service

`GovernedInvocationServiceImpl.invoke` and the functions it calls, in the order of the
source. Each guard is a `require` or `expect` with the source's message, so a reader can
follow the throwing paths; what comes after an allowed policy decision is
`executeAllowed`, and what comes after the claim gate is `executeAdapter`.
-/

namespace Invocation

open Text Policy Persistence Database

abbrev Request := GovernedCapabilityInvocationRequest
abbrev Result := GovernedCapabilityInvocationResult

/-- Go on if the condition holds, else `throw new Error(message)`. -/
def requireThat (condition : Bool) (message : String) : Program Unit :=
  Prog.require condition (.error message)

/-- The value, or `throw new Error(message)`. -/
def expectSome {α : Type} (value : Option α) (message : String) : Program α :=
  Prog.expect value (.error message)

/-! ## Before the policy -/

/-- `!value`. -/
def missing (value : Str) : Bool := value == []

def validateRequest (request : Request) : Program Unit := do
  requireThat
    (!(missing request.invocationId || missing request.organizationId ||
      missing request.workflowRunId || missing request.workflowStepRunId))
    "MALFORMED_INVOCATION: Missing required identifiers"
  requireThat (!(missing request.capabilityCode || missing request.providerId))
    "MALFORMED_INVOCATION: Missing capabilityCode or providerId"
  requireThat request.executionProfile.member?.isSome
    "MALFORMED_INVOCATION: Invalid requestedExecutionProfile hint"
  requireThat request.requestedAction.member?.isSome
    "MALFORMED_INVOCATION: Invalid requestedAction"
  requireThat
    (!(isFileMutationExecutionAction request.requestedAction &&
      request.requestedCommand.isSome))
    "MALFORMED_INVOCATION: requestedCommand is not authoritative for file mutation actions"
  requireThat
    (!(request.requestedAction == .known .runCommand && request.requestedPath.isSome))
    "MALFORMED_INVOCATION: requestedPath is not authoritative for RUN_COMMAND"
  requireThat request.executionBudget.isSome "MALFORMED_INVOCATION: Missing executionBudget"
  requireThat request.requestedAt.isSome "MALFORMED_INVOCATION: Missing or invalid requestedAt"

/-- The budget of a validated request. -/
def budget (request : Request) : ExecutionBudget :=
  request.executionBudget.getD ⟨none, none, none⟩

def resolveAndValidateProvider (request : Request) : Program ProviderDeclaration := do
  let resolved ← ask (.resolveProvider request.providerId request.organizationId)
  let provider ← expectSome resolved "PROVIDER_UNAVAILABLE: Provider not found"
  requireThat (provider.organizationId == request.organizationId)
    "ORGANIZATION_MISMATCH: Provider does not belong to requesting organization"
  requireThat (providerSupportsCapability provider request.capabilityCode)
    "CAPABILITY_NOT_SUPPORTED: Provider does not support the requested capability"
  requireThat (isProviderRoutable provider)
    "PROVIDER_NOT_ELIGIBLE: Provider is not routable (status/health/quota)"
  requireThat (!(provider.quotaStatus == .exhausted || provider.quotaStatus == .unknown))
    "PROVIDER_NOT_ELIGIBLE: Provider quota status is not eligible for productive invocation"
  requireThat (request.assuranceLevel.all (providerSupportsAssuranceLevel provider))
    "PROVIDER_NOT_ELIGIBLE: Provider does not support the requested assurance level"
  match (budget request).maxCostMinorUnits with
  | none => pure provider
  | some maxCostMinorUnits => do
      let estimatedCost ← expectSome provider.estimatedCostMinorUnits
        ("PROVIDER_NOT_ELIGIBLE: Provider estimated cost is unknown while an execution " ++
          "budget is bounded")
      requireThat (estimatedCost ≤ maxCostMinorUnits)
        "PROVIDER_NOT_ELIGIBLE: Provider estimated cost exceeds the bounded execution budget"
      pure provider

def resolveAdapter (provider : ProviderDeclaration) : Program Unit := do
  let adapter ← ask (.getAdapter provider.providerType)
  expectSome adapter "ADAPTER_NOT_REGISTERED: No adapter registered for provider type"

/-- The trusted resolver's answer; `none` where it is missing, answers nothing or throws. -/
def resolveTrustedExecutionProfile (deps : GovernedInvocationDependencies)
    (request : Request) : Program (Option (EnumValue ExecutionProfile)) :=
  if deps.executionProfileResolver then
    Prog.tryCatch (ask (.resolveExecutionProfile (resolutionContext request)))
      fun _ => pure none
  else pure none

def resolveTrustedExecutionPolicy (deps : GovernedInvocationDependencies) (request : Request)
    (executionProfile : ExecutionProfile) : Program ExecutionPolicyConfig := do
  requireThat deps.executionPolicyResolver
    "POLICY_MISSING: No trusted execution policy resolver configured"
  let resolved ← ask (.resolveExecutionPolicy (resolutionContext request) executionProfile
    request.requestedAction)
  expectSome resolved "POLICY_MISSING: Trusted execution policy could not be resolved"

def isProviderAuthorizedForCodingAgent (deps : GovernedInvocationDependencies)
    (provider : ProviderDeclaration) : Program Bool :=
  if provider.providerType = .localTool then
    if deps.cloudExecutionProfileRegistry then do
      let profile ← ask (.peekCloudProfile provider.providerCode)
      pure profile.isNone
    else pure true
  else if isCloudGovernedProviderType provider.providerType then
    if deps.cloudExecutionProfileRegistry then do
      let profile ← ask (.resolveCloudProfile provider.providerCode)
      pure (profile.any (·.enabled))
    else pure false
  else pure false

/-- The request and provider may be given a coding-agent alias at all. -/
def allowsCodingAgentAlias (request : Request) (provider : ProviderDeclaration)
    (executionProfile : ExecutionProfile) : Bool :=
  request.requestedAction == .known .runCommand &&
    (request.capabilityCode == "CODE_BUILD".toList ||
      (request.capabilityCode == "CODE_PLAN".toList &&
        isCloudGovernedProviderType provider.providerType)) &&
    executionProfile == .builder

/-- The policy, extended by the exact trusted alias when every condition holds. -/
def augmentBuilderPolicyWithTrustedCodingAgentAlias (deps : GovernedInvocationDependencies)
    (request : Request) (provider : ProviderDeclaration) (executionProfile : ExecutionProfile)
    (policy : ExecutionPolicyConfig) : Program ExecutionPolicyConfig :=
  if allowsCodingAgentAlias request provider executionProfile then do
    let authorized ← isProviderAuthorizedForCodingAgent deps provider
    match if authorized then truthy request.requestedCommand else none with
    | none => pure policy
    | some command =>
        if deps.trustedExecutableResolver then do
          let executable ← Prog.tryCatch
            (ask (.resolveExecutable (trim command) (executableContext request)))
            fun _ => pure none
          if executable.isSome then
            pure { policy with trustedCodingAgentAliases := some [trim command] }
          else pure policy
        else pure policy
  else pure policy

/-- The release gate status that a human approval gives this request. -/
def resolveReleaseGate (deps : GovernedInvocationDependencies) (request : Request) :
    Program ReleaseGateStatus :=
  match truthy request.humanApprovalReference with
  | none => pure .notRequested
  | some reference =>
      if deps.humanGateResolver then do
        let binding ← ask (.resolveHumanGate reference (resolutionContext request)
          request.inputReference request.requestedAction)
        let now ← ask .now
        pure (validateHumanGateBinding binding request now)
      else pure .notRequested

/-- The trusted home directory, which a path-sensitive request needs. -/
def resolveHomeDirectory (deps : GovernedInvocationDependencies) (request : Request) :
    Program (Option Str) :=
  match truthy request.requestedPath with
  | none => pure none
  | some _ => do
      requireThat deps.homeDirectoryResolver
        ("WORKING_DIRECTORY_NOT_GOVERNED: No trusted home directory resolver configured for " ++
          "path-sensitive execution")
      let resolved ← ask (.resolveHomeDirectory (resolutionContext request))
      let home ← expectSome (truthy resolved)
        ("WORKING_DIRECTORY_NOT_GOVERNED: Trusted home directory context could not be " ++
          "established")
      pure (some home)

/-- The context of the policy evaluation, from its trusted parts. -/
def policyEvaluationContext (request : Request) (executionProfile : ExecutionProfile)
    (releaseGateStatus : ReleaseGateStatus) (homeDir : Option Str)
    (policy : ExecutionPolicyConfig) : PolicyEvaluationContext where
  executionProfile := .known executionProfile
  requestedAction := request.requestedAction
  requestedPath := request.requestedPath
  requestedCommand := request.requestedCommand
  homeDir := homeDir
  policy := some policy
  releaseGateStatus := some releaseGateStatus
  organizationId := some request.organizationId
  workflowRunId := some request.workflowRunId
  workflowStepRunId := some request.workflowStepRunId
  correlationId := some request.correlationId

def createPolicyEvaluationContext (deps : GovernedInvocationDependencies) (request : Request)
    (provider : ProviderDeclaration) (executionProfile : ExecutionProfile) :
    Program PolicyEvaluationContext := do
  let releaseGateStatus ← resolveReleaseGate deps request
  let homeDir ← resolveHomeDirectory deps request
  let resolvedPolicy ← resolveTrustedExecutionPolicy deps request executionProfile
  let effectivePolicy ← augmentBuilderPolicyWithTrustedCodingAgentAlias deps request provider
    executionProfile resolvedPolicy
  pure (policyEvaluationContext request executionProfile releaseGateStatus homeDir
    effectivePolicy)

/-! ## Results -/

def resultOf (request : Request) (providerId : Str)
    (status : EnumValue AgentExecutionStatus) (error : Option InvocationError) : Result where
  invocationId := request.invocationId
  organizationId := request.organizationId
  workflowRunId := request.workflowRunId
  workflowStepRunId := request.workflowStepRunId
  correlationId := request.correlationId
  capabilityCode := request.capabilityCode
  providerId := providerId
  status := status
  normalizedError := error

def createPolicyBlockedResult (request : Request) (provider : ProviderDeclaration)
    (decision : PolicyDecision) : Result :=
  resultOf request provider.id (.known .policyBlocked) (some
    { reason :=
        if decision.reasonCode = .releaseGateNotApproved then .humanGateNotBound
        else .policyBlocked
      agentExecutionStatus := .known .policyBlocked
      duplicateOfInvocationId := none })

def createIdempotencyBlockedResult (request : Request) (provider : ProviderDeclaration)
    (reason : InvocationFailureReason) (duplicateOfInvocationId : Option Str) : Result :=
  resultOf request provider.id (.known .policyBlocked) (some
    { reason := reason
      agentExecutionStatus := .known .policyBlocked
      duplicateOfInvocationId := duplicateOfInvocationId })

def createInvocationErrorResult (request : Request) (provider : ProviderDeclaration)
    (reason : InvocationFailureReason) : Result :=
  resultOf request provider.id (.known (invocationFailureToStatus reason)) (some
    { reason := reason
      agentExecutionStatus := .known (invocationFailureToStatus reason)
      duplicateOfInvocationId := none })

def createRuntimeFailureResult (request : Request) (provider : ProviderDeclaration)
    (status : AgentExecutionStatus) : Result :=
  resultOf request provider.id (.known status) (some
    { reason := .executionFailed
      agentExecutionStatus := .known status
      duplicateOfInvocationId := none })

/-- A thrown adapter error: the service's own timeout, or anything else. -/
def normalizeAdapterRuntimeFailure (request : Request) (provider : ProviderDeclaration)
    (error : Failure) : Result :=
  match error with
  | .adapterTimeout _ => createRuntimeFailureResult request provider .timedOut
  | _ => createRuntimeFailureResult request provider .failed

/-- Throws when the metadata has not the declared shape. -/
def normalizeAdapterResult (request : Request) (provider : ProviderDeclaration)
    (adapterResult : GovernedAdapterResult) : Program Result :=
  match adapterResult.malformed with
  | some text => .throw (.outside text)
  | none =>
      pure (resultOf request provider.id adapterResult.status
        (if adapterResult.error then
          some
            { reason := .executionFailed
              agentExecutionStatus := adapterResult.status
              duplicateOfInvocationId := none }
        else none))

/-! ## After an allowed decision -/

def resolveCredentials (deps : GovernedInvocationDependencies)
    (provider : ProviderDeclaration) (organizationId : Str) : Program (Option Str) :=
  match provider.credentialRequirement.getD .unknown with
  | .notRequired => pure none
  | .required => do
      requireThat deps.credentialBroker
        ("CREDENTIAL_INJECTION_FAILED: Credential broker not configured but provider requires " ++
          "credentials")
      let found ← ask (.getCredentialReference provider.id organizationId)
      let reference ← expectSome (truthy found)
        ("CREDENTIAL_INJECTION_FAILED: Credential reference not available but provider " ++
          "requires credentials")
      let valid ← ask (.validateCredentialReference reference)
      requireThat valid
        "CREDENTIAL_INJECTION_FAILED: Credential reference is no longer valid"
      pure (some reference)
  | .unknown =>
      .throw (.error
        ("CREDENTIAL_INJECTION_FAILED: Provider credential requirement is UNKNOWN, " ++
          "failing closed"))

/-- `SANDBOX_GOVERNED_EXECUTION_METADATA_ENV`. -/
def sandboxGovernedExecutionMetadataEnv : List String :=
  ["EXECUTION_TIMEOUT_MS", "EXECUTION_MAX_TOKENS", "EXECUTION_MAX_COST_MINOR_UNITS",
    "CAPABILITY_CODE", "PROVIDER_ID", "ORGANIZATION_ID", "WORKFLOW_RUN_ID",
    "WORKFLOW_STEP_RUN_ID", "CORRELATION_ID", "INVOCATION_ID"]

/-- `SANDBOX_CALLER_PERMITTED_ENV`. -/
def sandboxCallerPermittedEnv : List String :=
  ["PATH", "USER", "LANG", "LC_ALL"] ++ sandboxGovernedExecutionMetadataEnv

/-- The variables that the invocation layer emits. -/
def environmentAllowlist (request : Request) (providerId : Str) : List (String × Str) :=
  let bounded (key : String) (value : Option Int) : List (String × Str) :=
    match value with
    | some amount => [(key, (toString amount).toList)]
    | none => []
  bounded "EXECUTION_TIMEOUT_MS" (budget request).maxDurationMs ++
    bounded "EXECUTION_MAX_TOKENS" (budget request).maxTokens ++
    bounded "EXECUTION_MAX_COST_MINOR_UNITS" (budget request).maxCostMinorUnits ++
    [("CAPABILITY_CODE", request.capabilityCode), ("PROVIDER_ID", providerId),
      ("ORGANIZATION_ID", request.organizationId), ("WORKFLOW_RUN_ID", request.workflowRunId),
      ("WORKFLOW_STEP_RUN_ID", request.workflowStepRunId),
      ("CORRELATION_ID", request.correlationId), ("INVOCATION_ID", request.invocationId)]

def buildGovernedExecutionEnvironment (deps : GovernedInvocationDependencies)
    (request : Request) (provider : ProviderDeclaration) :
    Program GovernedExecutionEnvironment := do
  let allowlist := environmentAllowlist request provider.id
  requireThat (allowlist.all fun entry => sandboxGovernedExecutionMetadataEnv.contains entry.1)
    ("GOVERNED_ENV_CONTRACT_DRIFT: Sandbox environment key is not part of the governed " ++
      "execution metadata contract")
  requireThat (allowlist.all fun entry => sandboxCallerPermittedEnv.contains entry.1)
    "GOVERNED_ENV_CONTRACT_DRIFT: Sandbox environment key is not caller-permitted"
  requireThat deps.workingDirectoryResolver
    "WORKING_DIRECTORY_NOT_GOVERNED: No working directory resolver configured"
  let resolved ← ask (.resolveWorkingDirectory (resolutionContext request))
  let workingDirectory ← expectSome (truthy resolved)
    "WORKING_DIRECTORY_NOT_GOVERNED: No governed working directory could be resolved"
  pure ⟨allowlist, workingDirectory⟩

def resolveTrustedExecutable (deps : GovernedInvocationDependencies) (request : Request) :
    Program (Option TrustedExecutable) :=
  match truthy request.requestedCommand with
  | none => pure none
  | some command => do
      requireThat deps.trustedExecutableResolver
        "EXECUTABLE_NOT_TRUSTED: No trusted executable resolver configured"
      let resolved ← ask (.resolveExecutable command (executableContext request))
      let executable ← expectSome resolved
        "EXECUTABLE_NOT_TRUSTED: Could not verify executable trust"
      pure (some executable)

def buildExecutionContext (deps : GovernedInvocationDependencies) (request : Request)
    (provider : ProviderDeclaration) (executionProfile : ExecutionProfile)
    (policyDecision : PolicyDecision) (credentialReference : Option Str) :
    Program GovernedExecutionContext := do
  let environment ← buildGovernedExecutionEnvironment deps request provider
  let trustedExecutable ← resolveTrustedExecutable deps request
  pure
    { invocationId := request.invocationId
      organizationId := request.organizationId
      workflowRunId := request.workflowRunId
      workflowStepRunId := request.workflowStepRunId
      correlationId := request.correlationId
      capabilityCode := request.capabilityCode
      providerId := provider.id
      providerType := provider.providerType
      providerCode := provider.providerCode
      executionProfile := executionProfile
      assuranceLevel := request.assuranceLevel
      executionBudget := budget request
      policyDecision := policyDecision
      environment := environment
      trustedExecutable := trustedExecutable
      credentialReference := credentialReference
      timeoutMs := (budget request).maxDurationMs.getD 300000 }

/-- The claim state a terminal status leaves behind. No state releases a claim. -/
def claimStateForResultStatus (status : EnumValue AgentExecutionStatus) :
    GovernedInvocationClaimState :=
  match status with
  | .known .succeeded => .completed
  | .known .timedOut => .timedOutUnknown
  | _ => .failedUnknown

theorem claimStateForResultStatus_ne (status : EnumValue AgentExecutionStatus) :
    claimStateForResultStatus status ≠ .inProgress := by
  unfold claimStateForResultStatus
  split
  · decide
  · decide
  · decide

/-- Marks the claim this call has obtained, if any; a failure to do so is not reported. -/
def finalizeInvocation (request : Request) (executionProfile : ExecutionProfile)
    (result : Result) (claimed : Option (GovernedInvocationIdempotencyStore × Str)) :
    Program Result := do
  match claimed with
  | none => pure ()
  | some (store, logicalOperationKey) =>
      Prog.tryCatch
        (store.markCompleted logicalOperationKey request.invocationId
          (claimStateForResultStatus result.status))
        fun _ => pure ()
  ask (.auditInvocationComplete executionProfile result)
  pure result

/-- The value of a program or the error it throws. -/
def attempt {α : Type} (p : Program α) : Program (Except Failure α) :=
  Prog.tryCatch (do pure (.ok (← p))) fun error => pure (.error error)

/-- The single productive `adapter.execute()`, and the normalization of what comes back. -/
def executeAdapter (request : Request) (provider : ProviderDeclaration)
    (executionProfile : ExecutionProfile) (context : GovernedExecutionContext)
    (claimed : Option (GovernedInvocationIdempotencyStore × Str)) : Program Result := do
  let outcome ← attempt (ask (.execute provider.providerType
    ⟨request.inputReference, request.governedInputPayload⟩ context))
  match outcome with
  | .error error =>
      finalizeInvocation request executionProfile
        (normalizeAdapterRuntimeFailure request provider error) claimed
  | .ok none => .throw .typeError
  | .ok (some adapterResult) =>
      if isValidInvocationTransition .running adapterResult.status then do
        let result ← normalizeAdapterResult request provider adapterResult
        finalizeInvocation request executionProfile result claimed
      else
        finalizeInvocation request executionProfile
          (createRuntimeFailureResult request provider .failed) claimed

/-- The claim gate of a consequential action, as late as possible before the execution. -/
def claimAndExecute (store : GovernedInvocationIdempotencyStore) (request : Request)
    (provider : ProviderDeclaration) (executionProfile : ExecutionProfile)
    (context : GovernedExecutionContext) : Program Result := do
  let key := buildGovernedLogicalOperationKey request
  let outcome ← attempt (store.claim key request.invocationId
    (buildGovernedInvocationFingerprint request provider.id executionProfile))
  match outcome with
  | .error _ =>
      finalizeInvocation request executionProfile
        (createRuntimeFailureResult request provider .failed) none
  | .ok (.duplicate existing) =>
      finalizeInvocation request executionProfile
        (createIdempotencyBlockedResult request provider .invocationDuplicate
          (if existing.invocationId ≠ request.invocationId then some existing.invocationId
          else none))
        none
  | .ok (.contextConflict _) =>
      finalizeInvocation request executionProfile
        (createIdempotencyBlockedResult request provider .invocationIdempotencyConflict none)
        none
  | .ok (.claimed _) =>
      executeAdapter request provider executionProfile context (some (store, key))

/-- Everything after an allowed policy decision. -/
def executeAllowed (deps : GovernedInvocationDependencies) (request : Request)
    (provider : ProviderDeclaration) (executionProfile : ExecutionProfile)
    (decision : PolicyDecision) : Program Result := do
  let credentialReference ← resolveCredentials deps provider request.organizationId
  let context ← buildExecutionContext deps request provider executionProfile decision
    credentialReference
  match deps.idempotencyStore with
  | some store =>
      if isConsequentialExecutionAction request.requestedAction then
        claimAndExecute store request provider executionProfile context
      else executeAdapter request provider executionProfile context none
  | none => executeAdapter request provider executionProfile context none

/-- The policy decision about a request under its trusted profile. -/
def decide (context : PolicyEvaluationContext) : Program PolicyDecision := do
  let host ← ask .host
  Prog.expect (evaluatePolicy host context) (.outside "SyntaxError".toList)

/-- Everything after the trusted profile is known. -/
def invokeUnder (deps : GovernedInvocationDependencies) (request : Request)
    (provider : ProviderDeclaration) (executionProfile : ExecutionProfile) :
    Program Result := do
  let context ← createPolicyEvaluationContext deps request provider executionProfile
  let decision ← decide context
  ask (.auditPolicyDecision request.invocationId provider.id executionProfile decision
    decision.allowed)
  if decision.allowed then executeAllowed deps request provider executionProfile decision
  else pure (createPolicyBlockedResult request provider decision)

def invoke (deps : GovernedInvocationDependencies) (request : Request) : Program Result := do
  validateRequest request
  requireThat
    (!(isConsequentialExecutionAction request.requestedAction &&
      deps.idempotencyStore.isNone))
    "IDEMPOTENCY_STORE_MISSING: Consequential invocation requires a trusted idempotency store"
  let provider ← resolveAndValidateProvider request
  resolveAdapter provider
  let resolved ← resolveTrustedExecutionProfile deps request
  match resolved.bind EnumValue.member? with
  | none => pure (createInvocationErrorResult request provider .executionProfileNotGoverned)
  | some executionProfile => invokeUnder deps request provider executionProfile

end Invocation
