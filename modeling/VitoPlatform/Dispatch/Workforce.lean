import VitoPlatform.Dispatch.Approvals
import VitoPlatform.Invocation.Keys

/-!
# Dispatching a task to an agent

`AgentWorkforceService.dispatch`: the capability of a persisted step comes from its execution
plan, the router selects the provider, tier and command alias come from the server's own
records, and a CODE_BUILD task consumes its approval before the provider is invoked. Routing,
the advisory contexts and the governed runtime are questions to the environment.
-/

namespace Dispatch

open Text Invocation Database

def MAX_PROMPT_BYTES : Nat := 512 * 1024
def MAX_DEFAULT_ARGS : Nat := 64
def MAX_ARG_LENGTH : Nat := 4096

/-- `Buffer.byteLength(text, 'utf8')`. -/
def utf8Length (text : Str) : Nat := (text.map fun c => c.utf8Size).sum

/-- `codeBuildApproval`: the evidence that comes with a task. -/
structure CodeBuildEvidence where
  approvalId : Str
  machineUserId : Str
  scope : ConsumeCodeBuildApprovalDto

structure DispatchAgentTaskInput where
  organizationId : Str
  workflowRunId : Str
  workflowStepRunId : Str
  capabilityCode : Str
  prompt : Str
  assuranceLevel : Option Str
  correlationId : Option Str
  independenceContext : Option Workflow.IndependenceContext
  executionBudget : Option ExecutionBudget
  codeBuildApproval : Option CodeBuildEvidence

structure DispatchResult where
  routingDecisionId : Str
  selectedProviderId : Str
  selectedProviderCode : Str
  correlationId : Str
  capabilityCode : Str
  execution : GovernedCapabilityInvocationResult

structure AgentWorkforceService where
  profileRegistry : CloudExecutionProfileRegistry
  /-- Whether the approval service is injected. -/
  codeBuildApprovals : Bool
  hash : Hashed → Str

/-- `validateInput`. -/
def validateInput (input : DispatchAgentTaskInput) : Program Unit := do
  Prog.require
    (input.organizationId != [] && input.workflowRunId != [] && input.workflowStepRunId != [])
    (.badRequest "organizationId, workflowRunId and workflowStepRunId are required")
  Prog.require (input.capabilityCode != []) (.badRequest "capabilityCode is required")
  Prog.require ((trim input.prompt).length != 0 && utf8Length input.prompt ≤ MAX_PROMPT_BYTES)
    (.badRequest "prompt must be a non-empty bounded string")

def codeBuild : Str := "CODE_BUILD".toList

/-- The evidence has the shape a CODE_BUILD dispatch requires. -/
def evidencePresent (evidence : CodeBuildEvidence) : Bool :=
  evidence.scope.repository == CODE_BUILD_REPOSITORY && isFeatureBranch evidence.scope.branch &&
    evidence.scope.missionId != [] && evidence.scope.requestKey != [] &&
    evidence.approvalId != [] && evidence.machineUserId != []

/-- `providerCommandAlias`; `none` is `AGENT_PROVIDER_COMMAND_ALIAS_INVALID`. -/
def providerCommandAlias (metadata : Json) : Option Str :=
  (Json.text (Json.member (some metadata) "commandAlias".toList)).filter isCommandAlias

/-- One of the default arguments. -/
def defaultArg (arg : Json) : Option Str :=
  (Json.text (some arg)).filter fun arg =>
    utf16Length arg ≤ MAX_ARG_LENGTH && !arg.contains (Char.ofNat 0)

/-- `providerDefaultArgs`; `none` is `AGENT_PROVIDER_DEFAULT_ARGS_INVALID`. -/
def providerDefaultArgs (metadata : Json) : Option (List Str) :=
  match Json.member (some metadata) "defaultArgs".toList with
  | none => some []
  | some (.array items) =>
      if items.length > MAX_DEFAULT_ARGS then none else items.mapM defaultArg
  | some _ => none

namespace AgentWorkforceService

variable (service : AgentWorkforceService)

def effectiveExecutionBudget (requested : Option ExecutionBudget) (provider : RoutedProvider) :
    Option ExecutionBudget :=
  if !isCloudGovernedProviderType provider.providerType then requested
  else
    match service.profileRegistry.resolve provider.providerCode with
    | none => requested
    | some profile =>
        let budget := requested.getD ⟨none, none, none⟩
        some { budget with
          maxDurationMs := some ((budget.maxDurationMs.map fun duration =>
            min duration profile.maxDurationMs).getD profile.maxDurationMs) }

def detectDispatchTier (provider : RoutedProvider) : Option ExecutionTier :=
  if provider.providerType = .localTool then
    if (service.profileRegistry.peek provider.providerCode).isNone then some .localIsolated
    else none
  else if isCloudGovernedProviderType provider.providerType then
    resolveExecutionTier provider.providerType
      (service.profileRegistry.resolve provider.providerCode)
  else none

/-- The target of `buildCodeBuildExecutionTarget`, before its check. -/
def executionTarget (input : DispatchAgentTaskInput) (evidence : CodeBuildEvidence)
    (provider : RoutedProvider) (tier : ExecutionTier) (command : Str) :
    CodeBuildExecutionTarget where
  version := CODE_BUILD_EXECUTION_TARGET_VERSION
  organizationId := input.organizationId
  missionId := evidence.scope.missionId
  workflowRunId := input.workflowRunId
  workflowStepRunId := input.workflowStepRunId
  repository := CODE_BUILD_REPOSITORY
  publicationBranch := evidence.scope.branch
  baseRef := CODE_BUILD_BASE_REF
  providerId := provider.id
  providerCode := provider.providerCode
  executionTier := tier
  commandAlias := command

/-- The evidence that a task of this capability has to bring. -/
def requireEvidence (input : DispatchAgentTaskInput) (capabilityCode : Str) :
    Program (Option CodeBuildEvidence) :=
  if capabilityCode = codeBuild then
    match input.codeBuildApproval with
    | some evidence => do
        Prog.require (service.codeBuildApprovals && evidencePresent evidence)
          (.forbidden "CODE_BUILD_APPROVAL_REQUIRED")
        pure (some evidence)
    | none => .throw (.forbidden "CODE_BUILD_APPROVAL_REQUIRED")
  else pure none

/-- Build the execution target and consume the approval for it. -/
def claimTarget (input : DispatchAgentTaskInput) (evidence : Option CodeBuildEvidence)
    (provider : RoutedProvider) (tier : ExecutionTier) (command : Str) :
    Program (Option CodeBuildExecutionTarget) :=
  match evidence with
  | none => pure none
  | some evidence => do
      let target := executionTarget input evidence provider tier command
      Prog.require (isCodeBuildExecutionTarget target)
        (.internal "INVALID_CODE_BUILD_EXECUTION_TARGET")
      let _ ← consumeForDispatch service.hash input.organizationId evidence.machineUserId
        evidence.approvalId evidence.scope target
      pure (some target)

def routingRequest (input : DispatchAgentTaskInput) (identity : Option PersistedIdentity)
    (correlationId capabilityCode : Str) : ProviderRoutingRequest where
  organizationId := input.organizationId
  capability := capabilityCode
  assuranceLevel := (identity.map fun identity => identity.assuranceLevel).or input.assuranceLevel
  workflowRunId := input.workflowRunId
  workflowStepRunId := input.workflowStepRunId
  independenceContext := input.independenceContext
  maxCostMinorUnits := input.executionBudget.bind fun budget => budget.maxCostMinorUnits
  correlationId := correlationId

/-- `persistedIdentity?.correlationId ?? input.correlationId ?? randomUUID()`. -/
def correlationOf (input : DispatchAgentTaskInput) (identity : Option PersistedIdentity) :
    Program Str :=
  match (identity.map fun identity => identity.correlationId).or input.correlationId with
  | some correlationId => pure correlationId
  | none => ask .newId

/-- The operation a dispatch asks the governed runtime for. -/
def operation (input : DispatchAgentTaskInput) (correlationId capabilityCode : Str)
    (provider : RoutedProvider) (command : Str) (args : List Str)
    (target : Option CodeBuildExecutionTarget) (prompt : Str) : GovernedOperation where
  organizationId := input.organizationId
  providerId := provider.id
  capabilityCode := capabilityCode
  command := command
  args := args
  prompt := prompt
  correlationId := correlationId
  workflowRunId := input.workflowRunId
  workflowStepRunId := input.workflowStepRunId
  executionBudget := service.effectiveExecutionBudget input.executionBudget provider
  codeBuildExecutionTarget := target

/-- Invoke the provider with the enriched prompt. -/
def invokeProvider (input : DispatchAgentTaskInput) (correlationId capabilityCode : Str)
    (routingDecisionId : Str) (provider : RoutedProvider) (command : Str) (args : List Str)
    (target : Option CodeBuildExecutionTarget) : Program DispatchResult := do
  let prompt ← (ask (.enrichPrompt input.organizationId input.workflowRunId input.prompt
    capabilityCode)).tryCatch fun _ => Prog.pure input.prompt
  let execution ← ask (.execute
    (service.operation input correlationId capabilityCode provider command args target prompt))
  (ask (.observe input.organizationId provider.id)).tryCatch fun _ => Prog.pure ()
  pure
    { routingDecisionId := routingDecisionId
      selectedProviderId := provider.id
      selectedProviderCode := provider.providerCode
      correlationId := correlationId
      capabilityCode := capabilityCode
      execution := execution }

/-- Route, resolve and invoke, under the identity of the step if it is persisted. -/
def dispatchAs (input : DispatchAgentTaskInput) (identity : Option PersistedIdentity)
    (correlationId : Str) : Program DispatchResult := do
  let capabilityCode :=
    (identity.map fun identity => identity.capabilityCode).getD input.capabilityCode
  let evidence ← service.requireEvidence input capabilityCode
  let routing ← ask (.routeForExecution
    (routingRequest input identity correlationId capabilityCode))
  let provider ← Prog.expect routing.selectedProvider
    (.serviceUnavailable "NO_ELIGIBLE_AGENT_PROVIDER")
  let tier ← Prog.expect (service.detectDispatchTier provider)
    (.serviceUnavailable "AGENT_PROVIDER_ADAPTER_NOT_READY")
  let command ← Prog.expect (providerCommandAlias provider.metadata)
    (.serviceUnavailable "AGENT_PROVIDER_COMMAND_ALIAS_INVALID")
  let args ← Prog.expect (providerDefaultArgs provider.metadata)
    (.serviceUnavailable "AGENT_PROVIDER_DEFAULT_ARGS_INVALID")
  let target ← service.claimTarget input evidence provider tier command
  service.invokeProvider input correlationId capabilityCode routing.routingDecisionId provider
    command args target

def dispatch (input : DispatchAgentTaskInput) : Program DispatchResult := do
  validateInput input
  let identity ←
    ask (.resolveIdentity input.organizationId input.workflowRunId input.workflowStepRunId)
  let correlationId ← correlationOf input identity
  service.dispatchAs input identity correlationId

end AgentWorkforceService

end Dispatch
