import VitoPlatform.AgentRuntime.Projectors
import VitoPlatform.Library.Interaction
import VitoPlatform.Dispatch.Workforce
import VitoPlatform.Persistence.Services

/-!
# The execution of the current step

`executeCurrentStep` of `WorkflowAgentRuntimeService`: it dispatches the current step of a run to an
agent and completes the step by what the execution shows. The services it calls are effects; the
prompt, which no answer depends on, is left out.
-/

namespace AgentRuntime

open Text Workflow Invocation Persistence
open Services (HttpError)
open Dispatch (CodeBuildEvidence)

/-! ## Effects -/

structure RunRow where
  id : Str
  taskId : Option Str
  status : WorkflowRunStatus
  currentStepType : Option EngineeringStepType
  assuranceLevel : Str
  correlationId : Str

structure StepRow where
  id : Str
  stepType : EngineeringStepType
  attemptNumber : Int

structure TaskRow where
  id : Str
  title : Str
  description : Option Str

structure DispatchInput where
  organizationId : Str
  workflowRunId : Str
  workflowStepRunId : Str
  capabilityCode : Str
  assuranceLevel : Str
  correlationId : Str
  codeBuildApproval : Option CodeBuildEvidence

/-- What a dispatch returns; the execution is an object. -/
structure AgentDispatch where
  routingDecisionId : Str
  selectedProviderId : Str
  selectedProviderCode : Str
  experienceId : Option Str
  execution : List (Str × Json)

structure ExecutionResultSummary where
  sha256 : Str
  content : Str
  truncated : Bool
  charLength : Nat

structure Revision where
  baseSha : Str
  changedFiles : List Str

structure ExecutionEvidence where
  invocationId : Option Str
  outputReference : Option Str
  artifactReferences : List Str
  evidenceReferences : List Str
  revision : Option Revision
  resultSummary : Option ExecutionResultSummary

/-- What the metadata of a completed step say of the projection of its result. -/
inductive Projection where
  | none
  | reviewInvalid
  | verificationRejected (result : Option ReleaseVerificationResultProjection)
  | correctionRejected
  | testRejected (result : Option TestResultProjection)
  | valid (review : Option ProjectedReview) (test : Option TestResultProjection)
      (verification : Option ReleaseVerificationResultProjection)

structure CompletionMetadata where
  capabilityCode : Str
  routingDecisionId : Str
  selectedProviderId : Str
  selectedProviderCode : Str
  experienceId : Option Str
  executionStatus : Option Json
  executionEvidence : ExecutionEvidence
  redTeamEvidenceManifest : Option Json
  correctionContextManifest : Option Json
  projection : Projection

structure Completion where
  organizationId : Str
  workflowRunId : Str
  workflowStepRunId : Str
  stepStatus : CompletionStatus
  providerStatus : Option AgentExecutionStatus
  metadata : CompletionMetadata

structure OutcomeInput where
  organizationId : Str
  experienceId : Str
  workflowRunId : Str
  workflowStepRunId : Str
  stepType : EngineeringStepType
  capabilityCode : Str
  executionStatus : Option Json
  transitionKind : Option Str

inductive Effect where
  | findRun (organizationId workflowRunId : Str)
  | findReadyStep (organizationId workflowRunId : Str) (stepType : EngineeringStepType)
  | resolveForWorkflowDispatch (organizationId workflowRunId workflowStepRunId : Str)
  | findTask (organizationId taskId : Str)
  | resolveRedTeamEvidence (organizationId workflowRunId stepRunId : Str)
  | resolveCorrectionContext (organizationId workflowRunId stepRunId : Str)
  | dispatch (input : DispatchInput)
  /-- The answer is the kind of the outcome, if the transition has one. -/
  | completeStep (completion : Completion)
  | tryRecord (input : OutcomeInput)
  | tryProcess (organizationId experienceId : Str)

abbrev Answer : Effect → Type
  | .findRun _ _ => Option RunRow
  | .findReadyStep _ _ _ => Option StepRow
  | .resolveForWorkflowDispatch _ _ _ => CodeBuildEvidence
  | .findTask _ _ => Option TaskRow
  | .resolveRedTeamEvidence _ _ _ | .resolveCorrectionContext _ _ _ => Json
  | .dispatch _ => AgentDispatch
  | .completeStep _ => Option Str
  | .tryRecord _ => Option Json
  | .tryProcess _ _ => Unit

abbrev Program (α : Type) := Prog Effect Answer HttpError α

abbrev Happened := Prog.Event Effect Answer HttpError

def ask (e : Effect) : Program (Answer e) := Prog.perform e

/-- Which of the optional services are injected, and what is computed elsewhere. -/
structure WorkflowAgentRuntimeService where
  runtimeOutcome : Bool
  runtimeReflectionLearning : Bool
  codeBuildApprovals : Bool
  redTeamEvidence : Bool
  correctionContext : Bool
  parse : Str → Option Json
  sha256 : Str → Str

/-! ## Evidence of an execution -/

/-- `capabilityForStep`. -/
def capabilityForStep : EngineeringStepType → Option Str
  | .plan => some "CODE_PLAN".toList
  | .build => some "CODE_BUILD".toList
  | .test => some "TEST_EXECUTION".toList
  | .package => some "REVIEW_PACKAGE".toList
  | .redTeam => some "RED_TEAM".toList
  | .correction => some "CODE_BUILD".toList
  | .verify => some "RELEASE_VERIFICATION".toList
  | .remoteVerify => some "RELEASE_VERIFICATION".toList
  | .parseVerdict | .humanReleaseGate | .releaseExecution => none

/-- The first of the strings of an array that have a bounded length. -/
def boundedStrings (value : Option Json) (maxItems maxChars : Nat) : List Str :=
  match value with
  | some (.array items) =>
      (items.filterMap fun item => boundedString (some item) maxChars).take maxItems
  | _ => []

def boundedEvidenceReferences (value : Option Json) : List Str := boundedStrings value 32 2048

def boundedChangedFiles (value : Option Json) : List Str := boundedStrings value 64 512

def isHexDigit (c : Char) : Bool := c.isDigit || ('a' ≤ c && c ≤ 'f')

/-- `revisionSha`: what follows `gov://revision/`, if it is a hash. -/
def revisionSha (value : Option Json) : Option Str :=
  (Json.text value).bind fun text =>
    let digits := text.drop "gov://revision/".toList.length
    if text.take "gov://revision/".toList.length = "gov://revision/".toList &&
        40 ≤ digits.length && digits.length ≤ 64 && digits.all isHexDigit then some digits
    else none

namespace WorkflowAgentRuntimeService

variable (service : WorkflowAgentRuntimeService)

/-- `buildBoundedExecutionResultSummary`; the text is cut by characters. -/
def resultSummary (providerMetadata : Option Json) : Option ExecutionResultSummary :=
  ((Json.text (Json.member providerMetadata "stdout".toList)).filter (· ≠ [])).map fun stdout =>
    { sha256 := service.sha256 stdout
      content := stdout.take 6000
      truncated := utf16Length stdout > 6000
      charLength := utf16Length stdout }

/-- The steps whose evidence has a summary of the result. -/
def summarized (stepType : EngineeringStepType) : Bool :=
  stepType = .test || stepType = .package || stepType = .verify || stepType = .remoteVerify

def executionEvidence (execution : Json) (stepType : EngineeringStepType) : ExecutionEvidence :=
  let field (name : String) : Option Json := Json.member (some execution) name.toList
  let providerMetadata := field "providerExecutionMetadata"
  let binding := Json.member (field "usageMetadata") "governedEvidenceBinding".toList
  let settling := Json.member providerMetadata "governedResultSettling".toList
  { invocationId := boundedString (field "invocationId") 256
    outputReference := boundedString (field "outputReference") 2048
    artifactReferences := boundedEvidenceReferences (field "artifactReferences")
    evidenceReferences := boundedEvidenceReferences (field "evidenceReferences")
    revision := (revisionSha (Json.member binding "revisionReference".toList)).map fun baseSha =>
      ⟨baseSha, boundedChangedFiles (Json.member settling "changedFiles".toList)⟩
    resultSummary := if summarized stepType then service.resultSummary providerMetadata else none }

end WorkflowAgentRuntimeService

def changedFilesFromExecutionEvidence (evidence : ExecutionEvidence) : List Str :=
  boundedChangedFiles (evidence.revision.map fun revision =>
    .array (revision.changedFiles.map Json.string))

def executionStatusText : AgentExecutionStatus → Str
  | .queued => "QUEUED".toList
  | .starting => "STARTING".toList
  | .running => "RUNNING".toList
  | .succeeded => "SUCCEEDED".toList
  | .failed => "FAILED".toList
  | .timedOut => "TIMED_OUT".toList
  | .cancelled => "CANCELLED".toList
  | .policyBlocked => "POLICY_BLOCKED".toList
  | .quotaBlocked => "QUOTA_BLOCKED".toList

/-- `dispatch.execution.status`, if it is one of the statuses. -/
def executionStatus (execution : Json) : Option AgentExecutionStatus :=
  member? [.queued, .starting, .running, .succeeded, .failed, .timedOut, .cancelled,
    .policyBlocked, .quotaBlocked] executionStatusText
    (Json.member (some execution) "status".toList)

def toWorkflowCompletionStatus : Option AgentExecutionStatus → Option CompletionStatus
  | some .succeeded => some .succeeded
  | some .failed | some .timedOut | some .cancelled => some .failed
  | _ => none

/-! ## The service -/

inductive Disposition where
  | nonAgentStep
  | executionBlocked
  | executionIncomplete
  | reviewResultInvalid
  | verificationResultInvalid
  | correctionResultInvalid
  | testResultInvalid
  | transitioned
  deriving DecidableEq

structure StepExecution where
  disposition : Disposition
  workflowRunId : Str
  workflowStepRunId : Str
  stepType : EngineeringStepType
  capabilityCode : Option Str
  executionStatus : Option Json
  dispatch : Option AgentDispatch
  transition : Option (Option Str)
  outcomeEvaluation : Option Json

/-- What is known of the step once it has been dispatched. -/
structure Dispatched where
  organizationId : Str
  workflowRunId : Str
  run : RunRow
  step : StepRow
  capabilityCode : Str
  redTeamEvidenceManifest : Option Json
  correctionContextManifest : Option Json
  dispatch : AgentDispatch

namespace Dispatched

variable (d : Dispatched)

def execution : Json := .object d.dispatch.execution

def statusValue : Option Json := Json.member (some d.execution) "status".toList

def completionStatus : Option CompletionStatus :=
  toWorkflowCompletionStatus (executionStatus d.execution)

def providerBlocked : Bool :=
  executionStatus d.execution = some .policyBlocked ||
    executionStatus d.execution = some .quotaBlocked

/-- The step has a type, and its execution has succeeded. -/
def succeededAs (stepTypes : List EngineeringStepType) : Bool :=
  d.step.stepType ∈ stepTypes && d.completionStatus = some .succeeded

end Dispatched

namespace WorkflowAgentRuntimeService

variable (service : WorkflowAgentRuntimeService) (d : Dispatched)

def evidence : ExecutionEvidence := service.executionEvidence d.execution d.step.stepType

/-- What is written about the step. Where a branch leaves a manifest out there is none. -/
def completion (stepStatus : CompletionStatus) (providerStatus : Option AgentExecutionStatus)
    (projection : Projection) : Completion where
  organizationId := d.organizationId
  workflowRunId := d.workflowRunId
  workflowStepRunId := d.step.id
  stepStatus := stepStatus
  providerStatus := providerStatus
  metadata :=
    { capabilityCode := d.capabilityCode
      routingDecisionId := d.dispatch.routingDecisionId
      selectedProviderId := d.dispatch.selectedProviderId
      selectedProviderCode := d.dispatch.selectedProviderCode
      experienceId := d.dispatch.experienceId
      executionStatus := d.statusValue
      executionEvidence := service.evidence d
      redTeamEvidenceManifest := d.redTeamEvidenceManifest
      correctionContextManifest := d.correctionContextManifest
      projection := projection }

def recordOutcome (transitionKind : Option Str) : Program (Option Json) :=
  match service.runtimeOutcome, d.dispatch.experienceId.filter (· ≠ []) with
  | true, some experienceId => do
      let outcome ← ask (.tryRecord ⟨d.organizationId, experienceId, d.workflowRunId, d.step.id,
        d.step.stepType, d.capabilityCode, d.statusValue, transitionKind⟩)
      if outcome.isSome && service.runtimeReflectionLearning then
        ask (.tryProcess d.organizationId experienceId)
      return outcome
  | _, _ => .pure none

def stepExecution (disposition : Disposition) (transition : Option (Option Str))
    (outcomeEvaluation : Option Json) : StepExecution where
  disposition := disposition
  workflowRunId := d.workflowRunId
  workflowStepRunId := d.step.id
  stepType := d.step.stepType
  capabilityCode := some d.capabilityCode
  executionStatus := d.statusValue
  dispatch := some d.dispatch
  transition := transition
  outcomeEvaluation := outcomeEvaluation

/-- Complete the step, record the outcome and return. -/
def complete (disposition : Disposition) (stepStatus : CompletionStatus)
    (providerStatus : Option AgentExecutionStatus) (projection : Projection) :
    Program StepExecution := do
  let kind ← ask
    (.completeStep (service.completion d stepStatus providerStatus projection))
  let outcome ← service.recordOutcome d kind
  return stepExecution d disposition (some kind) outcome

/-- What follows a dispatch. -/
def settle : Program StepExecution :=
  if d.providerBlocked then
    service.complete d .executionBlocked .failed (executionStatus d.execution) .none
  else
    match d.completionStatus with
    | none => do
        let outcome ← service.recordOutcome d none
        return stepExecution d .executionIncomplete none outcome
    | some completionStatus =>
        let review := if d.succeededAs [.redTeam] then
          projectReview service.parse d.execution d.run.assuranceLevel else none
        let test := if d.succeededAs [.test] then projectTest service.parse d.execution else none
        let verification := if d.succeededAs [.verify, .remoteVerify] then
          projectVerification service.parse d.execution else none
        let correctionChangedFiles := if d.succeededAs [.correction] then
          changedFilesFromExecutionEvidence (service.evidence d) else []
        if d.succeededAs [.redTeam] && review.isNone then
          service.complete d .reviewResultInvalid .failed none .reviewInvalid
        else if d.succeededAs [.verify, .remoteVerify] &&
            verification.all fun result => result.status ≠ .pass then
          service.complete d .verificationResultInvalid .failed none
            (.verificationRejected verification)
        else if d.succeededAs [.correction] && correctionChangedFiles.isEmpty then
          service.complete d .correctionResultInvalid .failed none .correctionRejected
        else if d.succeededAs [.test] && test.all fun result => result.status ≠ .pass then
          service.complete d .testResultInvalid .failed none (.testRejected test)
        else
          service.complete d .transitioned completionStatus none (.valid review test verification)

/-- An answer that is asked for only in some steps. -/
def askIf (needed available : Bool) (error : HttpError) (e : Effect) :
    Program (Option (Answer e)) :=
  if needed then do
    Prog.require available error
    let answer ← ask e
    return some answer
  else .pure none

/-- Dispatch a step that an agent can execute. -/
def dispatchStep (organizationId workflowRunId : Str) (run : RunRow) (step : StepRow)
    (capabilityCode : Str) : Program StepExecution := do
  let codeBuildApproval ← askIf (capabilityCode = "CODE_BUILD".toList) service.codeBuildApprovals
    (.forbidden "CODE_BUILD_APPROVAL_RESOLVER_UNAVAILABLE")
    (.resolveForWorkflowDispatch organizationId workflowRunId step.id)
  let taskId ← Prog.expect (run.taskId.filter (· ≠ []))
    (.conflict "Agent-executable workflow requires a task identity.")
  let task ← ask (.findTask organizationId taskId)
  Prog.require task.isSome (.notFound "Workflow task not found.")
  let redTeamEvidenceManifest ← askIf (step.stepType = .redTeam) service.redTeamEvidence
    (.conflict "RED_TEAM_EVIDENCE_HANDOFF_UNAVAILABLE")
    (.resolveRedTeamEvidence organizationId workflowRunId step.id)
  let correctionContextManifest ← askIf (step.stepType = .correction) service.correctionContext
    (.conflict "CORRECTION_CONTEXT_HANDOFF_UNAVAILABLE")
    (.resolveCorrectionContext organizationId workflowRunId step.id)
  let dispatch ← ask (.dispatch ⟨organizationId, workflowRunId, step.id, capabilityCode,
    run.assuranceLevel, run.correlationId, codeBuildApproval⟩)
  service.settle ⟨organizationId, workflowRunId, run, step, capabilityCode,
    redTeamEvidenceManifest, correctionContextManifest, dispatch⟩

def executeCurrentStep (organizationId workflowRunId : Str) : Program StepExecution := do
  let found ← ask (.findRun organizationId workflowRunId)
  let run ← Prog.expect found (.notFound "WorkflowRun not found.")
  Prog.require (run.status = .running)
    (.conflict ("WorkflowRun is not RUNNING (current: " ++ statusName run.status ++ ")."))
  let stepType ← Prog.expect run.currentStepType
    (.conflict "WorkflowRun has no current step.")
  let found ← ask (.findReadyStep organizationId workflowRunId stepType)
  let step ← Prog.expect found (.conflict "No READY current workflow step found.")
  match capabilityForStep step.stepType with
  | none =>
      return { disposition := .nonAgentStep
               workflowRunId := workflowRunId
               workflowStepRunId := step.id
               stepType := step.stepType
               capabilityCode := none
               executionStatus := none
               dispatch := none
               transition := none
               outcomeEvaluation := none }
  | some capabilityCode =>
      service.dispatchStep organizationId workflowRunId run step capabilityCode

end WorkflowAgentRuntimeService

end AgentRuntime
