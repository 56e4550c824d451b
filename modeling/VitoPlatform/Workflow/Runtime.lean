import VitoPlatform.Invocation.Environment
import VitoPlatform.Workflow.StateMachine
import Mathlib.Data.List.MinMax

/-!
# The workflow runtime

`createRun`, `startRun`, `completeStep`, `cancelRun` and `resumeRun` of
`workflow-runtime.service.ts` as programs over the workflow tables. Reads before a transaction
are statements of their own; inside one, every statement sees what is committed at its own
time. `Prisma.update` by id fails where the row is missing, `updateMany` reports how many rows
its condition selected.
-/

namespace Workflow

open Text Policy Persistence Invocation Database

/-! ## Names -/

def statusName : WorkflowRunStatus → String
  | .created => "CREATED"
  | .running => "RUNNING"
  | .waitingForHuman => "WAITING_FOR_HUMAN"
  | .blocked => "BLOCKED"
  | .completed => "COMPLETED"
  | .failed => "FAILED"
  | .cancelled => "CANCELLED"

def stepName : EngineeringStepType → String
  | .plan => "PLAN"
  | .build => "BUILD"
  | .test => "TEST"
  | .package => "PACKAGE"
  | .redTeam => "RED_TEAM"
  | .parseVerdict => "PARSE_VERDICT"
  | .correction => "CORRECTION"
  | .verify => "VERIFY"
  | .humanReleaseGate => "HUMAN_RELEASE_GATE"
  | .releaseExecution => "RELEASE_EXECUTION"
  | .remoteVerify => "REMOTE_VERIFY"

def blockName : BlockReasonCode → String
  | .loopExhausted => "LOOP_EXHAUSTED"
  | .reviewDisagreement => "REVIEW_DISAGREEMENT"
  | .humanDecisionRequired => "HUMAN_DECISION_REQUIRED"
  | .assuranceUnsatisfied => "ASSURANCE_UNSATISFIED"
  | .humanApprovalMissing => "HUMAN_APPROVAL_MISSING"
  | .providerBlocked => "PROVIDER_BLOCKED"

/-- COMPLETED, FAILED or CANCELLED. -/
def terminalRun : WorkflowRunStatus → Bool
  | .completed | .failed | .cancelled => true
  | _ => false

/-- SUCCEEDED, FAILED, SKIPPED or CANCELLED. -/
def terminalStep : WorkflowStepStatus → Bool
  | .succeeded | .failed | .skipped | .cancelled => true
  | _ => false

/-! ## Statements -/

/-- `{ id, organizationId, … }`. -/
def runWhere (organizationId workflowRunId : Str) (p : WorkflowRun → Bool) : Row → Bool :=
  isRun fun row => row.id == workflowRunId && row.organizationId == organizationId && p row

/-- `{ id }`. -/
def runById (workflowRunId : Str) : Row → Bool := isRun fun row => row.id == workflowRunId

/-- `{ organizationId, workflowRunId, … }`. -/
def stepWhere (organizationId workflowRunId : Str) (p : WorkflowStepRun → Bool) : Row → Bool :=
  isStep fun row =>
    row.organizationId == organizationId && row.workflowRunId == workflowRunId && p row

/-- `workflowRun.findFirst({ where: { id, organizationId } })`. -/
def findRun (organizationId workflowRunId : Str) : Program (Option WorkflowRun) := do
  let rows ← statement (.select (runWhere organizationId workflowRunId fun _ => true))
  pure (rows.filterMap Row.run?).head?

/-- `workflowStepRun.findMany` of the steps of a run. -/
def findSteps (organizationId workflowRunId : Str) (p : WorkflowStepRun → Bool) :
    Program (List WorkflowStepRun) := do
  let rows ← statement (.select (stepWhere organizationId workflowRunId p))
  pure (rows.filterMap Row.step?)

/-- `workflowStepRun.findFirst` of the steps of a run. -/
def findStep (organizationId workflowRunId : Str) (p : WorkflowStepRun → Bool) :
    Program (Option WorkflowStepRun) := do
  let steps ← findSteps organizationId workflowRunId p
  pure steps.head?

/-- A descending order puts what has no time first. -/
def sortKey : Option Int → WithTop Int
  | none => ⊤
  | some time => (time : WithTop Int)

@[reducible] def sortOrder : LinearOrder (WithTop Int) :=
  @WithTop.linearOrder Int Int.instLinearOrder

/-- The first step in descending order of a time. -/
def newest (time : WorkflowStepRun → Option Int) (steps : List WorkflowStepRun) :
    Option WorkflowStepRun :=
  @List.argmax _ _ sortOrder.toPreorder sortOrder.toDecidableLT
    (fun step => sortKey (time step)) steps

/-- `workflowStepRun.findFirst({ where, orderBy: { [time]: 'desc' } })`. -/
def findNewestStep (organizationId workflowRunId : Str) (p : WorkflowStepRun → Bool)
    (time : WorkflowStepRun → Option Int) : Program (Option WorkflowStepRun) := do
  let steps ← findSteps organizationId workflowRunId p
  pure (newest time steps)

/-- `workflowRun.update({ where: { id }, data })`. -/
def updateRun (workflowRunId : Str) (data : WorkflowRun → WorkflowRun) : Program WorkflowRun := do
  let rows ← statement (.update (runById workflowRunId) (onRun data))
  Prog.expect (rows.filterMap Row.run?).head? (.error "P2025")

/-- `workflowRun.updateMany({ where: { id, organizationId, … }, data })`, with its count. -/
def updateRuns (organizationId workflowRunId : Str) (p : WorkflowRun → Bool)
    (data : WorkflowRun → WorkflowRun) : Program Nat := do
  let rows ← statement (.update (runWhere organizationId workflowRunId p) (onRun data))
  pure rows.length

/-- `workflowStepRun.updateMany({ where, data })`, with its count. -/
def updateSteps (p : Row → Bool) (data : WorkflowStepRun → WorkflowStepRun) : Program Nat := do
  let rows ← statement (.update p (onStep data))
  pure rows.length

/-- The data of a step that is created READY. -/
structure StepData where
  organizationId : Str
  workflowRunId : Str
  stepType : EngineeringStepType
  attemptNumber : Nat
  causationId : Option Str
  startedAt : Int
  metadata : Json

def StepData.row (data : StepData) (id : Str) : WorkflowStepRun where
  id := id
  organizationId := data.organizationId
  workflowRunId := data.workflowRunId
  stepType := data.stepType
  status := .ready
  attemptNumber := data.attemptNumber
  causationId := data.causationId
  startedAt := some data.startedAt
  finishedAt := none
  metadata := data.metadata

/-- `workflowStepRun.create({ data })`, under a generated id. -/
def createStep (data : StepData) : Program WorkflowStepRun := do
  let id ← ask .newId
  let _ ← statement (.insert (.step (data.row id)))
  pure (data.row id)

/-- `auditService.record`. -/
def audit (organizationId : Str) (action entityType : String) (entityId : Str) : Program Unit :=
  ask (.recordAudit organizationId action entityType entityId)

/-- `$transaction`: what throws in it is rolled back. -/
def transaction {α : Type} (body : Program α) : Program α := do
  let _ ← Prog.perform (Effect.begin (V := Row) (X := Ask))
  let a ← body.tryCatch fun error => do
    let _ ← Prog.perform (Effect.rollback (V := Row) (X := Ask))
    .throw error
  let _ ← Prog.perform (Effect.commit (V := Row) (X := Ask))
  pure a

/-! ## Creating and starting -/

structure CreateWorkflowRunInput where
  organizationId : Str
  taskId : Option Str
  assuranceLevel : Str
  correlationId : Option Str
  maxCorrectionLoops : Option Int

def CreateWorkflowRunInput.row (input : CreateWorkflowRunInput) (id correlationId : Str) :
    WorkflowRun where
  id := id
  organizationId := input.organizationId
  taskId := input.taskId
  assuranceLevel := input.assuranceLevel
  status := .created
  currentStepType := none
  correctionLoopCount := 0
  maxCorrectionLoops := input.maxCorrectionLoops.getD defaultRetryPolicy.maxCorrectionLoops
  correlationId := correlationId
  blockReasonCode := none
  failureReasonCode := none

/-- `input.correlationId ?? randomUUID()`. -/
def correlation (input : CreateWorkflowRunInput) : Program Str :=
  match input.correlationId with
  | some correlationId => pure correlationId
  | none => ask .newId

/-- The transaction of `createRun`. -/
def createFresh (input : CreateWorkflowRunInput) (correlationId : Str) : Program WorkflowRun := do
  let id ← ask .newId
  let _ ← statement (.insert (.run (input.row id correlationId)))
  audit input.organizationId "WORKFLOW_RUN_CREATED" "WorkflowRun" id
  pure (input.row id correlationId)

def createRun (input : CreateWorkflowRunInput) : Program WorkflowRun := do
  let correlationId ← correlation input
  transaction (createFresh input correlationId)

/-- What `startRun` writes into the run, whatever it finds there. -/
def startedRow (row : WorkflowRun) : WorkflowRun :=
  { row with status := .running, currentStepType := some .plan }

/-- The first step of a run. -/
def firstStep (organizationId workflowRunId : Str) (now : Int) : StepData where
  organizationId := organizationId
  workflowRunId := workflowRunId
  stepType := .plan
  attemptNumber := 1
  causationId := none
  startedAt := now
  metadata := .null

/-- The transaction of `startRun`. -/
def startFresh (organizationId workflowRunId : Str) :
    Program (WorkflowRun × WorkflowStepRun) := do
  let found ← findRun organizationId workflowRunId
  let run ← Prog.expect found (.notFound "WorkflowRun nicht gefunden.")
  Prog.require (run.status == .created)
    (.conflict ("WorkflowRun ist nicht im CREATED-Status (aktuell: " ++
      statusName run.status ++ ")."))
  let now ← ask .now
  let updated ← updateRun workflowRunId startedRow
  let step ← createStep (firstStep organizationId workflowRunId now)
  audit organizationId "WORKFLOW_RUN_STARTED" "WorkflowRun" workflowRunId
  audit organizationId "WORKFLOW_STEP_ACTIVATED" "WorkflowStepRun" step.id
  pure (updated, step)

def startRun (organizationId workflowRunId : Str) : Program (WorkflowRun × WorkflowStepRun) :=
  transaction (startFresh organizationId workflowRunId)

/-! ## Completing a step -/

structure CompleteStepInput where
  organizationId : Str
  workflowRunId : Str
  workflowStepRunId : Str
  stepStatus : CompletionStatus
  providerStatus : Option AgentExecutionStatus
  verdict : Option (EnumValue ReviewVerdict)
  reviewResults : Option (List ReviewResult)
  independenceContext : Option IndependenceContext
  humanApproved : Bool
  metadata : Option Json

structure StepTransition where
  run : WorkflowRun
  stepRun : WorkflowStepRun
  outcome : Option TransitionOutcome
  newStep : Option WorkflowStepRun
  idempotent : Bool

/-- A call that changes nothing. -/
def unchanged (run : WorkflowRun) (stepRun : WorkflowStepRun) : StepTransition :=
  ⟨run, stepRun, none, none, true⟩

/-- The run is at another step. -/
def stale (run : WorkflowRun) (stepRun : WorkflowStepRun) : Bool :=
  run.currentStepType.any fun current => current != stepRun.stepType

def CompleteStepInput.providerBlocked (input : CompleteStepInput) : Bool :=
  isProviderBlocked input.providerStatus

def targetStatus (input : CompleteStepInput) : WorkflowStepStatus :=
  if input.providerBlocked then .waiting
  else
    match input.stepStatus with
    | .succeeded => .succeeded
    | .failed => .failed

/-- The claim of a READY step. -/
def claimable (stepId : Str) : Row → Bool :=
  isStep fun row => row.id == stepId && row.status == .ready

def completedRow (input : CompleteStepInput) (now : Int) (row : WorkflowStepRun) :
    WorkflowStepRun :=
  { row with
    status := targetStatus input
    finishedAt := if input.providerBlocked then none else some now
    metadata := input.metadata.getD row.metadata }

def stateMachineInput (input : CompleteStepInput) (freshRun : WorkflowRun)
    (freshStep : WorkflowStepRun) : StateMachineInput where
  completedStep := freshStep.stepType
  stepStatus := input.stepStatus
  verdict := input.verdict
  reviewResults := input.reviewResults
  providerStatus := input.providerStatus
  correctionLoopCount := freshRun.correctionLoopCount
  retryPolicy :=
    ⟨freshRun.maxCorrectionLoops, defaultRetryPolicy.maxProviderRetriesPerStep⟩
  humanApproved := input.humanApproved
  independenceContext := input.independenceContext
  assuranceLevel := freshRun.assuranceLevel

/-- `runUpdate`: what an outcome writes into the run, over the row as it is by then. -/
def runUpdate (outcome : TransitionOutcome) (freshRun : WorkflowRun)
    (completedStep : EngineeringStepType) (row : WorkflowRun) : WorkflowRun :=
  match outcome with
  | .nextStep next =>
      { row with
        status := .running
        currentStepType := some next
        correctionLoopCount :=
          if next = .correction then row.correctionLoopCount + 1
          else freshRun.correctionLoopCount }
  | .blocked reason =>
      { row with
        status := .blocked
        currentStepType :=
          if reason.code = .providerBlocked then some completedStep else none
        blockReasonCode := some reason.code }
  | .failed reason =>
      { row with
        status := .failed
        currentStepType := none
        failureReasonCode := some reason }
  | .completed =>
      { row with
        status := .completed
        currentStepType := none }

def auditAction : TransitionOutcome → String
  | .nextStep _ => "WORKFLOW_STEP_TRANSITION_PERSISTED"
  | .blocked _ => "WORKFLOW_RUN_BLOCKED"
  | .failed _ => "WORKFLOW_RUN_FAILED"
  | .completed => "WORKFLOW_RUN_COMPLETED"

/-- The successor of a completed step. -/
def successor (input : CompleteStepInput) (freshStep : WorkflowStepRun) (now : Int)
    (next : EngineeringStepType) : StepData where
  organizationId := input.organizationId
  workflowRunId := input.workflowRunId
  stepType := next
  attemptNumber := 1
  causationId := some freshStep.id
  startedAt := now
  metadata := .null

def createSuccessor (input : CompleteStepInput) (freshStep : WorkflowStepRun) (now : Int)
    (outcome : TransitionOutcome) : Program (Option WorkflowStepRun) :=
  match outcome with
  | .nextStep next => do
      let newStep ← createStep (successor input freshStep now next)
      audit input.organizationId "WORKFLOW_STEP_ACTIVATED" "WorkflowStepRun" newStep.id
      pure (some newStep)
  | _ => pure none

/-- The transaction of `completeStep` once it has claimed the step. -/
def applyOutcome (input : CompleteStepInput) (freshRun : WorkflowRun)
    (freshStep : WorkflowStepRun) (now : Int) : Program StepTransition := do
  let outcome := nextEngineeringStep (stateMachineInput input freshRun freshStep)
  let newStep ← createSuccessor input freshStep now outcome
  let updatedRun ← updateRun input.workflowRunId (runUpdate outcome freshRun freshStep.stepType)
  audit input.organizationId (auditAction outcome) "WorkflowRun" input.workflowRunId
  pure ⟨updatedRun, freshStep, some outcome, newStep, false⟩

/-- The transaction of `completeStep`. -/
def completeFresh (input : CompleteStepInput) (stepRun : WorkflowStepRun) :
    Program StepTransition := do
  let found ← findRun input.organizationId input.workflowRunId
  let freshRun ← Prog.expect found (.notFound "WorkflowRun nicht gefunden.")
  if terminalRun freshRun.status then pure (unchanged freshRun stepRun)
  else
    let found ← findStep input.organizationId input.workflowRunId fun row =>
      row.id == input.workflowStepRunId
    let freshStep ← Prog.expect found (.notFound "WorkflowStepRun nicht gefunden.")
    if terminalStep freshStep.status then pure (unchanged freshRun freshStep)
    else if stale freshRun freshStep then pure (unchanged freshRun freshStep)
    else
      let now ← ask .now
      let count ← updateSteps (claimable freshStep.id) (completedRow input now)
      if count == 0 then pure (unchanged freshRun freshStep)
      else applyOutcome input freshRun freshStep now

def rejected (input : CompleteStepInput) (message : String) : Program StepTransition := do
  audit input.organizationId "WORKFLOW_STEP_TRANSITION_REJECTED" "WorkflowRun"
    input.workflowRunId
  .throw (.conflict message)

def completeStep (input : CompleteStepInput) : Program StepTransition := do
  let found ← findRun input.organizationId input.workflowRunId
  let run ← Prog.expect found (.notFound "WorkflowRun nicht gefunden.")
  if terminalRun run.status then
    rejected input ("WorkflowRun ist terminal (Status: " ++ statusName run.status ++ ").")
  else
    let found ← findStep input.organizationId input.workflowRunId fun row =>
      row.id == input.workflowStepRunId
    let stepRun ← Prog.expect found (.notFound "WorkflowStepRun nicht gefunden.")
    if terminalStep stepRun.status then pure (unchanged run stepRun)
    else if stale run stepRun then
      rejected input ("Step-Typ " ++ stepName stepRun.stepType ++
        " entspricht nicht dem aktuellen Schritt " ++
        (run.currentStepType.map stepName).getD "" ++ " des Runs.")
    else transaction (completeFresh input stepRun)

/-! ## Cancelling -/

structure CancelRunInput where
  organizationId : Str
  workflowRunId : Str
  isMachineIdentity : Bool

/-- CREATED, RUNNING, WAITING_FOR_HUMAN or BLOCKED. -/
def cancellableRun (row : WorkflowRun) : Bool :=
  [.created, .running, .waitingForHuman, .blocked].contains row.status

/-- PENDING, READY, RUNNING or WAITING. -/
def cancellableStep (row : WorkflowStepRun) : Bool :=
  [.pending, .ready, .running, .waiting].contains row.status

def cancelledRun (row : WorkflowRun) : WorkflowRun :=
  { row with status := .cancelled, currentStepType := none }

def cancelledStep (now : Int) (row : WorkflowStepRun) : WorkflowStepRun :=
  { row with status := .cancelled, finishedAt := some now }

/-- The transaction of `cancelRun`. -/
def cancelFresh (input : CancelRunInput) : Program WorkflowRun := do
  let now ← ask .now
  let count ← updateRuns input.organizationId input.workflowRunId cancellableRun cancelledRun
  if count == 0 then
    let fresh ← findRun input.organizationId input.workflowRunId
    Prog.expect (fresh.filter fun run => run.status == .cancelled)
      (.conflict "WorkflowRun konnte nicht atomar abgebrochen werden.")
  else
    let _ ← updateSteps (stepWhere input.organizationId input.workflowRunId cancellableStep)
      (cancelledStep now)
    let cancelled ← findRun input.organizationId input.workflowRunId
    let run ← Prog.expect cancelled (.notFound "WorkflowRun nicht gefunden.")
    audit input.organizationId "WORKFLOW_RUN_CANCELLED" "WorkflowRun" input.workflowRunId
    pure run

def cancelRun (input : CancelRunInput) : Program WorkflowRun := do
  Prog.require (!input.isMachineIdentity) (.forbidden "HUMAN_USER_REQUIRED")
  let found ← findRun input.organizationId input.workflowRunId
  let run ← Prog.expect found (.notFound "WorkflowRun nicht gefunden.")
  if run.status == .cancelled then
    ask (.cancelExecutions input.organizationId input.workflowRunId)
    pure run
  else
    Prog.require (!terminalRun run.status)
      (.conflict ("WorkflowRun ist terminal (Status: " ++ statusName run.status ++ ")."))
    let committed ← transaction (cancelFresh input)
    ask (.cancelExecutions input.organizationId input.workflowRunId)
    audit input.organizationId "WORKFLOW_EXECUTION_CANCELLATION_REQUESTED" "WorkflowRun"
      input.workflowRunId
    pure committed

/-! ## Resuming -/

/-- What `resumeRun` writes into a run that it has read as blocked. -/
def resumedRow (row : WorkflowRun) : WorkflowRun :=
  { row with status := .running, blockReasonCode := none }

def awakened (row : WorkflowStepRun) : WorkflowStepRun :=
  { row with status := .ready, finishedAt := none }

def auditResumed (organizationId workflowRunId : Str) : Program Unit :=
  audit organizationId "WORKFLOW_RUN_RESUMED" "WorkflowRun" workflowRunId

/-- The step type whose waiting steps a resume makes READY again. -/
def awaitedStep (run : WorkflowRun) : Option EngineeringStepType :=
  if run.blockReasonCode = some .providerBlocked then run.currentStepType else none

def waitingStep (stepType : EngineeringStepType) (row : WorkflowStepRun) : Bool :=
  row.stepType == stepType && row.status == .waiting

/-- The transaction of `resumeRun` on a run read as BLOCKED. -/
def resumeBlocked (organizationId workflowRunId : Str) (run : WorkflowRun) :
    Program WorkflowRun := do
  let updated ← updateRun workflowRunId resumedRow
  match awaitedStep run with
  | some stepType =>
      let _ ← updateSteps (stepWhere organizationId workflowRunId (waitingStep stepType)) awakened
      auditResumed organizationId workflowRunId
      pure updated
  | none =>
      auditResumed organizationId workflowRunId
      pure updated

/-- What `resumeRun` writes into a run that it has read as waiting for a human. -/
def continuedRow (row : WorkflowRun) : WorkflowRun := { row with status := .running }

/-- The transaction of `resumeRun` on a run read as WAITING_FOR_HUMAN. -/
def resumeWaiting (organizationId workflowRunId : Str) : Program WorkflowRun := do
  let updated ← updateRun workflowRunId continuedRow
  auditResumed organizationId workflowRunId
  pure updated

def resumeRun (organizationId workflowRunId : Str) : Program WorkflowRun := do
  let found ← findRun organizationId workflowRunId
  let run ← Prog.expect found (.notFound "WorkflowRun nicht gefunden.")
  match run.status with
  | .completed | .failed | .cancelled =>
      .throw (.conflict ("WorkflowRun ist terminal (Status: " ++ statusName run.status ++
        ") und kann nicht fortgesetzt werden."))
  | .running => do
      transaction (auditResumed organizationId workflowRunId)
      pure run
  | .blocked =>
      if run.blockReasonCode = some .humanDecisionRequired then
        .throw (.conflict ("HUMAN_DECISION_REQUIRED must be resolved through an explicit human " ++
          "decision; generic resume is forbidden."))
      else transaction (resumeBlocked organizationId workflowRunId run)
  | .waitingForHuman => transaction (resumeWaiting organizationId workflowRunId)
  | .created =>
      .throw (.conflict ("WorkflowRun kann nicht fortgesetzt werden (Status: " ++
        statusName run.status ++ ")."))

end Workflow
