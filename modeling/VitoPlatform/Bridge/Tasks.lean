import VitoPlatform.Dispatch.Workforce
import VitoPlatform.Invocation.Redaction
import VitoPlatform.Library.LockedWrite

/-!
# Tasks of the operator bridge

`OperatorBridgeService`: a request is claimed under `(organizationId, requestId)` by an insert,
dispatched by the call that has claimed it, and its result persisted under a lock on its row.
The table is `operator_tasks`. The agent workforce, the clocks, the generated identifiers and
the audit records are questions to the environment. Times are milliseconds since the epoch.

Retention has no service of its own: `deletePayloads` is the statement by which the tests of
the bridge delete payloads, for any choice of what is due.
-/

namespace Bridge

open Text Invocation Database

inductive OperatorTaskStatus where
  | dispatching
  | completed
  | humanGate
  | failed
  deriving DecidableEq

/-- A row of `operator_tasks`, without `updatedAt`. -/
structure OperatorTask where
  id : Str
  organizationId : Str
  userId : Str
  requestId : Str
  requestFingerprint : Str
  correlationId : Str
  workflowRunId : Str
  workflowStepRunId : Str
  capabilityCode : Str
  prompt : Option Str
  assuranceLevel : Option Str
  status : OperatorTaskStatus
  maxDurationMs : Option Int
  maxTokens : Option Int
  maxCostMinorUnits : Option Int
  invocationId : Option Str
  executionId : Option Units
  routingDecisionId : Option Units
  providerCode : Option Str
  providerName : Option Str
  stdout : Option Units
  stderr : Option Units
  changedFiles : Option (List Units)
  patch : Option Units
  errorReason : Option Units
  errorMessage : Option Units
  errorRetryable : Option Bool
  reviewRequired : Bool
  workspaceDisposition : Option Units
  startedAt : Option Int
  completedAt : Option Int
  durationMs : Option Int
  sensitivePayloadAvailable : Bool
  sensitivePayloadExpiresAt : Int
  sensitivePayloadDeletedAt : Option Int
  createdAt : Int

namespace OperatorTask

/-- The columns of the unique constraint. -/
def requestKey (task : OperatorTask) : Str × Str := (task.organizationId, task.requestId)

def clash (a b : OperatorTask) : Bool := a.id == b.id || a.requestKey == b.requestKey

end OperatorTask

inductive Failure where
  /-- P2002 on `(organizationId, requestId)`. -/
  | requestKeyConflict
  | transactionAborted
  /-- An `HttpException` with its `getResponse()`. -/
  | http (status : Nat) (response : Value)
  /-- Anything else that is thrown. -/
  | error (message : Units)

namespace Failure

/-- `new Exception(message)`, of one of the exceptions of the framework. -/
def exception (status : Nat) (name message : String) : Failure :=
  .http status (.object [(lit "message", .string (lit message)), (lit "error", .string (lit name)),
    (lit "statusCode", .primitive (units (Nat.toDigits 10 status)))])

def conflict (message : String) : Failure := exception 409 "Conflict" message

def internal (message : String) : Failure := exception 500 "Internal Server Error" message

def notFound (message : String) : Failure := exception 404 "Not Found" message

end Failure

/-- A primary key is generated: that it is taken is not told apart from a taken request key. -/
def schema : Schema OperatorTask Str Failure where
  key := OperatorTask.id
  clash := OperatorTask.clash
  clash_of_key u v h := by simp [OperatorTask.clash, h]
  clash_comm u v := by simp only [OperatorTask.clash, BEq.comm]
  uniqueViolation := .requestKeyConflict
  transactionAborted := .transactionAborted

/-! ## Requests and results -/

structure OperatorBudget where
  maxDurationMs : Option Int
  maxTokens : Option Int
  maxCostMinorUnits : Option Int

inductive ApprovalKey where
  | approvalId
  | missionId
  | repository
  | branch
  deriving DecidableEq

/-- `OperatorCodeBuildApprovalDto`. No other key passes the validation, and the object has its keys
in the order in which they were sent. -/
structure OperatorCodeBuildApproval where
  approvalId : Str
  missionId : Str
  repository : Str
  branch : Str
  keys : List ApprovalKey
  keys_perm : keys.Perm [.approvalId, .missionId, .repository, .branch]

/-- `SubmitOperatorTaskDto`, without a budget a budget of nothing. -/
structure SubmitOperatorTask where
  requestId : Str
  capabilityCode : Str
  prompt : Str
  assuranceLevel : Option Str
  budget : OperatorBudget
  codeBuildApproval : Option OperatorCodeBuildApproval

/-- The object whose JSON text is hashed. -/
structure FingerprintInput where
  capabilityCode : Str
  codeBuildApproval : Option OperatorCodeBuildApproval
  prompt : Str
  assuranceLevel : Option Str
  budget : OperatorBudget

def SubmitOperatorTask.fingerprintInput (request : SubmitOperatorTask) : FingerprintInput where
  capabilityCode := request.capabilityCode
  codeBuildApproval := request.codeBuildApproval
  prompt := request.prompt
  assuranceLevel := request.assuranceLevel
  budget := request.budget

structure NormalizedError where
  reason : Units
  message : Units
  retryable : Bool

/-- `AgentExecutionResult`, as far as the bridge reads it. -/
structure AgentExecution where
  status : AgentExecutionStatus
  invocationId : Str
  normalizedError : Option NormalizedError
  startedAt : Option Int
  completedAt : Int
  durationMs : Option Int
  providerExecutionMetadata : Value

structure AgentDispatchResult where
  routingDecisionId : Units
  selectedProviderId : Str
  selectedProviderCode : Str
  execution : AgentExecution

structure SubmitOperatorTaskResponse where
  taskId : Str
  requestId : Str
  correlationId : Str
  status : OperatorTaskStatus
  routingDecisionId : Option Units

/-! ## Questions to the environment -/

inductive Ask where
  /-- `randomUUID()`. -/
  | newId
  /-- `new Date()`. -/
  | now
  /-- `CURRENT_TIMESTAMP`, which is the same throughout a transaction. -/
  | databaseNow
  /-- `agentWorkforceService.dispatch`. -/
  | dispatch (input : Dispatch.DispatchAgentTaskInput)
  /-- The display name of `agentProvider.findFirst({ where: { id, organizationId } })`. -/
  | findProvider (id organizationId : Str)
  /-- `auditService.record`, in the transaction that is open. -/
  | recordAudit (organizationId actorId : Str) (action : String) (entityId : Str)

@[reducible] def Ans : Ask → Type
  | .newId => Str
  | .now | .databaseNow => Int
  | .dispatch _ => AgentDispatchResult
  | .findProvider _ _ => Option Str
  | .recordAudit _ _ _ _ => Unit

abbrev Program (α : Type) := Prog (Effect OperatorTask Ask) (Answer OperatorTask Ans) Failure α

abbrev Happened := Happening OperatorTask Ask Failure Ans

def ask (x : Ask) : Program (Ans x) := Prog.perform (Effect.ask x)

def statement (s : Stmt OperatorTask) : Program (List OperatorTask) :=
  Prog.perform (Effect.stmt s)

def findTask (p : OperatorTask → Bool) : Program (Option OperatorTask) := do
  let rows ← statement (.select p)
  pure rows.head?

/-! ## What an agent returns -/

def MAX_SAFE_TEXT_LENGTH : Nat := 2000
def MAX_CHANGED_FILES : Nat := 4096

/-- `SECRET_PATTERNS`: the patterns of the leakage boundary once more. -/
def SECRET_PATTERNS : List (Replacement.Pattern UInt16) := leakSecretTextPatterns

def redactSensitiveText (text : Units) : Units :=
  let redacted := SECRET_PATTERNS.foldl
    (fun text pattern => Replacement.replaceMatches pattern redacted text) text
  if redacted.length > MAX_SAFE_TEXT_LENGTH then
    redacted.take MAX_SAFE_TEXT_LENGTH ++ lit "..."
  else redacted

def readString (value : Value) (redact : Bool) : Option Units :=
  match value with
  | .string text => some (if redact then redactSensitiveText text else text)
  | _ => none

def Value.string? : Value → Option Units
  | .string text => some text
  | _ => none

/-- `readStringArray(value, true)`. -/
def readStringArray (value : Value) : Option (List Units) :=
  match value with
  | .array items =>
      (items.mapM Value.string?).map fun texts =>
        (texts.take MAX_CHANGED_FILES).map redactSensitiveText
  | _ => none

structure TerminalUpdate where
  status : OperatorTaskStatus
  routingDecisionId : Option Units
  selectedProviderId : Option Str
  providerCode : Option Str
  invocationId : Option Str
  executionId : Option Units
  stdout : Option Units
  stderr : Option Units
  changedFiles : Option (List Units)
  patch : Option Units
  errorReason : Option Units
  errorMessage : Option Units
  errorRetryable : Option Bool
  reviewRequired : Bool
  workspaceDisposition : Option Units
  startedAt : Option Int
  completedAt : Int
  durationMs : Option Int

def terminalStatus : AgentExecutionStatus → OperatorTaskStatus
  | .succeeded => .completed
  | .policyBlocked => .humanGate
  | _ => .failed

/-- The record itself, or an empty one. -/
def recordOr (value : Value) : Value :=
  match value with
  | .object entries => .object entries
  | _ => .object []

def mapDispatchResult (result : AgentDispatchResult) : TerminalUpdate :=
  let execution := result.execution
  let metadata := recordOr execution.providerExecutionMetadata
  let settling := recordOr (metadata.get "governedResultSettling")
  let status := terminalStatus execution.status
  let error := execution.normalizedError
  { status := status
    routingDecisionId := some result.routingDecisionId
    selectedProviderId := some result.selectedProviderId
    providerCode := some result.selectedProviderCode
    invocationId := some execution.invocationId
    executionId := readString (settling.get "executionId") true
    stdout := readString (metadata.get "stdout") true
    stderr := readString (metadata.get "stderr") true
    changedFiles := readStringArray (settling.get "changedFiles")
    patch := readString (settling.get "patch") false
    errorReason := (error.map fun error => redactSensitiveText error.reason) <|>
      if status = .completed then none
      else some (lit "AGENT_EXECUTION_" ++ lit execution.status.name)
    errorMessage :=
      match error with
      | some error => some (redactSensitiveText error.message)
      | none =>
          if status = .completed then none
          else some (lit "Governed execution did not complete successfully.")
    errorRetryable := (error.map fun error => error.retryable) <|>
      if status = .completed then none else some false
    reviewRequired := status = .humanGate
    workspaceDisposition :=
      match metadata.get "workspaceDisposition" with
      | .string text => if text = lit "CLEANED" then some text else none
      | _ => none
    startedAt := execution.startedAt
    completedAt := execution.completedAt
    durationMs := execution.durationMs }

structure MappedDispatchError where
  reason : Units
  message : Units
  retryable : Bool
  routingDecisionId : Option Units

def mapThrownDispatchError (error : Failure) : MappedDispatchError :=
  let fallback := lit "Governed dispatch failed."
  let (code, message, routingDecisionId) :=
    match error with
    | .http _ (.string text) => (none, text, none)
    | .http _ (.object entries) =>
        let response := Value.object entries
        (readString (response.get "code") false,
          (readString (response.get "message") false).getD fallback,
          readString (response.get "routingDecisionId") false)
    | _ => (none, fallback, none)
  let reason := code.getD
    (match error with
    | .http 400 _ => lit "OPERATOR_DISPATCH_INPUT_INVALID"
    | _ => lit "OPERATOR_DISPATCH_FAILED")
  { reason := reason
    message := redactSensitiveText message
    retryable := reason = lit "NO_ELIGIBLE_AGENT_PROVIDER"
    routingDecisionId := routingDecisionId }

/-- `mapDispatchFailure`, of a dispatch that has started and failed at these times. -/
def mapDispatchFailure (error : Failure) (startedAt completedAt : Int) : TerminalUpdate :=
  let mapped := mapThrownDispatchError error
  { status := .failed
    routingDecisionId := mapped.routingDecisionId
    selectedProviderId := none
    providerCode := none
    invocationId := none
    executionId := none
    stdout := none
    stderr := none
    changedFiles := none
    patch := none
    errorReason := some mapped.reason
    errorMessage := some mapped.message
    errorRetryable := some mapped.retryable
    reviewRequired := false
    workspaceDisposition := none
    startedAt := some startedAt
    completedAt := completedAt
    durationMs := some (max 0 (completedAt - startedAt)) }

theorem mapDispatchResult_status (result : AgentDispatchResult) :
    (mapDispatchResult result).status ≠ .dispatching := by
  show terminalStatus result.execution.status ≠ .dispatching
  cases result.execution.status <;> nofun

/-! ## Submitting -/

structure TaskIdentity where
  id : Str
  correlationId : Str
  workflowRunId : Str
  workflowStepRunId : Str

/-- The service, with SHA-256 of the JSON text of what a fingerprint is computed from. -/
structure OperatorBridgeService where
  sensitivePayloadTtlHours : Int
  hash : FingerprintInput → Str

structure DispatchClaim where
  task : OperatorTask
  ownsDispatch : Bool

def resolveExisting (task : OperatorTask) (fingerprint : Str) : Program DispatchClaim :=
  if task.requestFingerprint = fingerprint then Prog.pure ⟨task, false⟩
  else .throw (.conflict "OPERATOR_IDEMPOTENCY_CONFLICT")

/-- `where: { organizationId_requestId: key }`. -/
def hasKey (key : Str × Str) (task : OperatorTask) : Bool := task.requestKey == key

def terminalAuditAction : OperatorTaskStatus → String
  | .completed => "OPERATOR_TASK_COMPLETED"
  | .humanGate => "OPERATOR_TASK_HUMAN_GATE_REQUIRED"
  | _ => "OPERATOR_TASK_FAILED"

def toSubmitResponse (task : OperatorTask) : SubmitOperatorTaskResponse where
  taskId := task.id
  requestId := task.requestId
  correlationId := task.correlationId
  status := task.status
  routingDecisionId := task.routingDecisionId

/-- The task a request creates. -/
def SubmitOperatorTask.row (request : SubmitOperatorTask) (identity : TaskIdentity)
    (organizationId userId fingerprint : Str) (createdAt expiresAt : Int) : OperatorTask where
  id := identity.id
  organizationId := organizationId
  userId := userId
  requestId := request.requestId
  requestFingerprint := fingerprint
  correlationId := identity.correlationId
  workflowRunId := identity.workflowRunId
  workflowStepRunId := identity.workflowStepRunId
  capabilityCode := request.capabilityCode
  prompt := some request.prompt
  assuranceLevel := request.assuranceLevel
  status := .dispatching
  maxDurationMs := request.budget.maxDurationMs
  maxTokens := request.budget.maxTokens
  maxCostMinorUnits := request.budget.maxCostMinorUnits
  invocationId := none
  executionId := none
  routingDecisionId := none
  providerCode := none
  providerName := none
  stdout := none
  stderr := none
  changedFiles := none
  patch := none
  errorReason := none
  errorMessage := none
  errorRetryable := none
  reviewRequired := false
  workspaceDisposition := none
  startedAt := none
  completedAt := none
  durationMs := none
  sensitivePayloadAvailable := true
  sensitivePayloadExpiresAt := expiresAt
  sensitivePayloadDeletedAt := none
  createdAt := createdAt

/-- `toAgentDispatchRequest`, with the approval of a CODE_BUILD request. -/
def toAgentDispatchRequest (task : OperatorTask) (prompt userId : Str)
    (request : SubmitOperatorTask) : Dispatch.DispatchAgentTaskInput where
  organizationId := task.organizationId
  workflowRunId := task.workflowRunId
  workflowStepRunId := task.workflowStepRunId
  capabilityCode := task.capabilityCode
  prompt := prompt
  assuranceLevel := task.assuranceLevel
  correlationId := some task.correlationId
  independenceContext := none
  executionBudget :=
    if task.maxDurationMs.isSome || task.maxTokens.isSome || task.maxCostMinorUnits.isSome then
      some ⟨task.maxDurationMs, task.maxTokens, task.maxCostMinorUnits⟩
    else none
  codeBuildApproval :=
    if request.capabilityCode = Dispatch.codeBuild then
      request.codeBuildApproval.map fun approval =>
        ⟨approval.approvalId, userId,
          ⟨approval.missionId, approval.repository, approval.branch, request.requestId⟩⟩
    else none

/-- What is no `HttpException` becomes an internal error with this message. -/
def orInternal (message : String) (error : Failure) : Failure :=
  match error with
  | .http status response => .http status response
  | _ => .internal message

/-- The transaction that claims a request. -/
def insertClaim (key : Str × Str) (task : OperatorTask) : Program DispatchClaim :=
  transact do
    let existing ← findTask (hasKey key)
    match existing with
    | some existing => resolveExisting existing task.requestFingerprint
    | none => do
        let _ ← statement (.insert task)
        ask (.recordAudit task.organizationId task.userId "OPERATOR_TASK_CREATED" task.id)
        Prog.pure ⟨task, true⟩

/-- The read of a call that has lost the race. -/
def readClaim (key : Str × Str) (fingerprint : Str) : Program DispatchClaim := do
  let existing ← (findTask (hasKey key)).tryCatch fun _ =>
    .throw (.internal "OPERATOR_TASK_CLAIM_PERSISTENCE_FAILED")
  let existing ← Prog.expect existing (.internal "OPERATOR_TASK_CLAIM_PERSISTENCE_FAILED")
  resolveExisting existing fingerprint

def claimTask (key : Str × Str) (task : OperatorTask) : Program DispatchClaim :=
  (insertClaim key task).tryCatch fun error =>
    match error with
    | .requestKeyConflict => readClaim key task.requestFingerprint
    | error => .throw (orInternal "OPERATOR_TASK_CLAIM_PERSISTENCE_FAILED" error)

/-- The terminal update of a claimed task: what its dispatch returns or throws. -/
def dispatchClaimed (task : OperatorTask) (userId : Str) (request : SubmitOperatorTask) :
    Program TerminalUpdate := do
  let dispatchStartedAt ← ask .now
  let dispatched : Program TerminalUpdate := do
    let prompt ← Prog.expect task.prompt (.internal "OPERATOR_TASK_PAYLOAD_UNAVAILABLE")
    let result ← ask (.dispatch (toAgentDispatchRequest task prompt userId request))
    pure (mapDispatchResult result)
  dispatched.tryCatch fun error => do
    let completedAt ← ask .now
    pure (mapDispatchFailure error dispatchStartedAt completedAt)

/-! ## Persisting a result -/

structure LockedPayloadState where
  sensitivePayloadAvailable : Bool
  sensitivePayloadExpiresAt : Int
  sensitivePayloadDeletedAt : Option Int
  databaseNow : Int

def OperatorTask.payloadState (task : OperatorTask) (databaseNow : Int) : LockedPayloadState where
  sensitivePayloadAvailable := task.sensitivePayloadAvailable
  sensitivePayloadExpiresAt := task.sensitivePayloadExpiresAt
  sensitivePayloadDeletedAt := task.sensitivePayloadDeletedAt
  databaseNow := databaseNow

def LockedPayloadState.payloadExpired (payloadState : LockedPayloadState) : Bool :=
  !payloadState.sensitivePayloadAvailable ||
    decide (payloadState.sensitivePayloadExpiresAt ≤ payloadState.databaseNow)

/-- The columns every terminal update writes. -/
def TerminalUpdate.settle (terminal : TerminalUpdate) (providerName : Option Str)
    (task : OperatorTask) : OperatorTask :=
  { task with
    status := terminal.status
    invocationId := terminal.invocationId
    executionId := terminal.executionId
    routingDecisionId := terminal.routingDecisionId
    providerCode := terminal.providerCode
    providerName := providerName
    changedFiles := terminal.changedFiles
    errorReason := terminal.errorReason
    errorMessage := terminal.errorMessage
    errorRetryable := terminal.errorRetryable
    reviewRequired := terminal.reviewRequired
    workspaceDisposition := terminal.workspaceDisposition
    startedAt := terminal.startedAt
    completedAt := some terminal.completedAt
    durationMs := terminal.durationMs }

/-- The payload is deleted. -/
def OperatorTask.deleted (deletedAt : Int) (task : OperatorTask) : OperatorTask :=
  { task with
    prompt := none
    patch := none
    stdout := none
    stderr := none
    sensitivePayloadAvailable := false
    sensitivePayloadDeletedAt := some deletedAt }

/-- The terminal update of a task whose payload is in this state. -/
def TerminalUpdate.persist (terminal : TerminalUpdate) (providerName : Option Str)
    (payloadState : LockedPayloadState) (task : OperatorTask) : OperatorTask :=
  if payloadState.payloadExpired then
    (terminal.settle providerName task).deleted
      (payloadState.sensitivePayloadDeletedAt.getD payloadState.databaseNow)
  else
    { terminal.settle providerName task with
      patch := terminal.patch
      stdout := terminal.stdout
      stderr := terminal.stderr }

/-- The condition of `SELECT … FOR UPDATE`. -/
def isDispatching (claim task : OperatorTask) : Bool :=
  task.id == claim.id && task.organizationId == claim.organizationId && task.status == .dispatching

/-- The provider's name, if a provider was selected. -/
def providerNameOf (selectedProviderId : Option Str) (organizationId : Str) :
    Program (Option Str) :=
  match selectedProviderId with
  | some (c :: id) => ask (.findProvider (c :: id) organizationId)
  | _ => Prog.pure none

def persistTerminalResult (claim : OperatorTask) (terminal : TerminalUpdate) :
    Program OperatorTask :=
  Prog.tryCatch
    (transact do
      let databaseNow ← ask .databaseNow
      let rows ← statement (lock (isDispatching claim))
      let locked ← Prog.expect rows.head? (.internal "OPERATOR_TASK_TERMINAL_PERSISTENCE_FAILED")
      let providerName ← providerNameOf terminal.selectedProviderId claim.organizationId
      let updated ← statement (.update (fun task => task.id == claim.id)
        (terminal.persist providerName (locked.payloadState databaseNow)))
      let task ← Prog.expect updated.head? (.error (lit "P2025"))
      ask (.recordAudit task.organizationId task.userId (terminalAuditAction task.status) task.id)
      pure task)
    fun error => .throw (orInternal "OPERATOR_TASK_TERMINAL_PERSISTENCE_FAILED" error)

/-- `submitTask`, of a request that has been validated. -/
def submitTask (service : OperatorBridgeService) (organizationId userId : Str)
    (request : SubmitOperatorTask) : Program SubmitOperatorTaskResponse := do
  let fingerprint := service.hash request.fingerprintInput
  let id ← ask .newId
  let correlationId ← ask .newId
  let workflowRunId ← ask .newId
  let workflowStepRunId ← ask .newId
  let createdAt ← ask .now
  let expiresAt := createdAt + service.sensitivePayloadTtlHours * 60 * 60 * 1000
  let claim ← claimTask (organizationId, request.requestId)
    (request.row ⟨id, correlationId, workflowRunId, workflowStepRunId⟩ organizationId userId
      fingerprint createdAt expiresAt)
  if claim.ownsDispatch then do
    let terminal ← dispatchClaimed claim.task userId request
    let persisted ← persistTerminalResult claim.task terminal
    Prog.pure (toSubmitResponse persisted)
  else Prog.pure (toSubmitResponse claim.task)

/-! ## Reading and deleting -/

structure OperatorTaskError where
  reason : Units
  message : Units
  retryable : Bool

/-- `OperatorTaskResult`, with the times as numbers. -/
structure OperatorTaskResult where
  taskId : Str
  requestId : Str
  status : OperatorTaskStatus
  correlationId : Str
  workflowRunId : Str
  workflowStepRunId : Str
  invocationId : Option Str
  executionId : Option Units
  provider : Option (Str × Str)
  capabilityCode : Str
  prompt : Option Str
  stdout : Option Units
  stderr : Option Units
  changedFiles : Option (List Units)
  patch : Option Units
  error : Option OperatorTaskError
  timing : Option (Option Int × Option Int × Option Int)
  workspaceDisposition : Option Units
  reviewRequired : Bool
  sensitivePayloadAvailable : Bool
  sensitivePayloadExpiresAt : Int
  sensitivePayloadDeletedAt : Option Int
  createdAt : Int

def toTaskResult (task : OperatorTask) : OperatorTaskResult where
  taskId := task.id
  requestId := task.requestId
  status := task.status
  correlationId := task.correlationId
  workflowRunId := task.workflowRunId
  workflowStepRunId := task.workflowStepRunId
  invocationId := task.invocationId
  executionId := task.executionId
  provider := do return (← task.providerCode, ← task.providerName)
  capabilityCode := task.capabilityCode
  prompt := task.prompt
  stdout := task.stdout
  stderr := task.stderr
  changedFiles := task.changedFiles.map fun texts =>
    (texts.take MAX_CHANGED_FILES).map redactSensitiveText
  patch := task.patch
  error := do return ⟨← task.errorReason, ← task.errorMessage, task.errorRetryable.getD false⟩
  timing :=
    if task.startedAt.isSome || task.completedAt.isSome || task.durationMs.isSome then
      some (task.startedAt, task.completedAt, task.durationMs)
    else none
  workspaceDisposition := task.workspaceDisposition.filter (· == lit "CLEANED")
  reviewRequired := task.reviewRequired
  sensitivePayloadAvailable := task.sensitivePayloadAvailable
  sensitivePayloadExpiresAt := task.sensitivePayloadExpiresAt
  sensitivePayloadDeletedAt := task.sensitivePayloadDeletedAt
  createdAt := task.createdAt

def getTask (organizationId taskId : Str) : Program OperatorTaskResult := do
  let found ← findTask fun task => task.id == taskId && task.organizationId == organizationId
  let task ← Prog.expect found (.notFound "Operator task not found.")
  pure (toTaskResult task)

/-- The update that deletes the payloads that are due and still available. -/
def payloadDeletion (due : Int → OperatorTask → Bool) (databaseNow : Int) : Stmt OperatorTask :=
  .update (fun task => task.sensitivePayloadAvailable && due databaseNow task)
    (OperatorTask.deleted databaseNow)

def deletePayloads (due : Int → OperatorTask → Bool) : Program Unit :=
  transact do
    let databaseNow ← ask .databaseNow
    let _ ← statement (payloadDeletion due databaseNow)
    pure ()

/-- What the tests delete: every payload that has expired. -/
def expired (databaseNow : Int) (task : OperatorTask) : Bool :=
  decide (task.sensitivePayloadExpiresAt ≤ databaseNow)

end Bridge
