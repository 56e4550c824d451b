import VitoPlatform.Dispatch.ExecutionTarget
import VitoPlatform.Library.SingleWrite
import VitoPlatform.Workflow.StateMachine

/-!
# Build approvals

`CodeBuildApprovalService`: a human grants and revokes an approval, a machine consumes it, and
`consumeForDispatch` consumes it for one execution target. The table is `code_build_approvals`;
users, clock, generated identifiers and audit records are questions to the environment. That a
consumption request key is unique in its organization is left to the failures of the database,
which may strike any statement. `hash` is SHA-256 of the JSON text of an object.
-/

namespace Dispatch

open Text Invocation Database

structure CodeBuildApproval where
  id : Str
  organizationId : Str
  missionId : Str
  repository : Str
  branch : Str
  approvalRequestKey : Str
  approvalRequestHash : Str
  approvedByUserId : Str
  approvedAt : Int
  expiresAt : Int
  revokedAt : Option Int
  revokedByUserId : Option Str
  consumedAt : Option Int
  consumedByUserId : Option Str
  consumptionRequestKey : Option Str
  consumptionRequestHash : Option Str
  executionTargetHash : Option Str
  executionTarget : Option CodeBuildExecutionTarget

namespace CodeBuildApproval

def scope (approval : CodeBuildApproval) : ApprovalScope :=
  ⟨approval.organizationId, approval.missionId, approval.repository, approval.branch⟩

/-- The unique constraints of the table, but for the consumption request key. -/
def clash (a b : CodeBuildApproval) : Bool :=
  a.id == b.id ||
    (a.organizationId == b.organizationId && a.approvalRequestKey == b.approvalRequestKey)

end CodeBuildApproval

inductive Failure where
  | uniqueViolation
  | transactionAborted
  | recordNotFound
  | database (message : String)
  | unprocessableEntity (message : String)
  | forbidden (message : String)
  | conflict (message : String)
  | notFound (message : String)
  | badRequest (message : String)
  | serviceUnavailable (code : String)
  | internal (message : String)

def schema : Schema CodeBuildApproval Str Failure where
  key := CodeBuildApproval.id
  clash := CodeBuildApproval.clash
  clash_of_key u v h := by simp [CodeBuildApproval.clash, h]
  clash_comm u v := by simp only [CodeBuildApproval.clash, BEq.comm]
  uniqueViolation := .uniqueViolation
  transactionAborted := .transactionAborted

inductive UserRole where
  | owner
  | admin
  | member
  | viewer
  deriving DecidableEq

/-- An active user of an organization. -/
structure User where
  isMachineIdentity : Bool
  role : UserRole
  machineScope : Option Str

/-! ## Questions to the environment -/

structure PersistedIdentity where
  correlationId : Str
  assuranceLevel : Str
  capabilityCode : Str

structure ProviderRoutingRequest where
  organizationId : Str
  capability : Str
  assuranceLevel : Option Str
  workflowRunId : Str
  workflowStepRunId : Str
  independenceContext : Option Workflow.IndependenceContext
  /-- `budget.maxCostMinorUnits`. -/
  maxCostMinorUnits : Option Int
  correlationId : Str

/-- A provider as the router returns it, with its metadata. -/
structure RoutedProvider extends ProviderDeclaration where
  metadata : Json

structure ProviderRoutingResponse where
  selectedProvider : Option RoutedProvider
  routingDecisionId : Str

/-- What the governed runtime is asked to do by a dispatch. The trust origin is the server and
the action is RUN_COMMAND. -/
structure GovernedOperation where
  organizationId : Str
  providerId : Str
  capabilityCode : Str
  command : Str
  args : List Str
  prompt : Str
  correlationId : Str
  workflowRunId : Str
  workflowStepRunId : Str
  executionBudget : Option ExecutionBudget
  codeBuildExecutionTarget : Option CodeBuildExecutionTarget

/-- What the services that handle approvals ask for outside of the table. -/
inductive Ask where
  /-- `user.findFirst({ where: { id, organizationId, status: 'ACTIVE', deletedAt: null } })`. -/
  | findActiveUser (id organizationId : Str)
  | now
  | newId
  /-- `audit.record`. -/
  | recordAudit (organizationId actorId : Str) (action : String) (entityId : Str)
  /-- `workflowIdentity.resolve`. -/
  | resolveIdentity (organizationId workflowRunId workflowStepRunId : Str)
  /-- `providerRouter.routeForExecution`. -/
  | routeForExecution (request : ProviderRoutingRequest)
  /-- The prompt with the advisory contexts that could be retrieved. -/
  | enrichPrompt (organizationId workflowRunId prompt capabilityCode : Str)
  /-- `governedRuntime.executeWorkspaceFileOperation`: the invocation of the provider. -/
  | execute (operation : GovernedOperation)
  /-- `providerRuntimeState.observeExecution` and the capture of experience. -/
  | observe (organizationId providerId : Str)

@[reducible] def Ans : Ask → Type
  | .findActiveUser _ _ => Option User
  | .now => Int
  | .newId => Str
  | .recordAudit _ _ _ _ => Unit
  | .resolveIdentity _ _ _ => Option PersistedIdentity
  | .routeForExecution _ => ProviderRoutingResponse
  | .enrichPrompt _ _ _ _ => Str
  | .execute _ => GovernedCapabilityInvocationResult
  | .observe _ _ => Unit

abbrev Program (α : Type) :=
  Prog (Effect CodeBuildApproval Ask) (Answer CodeBuildApproval Ans) Failure α

abbrev Happened := Happening CodeBuildApproval Ask Failure Ans

def ask (x : Ask) : Program (Ans x) := Prog.perform (Effect.ask x)

def statement (s : Stmt CodeBuildApproval) : Program (List CodeBuildApproval) :=
  Prog.perform (Effect.stmt s)

/-- `findFirst` and `findUnique`. -/
def findApproval (p : CodeBuildApproval → Bool) : Program (Option CodeBuildApproval) := do
  let rows ← statement (.select p)
  pure rows.head?

/-- What is hashed, as the JSON text of an object. -/
inductive Hashed where
  | approval (missionId repository branch : Str) (expiresAt : Int)
  | consumption (approvalId missionId repository branch : Str) (executionTargetHash : Option Str)
  | target (executionTarget : CodeBuildExecutionTarget)

/-- `where: { id, organizationId }`. -/
def approvalOf (organizationId id : Str) (row : CodeBuildApproval) : Bool :=
  row.id == id && row.organizationId == organizationId

/-! ## Granting and revoking -/

/-- `requireHuman`. -/
def requireHuman (organizationId userId : Str) : Program Unit := do
  let user ← ask (.findActiveUser userId organizationId)
  Prog.require
    (user.any fun user => !user.isMachineIdentity && (user.role == .owner || user.role == .admin))
    (.forbidden "An active human OWNER or ADMIN identity is required.")

structure CreateCodeBuildApprovalDto where
  missionId : Str
  repository : Str
  branch : Str
  expiresAt : Int
  requestKey : Str

/-- The approval a request creates. -/
def CreateCodeBuildApprovalDto.row (dto : CreateCodeBuildApprovalDto) (id organizationId userId
    requestHash : Str) (approvedAt : Int) : CodeBuildApproval where
  id := id
  organizationId := organizationId
  missionId := dto.missionId
  repository := dto.repository
  branch := dto.branch
  approvalRequestKey := dto.requestKey
  approvalRequestHash := requestHash
  approvedByUserId := userId
  approvedAt := approvedAt
  expiresAt := dto.expiresAt
  revokedAt := none
  revokedByUserId := none
  consumedAt := none
  consumedByUserId := none
  consumptionRequestKey := none
  consumptionRequestHash := none
  executionTargetHash := none
  executionTarget := none

section Programs

variable (hash : Hashed → Str)

def create (organizationId userId : Str) (dto : CreateCodeBuildApprovalDto) :
    Program CodeBuildApproval := do
  let now ← ask .now
  Prog.require (now < dto.expiresAt)
    (.unprocessableEntity "Approval expiry must be in the future.")
  let requestHash :=
    hash (.approval dto.missionId dto.repository dto.branch dto.expiresAt)
  transact do
    requireHuman organizationId userId
    let existing ← findApproval fun row =>
      row.organizationId == organizationId && row.approvalRequestKey == dto.requestKey
    match existing with
    | some existing => do
        Prog.require
          (existing.approvalRequestHash == requestHash && existing.approvedByUserId == userId)
          (.conflict "Request key was already used with different approval content.")
        pure existing
    | none => do
        let id ← ask .newId
        let approvedAt ← ask .now
        let approval := dto.row id organizationId userId requestHash approvedAt
        let _ ← statement (.insert approval)
        ask (.recordAudit organizationId userId "CODE_BUILD_APPROVAL_GRANTED" approval.id)
        pure approval

def revokedRow (now : Int) (userId : Str) (row : CodeBuildApproval) : CodeBuildApproval :=
  { row with revokedAt := some now, revokedByUserId := some userId }

/-- The update of `revoke`. Its condition is the id alone. -/
def revocation (id : Str) (now : Int) (userId : Str) : Stmt CodeBuildApproval :=
  .update (fun row => row.id == id) (revokedRow now userId)

def revoke (organizationId userId id : Str) : Program CodeBuildApproval :=
  transact do
    requireHuman organizationId userId
    let found ← findApproval (approvalOf organizationId id)
    let approval ← Prog.expect found (.notFound "CODE_BUILD approval not found.")
    if approval.revokedAt.isSome then pure approval
    else do
      Prog.require approval.consumedAt.isNone
        (.conflict "A consumed approval cannot be revoked.")
      let now ← ask .now
      let rows ← statement (revocation id now userId)
      let revoked ← Prog.expect rows.head? .recordNotFound
      ask (.recordAudit organizationId userId "CODE_BUILD_APPROVAL_REVOKED" id)
      pure revoked

/-! ## Consuming -/

structure ConsumeCodeBuildApprovalDto where
  missionId : Str
  repository : Str
  branch : Str
  requestKey : Str

def ConsumeCodeBuildApprovalDto.scope (dto : ConsumeCodeBuildApprovalDto) (organizationId : Str) :
    ApprovalScope :=
  ⟨organizationId, dto.missionId, dto.repository, dto.branch⟩

/-- `consumedAt: null, revokedAt: null, expiresAt: { gt: now }`. -/
def available (now : Int) (row : CodeBuildApproval) : Bool :=
  row.consumedAt.isNone && row.revokedAt.isNone && decide (now < row.expiresAt)

def consumedRow (now : Int) (machineUserId requestKey requestHash : Str)
    (row : CodeBuildApproval) : CodeBuildApproval :=
  { row with
    consumedAt := some now
    consumedByUserId := some machineUserId
    consumptionRequestKey := some requestKey
    consumptionRequestHash := some requestHash }

/-- The update of `consume`. -/
def consumption (organizationId machineUserId id requestKey requestHash : Str) (now : Int) :
    Stmt CodeBuildApproval :=
  .update (fun row => approvalOf organizationId id row && available now row)
    (consumedRow now machineUserId requestKey requestHash)

/-- The update of `consumeForDispatch`: on the scope too, and with the execution target. -/
def dispatchConsumption (organizationId machineUserId id : Str)
    (dto : ConsumeCodeBuildApprovalDto) (executionTarget : CodeBuildExecutionTarget)
    (now : Int) : Stmt CodeBuildApproval :=
  let executionTargetHash := hash (.target executionTarget)
  let requestHash := hash
    (.consumption id dto.missionId dto.repository dto.branch (some executionTargetHash))
  .update
    (fun row => approvalOf organizationId id row && row.missionId == dto.missionId &&
      row.repository == dto.repository && row.branch == dto.branch && available now row)
    fun row =>
      { consumedRow now machineUserId dto.requestKey requestHash row with
        executionTargetHash := some executionTargetHash
        executionTarget := some executionTarget }

/-- `findUniqueOrThrow({ where: { id } })`. -/
def findUniqueOrThrow (id : Str) : Program CodeBuildApproval := do
  let found ← findApproval fun row => row.id == id
  Prog.expect found .recordNotFound

def consumeForDispatch (organizationId machineUserId id : Str)
    (dto : ConsumeCodeBuildApprovalDto) (executionTarget : CodeBuildExecutionTarget) :
    Program CodeBuildApproval := do
  Prog.require
    (isCodeBuildExecutionTarget executionTarget &&
      codeBuildTargetMatchesApprovalScope executionTarget (dto.scope organizationId))
    (.forbidden "CODE_BUILD execution target does not match approval scope.")
  transact do
    let actor ← ask (.findActiveUser machineUserId organizationId)
    Prog.require
      (actor.any fun actor =>
        actor.isMachineIdentity && actor.machineScope == some "vito-bridge".toList)
      (.forbidden "Active vito-bridge machine identity required.")
    let now ← ask .now
    let claimed ← statement
      (dispatchConsumption hash organizationId machineUserId id dto executionTarget now)
    Prog.require (claimed.length == 1)
      (.forbidden "No unconsumed CODE_BUILD approval matches this execution.")
    ask (.recordAudit organizationId machineUserId "CODE_BUILD_APPROVAL_CONSUMED" id)
    findUniqueOrThrow id

def consume (organizationId machineUserId id : Str) (dto : ConsumeCodeBuildApprovalDto) :
    Program CodeBuildApproval :=
  let requestHash := hash (.consumption id dto.missionId dto.repository dto.branch none)
  transact do
    let actor ← ask (.findActiveUser machineUserId organizationId)
    Prog.require (actor.any fun actor => actor.isMachineIdentity)
      (.forbidden "A scoped machine identity is required.")
    let found ← findApproval (approvalOf organizationId id)
    let approval ← Prog.expect found (.notFound "CODE_BUILD approval not found.")
    if approval.consumedAt.isSome then do
      Prog.require
        (approval.consumptionRequestKey == some dto.requestKey &&
          approval.consumptionRequestHash == some requestHash &&
          approval.consumedByUserId == some machineUserId)
        (.conflict "Approval was already consumed.")
      pure approval
    else do
      let checkedAt ← ask .now
      Prog.require
        (approval.revokedAt.isNone && decide (checkedAt < approval.expiresAt) &&
          approval.missionId == dto.missionId && approval.repository == dto.repository &&
          approval.branch == dto.branch)
        (.forbidden "No valid CODE_BUILD approval exists for the requested execution scope.")
      let consumedAt ← ask .now
      let claimed ← statement
        (consumption organizationId machineUserId id dto.requestKey requestHash consumedAt)
      Prog.require (claimed.length == 1)
        (.conflict "Approval is no longer available for consumption.")
      ask (.recordAudit organizationId machineUserId "CODE_BUILD_APPROVAL_CONSUMED" id)
      findUniqueOrThrow id

end Programs

end Dispatch
