import VitoPlatform.Activation.Services
import VitoPlatform.AgentRuntime.Execution
import VitoPlatform.Learning.Store
import VitoPlatform.Library.Journals
import VitoPlatform.Persistence.Checks
import VitoPlatform.Tasks.Services
import VitoPlatform.Workflow.Runtime

/-!
# Which agent executes a step

`approve`, `revoke` and `resolveApproved` of `WorkflowAgentAssignmentService`, `resolveAndBind` of
`WorkflowExecutionPlanService` and `resolve` of `WorkflowExecutionIdentityService`. The runs, tasks
and employees that they read belong to other services, which may change them at any time. A journal
keeps what the calls have read and written; no program looks at it.
-/

namespace Workforce

open Text Concurrent Services
open AgentRuntime (capabilityForStep)
open Learning (TenantContext)
open Persistence (EngineeringStepType WorkflowRun WorkflowStepRun)

/-- The columns that identify a plan entry and an assignment. -/
structure StepKey where
  organizationId : Str
  workflowRunId : Str
  stepType : EngineeringStepType
  deriving DecidableEq

structure WorkflowExecutionPlanEntry where
  id : Str
  key : StepKey
  capabilityCode : Str

inductive AssignmentStatus where
  | approved
  | revoked
  deriving DecidableEq

structure WorkflowAgentAssignment where
  id : Str
  key : StepKey
  capabilityCode : Str
  digitalEmployeeId : Str
  status : AssignmentStatus
  approvedByUserId : Str
  approvalRef : Str

structure ApproveInput where
  workflowRunId : Str
  stepType : EngineeringStepType
  digitalEmployeeId : Str
  approvalRef : Str

structure PersistedWorkflowExecutionIdentity where
  organizationId : Str
  workflowRunId : Str
  workflowStepRunId : Str
  taskId : Str
  agentId : Str
  stepType : EngineeringStepType
  capabilityCode : Str
  attemptNumber : Nat
  assuranceLevel : Str
  correlationId : Str

/-- The tables of other services. -/
structure Records where
  runs : List WorkflowRun
  steps : List WorkflowStepRun
  tasks : List Tasks.Task
  staff : Activation.Store

/-- What a call has read or written, with its session. -/
inductive Entry where
  | eligible (session : Nat) (employee : Activation.DigitalEmployee)
      (capabilities : Activation.Assignments)
  | approved (session : Nat) (context : TenantContext) (assignment : WorkflowAgentAssignment)
  | revoked (session : Nat) (context : TenantContext) (key : StepKey)
  | stepRead (session : Nat) (step : WorkflowStepRun) (run : WorkflowRun)
  | assignmentRead (session : Nat) (key : StepKey) (found : Option WorkflowAgentAssignment)
  | taskRead (session : Nat) (task : Tasks.Task)
  | agentRead (session : Nat) (agent : Activation.DigitalEmployee)

structure Store where
  records : Records
  planEntries : List WorkflowExecutionPlanEntry
  assignments : List WorkflowAgentAssignment
  journal : List Entry

def Store.record (s : Store) (entry : Entry) : Store := { s with journal := s.journal ++ [entry] }

/-- A read, and what it leaves in the journal. -/
def lookup {α : Type} (find : Store → Option α) (entry : α → Entry) : Program Store (Option α) :=
  change fun _ s =>
    match find s with
    | none => (.ok none, s)
    | some a => (.ok (some a), s.record (entry a))

/-! ## Assignments -/

/-- The employee is active, and has been granted the capability. -/
def isEligible (organizationId capabilityCode : Str) (employee : Activation.DigitalEmployee)
    (capabilities : Activation.Assignments) : Bool :=
  employee.organizationId = organizationId ∧ employee.status = .active ∧
    capabilities.any fun (link, capability) => link.isEnabled ∧
      capability.organizationId = organizationId ∧ capability.code = capabilityCode

/-- `digitalEmployee.findFirst`, among the active ones that have a capability. -/
def Records.eligible (r : Records) (organizationId digitalEmployeeId capabilityCode : Str) :
    Option (Activation.DigitalEmployee × Activation.Assignments) :=
  (r.staff.employees.find? fun employee => employee.id = digitalEmployeeId ∧
    isEligible organizationId capabilityCode employee (r.staff.assignments employee.id)).map
      fun employee => (employee, r.staff.assignments employee.id)

def Records.hasRun (r : Records) (organizationId id : Str) : Bool :=
  r.runs.any fun run => run.id = id ∧ run.organizationId = organizationId

/-- The foreign keys of an assignment. -/
def Records.refers (r : Records) (workflowRunId digitalEmployeeId : Str) : Bool :=
  (Tables.find WorkflowRun.id r.runs workflowRunId).isSome &&
    (Tables.find Activation.DigitalEmployee.id r.staff.employees digitalEmployeeId).isSome

namespace WorkflowAgentAssignment

/-- What a conflict with a row makes of it. -/
def replaced (new old : WorkflowAgentAssignment) : WorkflowAgentAssignment :=
  { old with
    capabilityCode := new.capabilityCode
    digitalEmployeeId := new.digitalEmployeeId
    status := .approved
    approvedByUserId := new.approvedByUserId
    approvalRef := new.approvalRef }

def revoke (assignment : WorkflowAgentAssignment) : WorkflowAgentAssignment :=
  { assignment with status := .revoked }

end WorkflowAgentAssignment

/-- `INSERT … ON CONFLICT … DO UPDATE … RETURNING *`. -/
def Store.approve (s : Store) (session : Nat) (context : TenantContext)
    (new : WorkflowAgentAssignment) : Except HttpError WorkflowAgentAssignment × Store :=
  if !s.records.refers new.key.workflowRunId new.digitalEmployeeId then (.error .database, s)
  else
    match Tables.find WorkflowAgentAssignment.key s.assignments new.key with
    | some old =>
        (.ok (new.replaced old),
          { s with
            assignments :=
              Tables.write WorkflowAgentAssignment.key s.assignments new.key new.replaced
            journal := s.journal ++ [.approved session context (new.replaced old)] })
    | none =>
        if s.assignments.any (·.id = new.id) then (.error .database, s)
        else
          (.ok new,
            { s with
              assignments := s.assignments ++ [new]
              journal := s.journal ++ [.approved session context new] })

/-- The row under a key that is approved. -/
def approvedAt (rows : List WorkflowAgentAssignment) (key : StepKey) :
    Option WorkflowAgentAssignment :=
  rows.find? fun assignment => assignment.key = key ∧ assignment.status = .approved

/-- `UPDATE … RETURNING *`, if there is a row that is approved. -/
def Store.revoke (s : Store) (session : Nat) (context : TenantContext) (key : StepKey) :
    Option WorkflowAgentAssignment × Store :=
  match approvedAt s.assignments key with
  | none => (none, s)
  | some assignment =>
      (some assignment.revoke,
        { s with
          assignments := Tables.write WorkflowAgentAssignment.key s.assignments key
            WorkflowAgentAssignment.revoke
          journal := s.journal ++ [.revoked session context key] })

def recordAudit : Program Store Unit := query fun _ => ()

def ApproveInput.assignment (input : ApproveInput) (organizationId capabilityCode userId : Str)
    (approvalRef id : Str) : WorkflowAgentAssignment where
  id := id
  key := ⟨organizationId, input.workflowRunId, input.stepType⟩
  capabilityCode := capabilityCode
  digitalEmployeeId := input.digitalEmployeeId
  status := .approved
  approvedByUserId := userId
  approvalRef := approvalRef

/-- A reference to an approval has between 1 and 512 characters. -/
def isApprovalRef (approvalRef : Str) : Bool :=
  approvalRef ≠ [] && Invocation.utf16Length approvalRef ≤ 512

/-- `approve`. -/
def approve (session : Nat) (context : TenantContext) (input : ApproveInput) :
    Program Store WorkflowAgentAssignment := do
  let userId ← Proc.expect context.human?
    (.badRequest "Workflow agent assignment requires authenticated human governance.")
  let approvalRef := trim input.approvalRef
  Proc.require (isApprovalRef approvalRef)
    (.badRequest "approvalRef must contain between 1 and 512 characters.")
  let found ← query fun s => s.records.hasRun context.organizationId input.workflowRunId
  Proc.require found (.notFound "WorkflowRun not found.")
  let capabilityCode ← Proc.expect (capabilityForStep input.stepType) (.badRequest
    "This workflow step is a governance boundary and cannot be assigned to an agent.")
  let employee ← lookup
    (fun s => s.records.eligible context.organizationId input.digitalEmployeeId capabilityCode)
    fun found => .eligible session found.1 found.2
  let _ ← Proc.expect employee (.badRequest
    "DigitalEmployee is not active and enabled for the required server-owned capability.")
  let assignment ← change fun c s => s.approve session context
    (input.assignment context.organizationId capabilityCode userId approvalRef c.id)
  recordAudit
  return assignment

/-- `revoke`. -/
def revoke (session : Nat) (context : TenantContext) (workflowRunId : Str)
    (stepType : EngineeringStepType) : Program Store WorkflowAgentAssignment := do
  let _ ← Proc.expect context.human?
    (.badRequest "Workflow agent assignment revocation requires authenticated human governance.")
  let revoked ← change fun _ s =>
    let result := s.revoke session context ⟨context.organizationId, workflowRunId, stepType⟩
    (.ok result.1, result.2)
  let assignment ← Proc.expect revoked
    (.notFound "Approved workflow agent assignment not found.")
  recordAudit
  return assignment

/-- `resolveApproved`. -/
def resolveApproved (session : Nat) (key : StepKey) :
    Program Store (Option WorkflowAgentAssignment) :=
  change fun _ s =>
    let found := approvedAt s.assignments key
    (.ok found, s.record (.assignmentRead session key found))

/-! ## Plan entries -/

def Store.planEntry (s : Store) (key : StepKey) : Option WorkflowExecutionPlanEntry :=
  Tables.find WorkflowExecutionPlanEntry.key s.planEntries key

/-- `INSERT … ON CONFLICT … DO NOTHING`. -/
def Store.bindPlan (s : Store) (new : WorkflowExecutionPlanEntry) : Except HttpError Unit × Store :=
  if (s.planEntry new.key).isSome then (.ok (), s)
  else if (Tables.find WorkflowRun.id s.records.runs new.key.workflowRunId).isNone ∨
      s.planEntries.any (·.id = new.id) then (.error .database, s)
  else (.ok (), { s with planEntries := s.planEntries ++ [new] })

/-- `assertImmutable`. -/
def assertImmutable (row : WorkflowExecutionPlanEntry) (expectedCapability : Str) :
    Program Store Str := do
  Proc.require (row.capabilityCode = expectedCapability) (.conflict
    (String.ofList ("Persisted workflow capability ".toList ++ row.capabilityCode ++
      " conflicts with server-owned mapping ".toList ++ expectedCapability ++ ['.'])))
  return expectedCapability

/-- `resolveAndBind`, which answers with the capability. -/
def resolveAndBind (key : StepKey) : Program Store Str := do
  let expectedCapability ← Proc.expect (capabilityForStep key.stepType) (.badRequest
    ("Workflow step " ++ Workflow.stepName key.stepType ++ " has no agent-executable capability."))
  let existing ← query fun s => s.planEntry key
  match existing with
  | some row => assertImmutable row expectedCapability
  | none => do
      change fun c s => s.bindPlan ⟨c.id, key, expectedCapability⟩
      let bound ← query fun s => s.planEntry key
      let row ← Proc.expect bound
        (.conflict "Workflow execution plan binding could not be persisted.")
      assertImmutable row expectedCapability

/-! ## Identities -/

def assignmentRequired : HttpError := .badRequest
  ("Persisted workflow agent execution requires either an approved step assignment or a task " ++
    "assigned to a DigitalEmployee.")

/-- `workflowStepRun.findUnique`, with its run. -/
def Records.stepWithRun (r : Records) (id : Str) : Option (WorkflowStepRun × WorkflowRun) :=
  (Tables.find WorkflowStepRun.id r.steps id).bind fun step =>
    (Tables.find WorkflowRun.id r.runs step.workflowRunId).map fun run => (step, run)

def Records.task (r : Records) (organizationId id : Str) : Option Tasks.Task :=
  r.tasks.find? fun task => task.id = id ∧ task.organizationId = organizationId

def Records.employee (r : Records) (organizationId id : Str) : Option Activation.DigitalEmployee :=
  r.staff.employees.find? fun employee =>
    employee.id = id ∧ employee.organizationId = organizationId

/-- A text that is given: the empty text is false. -/
def given (text : Option Str) : Option Str := text.filter (· ≠ [])

/-- The agent of a step that is planned: the one that has been approved for it, if there is one,
and otherwise that of its task. -/
def resolveAgent (session : Nat) (key : StepKey) (taskId capabilityCode : Str)
    (assignment : Option WorkflowAgentAssignment) :
    Program Store (Tasks.Task × Activation.DigitalEmployee) := do
  Proc.require (assignment.all fun assignment => assignment.capabilityCode = capabilityCode)
    (.badRequest ("Approved workflow agent assignment capability does not match " ++
      "server-owned execution plan."))
  let task ← lookup (fun s => s.records.task key.organizationId taskId) (.taskRead session)
  let task ← Proc.expect task (.notFound "Workflow task not found.")
  let agentId ← Proc.expect (given ((assignment.map WorkflowAgentAssignment.digitalEmployeeId).or
    task.assignment.assignedDigitalEmployeeId)) assignmentRequired
  let agent ← lookup (fun s => s.records.employee key.organizationId agentId) (.agentRead session)
  let agent ← Proc.expect agent (.notFound "Assigned DigitalEmployee not found.")
  Proc.require (assignment.isNone || agent.status = .active)
    (.badRequest "Approved workflow-step DigitalEmployee is no longer ACTIVE.")
  return (task, agent)

/-- `resolve`, where the assignments are injected or not. -/
def resolve (agentAssignments : Bool) (session : Nat)
    (organizationId workflowRunId workflowStepRunId : Str) :
    Program Store (Option PersistedWorkflowExecutionIdentity) := do
  let found ← lookup (fun s => s.records.stepWithRun workflowStepRunId)
    fun found => .stepRead session found.1 found.2
  match found with
  | none => return none
  | some (step, run) => do
      Proc.require (step.organizationId = organizationId ∧ run.organizationId = organizationId)
        (.notFound "Workflow step not found.")
      Proc.require (step.workflowRunId = workflowRunId ∧ run.id = workflowRunId)
        (.badRequest "workflowRunId does not match workflowStepRunId.")
      let taskId ← Proc.expect (given run.taskId)
        (.badRequest "Persisted workflow execution requires a task identity.")
      let key : StepKey := ⟨organizationId, workflowRunId, step.stepType⟩
      let capabilityCode ← resolveAndBind key
      let assignment ← if agentAssignments then resolveApproved session key else pure none
      let (task, agent) ← resolveAgent session key taskId capabilityCode assignment
      return some
        { organizationId := organizationId
          workflowRunId := workflowRunId
          workflowStepRunId := workflowStepRunId
          taskId := task.id
          agentId := agent.id
          stepType := step.stepType
          capabilityCode := capabilityCode
          attemptNumber := step.attemptNumber
          assuranceLevel := run.assuranceLevel
          correlationId := run.correlationId }

/-! ## Calls -/

inductive Call where
  | approve (context : TenantContext) (input : ApproveInput)
  | revoke (context : TenantContext) (workflowRunId : Str) (stepType : EngineeringStepType)
  | resolve (organizationId workflowRunId workflowStepRunId : Str)
  /-- A statement of another service. -/
  | other (f : Records → Records)

inductive Answer where
  | assignment (assignment : WorkflowAgentAssignment)
  | identity (identity : Option PersistedWorkflowExecutionIdentity)
  | other

def Call.program (session : Nat) : Call → Program Store Answer
  | .approve context input => do
      let assignment ← Workforce.approve session context input
      return .assignment assignment
  | .revoke context workflowRunId stepType => do
      let assignment ← Workforce.revoke session context workflowRunId stepType
      return .assignment assignment
  | .resolve organizationId workflowRunId workflowStepRunId => do
      let identity ← Workforce.resolve true session organizationId workflowRunId workflowStepRunId
      return .identity identity
  | .other f => change fun _ s => (.ok .other, { s with records := f s.records })

def programs (calls : List Call) : List (Program Store Answer) :=
  calls.mapIdx fun session call => call.program session

abbrev Move := Concurrent.Move Store Choice HttpError Answer

/-- A run of any calls from a store. -/
abbrev Run (calls : List Call) (store : Store) (moves : List Move)
    (s : Concurrent.System Store Choice HttpError Answer) : Prop :=
  Concurrent.Run store (programs calls) moves s

end Workforce
