import VitoPlatform.Library.Json
import VitoPlatform.Library.Transactions

/-!
# The rows of the platform database

`WorkflowRun`, `WorkflowStepRun` and `GovernedInvocationClaim` of `schema.prisma`, as far as
the modelled services read them, and the constraints that hold between them. A claim is
identified by its logical operation key, which is unique, as is its invocation id. Times are
milliseconds since the epoch.
-/

namespace Persistence

open Text

inductive WorkflowRunStatus where
  | created
  | running
  | waitingForHuman
  | blocked
  | completed
  | failed
  | cancelled
  deriving DecidableEq

inductive WorkflowStepStatus where
  | pending
  | ready
  | running
  | waiting
  | succeeded
  | failed
  | skipped
  | cancelled
  deriving DecidableEq

inductive EngineeringStepType where
  | plan
  | build
  | test
  | package
  | redTeam
  | parseVerdict
  | correction
  | verify
  | humanReleaseGate
  | releaseExecution
  | remoteVerify
  deriving DecidableEq

/-- The codes the runtime stores in `blockReasonCode`. -/
inductive BlockReasonCode where
  | loopExhausted
  | reviewDisagreement
  | humanDecisionRequired
  | assuranceUnsatisfied
  | humanApprovalMissing
  | providerBlocked
  deriving DecidableEq

structure WorkflowRun where
  id : Str
  organizationId : Str
  taskId : Option Str
  assuranceLevel : Str
  status : WorkflowRunStatus
  currentStepType : Option EngineeringStepType
  correctionLoopCount : Int
  maxCorrectionLoops : Int
  correlationId : Str
  blockReasonCode : Option BlockReasonCode
  failureReasonCode : Option String
  deriving DecidableEq

structure WorkflowStepRun where
  id : Str
  organizationId : Str
  workflowRunId : Str
  stepType : EngineeringStepType
  status : WorkflowStepStatus
  attemptNumber : Nat
  causationId : Option Str
  startedAt : Option Int
  finishedAt : Option Int
  metadata : Json
  deriving DecidableEq

inductive GovernedInvocationClaimState where
  | inProgress
  | completed
  | timedOutUnknown
  | failedUnknown
  deriving DecidableEq

structure GovernedInvocationClaim where
  logicalOperationKey : Str
  invocationId : Str
  contextFingerprint : Str
  state : GovernedInvocationClaimState
  deriving DecidableEq

inductive Row where
  | run (row : WorkflowRun)
  | step (row : WorkflowStepRun)
  | claim (row : GovernedInvocationClaim)
  deriving DecidableEq

inductive RowKey where
  | run (id : Str)
  | step (id : Str)
  | claim (logicalOperationKey : Str)
  deriving DecidableEq

namespace Row

def key : Row → RowKey
  | .run row => .run row.id
  | .step row => .step row.id
  | .claim row => .claim row.logicalOperationKey

def run? : Row → Option WorkflowRun
  | .run row => some row
  | _ => none

def step? : Row → Option WorkflowStepRun
  | .step row => some row
  | _ => none

def claim? : Row → Option GovernedInvocationClaim
  | .claim row => some row
  | _ => none

/-- A primary key or a unique column forbids both rows. -/
def clash : Row → Row → Bool
  | .claim a, .claim b =>
      a.logicalOperationKey == b.logicalOperationKey || a.invocationId == b.invocationId
  | a, b => a.key == b.key

@[simp] theorem run?_eq_some {r : Row} {row : WorkflowRun} : r.run? = some row ↔ r = .run row := by
  cases r <;> simp [run?]

@[simp] theorem step?_eq_some {r : Row} {row : WorkflowStepRun} :
    r.step? = some row ↔ r = .step row := by
  cases r <;> simp [step?]

@[simp] theorem claim?_eq_some {r : Row} {row : GovernedInvocationClaim} :
    r.claim? = some row ↔ r = .claim row := by
  cases r <;> simp [claim?]

theorem clash_of_key (u v : Row) (h : u.key = v.key) : u.clash v = true := by
  cases u <;> cases v <;> simp_all [key, clash]

theorem clash_comm (u v : Row) : u.clash v = v.clash u := by
  cases u with
  | claim a =>
      cases v with
      | claim b => simp only [clash, BEq.comm]
      | run b => exact BEq.comm
      | step b => exact BEq.comm
  | run a => cases v <;> exact BEq.comm
  | step a => cases v <;> exact BEq.comm

end Row

/-- What a call can fail with. -/
inductive Failure where
  /-- An `Error` with this message. -/
  | error (message : String)
  | notFound (message : String)
  | conflict (message : String)
  | badRequest (message : String)
  | forbidden (message : String)
  /-- `AdapterExecutionTimeoutError`. -/
  | adapterTimeout (timeoutMs : Int)
  /-- `GovernedClaimCompletionRejectedError`. -/
  | claimCompletionRejected (logicalOperationKey invocationId : Str)
  /-- The error code P2002. -/
  | uniqueViolation
  | transactionAborted
  /-- A property read of `null` or `undefined`. -/
  | typeError
  /-- Whatever a dependency throws. -/
  | outside (text : Str)
  deriving DecidableEq

def schema : Database.Schema Row RowKey Failure where
  key := Row.key
  clash := Row.clash
  clash_of_key := Row.clash_of_key
  clash_comm := Row.clash_comm
  uniqueViolation := .uniqueViolation
  transactionAborted := .transactionAborted

/-- A statement on one kind of row leaves the others as they are. -/
def onRun (f : WorkflowRun → WorkflowRun) : Row → Row
  | .run row => .run (f row)
  | r => r

def onStep (f : WorkflowStepRun → WorkflowStepRun) : Row → Row
  | .step row => .step (f row)
  | r => r

def onClaim (f : GovernedInvocationClaim → GovernedInvocationClaim) : Row → Row
  | .claim row => .claim (f row)
  | r => r

def isRun (p : WorkflowRun → Bool) : Row → Bool
  | .run row => p row
  | _ => false

def isStep (p : WorkflowStepRun → Bool) : Row → Bool
  | .step row => p row
  | _ => false

def isClaim (p : GovernedInvocationClaim → Bool) : Row → Bool
  | .claim row => p row
  | _ => false

section Statements

variable {r : Row}

theorem isRun_iff {p : WorkflowRun → Bool} :
    isRun p r = true ↔ ∃ row, r = .run row ∧ p row = true := by
  cases r <;> simp [isRun]

theorem isStep_iff {p : WorkflowStepRun → Bool} :
    isStep p r = true ↔ ∃ row, r = .step row ∧ p row = true := by
  cases r <;> simp [isStep]

theorem isClaim_iff {p : GovernedInvocationClaim → Bool} :
    isClaim p r = true ↔ ∃ row, r = .claim row ∧ p row = true := by
  cases r <;> simp [isClaim]

/-- An update that leaves the identity of its rows as it is leaves the constraints alone. -/
theorem key_onRun {f : WorkflowRun → WorkflowRun} (hf : ∀ row, (f row).id = row.id) (r : Row) :
    (onRun f r).key = r.key := by
  cases r <;> simp [onRun, Row.key, hf]

theorem key_onStep {f : WorkflowStepRun → WorkflowStepRun} (hf : ∀ row, (f row).id = row.id)
    (r : Row) : (onStep f r).key = r.key := by
  cases r <;> simp [onStep, Row.key, hf]

theorem key_onClaim {f : GovernedInvocationClaim → GovernedInvocationClaim}
    (hf : ∀ row, (f row).logicalOperationKey = row.logicalOperationKey) (r : Row) :
    (onClaim f r).key = r.key := by
  cases r <;> simp [onClaim, Row.key, hf]

theorem clash_onClaim {f : GovernedInvocationClaim → GovernedInvocationClaim}
    (hkey : ∀ row, (f row).logicalOperationKey = row.logicalOperationKey)
    (hid : ∀ row, (f row).invocationId = row.invocationId) (r q : Row) :
    (onClaim f r).clash q = r.clash q := by
  cases r <;> cases q <;> simp [onClaim, Row.clash, Row.key, hkey, hid]

end Statements

end Persistence
