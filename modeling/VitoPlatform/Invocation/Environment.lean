import VitoPlatform.Invocation.Keys
import VitoPlatform.Persistence.Rows

/-!
# What the programs of the platform ask for

The injected resolvers, registries and services of `GovernedInvocationServiceImpl` and of the
workflow services, as questions a program puts to its environment. Each may be answered with
any value of its type, with nothing, or with a thrown error; which of them are injected into
an invocation at all is recorded in `GovernedInvocationDependencies`.

The idempotency store is a pair of programs. `askingStore` puts its two operations to the
environment too, `PrismaGovernedIdempotencyStore` is the one over the database.
-/

namespace Invocation

open Text Policy Persistence Database

/-- What the executable resolver is told. -/
structure ExecutableContext where
  organizationId : Str
  workflowRunId : Str
  capabilityCode : Str
  providerId : Str

def executableContext (request : GovernedCapabilityInvocationRequest) : ExecutableContext where
  organizationId := request.organizationId
  workflowRunId := request.workflowRunId
  capabilityCode := request.capabilityCode
  providerId := request.providerId

inductive GovernedInvocationClaimResult where
  | claimed (claim : GovernedInvocationClaim)
  | duplicate (existing : GovernedInvocationClaim)
  | contextConflict (existingInvocationId : Str)

inductive Ask where
  | resolveProvider (providerId organizationId : Str)
  | getAdapter (providerType : ProviderType)
  | resolveExecutionProfile (context : ResolutionContext)
  | resolveHumanGate (reference : Str) (context : ResolutionContext)
      (inputReference : Option Str) (requestedAction : EnumValue ExecutionAction)
  | resolveHomeDirectory (context : ResolutionContext)
  | resolveExecutionPolicy (context : ResolutionContext) (executionProfile : ExecutionProfile)
      (requestedAction : EnumValue ExecutionAction)
  | peekCloudProfile (providerCode : Str)
  | resolveCloudProfile (providerCode : Str)
  | resolveExecutable (command : Str) (context : ExecutableContext)
  | resolveWorkingDirectory (context : ResolutionContext)
  | getCredentialReference (providerId organizationId : Str)
  | validateCredentialReference (reference : Str)
  /-- The process the policy is evaluated in. -/
  | host
  | now
  | auditPolicyDecision (invocationId providerId : Str) (executionProfile : ExecutionProfile)
      (decision : PolicyDecision) (allowed : Bool)
  | auditInvocationComplete (executionProfile : ExecutionProfile)
      (result : GovernedCapabilityInvocationResult)
  | claim (logicalOperationKey invocationId contextFingerprint : Str)
  | markCompleted (logicalOperationKey invocationId : Str)
      (state : GovernedInvocationClaimState)
  /-- `adapter.execute()` of the adapter registered for the provider type. -/
  | execute (providerType : ProviderType) (request : GovernedAdapterRequest)
      (context : GovernedExecutionContext)
  /-- A generated identifier. -/
  | newId
  /-- `auditService.record`. -/
  | recordAudit (organizationId : Str) (action entityType : String) (entityId : Str)
  /-- `executionCancellations.cancelWorkflow`. -/
  | cancelExecutions (organizationId workflowRunId : Str)
  /-- A succeeded RELEASE_VERIFICATION record of the step, in the execution ledger. -/
  | findExecutionRecord (id organizationId workflowRunId workflowStepRunId : Str)

@[reducible] def Ans : Ask → Type
  | .resolveProvider _ _ => Option ProviderDeclaration
  | .getAdapter _ => Option Unit
  | .resolveExecutionProfile _ => Option (EnumValue ExecutionProfile)
  | .resolveHumanGate _ _ _ _ => Option HumanGateBinding
  | .resolveHomeDirectory _ => Option Str
  | .resolveExecutionPolicy _ _ _ => Option ExecutionPolicyConfig
  | .peekCloudProfile _ | .resolveCloudProfile _ => Option CloudExecutionProfile
  | .resolveExecutable _ _ => Option TrustedExecutable
  | .resolveWorkingDirectory _ => Option Str
  | .getCredentialReference _ _ => Option Str
  | .validateCredentialReference _ => Bool
  | .host => Host
  | .now => Int
  | .auditPolicyDecision _ _ _ _ _ | .auditInvocationComplete _ _ => Unit
  | .claim _ _ _ => GovernedInvocationClaimResult
  | .markCompleted _ _ _ => Unit
  | .execute _ _ _ => Option GovernedAdapterResult
  | .newId => Str
  | .recordAudit _ _ _ _ | .cancelExecutions _ _ => Unit
  | .findExecutionRecord _ _ _ _ => Option Unit

/-- A program of the platform. -/
abbrev Program (α : Type) := Prog (Effect Row Ask) (Answer Row Ans) Failure α

/-- What a program of the platform did, and how it was answered. -/
abbrev Happened := Prog.Event (Effect Row Ask) (Answer Row Ans) Failure

def ask (x : Ask) : Program (Ans x) := Prog.perform (Effect.ask x)

def statement (s : Stmt Row) : Program (List Row) := Prog.perform (Effect.stmt s)

/-- The event of a question answered with a value. -/
def answered (x : Ask) (answer : Ans x) : Happened := ⟨.ask x, .ok answer⟩

structure GovernedInvocationIdempotencyStore where
  claim : Str → Str → Str → Program GovernedInvocationClaimResult
  markCompleted : Str → Str → GovernedInvocationClaimState → Program Unit

/-- A store that may do anything. -/
def askingStore : GovernedInvocationIdempotencyStore where
  claim key invocationId fingerprint := ask (.claim key invocationId fingerprint)
  markCompleted key invocationId state := ask (.markCompleted key invocationId state)

@[simp] theorem askingStore_claim (key invocationId fingerprint : Str) :
    askingStore.claim key invocationId fingerprint =
      ask (.claim key invocationId fingerprint) := rfl

@[simp] theorem askingStore_markCompleted (key invocationId : Str)
    (state : GovernedInvocationClaimState) :
    askingStore.markCompleted key invocationId state =
      ask (.markCompleted key invocationId state) := rfl

/-- `findUnique({ where: { logicalOperationKey } })`. -/
def findClaimByKey (key : Str) : Program (Option GovernedInvocationClaim) := do
  let rows ← statement (.select (isClaim fun row => row.logicalOperationKey == key))
  pure (rows.filterMap Row.claim?).head?

/-- `findFirst({ where: { invocationId } })`. -/
def findClaimByInvocation (invocationId : Str) : Program (Option GovernedInvocationClaim) := do
  let rows ← statement (.select (isClaim fun row => row.invocationId == invocationId))
  pure (rows.filterMap Row.claim?).head?

/-- The reads by which `claim` tells a duplicate from a conflict. -/
def disambiguate (key invocationId : Str) (error : Failure) :
    Program GovernedInvocationClaimResult := do
  let existingForKey ← findClaimByKey key
  match existingForKey.filter fun row => row.invocationId == invocationId with
  | some existing => pure (.duplicate existing)
  | none => do
      let identityRow ← findClaimByInvocation invocationId
      if identityRow.any fun row => row.logicalOperationKey != key then
        pure (.contextConflict invocationId)
      else
        match existingForKey with
        | some existing => pure (.duplicate existing)
        | none => .throw error

/-- The claim a call creates, with the default state. -/
def newClaim (key invocationId fingerprint : Str) : GovernedInvocationClaim :=
  ⟨key, invocationId, fingerprint, .inProgress⟩

/-- The claims a completion updates: the one under the key, if it has this owner and is still
in progress. -/
def completes (key invocationId : Str) : Row → Bool :=
  isClaim fun row => row.logicalOperationKey == key && row.invocationId == invocationId &&
    row.state == .inProgress

def setClaimState (state : GovernedInvocationClaimState) : Row → Row :=
  onClaim fun row => { row with state := state }

def PrismaGovernedIdempotencyStore : GovernedInvocationIdempotencyStore where
  claim key invocationId fingerprint :=
    Prog.tryCatch
      (do
        let _ ← statement (.insert (.claim (newClaim key invocationId fingerprint)))
        pure (.claimed (newClaim key invocationId fingerprint)))
      fun error =>
        if error ≠ .uniqueViolation then .throw error else disambiguate key invocationId error
  markCompleted key invocationId state := do
    let updated ← statement (.update (completes key invocationId) (setClaimState state))
    Prog.require (updated.length == 1) (.claimCompletionRejected key invocationId)

/-- Which dependencies are injected; a missing one is `null`. -/
structure GovernedInvocationDependencies where
  credentialBroker : Bool
  executionProfileResolver : Bool
  trustedExecutableResolver : Bool
  workingDirectoryResolver : Bool
  humanGateResolver : Bool
  homeDirectoryResolver : Bool
  executionPolicyResolver : Bool
  cloudExecutionProfileRegistry : Bool
  idempotencyStore : Option GovernedInvocationIdempotencyStore

end Invocation
