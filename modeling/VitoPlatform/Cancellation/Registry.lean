import VitoPlatform.Invocation.Keys
import VitoPlatform.Library.InsertionMap
import VitoPlatform.Library.Machine

/-!
# The registry of running executions

`ExecutionCancellationRegistry`: executions register a callback, cancelling a workflow calls the
callbacks of its executions and leaves a tombstone for those that register within the next hour.
Both maps are keyed by identifiers joined with colons. An object is identified by the number of
the `register` call that has created it; a callback returns or throws, and does not call the
registry. Times are milliseconds, and stand still during a call.
-/

namespace Cancellation

open Text Invocation

def CANCELLATION_TOMBSTONE_TTL_MS : Int := 60 * 60 * 1000
@[irreducible] def MAX_CANCELLATION_TOMBSTONES : Nat := 1000
def MAX_REPORTED_EXECUTION_IDS : Nat := 100

/-- The property `cancel` of a registration. -/
inductive Callback where
  | missing
  | returns
  | throws
  deriving DecidableEq

structure ExecutionCancellationRegistration where
  organizationId : Str
  workflowRunId : Str
  workflowStepRunId : Str
  executionId : Str
  cancel : Callback
  deriving DecidableEq

structure ActiveExecution extends ExecutionCancellationRegistration where
  cancelRequested : Bool
  /-- The object. -/
  token : Nat

/-- What a function returned by `register` has captured. -/
structure Closure where
  key : Str
  closed : Bool

structure Registry where
  active : InsertionMap Str ActiveExecution
  cancelledWorkflows : InsertionMap Str Int
  /-- `Date.now()`. -/
  now : Int
  /-- The functions `register` has returned, by token. -/
  closures : List Closure

def Registry.initial (now : Int) : Registry := ⟨.empty, .empty, now, []⟩

structure WorkflowCancellationSignalResult where
  organizationId : Str
  workflowRunId : Str
  matchedExecutionCount : Nat
  signalAttemptCount : Nat
  signalFailureCount : Nat
  signalledExecutionIds : List Str
  deferredCancellationArmed : Bool
  deriving DecidableEq

/-! ## Keys -/

def workflowKey (organizationId workflowRunId : Str) : Str :=
  organizationId ++ ':' :: workflowRunId

def executionKey (input : ExecutionCancellationRegistration) : Str :=
  workflowKey input.organizationId input.workflowRunId ++
    ':' :: (input.workflowStepRunId ++ ':' :: input.executionId)

/-- `assertIdentifier`, for the error it throws. -/
def assertIdentifier (value : Str) (name : String) : Except String Unit :=
  if utf16Length value = 0 ∨ utf16Length value > 512 then
    .error ("EXECUTION_CANCELLATION_INVALID_" ++ name)
  else .ok ()

def assertRegistration (input : ExecutionCancellationRegistration) : Except String Unit := do
  assertIdentifier input.organizationId "ORGANIZATIONID"
  assertIdentifier input.workflowRunId "WORKFLOWRUNID"
  assertIdentifier input.workflowStepRunId "WORKFLOWSTEPRUNID"
  assertIdentifier input.executionId "EXECUTIONID"
  if input.cancel = .missing then .error "EXECUTION_CANCELLATION_CALLBACK_REQUIRED" else .ok ()

/-! ## Tombstones -/

def pruneExpiredTombstones (registry : Registry) : Registry :=
  { registry with
    cancelledWorkflows := registry.cancelledWorkflows.filter fun entry => registry.now < entry.2 }

/-- The loop drops the oldest entry as long as there are too many. No key is empty. -/
def enforceTombstoneBound (registry : Registry) : Registry :=
  { registry with
    cancelledWorkflows := registry.cancelledWorkflows.drop
      (registry.cancelledWorkflows.size - MAX_CANCELLATION_TOMBSTONES) }

@[simp] theorem enforceTombstoneBound_active (registry : Registry) :
    (enforceTombstoneBound registry).active = registry.active := rfl

@[simp] theorem enforceTombstoneBound_closures (registry : Registry) :
    (enforceTombstoneBound registry).closures = registry.closures := rfl

@[simp] theorem enforceTombstoneBound_now (registry : Registry) :
    (enforceTombstoneBound registry).now = registry.now := rfl

@[simp] theorem pruneExpiredTombstones_active (registry : Registry) :
    (pruneExpiredTombstones registry).active = registry.active := rfl

@[simp] theorem pruneExpiredTombstones_closures (registry : Registry) :
    (pruneExpiredTombstones registry).closures = registry.closures := rfl

@[simp] theorem pruneExpiredTombstones_now (registry : Registry) :
    (pruneExpiredTombstones registry).now = registry.now := rfl

def isWorkflowCancelled (registry : Registry) (organizationId workflowRunId : Str) :
    Bool × Registry :=
  let registry := pruneExpiredTombstones registry
  let expiresAt := registry.cancelledWorkflows.get (workflowKey organizationId workflowRunId)
  (expiresAt.any fun expiresAt => registry.now < expiresAt, registry)

/-! ## Signals -/

inductive SignalOutcome where
  | signalled
  | alreadySignalled
  | failed
  deriving DecidableEq

/-- `signal`: its outcome, and whether it calls the callback. -/
def ActiveExecution.signal (entry : ActiveExecution) : SignalOutcome × Bool :=
  if entry.cancelRequested then (.alreadySignalled, false)
  else
    match entry.cancel with
    | .returns => (.signalled, true)
    | .missing | .throws => (.failed, true)

/-- The execution after `signal`. -/
def ActiveExecution.requested (entry : ActiveExecution) : ActiveExecution :=
  { entry with cancelRequested := true }

/-- What the loop over the matching executions has counted, and whom it has called. -/
structure Signals where
  signalledExecutionIds : List Str
  signalAttemptCount : Nat
  signalFailureCount : Nat
  called : List Nat

def Signals.add (signals : Signals) (entry : ActiveExecution) : Signals :=
  let (outcome, calls) := entry.signal
  let attempts := if outcome = .alreadySignalled then 0 else 1
  let failures := if outcome = .failed then 1 else 0
  { signalledExecutionIds :=
      if outcome = .signalled ∧
          signals.signalledExecutionIds.length < MAX_REPORTED_EXECUTION_IDS then
        signals.signalledExecutionIds ++ [entry.executionId]
      else signals.signalledExecutionIds
    signalAttemptCount := signals.signalAttemptCount + attempts
    signalFailureCount := signals.signalFailureCount + failures
    called := if calls then signals.called ++ [entry.token] else signals.called }

/-- The executions of exactly this workflow. -/
def ofWorkflow (organizationId workflowRunId : Str) (entry : ActiveExecution) : Bool :=
  entry.organizationId == organizationId && entry.workflowRunId == workflowRunId

/-! ## Calls -/

inductive Call where
  | register (input : ExecutionCancellationRegistration)
  /-- The function returned by the `register` call of this number. -/
  | close (token : Nat)
  | cancelWorkflow (organizationId workflowRunId : Str)
  | isWorkflowCancelled (organizationId workflowRunId : Str)
  /-- The clock advances. -/
  | advance (ms : Nat)
  deriving DecidableEq

inductive Reply where
  | registered (token : Nat)
  | done
  | cancelled (result : WorkflowCancellationSignalResult)
  | workflowCancelled (cancelled : Bool)
  | error (message : String)
  deriving DecidableEq

/-- What a call returns, and the callbacks it has called. -/
structure Outcome where
  reply : Reply
  called : List Nat

def register (registry : Registry) (input : ExecutionCancellationRegistration) :
    Outcome × Registry :=
  match assertRegistration input with
  | .error message => (⟨.error message, []⟩, registry)
  | .ok () =>
      let registry := pruneExpiredTombstones registry
      let key := executionKey input
      if registry.active.has key then
        (⟨.error "EXECUTION_CANCELLATION_DUPLICATE_REGISTRATION", []⟩, registry)
      else
        let token := registry.closures.length
        let entry : ActiveExecution := ⟨input, false, token⟩
        let (cancelled, registry) :=
          isWorkflowCancelled registry input.organizationId input.workflowRunId
        let current := if cancelled then entry.requested else entry
        (⟨.registered token, if cancelled && entry.signal.2 then [token] else []⟩,
          { registry with
            active := registry.active.set key current
            closures := registry.closures ++ [⟨key, false⟩] })

def close (registry : Registry) (token : Nat) : Registry :=
  match registry.closures[token]? with
  | none => registry
  | some closure =>
      if closure.closed then registry
      else
        let current := registry.active.get closure.key
        { registry with
          active :=
            if current.any (fun entry => entry.token = token) then
              registry.active.delete closure.key
            else registry.active
          closures := registry.closures.set token { closure with closed := true } }

def cancelWorkflow (registry : Registry) (organizationId workflowRunId : Str) :
    Outcome × Registry :=
  match (do
    assertIdentifier organizationId "ORGANIZATIONID"
    assertIdentifier workflowRunId "WORKFLOWRUNID" : Except String Unit) with
  | .error message => (⟨.error message, []⟩, registry)
  | .ok () =>
      let registry := pruneExpiredTombstones registry
      let key := workflowKey organizationId workflowRunId
      let registry := enforceTombstoneBound
        { registry with
          cancelledWorkflows := (registry.cancelledWorkflows.delete key).set key
            (registry.now + CANCELLATION_TOMBSTONE_TTL_MS) }
      let found := registry.active.values.filter (ofWorkflow organizationId workflowRunId)
      let signals := found.foldl Signals.add ⟨[], 0, 0, []⟩
      (⟨.cancelled
          { organizationId := organizationId
            workflowRunId := workflowRunId
            matchedExecutionCount := found.length
            signalAttemptCount := signals.signalAttemptCount
            signalFailureCount := signals.signalFailureCount
            signalledExecutionIds := signals.signalledExecutionIds
            deferredCancellationArmed := true },
          signals.called⟩,
        { registry with
          active := registry.active.mapValues fun entry =>
            if ofWorkflow organizationId workflowRunId entry then entry.requested else entry })

/-- One call. -/
def step (registry : Registry) : Call → Outcome × Registry
  | .register input => register registry input
  | .close token => (⟨.done, []⟩, close registry token)
  | .cancelWorkflow organizationId workflowRunId =>
      cancelWorkflow registry organizationId workflowRunId
  | .isWorkflowCancelled organizationId workflowRunId =>
      let (cancelled, registry) := isWorkflowCancelled registry organizationId workflowRunId
      (⟨.workflowCancelled cancelled, []⟩, registry)
  | .advance ms => (⟨.done, []⟩, { registry with now := registry.now + ms })

abbrev Move := Machine.Move Registry Call Outcome

/-- A finite sequence of calls on a new registry. -/
abbrev Run (now : Int) (moves : List Move) (registry : Registry) : Prop :=
  Machine.Run (Machine.Follows step) (Registry.initial now) moves registry

end Cancellation
