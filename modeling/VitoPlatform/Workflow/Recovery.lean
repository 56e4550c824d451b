import VitoPlatform.Workflow.Runtime

/-!
# Human decisions on a run

`HumanDecisionCorrectionService.requestCorrection`, `LoopExhaustedTestRecoveryService.recover`,
`ReleaseVerificationRecoveryService.recover` and `HumanReleaseApprovalService.approve`. The
first three read and claim the run in one transaction, whose claim repeats the conditions that
were read; the last is a read followed by `completeStep`.
-/

namespace Workflow

open Text Policy Persistence Invocation Database

/-- What names the state of a run in the refusals. -/
def describeRun (run : WorkflowRun) : String :=
  "status=" ++ statusName run.status ++ ", blockReason=" ++
    (run.blockReasonCode.map blockName).getD "none" ++ ", currentStepType=" ++
    (run.currentStepType.map stepName).getD "none"

def literal (value : String) : Json := .string value.toList

/-- `stringValue`: a string that is not empty. -/
def stringValue (value : Option Json) : Option Str :=
  (Json.text value).filter fun text => text != []

/-- `boundedString`. -/
def boundedString (value : Option Json) (maxChars : Nat) : Option Str :=
  (Json.text value).filter fun text => text != [] && utf16Length text ≤ maxChars

/-! ## Correction by human decision -/

structure RequestCorrectionInput where
  organizationId : Str
  workflowRunId : Str
  decidedByUserId : Str
  isMachineIdentity : Bool

/-- The run awaits a human decision. -/
def awaitsDecision (run : WorkflowRun) : Bool :=
  run.status == .blocked && run.blockReasonCode == some .humanDecisionRequired &&
    run.currentStepType == none

/-- `ALLOWED_PARSE_SOURCES`. -/
def allowedParseSources : List Str :=
  ["WORKFLOW_REVIEW_VERDICT_RUNTIME".toList, "WORKFLOW_AL4_REVIEW_VERDICT_RUNTIME".toList]

/-- `parseMetadata.verdict !== undefined && parseMetadata.verdict !== ReviewVerdict.D`. -/
def otherVerdict (metadata : Json) : Bool :=
  match Json.member (some metadata) "verdict".toList with
  | none => false
  | some verdict => Json.text (some verdict) != some "D".toList

def correctionRow (row : WorkflowRun) : WorkflowRun :=
  { row with
    status := .running
    currentStepType := some .correction
    blockReasonCode := none
    correctionLoopCount := row.correctionLoopCount + 1 }

/-- The correction a human has asked for. -/
def requestedStep (input : RequestCorrectionInput) (parseStepId : Str) (now : Int) :
    StepData where
  organizationId := input.organizationId
  workflowRunId := input.workflowRunId
  stepType := .correction
  attemptNumber := 1
  causationId := some parseStepId
  startedAt := now
  metadata := .object [("source".toList, literal "HUMAN_DECISION_CORRECTION"),
    ("decidedByUserId".toList, .string input.decidedByUserId),
    ("parseVerdictStepRunId".toList, .string parseStepId)]

/-- The correction evidence is authoritative. -/
def authoritativeParse (metadata : Json) : Bool :=
  (stringValue (Json.member (some metadata) "source".toList)).any
    fun source => allowedParseSources.contains source

/-- The transaction of `requestCorrection`. -/
def requestCorrectionFresh (input : RequestCorrectionInput) : Program WorkflowStepRun := do
  let found ← findRun input.organizationId input.workflowRunId
  let run ← Prog.expect found (.notFound "WorkflowRun not found.")
  Prog.require (awaitsDecision run)
    (.conflict ("WorkflowRun is not awaiting a human correction decision (" ++
      describeRun run ++ ")."))
  let latest ← findNewestStep input.organizationId input.workflowRunId
    (fun row => row.stepType == .parseVerdict && row.status == .succeeded) (·.finishedAt)
  let parseStep ← Prog.expect latest
    (.conflict "No succeeded PARSE_VERDICT step exists for this human decision.")
  Prog.require (authoritativeParse parseStep.metadata)
    (.conflict "PARSE_VERDICT evidence is not authoritative for a human correction decision.")
  Prog.require (!otherVerdict parseStep.metadata)
    (.conflict "PARSE_VERDICT does not carry verdict D.")
  match nextEngineeringHumanDecision (.humanDecisionRequired .D) run.correctionLoopCount
      ⟨run.maxCorrectionLoops, defaultRetryPolicy.maxProviderRetriesPerStep⟩ with
  | .nextStep .correction => do
      let count ← updateRuns input.organizationId input.workflowRunId
        (fun row => awaitsDecision row && row.correctionLoopCount == run.correctionLoopCount)
        correctionRow
      Prog.require (count == 1)
        (.conflict "Human correction decision lost an atomic state claim.")
      let now ← ask .now
      let correctionStep ← createStep (requestedStep input parseStep.id now)
      audit input.organizationId "HUMAN_DECISION_CORRECTION_REQUESTED" "WorkflowRun"
        input.workflowRunId
      audit input.organizationId "WORKFLOW_STEP_ACTIVATED" "WorkflowStepRun" correctionStep.id
      pure correctionStep
  | .blocked reason =>
      .throw (.conflict ("Human correction decision was not accepted by the state machine (" ++
        blockName reason.code ++ ")."))
  | .nextStep _ =>
      .throw (.conflict
        "Human correction decision was not accepted by the state machine (NEXT_STEP).")
  | .completed =>
      .throw (.conflict
        "Human correction decision was not accepted by the state machine (COMPLETED).")
  | .failed _ =>
      .throw (.conflict
        "Human correction decision was not accepted by the state machine (FAILED).")

def requestCorrection (input : RequestCorrectionInput) : Program WorkflowStepRun := do
  Prog.require (!input.isMachineIdentity)
    (.forbidden "Human correction decision requires an authenticated human user.")
  transaction (requestCorrectionFresh input)

/-! ## Recovery of an exhausted loop -/

structure RecoveryInput where
  organizationId : Str
  workflowRunId : Str
  isMachineIdentity : Bool
  approvalRef : Str

/-- The checks both recoveries make before they read anything. -/
def checkedApproval (input : RecoveryInput) (message : String) : Program Str := do
  Prog.require (!input.isMachineIdentity) (.forbidden message)
  let approvalRef := trim input.approvalRef
  Prog.require (approvalRef != [] && utf16Length approvalRef ≤ 512)
    (.badRequest "approvalRef must contain between 1 and 512 characters.")
  pure approvalRef

/-- The run is blocked by an exhausted loop. -/
def exhausted (run : WorkflowRun) : Bool :=
  run.status == .blocked && run.blockReasonCode == some .loopExhausted &&
    run.currentStepType == none

def retestedRow (row : WorkflowRun) : WorkflowRun :=
  { row with
    status := .running
    currentStepType := some .test
    blockReasonCode := none
    failureReasonCode := none }

def retestStep (input : RecoveryInput) (approvalRef : Str) (correctionLoopCount : Int)
    (correctionStepId : Str) (now : Int) : StepData where
  organizationId := input.organizationId
  workflowRunId := input.workflowRunId
  stepType := .test
  attemptNumber := 1
  causationId := some correctionStepId
  startedAt := now
  metadata := .object [("source".toList, literal "LOOP_EXHAUSTED_HUMAN_RECOVERY"),
    ("approvalRef".toList, .string approvalRef),
    ("preservedCorrectionLoopCount".toList, .number correctionLoopCount),
    ("executionLimit".toList, .number 1),
    ("authorizedExecutionStep".toList, literal "TEST"),
    ("forbiddenExecutionSteps".toList,
      .array [literal "PACKAGE", literal "CORRECTION", literal "RED_TEAM",
        literal "PARSE_VERDICT"])]

/-- The non-terminal steps that are cancelled in favour of the new one. -/
def cancelStale (input : RecoveryInput) (staleSteps : List WorkflowStepRun) : Program Unit :=
  if staleSteps.length > 0 then do
    let now ← ask .now
    let cancelled ← updateSteps
      (stepWhere input.organizationId input.workflowRunId fun row =>
        (staleSteps.map (·.id)).contains row.id && cancellableStep row) (cancelledStep now)
    Prog.require (cancelled == staleSteps.length)
      (.conflict ("Loop-exhausted TEST recovery could not atomically cancel all stale " ++
        "nonterminal steps."))
  else pure ()

/-- The transaction of the loop-exhausted recovery. -/
def recoverLoopFresh (input : RecoveryInput) (approvalRef : Str) : Program WorkflowStepRun := do
  let found ← findRun input.organizationId input.workflowRunId
  let run ← Prog.expect found (.notFound "WorkflowRun not found.")
  Prog.require (exhausted run && run.correctionLoopCount == run.maxCorrectionLoops)
    (.conflict ("WorkflowRun is not eligible for loop-exhausted TEST recovery (" ++
      describeRun run ++ ", correctionLoopCount=" ++ toString run.correctionLoopCount ++ "/" ++
      toString run.maxCorrectionLoops ++ ")."))
  let latest ← findNewestStep input.organizationId input.workflowRunId
    (fun row => row.stepType == .correction && row.status == .succeeded) (·.finishedAt)
  let correctionStep ← Prog.expect latest
    (.conflict "No succeeded CORRECTION step exists for loop-exhausted TEST recovery.")
  let staleSteps ← findSteps input.organizationId input.workflowRunId cancellableStep
  let count ← updateRuns input.organizationId input.workflowRunId
    (fun row => exhausted row && row.correctionLoopCount == run.correctionLoopCount) retestedRow
  Prog.require (count == 1)
    (.conflict "Loop-exhausted TEST recovery lost an atomic workflow claim.")
  cancelStale input staleSteps
  let now ← ask .now
  let testStep ← createStep
    (retestStep input approvalRef run.correctionLoopCount correctionStep.id now)
  audit input.organizationId "LOOP_EXHAUSTED_TEST_RECOVERY_REQUESTED" "WorkflowRun"
    input.workflowRunId
  audit input.organizationId "WORKFLOW_STEP_ACTIVATED" "WorkflowStepRun" testStep.id
  pure testStep

/-- `LoopExhaustedTestRecoveryService.recover`. -/
def recoverLoop (input : RecoveryInput) : Program WorkflowStepRun := do
  let approvalRef ← checkedApproval input
    "Loop-exhausted TEST recovery requires an authenticated human user."
  transaction (recoverLoopFresh input approvalRef)

/-! ## Recovery of a release verification -/

/-- The run waits at the human release gate. -/
def atReleaseGate (run : WorkflowRun) : Bool :=
  run.status == .running && run.currentStepType == some .humanReleaseGate

def reverifiedRow (row : WorkflowRun) : WorkflowRun :=
  { row with
    currentStepType := some .verify
    blockReasonCode := none
    failureReasonCode := none }

def readyGate (row : WorkflowStepRun) : Bool :=
  row.stepType == .humanReleaseGate && row.status == .ready

/-- The invocation behind a VERIFY step that may be reopened. -/
def reopenable (metadata : Json) : Program Str := do
  let value := fun name : String => stringValue (Json.member (some metadata) name.toList)
  Prog.require (value "executionStatus" == some "SUCCEEDED".toList &&
      value "capabilityCode" == some "RELEASE_VERIFICATION".toList)
    (.conflict
      "The succeeded VERIFY step lacks matching RELEASE_VERIFICATION execution metadata.")
  Prog.require (!(value "verificationResultProjectionStatus" == some "VALID".toList &&
      value "verificationResultStatus" == some "PASS".toList))
    (.conflict ("A structured PASS release verification cannot be reopened through " ++
      "false-positive recovery."))
  Prog.expect
    (boundedString (Json.member (Json.member (some metadata) "executionEvidence".toList)
      "invocationId".toList) 256)
    (.conflict "The VERIFY step has no governed execution evidence binding.")

def reverifyStep (input : RecoveryInput) (approvalRef : Str) (run : WorkflowRun)
    (humanReleaseStep verifyStep : WorkflowStepRun) (upstream invocationId : Str) (now : Int) :
    StepData where
  organizationId := input.organizationId
  workflowRunId := input.workflowRunId
  stepType := .verify
  attemptNumber := verifyStep.attemptNumber + 1
  causationId := some upstream
  startedAt := now
  metadata := .object [("source".toList, literal "HUMAN_RELEASE_FALSE_POSITIVE_RECOVERY"),
    ("approvalRef".toList, .string approvalRef),
    ("supersededVerifyStepRunId".toList, .string verifyStep.id),
    ("supersededHumanReleaseGateStepRunId".toList, .string humanReleaseStep.id),
    ("governedExecutionRecordId".toList, .string invocationId),
    ("preservedCorrectionLoopCount".toList, .number run.correctionLoopCount),
    ("maxCorrectionLoops".toList, .number run.maxCorrectionLoops),
    ("executionLimit".toList, .number 1),
    ("executionTriggered".toList, .bool false),
    ("authorizedExecutionStep".toList, literal "VERIFY"),
    ("forbiddenExecutionSteps".toList,
      .array [literal "REMOTE_VERIFY", literal "HUMAN_RELEASE_GATE",
        literal "RELEASE_EXECUTION"]),
    ("recoveryReason".toList,
      literal "LEGACY_RELEASE_VERIFICATION_WITHOUT_STRUCTURED_PASS")]

/-- The gate is the one step that is not terminal. -/
def onlyGate (steps : List WorkflowStepRun) (gateId : Str) : Bool :=
  match steps with
  | [step] => step.id == gateId && readyGate step
  | _ => false

/-- The transaction of the release-verification recovery. -/
def recoverReleaseFresh (input : RecoveryInput) (approvalRef : Str) :
    Program WorkflowStepRun := do
  let found ← findRun input.organizationId input.workflowRunId
  let run ← Prog.expect found (.notFound "WorkflowRun not found.")
  Prog.require (atReleaseGate run)
    (.conflict ("WorkflowRun is not eligible for release-verification recovery (status=" ++
      statusName run.status ++ ", currentStepType=" ++
      (run.currentStepType.map stepName).getD "none" ++ ")."))
  let latest ← findNewestStep input.organizationId input.workflowRunId readyGate (·.startedAt)
  let missing := Failure.conflict
    "No READY HUMAN_RELEASE_GATE with VERIFY causation exists for recovery."
  let humanReleaseStep ← Prog.expect latest missing
  let verifyId ← Prog.expect (truthy humanReleaseStep.causationId) missing
  let verified ← findStep input.organizationId input.workflowRunId fun row =>
    row.id == verifyId && row.stepType == .verify && row.status == .succeeded
  let unverified := Failure.conflict
    "The HUMAN_RELEASE_GATE causation is not a succeeded VERIFY step with an upstream lineage."
  let verifyStep ← Prog.expect verified unverified
  let upstream ← Prog.expect (truthy verifyStep.causationId) unverified
  let invocationId ← reopenable verifyStep.metadata
  let record ← ask (.findExecutionRecord invocationId input.organizationId input.workflowRunId
    verifyStep.id)
  let _ ← Prog.expect record (.conflict ("The VERIFY step does not match an authoritative " ++
    "governed RELEASE_VERIFICATION execution record."))
  let nonterminalSteps ← findSteps input.organizationId input.workflowRunId cancellableStep
  Prog.require (onlyGate nonterminalSteps humanReleaseStep.id)
    (.conflict ("Release-verification recovery requires exactly one READY " ++
      "HUMAN_RELEASE_GATE and no other nonterminal workflow step."))
  let count ← updateRuns input.organizationId input.workflowRunId
    (fun row => atReleaseGate row && row.correctionLoopCount == run.correctionLoopCount)
    reverifiedRow
  Prog.require (count == 1)
    (.conflict "Release-verification recovery lost an atomic workflow claim.")
  let cancelledAt ← ask .now
  let cancelled ← updateSteps
    (stepWhere input.organizationId input.workflowRunId fun row =>
      row.id == humanReleaseStep.id && readyGate row) (cancelledStep cancelledAt)
  Prog.require (cancelled == 1)
    (.conflict ("Release-verification recovery could not atomically cancel the stale " ++
      "HUMAN_RELEASE_GATE."))
  let now ← ask .now
  let verifyRecoveryStep ← createStep
    (reverifyStep input approvalRef run humanReleaseStep verifyStep upstream invocationId now)
  audit input.organizationId "HUMAN_RELEASE_FALSE_POSITIVE_VERIFY_RECOVERY_REQUESTED"
    "WorkflowRun" input.workflowRunId
  audit input.organizationId "WORKFLOW_STEP_ACTIVATED" "WorkflowStepRun" verifyRecoveryStep.id
  pure verifyRecoveryStep

/-- `ReleaseVerificationRecoveryService.recover`. -/
def recoverRelease (input : RecoveryInput) : Program WorkflowStepRun := do
  let approvalRef ← checkedApproval input
    "Release-verification recovery requires an authenticated human user."
  transaction (recoverReleaseFresh input approvalRef)

/-! ## Approval of a release -/

structure ApproveInput where
  organizationId : Str
  workflowRunId : Str
  approvedByUserId : Str
  isMachineIdentity : Bool

/-- The completion of the gate that an approval asks for. -/
def approval (input : ApproveInput) (stepId : Str) : CompleteStepInput where
  organizationId := input.organizationId
  workflowRunId := input.workflowRunId
  workflowStepRunId := stepId
  stepStatus := .succeeded
  providerStatus := none
  verdict := none
  reviewResults := none
  independenceContext := none
  humanApproved := true
  metadata := some (.object [("source".toList, literal "HUMAN_RELEASE_APPROVAL"),
    ("approvedByUserId".toList, .string input.approvedByUserId)])

/-- `HumanReleaseApprovalService.approve`. -/
def approveRelease (input : ApproveInput) : Program StepTransition := do
  Prog.require (!input.isMachineIdentity)
    (.forbidden "Human release approval requires an authenticated human user.")
  let found ← findRun input.organizationId input.workflowRunId
  let run ← Prog.expect found (.notFound "WorkflowRun not found.")
  Prog.require (atReleaseGate run)
    (.conflict ("WorkflowRun is not awaiting HUMAN_RELEASE_GATE approval (status=" ++
      statusName run.status ++ ", currentStepType=" ++
      (run.currentStepType.map stepName).getD "none" ++ ")."))
  let latest ← findNewestStep input.organizationId input.workflowRunId readyGate (·.startedAt)
  let step ← Prog.expect latest
    (.conflict "No READY HUMAN_RELEASE_GATE step exists for this workflow run.")
  let transition ← completeStep (approval input step.id)
  Prog.require
    (!transition.idempotent && transition.outcome == some (.nextStep .releaseExecution))
    (.conflict "Human release approval did not produce RELEASE_EXECUTION.")
  audit input.organizationId "HUMAN_RELEASE_APPROVED" "WorkflowRun" input.workflowRunId
  pure transition

/-! ## The operations of the runtime -/

/-- A call of one of the services on the workflow tables. -/
inductive Operation where
  | createRun (input : CreateWorkflowRunInput)
  | startRun (organizationId workflowRunId : Str)
  | completeStep (input : CompleteStepInput)
  | cancelRun (input : CancelRunInput)
  | resumeRun (organizationId workflowRunId : Str)
  | requestCorrection (input : RequestCorrectionInput)
  | recoverLoop (input : RecoveryInput)
  | recoverRelease (input : RecoveryInput)
  | approveRelease (input : ApproveInput)

/-- The program of a call; what it returns plays no part between calls. -/
def Operation.program : Operation → Program Unit
  | .createRun input => do let _ ← Workflow.createRun input
  | .startRun organizationId workflowRunId => do
      let _ ← Workflow.startRun organizationId workflowRunId
  | .completeStep input => do let _ ← Workflow.completeStep input
  | .cancelRun input => do let _ ← Workflow.cancelRun input
  | .resumeRun organizationId workflowRunId => do
      let _ ← Workflow.resumeRun organizationId workflowRunId
  | .requestCorrection input => do let _ ← Workflow.requestCorrection input
  | .recoverLoop input => do let _ ← Workflow.recoverLoop input
  | .recoverRelease input => do let _ ← Workflow.recoverRelease input
  | .approveRelease input => do let _ ← Workflow.approveRelease input

end Workflow
