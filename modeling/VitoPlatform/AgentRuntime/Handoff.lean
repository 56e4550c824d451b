import VitoPlatform.AgentRuntime.Execution
import VitoPlatform.Library.Stringify

/-!
# Evidence that is handed to an agent

`WorkflowCorrectionContextHandoffService` and `WorkflowRedTeamEvidenceHandoffService`: each follows
the persisted causation chain of a step backwards, checks what it finds against the ledger of
executions and returns a manifest, sealed with the hash of its text. Every row is read on its own,
so the reads are effects, and nothing is assumed about how they fit together.
-/

namespace AgentRuntime

open Text Workflow Invocation Persistence
open Services (HttpError)

/-! ## Reads -/

/-- The columns of a step that are selected. -/
structure LineageStep where
  id : Str
  stepType : EngineeringStepType
  status : WorkflowStepStatus
  causationId : Option Str
  metadata : Json

/-- The condition on an execution record, whose status is SUCCEEDED. -/
structure LedgerQuery where
  id : Str
  organizationId : Str
  workflowRunId : Str
  workflowStepRunId : Str
  capabilityCode : Str
  providerId : Str

structure LedgerRecord where
  id : Str
  outputReference : Option Str
  policyDecisionReference : Option Str
  sideEffectSummary : Json
  usageMetadata : Json

inductive Lookup where
  | findStep (id organizationId workflowRunId : Str)
  | findRecord (query : LedgerQuery)

abbrev Found : Lookup → Type
  | .findStep _ _ _ => Option LineageStep
  | .findRecord _ => Option LedgerRecord

abbrev Handoff (α : Type) := Prog Lookup Found HttpError α

def lookup (question : Lookup) : Handoff (Found question) := Prog.perform question

def findStep (organizationId workflowRunId id : Str) (missing : String) : Handoff LineageStep := do
  let found ← lookup (.findStep id organizationId workflowRunId)
  Prog.expect found (.notFound missing)

/-- A record of the ledger with the given output and a reference to the decision of the policy. -/
def findRecord (query : LedgerQuery) (outputReference : Str) (mismatch : String) :
    Handoff (LedgerRecord × Str) := do
  let found ← lookup (.findRecord query)
  let record ← Prog.expect
    (found.filter fun record => record.outputReference = some outputReference)
    (.conflict mismatch)
  let policyDecisionReference ← Prog.expect (record.policyDecisionReference.filter (· ≠ []))
    (.conflict mismatch)
  return (record, policyDecisionReference)

/-! ## Manifests -/

/-- A manifest: its fields, and the hash of their text. -/
structure Manifest where
  core : List (Str × Json)
  manifestSha256 : Str

namespace Manifest

def toJson (manifest : Manifest) : Json :=
  .object (manifest.core ++ [("manifestSha256".toList, .string manifest.manifestSha256)])

/-- The manifest with the hash of what stands in it. -/
def sealed (sha256 : Str → Str) (numberText : Rat → Str) (core : List (Str × Json)) : Manifest :=
  ⟨core, sha256 (Json.stringify numberText (.object core))⟩

end Manifest

/-! ## The context of a correction -/

def member (value : Option Json) (name : String) : Option Json := Json.member value name.toList

def isText (value : Option Json) (text : String) : Bool := Json.text value = some text.toList

namespace CorrectionContext

/-- The review step and the execution of the reviewer, if the metadata of a parsed verdict names
them. -/
def verdictAuthority (parse : LineageStep) (causationId : Str) : Option (Str × Str) := do
  let metadata := some parse.metadata
  let reviewStepRunId ← boundedString (member metadata "reviewStepRunId") 256
  let reviewerExecutionId ← boundedString (member metadata "reviewerExecutionId") 256
  if isText (member metadata "source") "WORKFLOW_REVIEW_VERDICT_RUNTIME" &&
      isText (member metadata "authority") "GOVERNED_EXECUTION_RECORD" &&
      isText (member metadata "verdict") "D" && causationId = reviewStepRunId then
    some (reviewStepRunId, reviewerExecutionId)
  else none

/-- The reference to the output of a review and its provider, if its projection is valid. -/
def reviewProjection (review : LineageStep) (reviewerExecutionId : Str) : Option (Str × Str) := do
  let metadata := some review.metadata
  let reviewResult := member metadata "reviewResult"
  let executionEvidence := member metadata "executionEvidence"
  let outputReference ← boundedString (member executionEvidence "outputReference") 2048
  let invocationId ← boundedString (member executionEvidence "invocationId") 256
  let selectedProviderId ← boundedString (member metadata "selectedProviderId") 2048
  if isText (member metadata "source") "WORKFLOW_AGENT_RUNTIME" &&
      isText (member metadata "reviewProjectionStatus") "VALID" &&
      isText (member metadata "executionStatus") "SUCCEEDED" &&
      isText (member metadata "capabilityCode") "RED_TEAM" &&
      isText (member reviewResult "verdict") "D" &&
      Json.text (member reviewResult "reviewerExecutionId") = some reviewerExecutionId &&
      invocationId = reviewerExecutionId then
    some (outputReference, selectedProviderId)
  else none

def blockingFindings (value : Option Json) : Handoff (List ReviewFinding) :=
  match value with
  | some (.array candidates) =>
      if candidates.length = 0 ∨ candidates.length > 50 then
        .throw (.conflict "CORRECTION_CONTEXT_FINDINGS_INVALID")
      else do
        let findings ← Prog.expect (candidates.mapM finding)
          (.conflict "CORRECTION_CONTEXT_FINDING_PROJECTION_INVALID")
        return findings.filter (·.blocking)
  | _ => .throw (.conflict "CORRECTION_CONTEXT_FINDINGS_INVALID")

def findingJson (finding : ReviewFinding) : Json :=
  .object [("id".toList, .string finding.id),
    ("severity".toList, .string finding.severity.text),
    ("category".toList, .string finding.category.text),
    ("summary".toList, .string finding.summary),
    ("evidenceRefs".toList, .array (finding.evidenceRefs.map .string)),
    ("blocking".toList, .bool true)]

variable (sha256 : Str → Str) (numberText : Rat → Str)

def resolve (organizationId workflowRunId correctionStepRunId : Str) : Handoff Manifest := do
  let step (id : Str) : Handoff LineageStep :=
    findStep organizationId workflowRunId id "CORRECTION_CONTEXT_STEP_NOT_FOUND"
  let correction ← step correctionStepRunId
  Prog.require (correction.stepType = .correction && correction.status = .ready)
    (.conflict "CORRECTION_CONTEXT_LINEAGE_INVALID")
  let parseId ← Prog.expect (correction.causationId.filter (· ≠ []))
    (.conflict "CORRECTION_CONTEXT_LINEAGE_INVALID")
  let parse ← step parseId
  Prog.require (parse.stepType = .parseVerdict && parse.status = .succeeded)
    (.conflict "CORRECTION_CONTEXT_PARSE_VERDICT_INVALID")
  let causationId ← Prog.expect (parse.causationId.filter (· ≠ []))
    (.conflict "CORRECTION_CONTEXT_PARSE_VERDICT_INVALID")
  let (reviewStepRunId, reviewerExecutionId) ← Prog.expect (verdictAuthority parse causationId)
    (.conflict "CORRECTION_CONTEXT_VERDICT_AUTHORITY_INVALID")
  let review ← step reviewStepRunId
  Prog.require (review.stepType = .redTeam && review.status = .succeeded)
    (.conflict "CORRECTION_CONTEXT_REVIEW_LINEAGE_STALE")
  let (outputReference, selectedProviderId) ← Prog.expect
    (reviewProjection review reviewerExecutionId)
    (.conflict "CORRECTION_CONTEXT_REVIEW_PROJECTION_INVALID")
  let findings ← blockingFindings
    (member (member (some review.metadata) "reviewResult") "findings")
  Prog.require (findings ≠ []) (.conflict "CORRECTION_CONTEXT_BLOCKING_FINDINGS_MISSING")
  let (_, policyDecisionReference) ← findRecord
    ⟨reviewerExecutionId, organizationId, workflowRunId, review.id, "RED_TEAM".toList,
      selectedProviderId⟩ outputReference "CORRECTION_CONTEXT_EXECUTION_LEDGER_MISMATCH"
  return Manifest.sealed sha256 numberText
    [("schemaVersion".toList, literal "CORRECTION_CONTEXT_V1"),
      ("workflowRunId".toList, .string workflowRunId),
      ("correctionStepRunId".toList, .string correctionStepRunId),
      ("parseVerdictStepRunId".toList, .string parse.id),
      ("redTeamStepRunId".toList, .string review.id),
      ("reviewerExecutionId".toList, .string reviewerExecutionId),
      ("verdict".toList, literal "D"),
      ("blockingFindings".toList, .array (findings.map findingJson)),
      ("governedExecutionReference".toList, .string outputReference),
      ("policyDecisionReference".toList, .string policyDecisionReference)]

end CorrectionContext

/-! ## The evidence of a red team -/

namespace RedTeamEvidence

/-- `EXPECTED_CAPABILITY`. -/
def expectedCapability : EngineeringStepType → Option Str
  | .build | .correction => some "CODE_BUILD".toList
  | .test => some "TEST_EXECUTION".toList
  | .package => some "REVIEW_PACKAGE".toList
  | _ => none

/-- The members of a value, if it is an object. -/
def record (value : Option Json) : Option (List (Str × Json)) :=
  match value with
  | some (.object fields) => some fields
  | _ => none

/-- `string`. -/
def string (value : Option Json) : Option Str := boundedString value 2048

/-- `stringArray`. -/
def stringArray (value : Option Json) : Option (List Str) := strings value 64 2048

/-- What follows a beginning, if it is a hexadecimal number of a length in these bounds. -/
def hexAfter (beginning : String) (least most : Nat) (value : Option Json) : Option Str :=
  (Json.text value).bind fun text =>
    let digits := text.drop beginning.length
    if startsWith text beginning.toList && least ≤ digits.length && digits.length ≤ most &&
        digits.all isHexDigit then some digits
    else none

def gitSha : Option Json → Option Str := hexAfter "" 40 64

def sha : Option Json → Option Str := hexAfter "" 64 64

def revisionReference : Option Json → Option Str := hexAfter "gov://revision/" 40 64

def stdoutSha : Option Json → Option Str := hexAfter "gov://evidence/stdout-sha256/" 64 64

def patchSha : Option Json → Option Str := hexAfter "gov://evidence/patch-sha256/" 64 64

/-- `{ ...fields, [name]: value }`. -/
def withField (fields : List (Str × Json)) (name : String) (value : Json) : List (Str × Json) :=
  if fields.any fun field => field.1 = name.toList then
    fields.map fun field => if field.1 = name.toList then (field.1, value) else field
  else fields ++ [(name.toList, value)]

structure Entry where
  revisionSha : Str
  fields : List (Str × Json)

variable (sha256 : Str → Str) (numberText : Rat → Str)

/-- What is known of a workspace after an execution, if the postconditions hold. -/
def runtimePostconditions (evidence : Option Json) (revisionSha : Str) (sideEffects : Option Json) :
    Option (List (Str × Json) × List Str) := do
  let settling ← record (member evidence "settling")
  let field (name : String) : Option Json := member (some (.object settling)) name
  let changedFiles ← stringArray (field "changedFiles")
  let filesModified ← stringArray (member sideEffects "filesModified")
  let _ ← string (field "executionId")
  let _ ← patchSha (field "patchSha256Reference")
  let isBool : Bool := match field "empty" with
    | some (.bool _) => true
    | _ => false
  if isText (member evidence "workspaceDisposition") "CLEANED" &&
      isText (member evidence "ephemeralMaterialDisposition") "REMOVED" &&
      revisionReference (field "revisionReference") = some revisionSha && isBool &&
      Json.stringify numberText (.array (changedFiles.map .string)) =
        Json.stringify numberText (.array (filesModified.map .string)) then
    some (settling, changedFiles)
  else none

def isTrue (value : Option Json) : Bool := value = some (.bool true)

def runtimeEvidence (evidence : Option Json) (revisionSha : Str) (sideEffects : Option Json)
    (stepType : EngineeringStepType) : Handoff Json := do
  let (settling, changedFiles) ← Prog.expect
    (runtimePostconditions numberText evidence revisionSha sideEffects)
    (.conflict "RED_TEAM_EVIDENCE_RUNTIME_POSTCONDITIONS_INVALID")
  let identity := member evidence "providerIdentityPostcondition"
  let identity ← Prog.expect
    ((record identity).filter fun _ =>
      isTrue (member identity "enforced") && isTrue (member identity "passed"))
    (.conflict "RED_TEAM_EVIDENCE_PROVIDER_IDENTITY_INVALID")
  let acceptance := member evidence "flight001Acceptance"
  Prog.require (stepType ≠ .test ||
      isTrue (member acceptance "checked") && isTrue (member acceptance "passed"))
    (.conflict "RED_TEAM_EVIDENCE_FLIGHT_001_ACCEPTANCE_INVALID")
  return .object ([("workspaceDisposition".toList, literal "CLEANED"),
      ("ephemeralMaterialDisposition".toList, literal "REMOVED"),
      ("settling".toList, .object
        (withField settling "changedFiles" (.array (changedFiles.map .string)))),
      ("providerIdentityPostcondition".toList, .object identity)] ++
    (match record acceptance with
      | some acceptance => [("flight001Acceptance".toList, .object acceptance)]
      | none => []) ++
    [("ledgerStatus".toList, literal "SUCCEEDED")])

/-- What the metadata of a step tells of its execution. -/
structure StepProjection where
  invocationId : Str
  outputReference : Str
  revisionSha : Str
  providerId : Str

def stepProjection (metadata : Option Json) (capabilityCode : Str) : Option StepProjection := do
  let executionEvidence := member metadata "executionEvidence"
  let invocationId ← string (member executionEvidence "invocationId")
  let outputReference ← string (member executionEvidence "outputReference")
  let revisionSha ← gitSha (member (member executionEvidence "revision") "baseSha")
  let providerId ← string (member metadata "selectedProviderId")
  if Json.text (member metadata "capabilityCode") = some capabilityCode then
    some ⟨invocationId, outputReference, revisionSha, providerId⟩
  else none

/-- The summary of a result and its hash. -/
def resultSummary (executionEvidence : Option Json) : Option (List (Str × Json) × Str) := do
  let summary ← record (member executionEvidence "resultSummary")
  let summarySha ← sha (member (some (.object summary)) "sha256")
  let _ ← Json.text (member (some (.object summary)) "content")
  some (summary, summarySha)

def entry (organizationId workflowRunId : Str) (step : LineageStep) (requireSummary : Bool) :
    Handoff Entry := do
  let capabilityCode ← Prog.expect (expectedCapability step.stepType)
    (.conflict "RED_TEAM_EVIDENCE_CAPABILITY_UNSUPPORTED")
  let metadata := some step.metadata
  Prog.require (isText (member metadata "source") "WORKFLOW_AGENT_RUNTIME" &&
      isText (member metadata "executionStatus") "SUCCEEDED")
    (.conflict "RED_TEAM_EVIDENCE_STEP_METADATA_INVALID")
  let projection ← Prog.expect (stepProjection metadata capabilityCode)
    (.conflict "RED_TEAM_EVIDENCE_STEP_PROJECTION_INCOMPLETE")
  let summary := resultSummary (member metadata "executionEvidence")
  Prog.require (!requireSummary || summary.isSome)
    (.conflict "RED_TEAM_EVIDENCE_RESULT_SUMMARY_MISSING")
  let (record, policyDecisionReference) ← findRecord
    ⟨projection.invocationId, organizationId, workflowRunId, step.id, capabilityCode,
      projection.providerId⟩ projection.outputReference "RED_TEAM_EVIDENCE_LEDGER_MISMATCH"
  let usage := some record.usageMetadata
  let binding := member usage "governedEvidenceBinding"
  Prog.require (revisionReference (member binding "revisionReference") =
      some projection.revisionSha)
    (.conflict "RED_TEAM_EVIDENCE_REVISION_BINDING_MISMATCH")
  Prog.require (!requireSummary ||
      stdoutSha (member binding "stdoutSha256Reference") = summary.map (·.2))
    (.conflict "RED_TEAM_EVIDENCE_RESULT_BINDING_MISMATCH")
  let sideEffects := some record.sideEffectSummary
  let runtimeEvidence ← (if requireSummary then some <$> runtimeEvidence numberText
      (member usage "governedRuntimeEvidence") projection.revisionSha sideEffects step.stepType
    else pure none : Handoff (Option Json))
  let optional (name : String) (value : Option Json) : List (Str × Json) :=
    value.toList.map fun value => (name.toList, value)
  return {
    revisionSha := projection.revisionSha
    fields := [("stepType".toList, literal (stepName step.stepType)),
        ("workflowStepRunId".toList, .string step.id),
        ("invocationId".toList, .string projection.invocationId),
        ("capabilityCode".toList, .string capabilityCode),
        ("providerId".toList, .string projection.providerId),
        ("outputReference".toList, .string projection.outputReference),
        ("policyDecisionReference".toList, .string policyDecisionReference),
        ("revisionSha".toList, .string projection.revisionSha)] ++
      optional "resultSummary"
        (if requireSummary then summary.map fun summary => .object summary.1 else none) ++
      [("sideEffectSummary".toList,
        .object ((RedTeamEvidence.record sideEffects).getD []))] ++
      optional "runtimeEvidence" runtimeEvidence }

/-- `humanReleaseBoundaryEvidence`. -/
def humanReleaseBoundaryEvidence : Handoff Json := do
  Prog.require ((capabilityForStep .humanReleaseGate).isNone &&
      (capabilityForStep .releaseExecution).isNone)
    (.conflict "RED_TEAM_EVIDENCE_HUMAN_RELEASE_BOUNDARY_INVALID")
  let boundary : Json :=
    .object [("agentExecutable".toList, .bool false), ("capabilityCode".toList, .null)]
  return .object [("authority".toList, literal "HUMAN_EXPLICIT_ONLY"),
    ("agentRuntimeDisposition".toList, literal "NON_AGENT_STEP"),
    ("humanReleaseGate".toList, boundary), ("releaseExecution".toList, boundary)]

def resolve (organizationId workflowRunId redTeamStepRunId : Str) : Handoff Manifest := do
  let step (id : Str) : Handoff LineageStep :=
    findStep organizationId workflowRunId id "RED_TEAM_EVIDENCE_STEP_NOT_FOUND"
  let predecessor (id : Option Str) (allowed : List EngineeringStepType) :
      Handoff LineageStep := do
    let id ← Prog.expect (id.filter (· ≠ [])) (.conflict "RED_TEAM_EVIDENCE_LINEAGE_INCOMPLETE")
    let found ← step id
    Prog.require (found.status = .succeeded && allowed.contains found.stepType)
      (.conflict "RED_TEAM_EVIDENCE_LINEAGE_STALE")
    return found
  let redTeam ← step redTeamStepRunId
  Prog.require (redTeam.stepType = .redTeam && redTeam.status = .ready &&
      (redTeam.causationId.filter (· ≠ [])).isSome)
    (.conflict "RED_TEAM_EVIDENCE_LINEAGE_INVALID")
  let packageStep ← predecessor redTeam.causationId [.package]
  let testStep ← predecessor packageStep.causationId [.test]
  let changeStep ← predecessor testStep.causationId [.build, .correction]
  let change ← entry numberText organizationId workflowRunId changeStep false
  let test ← entry numberText organizationId workflowRunId testStep true
  let reviewPackage ← entry numberText organizationId workflowRunId packageStep true
  Prog.require (test.revisionSha = reviewPackage.revisionSha)
    (.conflict "RED_TEAM_EVIDENCE_REVISION_MISMATCH")
  let humanReleaseBoundary ← humanReleaseBoundaryEvidence
  return Manifest.sealed sha256 numberText
    [("schemaVersion".toList, literal "RED_TEAM_EVIDENCE_V2"),
      ("workflowRunId".toList, .string workflowRunId),
      ("redTeamStepRunId".toList, .string redTeamStepRunId),
      ("testedRevisionSha".toList, .string test.revisionSha),
      ("entries".toList, .array ([change, test, reviewPackage].map fun entry =>
        .object entry.fields)),
      ("humanReleaseBoundary".toList, humanReleaseBoundary)]

end RedTeamEvidence

end AgentRuntime
