import VitoPlatform.AgentRuntime.Prompt
import VitoPlatform.Workflow.Independence

/-!
# Reviews and their verdict

`WorkflowAl4ReviewCoordinatorService`, which has a change reviewed by two agents,
`WorkflowReviewEvidenceService` and `WorkflowReviewVerdictService`, which hands what has been
persisted of the reviews to the state machine. What they read, dispatch and complete are effects.
-/

namespace AgentRuntime.Reviews

open Text Workflow Invocation Persistence
open Services (HttpError)

/-! ## Effects -/

/-- The columns of a step that are selected. -/
structure ReviewStep where
  id : Str
  metadata : Json
  finishedAt : Option Int

structure ProviderRow where
  id : Str
  modelFamily : Option Str

/-- The condition on an execution record, whose status is SUCCEEDED. -/
structure RecordQuery where
  id : Str
  organizationId : Str
  workflowRunId : Str
  workflowStepRunId : Str
  capabilityCode : Str
  /-- The provider, where the condition has one. -/
  providerId : Option Str

structure ExecutionRecord where
  id : Str
  providerId : Str
  capabilityCode : Str
  outputReference : Option Str
  artifactReferences : Json
  policyDecisionReference : Option Str
  completedAt : Option Int

/-- The column that the newest step is found by. -/
inductive StepOrder where
  | startedAt
  | finishedAt
  deriving DecidableEq

structure ReviewDispatch where
  organizationId : Str
  workflowRunId : Str
  workflowStepRunId : Str
  capabilityCode : Str
  prompt : Units
  assuranceLevel : Str
  correlationId : Str
  independenceContext : IndependenceContext

/-- A review result that has been read from metadata. -/
structure StoredReview where
  verdict : ReviewVerdict
  reviewerExecutionId : Str
  assuranceLevel : AssuranceLevel
  artifactRefs : List Str

/-- What a step is completed with; its status is SUCCEEDED. -/
structure ReviewCompletion where
  organizationId : Str
  workflowRunId : Str
  workflowStepRunId : Str
  verdict : Option ReviewVerdict
  reviewResults : Option (List StoredReview)
  independenceContext : Option IndependenceContext
  metadata : Json

inductive Effect where
  | findRun (organizationId workflowRunId : Str)
  | findNewestStep (organizationId workflowRunId : Str) (stepType : EngineeringStepType)
      (status : WorkflowStepStatus) (order : StepOrder)
  | findStep (id organizationId workflowRunId : Str) (stepType : EngineeringStepType)
      (status : WorkflowStepStatus)
  | findTask (organizationId taskId : Str)
  | findProvider (organizationId id : Str)
  | findRecord (query : RecordQuery)
  | dispatch (input : ReviewDispatch)
  /-- The answer is the kind of the outcome, if the transition has one. -/
  | completeStep (completion : ReviewCompletion)

abbrev Answer : Effect → Type
  | .findRun _ _ => Option RunRow
  | .findNewestStep _ _ _ _ _ => Option ReviewStep
  | .findStep _ _ _ _ _ => Option ReviewStep
  | .findTask _ _ => Option TaskRow
  | .findProvider _ _ => Option ProviderRow
  | .findRecord _ => Option ExecutionRecord
  | .dispatch _ => AgentDispatch
  | .completeStep _ => Option Str

abbrev Program (α : Type) := Prog Effect Answer HttpError α

abbrev Happened := Prog.Event Effect Answer HttpError

def ask (e : Effect) : Program (Answer e) := Prog.perform e

/-! ## Values -/

/-- `normalizeAssuranceLevel`. -/
def normalizeAssuranceLevel (value : Option Json) : Option AssuranceLevel :=
  (Json.text value).bind AgentRuntime.assuranceLevel

/-- `nonEmptyString`. -/
def nonEmptyString (value : Option Json) : Option Str :=
  (Json.text value).filter fun text => trim text ≠ []

/-- `stringArray`. -/
def stringArray (value : Option Json) : Option (List Str) :=
  match value with
  | some (.array items) => items.mapM fun item => Json.text (some item)
  | _ => none

/-- `referenceList`. -/
def referenceList (value : Option Json) : List Str := boundedStrings value 32 2048

/-- `objectArray`: nothing, unless all items are objects. -/
def objectArray (value : Option Json) : List Json :=
  match value with
  | some (.array items) =>
      if items.all fun item => (RedTeamEvidence.record (some item)).isSome then items else []
  | _ => []

def isArray (value : Option Json) : Bool :=
  match value with
  | some (.array _) => true
  | _ => false

/-- One item of `reviewResults`. -/
def reviewResult (item : Json) : Option StoredReview := do
  let verdict ← isVerdict (member (some item) "verdict")
  let reviewerExecutionId ← boundedString (member (some item) "reviewerExecutionId") 256
  let assuranceLevel ← normalizeAssuranceLevel (member (some item) "assuranceLevel")
  let artifactRefs ← stringArray (member (some item) "artifactRefs")
  if assuranceLevel = .al4 && isArray (member (some item) "findings") then
    some ⟨verdict, reviewerExecutionId, assuranceLevel, artifactRefs⟩
  else none

/-- `reviewResults`. -/
def reviewResults (value : Option Json) : Option (List StoredReview) :=
  match value with
  | some (.array items) => items.mapM reviewResult
  | _ => none

/-- `independenceContext`. -/
def independenceContext (value : Option Json) : Option IndependenceContext := do
  let builderProviderId ← nonEmptyString (member value "builderProviderId")
  let builderModelFamily ← nonEmptyString (member value "builderModelFamily")
  let previousReviewerProviderIds ← stringArray (member value "previousReviewerProviderIds")
  let previousReviewerModelFamilies ← stringArray (member value "previousReviewerModelFamilies")
  some ⟨some builderProviderId, some builderModelFamily, previousReviewerProviderIds,
    previousReviewerModelFamilies⟩

/-- What is known of a reviewer. -/
structure ReviewerIdentity where
  providerId : Str
  modelFamily : Str

def strings (texts : List Str) : Json := .array (texts.map .string)

/-! ## The evidence of a single review -/

structure ReviewEvidence where
  organizationId : Str
  workflowRunId : Str
  correlationId : Str
  reviewStepRunId : Str
  invocationId : Str
  providerId : Str
  capabilityCode : Str
  outputReference : Option Str
  artifactReferences : List Str
  policyDecisionReference : Option Str
  executionCompletedAt : Option Int
  reviewStepFinishedAt : Option Int

/-- `WorkflowReviewEvidenceService.resolve`. -/
def resolveEvidence (organizationId workflowRunId : Str) : Program ReviewEvidence := do
  let found ← ask (.findRun organizationId workflowRunId)
  let run ← Prog.expect found (.notFound "WorkflowRun not found.")
  let found ← ask (.findNewestStep organizationId workflowRunId .redTeam .succeeded .startedAt)
  let reviewStep ← Prog.expect found (.conflict
    "No succeeded RED_TEAM workflow step is available for verdict evidence resolution.")
  let executionEvidence := member (some reviewStep.metadata) "executionEvidence"
  let invocationId ← Prog.expect (boundedString (member executionEvidence "invocationId") 256)
    (.conflict "RED_TEAM step has no valid governed invocation evidence binding.")
  let found ← ask (.findRecord ⟨invocationId, organizationId, workflowRunId, reviewStep.id,
    "RED_TEAM".toList, none⟩)
  let record ← Prog.expect found (.conflict ("Governed RED_TEAM execution record does not match " ++
    "the persisted workflow evidence lineage."))
  let boundOutputReference := boundedString (member executionEvidence "outputReference") 2048
  Prog.require (boundOutputReference.all fun reference => record.outputReference = some reference)
    (.conflict ("RED_TEAM output reference does not match the authoritative governed execution " ++
      "record."))
  let boundArtifacts := referenceList (member executionEvidence "artifactReferences")
  let authoritativeArtifacts := referenceList (some record.artifactReferences)
  Prog.require (boundArtifacts.all (· ∈ authoritativeArtifacts))
    (.conflict ("RED_TEAM artifact references do not match the authoritative governed execution " ++
      "record."))
  return { organizationId := organizationId
           workflowRunId := workflowRunId
           correlationId := run.correlationId
           reviewStepRunId := reviewStep.id
           invocationId := record.id
           providerId := record.providerId
           capabilityCode := record.capabilityCode
           outputReference := record.outputReference
           artifactReferences := authoritativeArtifacts
           policyDecisionReference := record.policyDecisionReference
           executionCompletedAt := record.completedAt
           reviewStepFinishedAt := reviewStep.finishedAt }

/-! ## Verdicts -/

inductive VerdictDisposition where
  | verdictTransitioned (reviewerExecutionId : Str) (verdict : ReviewVerdict)
  | al4VerdictTransitioned (reviewerExecutionIds : List Str)

structure VerdictTransition where
  disposition : VerdictDisposition
  workflowRunId : Str
  workflowStepRunId : Str
  reviewStepRunId : Str
  assuranceLevel : AssuranceLevel
  transition : Option Str

/-- The metadata of a verdict that comes from one review. -/
def verdictMetadata (reviewStepRunId reviewerExecutionId : Str) (level : AssuranceLevel)
    (verdict : ReviewVerdict) : Json :=
  .object [("source".toList, literal "WORKFLOW_REVIEW_VERDICT_RUNTIME"),
    ("reviewStepRunId".toList, .string reviewStepRunId),
    ("reviewerExecutionId".toList, .string reviewerExecutionId),
    ("assuranceLevel".toList, .string level.text),
    ("verdict".toList, .string (verdictText verdict)),
    ("authority".toList, literal "GOVERNED_EXECUTION_RECORD")]

/-- The part of `parseAndTransition` below AL4. -/
def parseSingleAndTransition (organizationId workflowRunId parseStepRunId : Str)
    (level : AssuranceLevel) : Program VerdictTransition := do
  let evidence ← resolveEvidence organizationId workflowRunId
  let found ← ask (.findStep evidence.reviewStepRunId organizationId workflowRunId .redTeam
    .succeeded)
  let reviewStep ← Prog.expect found
    (.conflict "Authoritative RED_TEAM workflow step is unavailable.")
  let reviewResult := member (some reviewStep.metadata) "reviewResult"
  Prog.require (RedTeamEvidence.record reviewResult).isSome
    (.conflict "RED_TEAM step has no persisted typed ReviewResult projection.")
  let verdict ← Prog.expect (isVerdict (member reviewResult "verdict"))
    (.conflict "Persisted ReviewResult has an invalid verdict.")
  Prog.require (Json.text (member reviewResult "reviewerExecutionId") = some evidence.invocationId)
    (.conflict "ReviewResult reviewer execution does not match governed evidence lineage.")
  Prog.require (normalizeAssuranceLevel (member reviewResult "assuranceLevel") = some level)
    (.conflict "ReviewResult assurance level does not match the WorkflowRun.")
  Prog.require ((stringArray (member reviewResult "artifactRefs")).any fun artifactRefs =>
      artifactRefs.all (· ∈ evidence.artifactReferences))
    (.conflict "ReviewResult artifact references do not match governed evidence lineage.")
  let transition ← ask (.completeStep
    { organizationId := organizationId
      workflowRunId := workflowRunId
      workflowStepRunId := parseStepRunId
      verdict := some verdict
      reviewResults := none
      independenceContext := none
      metadata := verdictMetadata reviewStep.id evidence.invocationId level verdict })
  return { disposition := .verdictTransitioned evidence.invocationId verdict
           workflowRunId := workflowRunId
           workflowStepRunId := parseStepRunId
           reviewStepRunId := reviewStep.id
           assuranceLevel := level
           transition := transition }

/-- The turn of the loop over the reviews: the lineage of one of them, against the providers and
the ledger. -/
def reviewerOf (organizationId workflowRunId reviewStepRunId : Str) (review : StoredReview)
    (lineage : Json) : Program ReviewerIdentity := do
  let reviewerExecutionId ← Prog.expect
    (boundedString (member (some lineage) "reviewerExecutionId") 256)
    (.conflict "AL4 reviewer lineage is incomplete.")
  let providerId ← Prog.expect (nonEmptyString (member (some lineage) "providerId"))
    (.conflict "AL4 reviewer lineage is incomplete.")
  let modelFamily ← Prog.expect (nonEmptyString (member (some lineage) "modelFamily"))
    (.conflict "AL4 reviewer lineage is incomplete.")
  Prog.require (review.reviewerExecutionId = reviewerExecutionId)
    (.conflict "AL4 ReviewResult execution identity does not match reviewer lineage.")
  Prog.require (review.assuranceLevel = .al4)
    (.conflict "AL4 ReviewResult assurance level does not match the WorkflowRun.")
  let provider ← ask (.findProvider organizationId providerId)
  Prog.require (provider.any fun provider => provider.modelFamily = some modelFamily)
    (.conflict "AL4 reviewer provider/model-family lineage is not authoritative.")
  let found ← ask (.findRecord ⟨reviewerExecutionId, organizationId, workflowRunId,
    reviewStepRunId, "RED_TEAM".toList, some providerId⟩)
  let record ← Prog.expect found
    (.conflict "AL4 reviewer execution does not match the governed execution ledger.")
  let authoritativeArtifacts := referenceList (some record.artifactReferences)
  let resultArtifacts := referenceList (some (strings review.artifactRefs))
  Prog.require (resultArtifacts.all (· ∈ authoritativeArtifacts))
    (.conflict "AL4 ReviewResult artifact references do not match governed execution evidence.")
  return ⟨providerId, modelFamily⟩

/-- The loop over the reviews. -/
def reviewersOf (organizationId workflowRunId reviewStepRunId : Str) :
    List (StoredReview × Json) → Program (List ReviewerIdentity)
  | [] => pure []
  | (review, lineage) :: rest => do
      let reviewer ← reviewerOf organizationId workflowRunId reviewStepRunId review lineage
      let reviewers ← reviewersOf organizationId workflowRunId reviewStepRunId rest
      return reviewer :: reviewers

/-- What an AL4 review has left in the metadata of its step. -/
structure Al4Evidence where
  reviews : List StoredReview
  context : IndependenceContext
  builder : Json
  lineage : List Json

/-- The evidence in the metadata, if it is complete. -/
def al4Evidence (metadata : Option Json) : Option Al4Evidence := do
  let reviews ← reviewResults (member metadata "reviewResults")
  let context ← independenceContext (member metadata "independenceContext")
  let builder ← (member metadata "builderLineage").filter fun builder =>
    (RedTeamEvidence.record (some builder)).isSome
  let lineage := objectArray (member metadata "reviewerLineage")
  if reviews.length = 2 && lineage.length = 2 then some ⟨reviews, context, builder, lineage⟩
  else none

/-- The builder of the lineage, if it is the one of the context. -/
def builderOf (evidence : Al4Evidence) : Option ReviewerIdentity := do
  let builderProviderId ← nonEmptyString (member (some evidence.builder) "providerId")
  let builderModelFamily ← nonEmptyString (member (some evidence.builder) "modelFamily")
  if evidence.context.builderProviderId = some builderProviderId &&
      evidence.context.builderModelFamily = some builderModelFamily then
    some ⟨builderProviderId, builderModelFamily⟩
  else none

/-- The reviewers are others than the builder, and those of the context. -/
def independent (builder : ReviewerIdentity) (reviewers : List ReviewerIdentity)
    (context : IndependenceContext) : Bool :=
  let providerIds := reviewers.map ReviewerIdentity.providerId
  let modelFamilies := reviewers.map ReviewerIdentity.modelFamily
  decide providerIds.Nodup && decide modelFamilies.Nodup && builder.providerId ∉ providerIds &&
    builder.modelFamily ∉ modelFamilies && context.previousReviewerProviderIds = providerIds &&
      context.previousReviewerModelFamilies = modelFamilies

/-- The metadata of a verdict that comes from two reviews. -/
def al4VerdictMetadata (reviewStepRunId : Str) (reviews : List StoredReview)
    (builder : ReviewerIdentity) (reviewers : List ReviewerIdentity) : Json :=
  .object [("source".toList, literal "WORKFLOW_AL4_REVIEW_VERDICT_RUNTIME"),
    ("reviewStepRunId".toList, .string reviewStepRunId),
    ("assuranceLevel".toList, literal "AL4"),
    ("reviewerExecutionIds".toList, strings (reviews.map StoredReview.reviewerExecutionId)),
    ("reviewerProviderIds".toList, strings (reviewers.map ReviewerIdentity.providerId)),
    ("reviewerModelFamilies".toList, strings (reviewers.map ReviewerIdentity.modelFamily)),
    ("builderProviderId".toList, .string builder.providerId),
    ("builderModelFamily".toList, .string builder.modelFamily),
    ("authority".toList, literal "GOVERNED_EXECUTION_RECORDS")]

/-- `parseAl4AndTransition`. -/
def parseAl4AndTransition (organizationId workflowRunId parseStepRunId : Str) :
    Program VerdictTransition := do
  let found ← ask (.findNewestStep organizationId workflowRunId .redTeam .succeeded .finishedAt)
  let reviewStep ← Prog.expect found
    (.conflict "No succeeded AL4 RED_TEAM workflow step is available.")
  let metadata := some reviewStep.metadata
  Prog.require (isText (member metadata "source") "WORKFLOW_AL4_REVIEW_COORDINATOR")
    (.conflict "AL4 RED_TEAM evidence was not produced by the governed review coordinator.")
  let evidence ← Prog.expect (al4Evidence metadata)
    (.conflict "AL4 multi-reviewer evidence is incomplete or malformed.")
  let builder ← Prog.expect (builderOf evidence)
    (.conflict "AL4 builder lineage does not match the persisted independence context.")
  let reviewers ← reviewersOf organizationId workflowRunId reviewStep.id
    (evidence.reviews.zip evidence.lineage)
  Prog.require (independent builder reviewers evidence.context)
    (.conflict ("AL4 reviewer independence cannot be proven from persisted authoritative " ++
      "lineage."))
  let transition ← ask (.completeStep
    { organizationId := organizationId
      workflowRunId := workflowRunId
      workflowStepRunId := parseStepRunId
      verdict := none
      reviewResults := some evidence.reviews
      independenceContext := some evidence.context
      metadata := al4VerdictMetadata reviewStep.id evidence.reviews builder reviewers })
  return { disposition := .al4VerdictTransitioned
             (evidence.reviews.map StoredReview.reviewerExecutionId)
           workflowRunId := workflowRunId
           workflowStepRunId := parseStepRunId
           reviewStepRunId := reviewStep.id
           assuranceLevel := .al4
           transition := transition }

/-- `parseAndTransition`. -/
def parseAndTransition (organizationId workflowRunId : Str) : Program VerdictTransition := do
  let found ← ask (.findRun organizationId workflowRunId)
  let run ← Prog.expect found (.notFound "WorkflowRun not found.")
  Prog.require (run.status = .running && run.currentStepType = some .parseVerdict)
    (.conflict "WorkflowRun is not ready for PARSE_VERDICT.")
  let level ← Prog.expect (AgentRuntime.assuranceLevel run.assuranceLevel)
    (.conflict "WorkflowRun has an invalid assurance level.")
  let found ← ask (.findNewestStep organizationId workflowRunId .parseVerdict .ready .startedAt)
  let parseStep ← Prog.expect found (.conflict "No READY PARSE_VERDICT workflow step found.")
  if level = .al4 then parseAl4AndTransition organizationId workflowRunId parseStep.id
  else parseSingleAndTransition organizationId workflowRunId parseStep.id level

/-! ## The coordination of two reviews -/

def MAX_PROMPT_CHARS : Nat := 32000

/-- `buildReviewPrompt`. -/
def buildReviewPrompt (title : Str) (description : Option Str) : Units :=
  (units (join ['\n'] (AgentRuntime.truthy
    [some ("Execute an independent RED_TEAM review for this persisted VITO engineering " ++
        "workflow.").toList,
      some (titleLine title), descriptionLine description,
      some "Return ONLY one JSON object with this exact review schema:".toList,
      some ("\x7b\"verdict\":\"A|B|C|D\",\"findings\":[\x7b\"id\":\"string\"," ++
        "\"severity\":\"INFO|LOW|MEDIUM|HIGH|CRITICAL\"," ++
        "\"category\":\"CORRECTNESS|SECURITY|ARCHITECTURE|TESTING|MAINTAINABILITY|GOVERNANCE|" ++
        "OTHER\",\"summary\":\"string\",\"evidenceRefs\":[\"gov://...\"],\"blocking\":true\x7d]" ++
        "\x7d").toList,
      some ("Do not include markdown fences, prose outside the JSON object, reviewer identity, " ++
        "assurance level, provider identity, or authority claims.").toList]))).take
    MAX_PROMPT_CHARS

/-- `resolveReviewerIdentity`. -/
def resolveReviewerIdentity (organizationId providerId : Str) : Program ReviewerIdentity := do
  let found ← ask (.findProvider organizationId providerId)
  Prog.expect
    (do
      let provider ← found
      let modelFamily ← provider.modelFamily.filter fun family => trim family ≠ []
      some ⟨provider.id, modelFamily⟩)
    (.conflict "Provider model-family lineage is unavailable for AL4 independence proof.")

/-- `resolveBuilderLineage`. -/
def resolveBuilderLineage (organizationId workflowRunId : Str) : Program ReviewerIdentity := do
  let buildStep ← ask (.findNewestStep organizationId workflowRunId .build .succeeded .finishedAt)
  let providerId ← Prog.expect
    (nonEmptyString (member (buildStep.map ReviewStep.metadata) "selectedProviderId"))
    (.conflict "AL4 builder provider lineage is unavailable.")
  resolveReviewerIdentity organizationId providerId

/-- A dispatch and the review that it has returned. -/
structure Reviewed where
  dispatch : AgentDispatch
  review : ProjectedReview

/-- `dispatchReview`. -/
def dispatchReview (parse : Str → Option Json) (input : ReviewDispatch) : Program Reviewed := do
  let dispatch ← ask (.dispatch input)
  let execution : Json := .object dispatch.execution
  Prog.require (isText (member (some execution) "status") "SUCCEEDED")
    (.conflict "AL4 RED_TEAM reviewer execution did not succeed.")
  let review ← Prog.expect (projectReview parse execution input.assuranceLevel)
    (.conflict "AL4 RED_TEAM reviewer returned no valid typed ReviewResult.")
  return ⟨dispatch, review⟩

def findingJson (finding : ReviewFinding) : Json :=
  .object [("id".toList, .string finding.id),
    ("severity".toList, .string finding.severity.text),
    ("category".toList, .string finding.category.text),
    ("summary".toList, .string finding.summary),
    ("evidenceRefs".toList, strings finding.evidenceRefs),
    ("blocking".toList, .bool finding.blocking)]

def reviewJson (review : ProjectedReview) : Json :=
  .object [("verdict".toList, .string (verdictText review.verdict)),
    ("findings".toList, .array (review.findings.map findingJson)),
    ("reviewerExecutionId".toList, .string review.reviewerExecutionId),
    ("assuranceLevel".toList, .string review.assuranceLevel.text),
    ("artifactRefs".toList, strings review.artifactRefs)]

def contextOf (builder : ReviewerIdentity) (reviewers : List ReviewerIdentity) :
    IndependenceContext where
  builderProviderId := some builder.providerId
  builderModelFamily := some builder.modelFamily
  previousReviewerProviderIds := reviewers.map ReviewerIdentity.providerId
  previousReviewerModelFamilies := reviewers.map ReviewerIdentity.modelFamily

def identityFields (identity : ReviewerIdentity) : List (Str × Json) :=
  [("providerId".toList, .string identity.providerId),
    ("modelFamily".toList, .string identity.modelFamily)]

/-- `reviewerLineage`. -/
def reviewerLineage (reviewed : Reviewed) (reviewer : ReviewerIdentity) : Json :=
  .object [("reviewerExecutionId".toList, .string reviewed.review.reviewerExecutionId),
    ("routingDecisionId".toList, .string reviewed.dispatch.routingDecisionId),
    ("providerId".toList, .string reviewer.providerId),
    ("providerCode".toList, .string reviewed.dispatch.selectedProviderCode),
    ("modelFamily".toList, .string reviewer.modelFamily),
    ("artifactRefs".toList, strings reviewed.review.artifactRefs)]

/-- What is written about two reviews. -/
def coordinationMetadata (builder : ReviewerIdentity) (reviews : List (Reviewed × ReviewerIdentity)) :
    Json :=
  .object [("source".toList, literal "WORKFLOW_AL4_REVIEW_COORDINATOR"),
    ("reviewProjectionStatus".toList, literal "VALID"),
    ("reviewResults".toList, .array (reviews.map fun review => reviewJson review.1.review)),
    ("independenceContext".toList, .object [
      ("builderProviderId".toList, .string builder.providerId),
      ("builderModelFamily".toList, .string builder.modelFamily),
      ("previousReviewerProviderIds".toList, strings (reviews.map (·.2.providerId))),
      ("previousReviewerModelFamilies".toList, strings (reviews.map (·.2.modelFamily)))]),
    ("builderLineage".toList, .object (identityFields builder)),
    ("reviewerLineage".toList, .array (reviews.map fun review =>
      reviewerLineage review.1 review.2))]

structure Coordination where
  workflowRunId : Str
  workflowStepRunId : Str
  reviewResults : List ProjectedReview
  independenceContext : IndependenceContext
  transition : Option Str

/-- `coordinate`. -/
def coordinate (parse : Str → Option Json) (organizationId workflowRunId : Str) :
    Program Coordination := do
  let found ← ask (.findRun organizationId workflowRunId)
  let run ← Prog.expect found (.notFound "WorkflowRun not found.")
  Prog.require (run.status = .running && run.currentStepType = some .redTeam &&
      AgentRuntime.assuranceLevel run.assuranceLevel = some .al4)
    (.conflict "WorkflowRun is not ready for governed AL4 RED_TEAM coordination.")
  let found ← ask (.findNewestStep organizationId workflowRunId .redTeam .ready .startedAt)
  let step ← Prog.expect found (.conflict "No READY RED_TEAM workflow step found.")
  let capabilityCode ← Prog.expect
    ((capabilityForStep .redTeam).filter (· = "RED_TEAM".toList))
    (.conflict "Server-owned RED_TEAM capability binding is unavailable.")
  let taskId ← Prog.expect (run.taskId.filter (· ≠ []))
    (.conflict "AL4 review requires a persisted workflow task.")
  let found ← ask (.findTask organizationId taskId)
  let task ← Prog.expect found (.notFound "Workflow task not found.")
  let builder ← resolveBuilderLineage organizationId workflowRunId
  let input (context : IndependenceContext) : ReviewDispatch :=
    { organizationId := organizationId
      workflowRunId := workflowRunId
      workflowStepRunId := step.id
      capabilityCode := capabilityCode
      prompt := buildReviewPrompt task.title task.description
      assuranceLevel := "AL4".toList
      correlationId := run.correlationId
      independenceContext := context }
  let first ← dispatchReview parse (input (contextOf builder []))
  let firstReviewer ← resolveReviewerIdentity organizationId first.dispatch.selectedProviderId
  let second ← dispatchReview parse (input (contextOf builder [firstReviewer]))
  let secondReviewer ← resolveReviewerIdentity organizationId second.dispatch.selectedProviderId
  Prog.require (secondReviewer.providerId ≠ firstReviewer.providerId &&
      secondReviewer.modelFamily ≠ firstReviewer.modelFamily &&
      secondReviewer.providerId ≠ builder.providerId &&
      secondReviewer.modelFamily ≠ builder.modelFamily)
    (.conflict ("AL4 reviewer independence could not be proven from authoritative provider " ++
      "lineage."))
  let context := contextOf builder [firstReviewer, secondReviewer]
  let transition ← ask (.completeStep
    { organizationId := organizationId
      workflowRunId := workflowRunId
      workflowStepRunId := step.id
      verdict := none
      reviewResults := none
      independenceContext := none
      metadata := coordinationMetadata builder [(first, firstReviewer), (second, secondReviewer)] })
  return { workflowRunId := workflowRunId
           workflowStepRunId := step.id
           reviewResults := [first.review, second.review]
           independenceContext := context
           transition := transition }

end AgentRuntime.Reviews
