import VitoPlatform.Invocation.Keys
import VitoPlatform.Learning.Store

/-!
# The services of the learning core

Each statement is a step of its own, and so is each audit record: nothing here runs in a
transaction. A call that is not scheduled again has crashed between two statements. An error
without a status is answered as the database's own.
-/

namespace Learning

open Text Concurrent Services Invocation

/-! ## Checks -/

/-- `if (!value?.trim()) throw`. -/
def requireText (value : Str) (message : String) : Program Store Unit :=
  Proc.require (¬ Blank value) (.badRequest message)

def requireRange (low : Rat) (value : Option Rat) (message : String) : Program Store Unit :=
  Proc.require (Store.inRange low value) (.badRequest message)

def confidenceRange (value : Option Rat) : Program Store Unit :=
  requireRange 0 value "confidence must be between 0 and 1."

/-- `AuditService.record`, outside any transaction. -/
def audit : Program Store Unit := query fun _ => ()

/-! ## Experiences -/

structure RecordExperienceInput where
  agentId : Str
  goal : Str
  successScore : Option Rat
  confidence : Option Rat

def validateExperience (input : RecordExperienceInput) : Program Store Unit := do
  requireText input.agentId "agentId is required."
  requireText input.goal "goal is required."
  requireRange (-1) input.successScore "successScore must be between -1 and 1."
  confidenceRange input.confidence

def createExperience (organizationId : Str) (input : RecordExperienceInput) :
    Program Store Experience :=
  change fun c s => s.insertExperience
    { id := c.id
      organizationId := organizationId
      agentId := input.agentId
      goal := input.goal
      successScore := input.successScore
      confidence := input.confidence
      status := .observed }

/-- What both services that record an experience do once the request has passed its checks. -/
def storeExperience (organizationId : Str) (input : RecordExperienceInput) (notFound : String) :
    Program Store Experience := do
  let agentBelongsToTenant ← query fun s =>
    s.agentBelongsToOrganization organizationId input.agentId
  Proc.require agentBelongsToTenant (.notFound notFound)
  let experience ← createExperience organizationId input
  audit
  return experience

/-- `ExperienceStoreService.record`. -/
def recordExperience (context : TenantContext) (input : RecordExperienceInput) :
    Program Store Experience := do
  validateExperience input
  storeExperience context.organizationId input
    "Digital employee not found in the current organization."

/-- `RuntimeExperienceCaptureService.record`. -/
def captureExperience (organizationId : Str) (input : RecordExperienceInput) :
    Program Store Experience := do
  requireText organizationId "organizationId is required."
  validateExperience input
  storeExperience organizationId input "Digital employee not found in the runtime organization."

/-- Answer nothing where a program fails, after the failure has been audited if it can be. -/
def attempt {α : Type} (p : Program Store α) : Program Store (Option α) :=
  (p >>= fun a => pure (some a)).tryCatch fun _ =>
    (audit >>= fun _ => pure none).tryCatch fun _ => pure none

/-- `RuntimeExperienceCaptureService.tryRecord`. -/
def tryCapture (organizationId : Str) (input : RecordExperienceInput) :
    Program Store (Option Experience) :=
  attempt (captureExperience organizationId input)

/-- `ExperienceStoreService.get`. -/
def getExperience (organizationId experienceId : Str) : Program Store Experience := do
  let experience ← query fun s => s.getById organizationId experienceId
  Proc.expect experience (.notFound "Experience not found.")

/-! ## Outcomes -/

structure RecordOutcomeInput where
  experienceId : Str
  metricCode : Str
  expectedValue : Option Json
  /-- Nothing is `undefined`. -/
  observedValue : Option Json
  evidence : Fields
  score : Rat
  confidence : Option Rat
  evaluatorType : Option ActorType
  evaluatorId : Option Str

def validateOutcome (input : RecordOutcomeInput) : Program Store Unit := do
  requireText input.experienceId "experienceId is required."
  requireText input.metricCode "metricCode is required."
  Proc.require input.observedValue.isSome (.badRequest "observedValue is required.")
  Proc.require (input.evidence ≠ []) (.badRequest "objective evidence is required.")
  requireRange (-1) (some input.score) "score must be between -1 and 1."
  confidenceRange input.confidence

def createOutcome (organizationId : Str) (input : RecordOutcomeInput) : Program Store Outcome :=
  change fun c s => s.insertOutcome
    { id := c.id
      organizationId := organizationId
      experienceId := input.experienceId
      metricCode := input.metricCode
      expectedValue := input.expectedValue
      observedValue := input.observedValue.getD .null
      evidence := input.evidence
      score := input.score
      confidence := input.confidence
      evaluatorType := input.evaluatorType.getD .system
      evaluatorId := input.evaluatorId
      evaluatedAt := c.now }

/-- `markExperienceEvaluated` and `markExperienceReflected`. -/
def mark (organizationId experienceId : Str) (current next : ExperienceStatus) :
    Program Store Unit :=
  change fun _ s => (.ok (), s.markExperience organizationId experienceId current next)

/-- An outcome, once its experience has been found. -/
def storeOutcome (organizationId : Str) (input : RecordOutcomeInput) : Program Store Outcome := do
  let outcome ← createOutcome organizationId input
  mark organizationId input.experienceId .observed .evaluated
  audit
  return outcome

def experienceNotFound : HttpError := .notFound "Experience not found in the current organization."

/-- `OutcomeEvaluationService.record`. -/
def recordOutcome (context : TenantContext) (input : RecordOutcomeInput) :
    Program Store Outcome := do
  validateOutcome input
  let found ← query fun s => s.experienceExists context.organizationId input.experienceId
  Proc.require found experienceNotFound
  storeOutcome context.organizationId input

/-- `OutcomeEvaluationService.listForExperience`. -/
def listOutcomes (platform : Platform) (organizationId experienceId : Str) :
    Program Store (List Outcome) := do
  let found ← query fun s => s.experienceExists organizationId experienceId
  Proc.require found experienceNotFound
  query fun s => platform.outcomes.sort (s.outcomesOf organizationId experienceId)

/-! ## Reflections -/

structure RecordReflectionInput where
  experienceId : Str
  lesson : Str
  whatWorked : List Str
  whatFailed : List Str
  assumptions : List Str
  nextActionHint : Option Str
  evidenceOutcomeIds : List Str
  confidence : Option Rat
  reflectorType : Option ActorType
  reflectorId : Option Str

def validateReflection (input : RecordReflectionInput) : Program Store Unit := do
  requireText input.experienceId "experienceId is required."
  requireText input.lesson "lesson is required."
  Proc.require (input.evidenceOutcomeIds ≠ [])
    (.badRequest "at least one outcome evidence reference is required.")
  Proc.require (input.evidenceOutcomeIds.all fun id => ¬ Blank id)
    (.badRequest "outcome evidence references must be non-empty.")
  confidenceRange input.confidence

def createReflection (organizationId : Str) (input : RecordReflectionInput) :
    Program Store Reflection :=
  change fun c s => s.insertReflection
    { id := c.id
      organizationId := organizationId
      experienceId := input.experienceId
      lesson := input.lesson
      whatWorked := input.whatWorked
      whatFailed := input.whatFailed
      assumptions := input.assumptions
      nextActionHint := input.nextActionHint
      evidenceOutcomeIds := input.evidenceOutcomeIds
      confidence := input.confidence
      reflectorType := input.reflectorType.getD .system
      reflectorId := input.reflectorId
      createdAt := c.now }

/-- A reflection on outcomes that have been found. -/
def storeReflection (organizationId : Str) (input : RecordReflectionInput) :
    Program Store Reflection := do
  let reflection ← createReflection organizationId input
  mark organizationId input.experienceId .evaluated .reflected
  audit
  return reflection

/-- `ReflectionService.record`. -/
def recordReflection (platform : Platform) (context : TenantContext)
    (input : RecordReflectionInput) : Program Store Reflection := do
  validateReflection input
  let experience ← getExperience context.organizationId input.experienceId
  Proc.require (experience.status = .evaluated ∨ experience.status = .reflected)
    (.badRequest "experience must be objectively evaluated before reflection.")
  let persistedOutcomes ← listOutcomes platform context.organizationId input.experienceId
  Proc.require (persistedOutcomes ≠ [])
    (.badRequest "at least one persisted outcome is required before reflection.")
  let evidenceIds := input.evidenceOutcomeIds.eraseDups
  Proc.require (evidenceIds.all fun id => persistedOutcomes.any fun outcome => outcome.id = id)
    (.badRequest "reflection evidence must reference persisted outcomes from this experience.")
  storeReflection context.organizationId { input with evidenceOutcomeIds := evidenceIds }

/-- `ReflectionService.listForExperience`. -/
def listReflections (platform : Platform) (organizationId experienceId : Str) :
    Program Store (List Reflection) := do
  let _ ← getExperience organizationId experienceId
  query fun s => platform.reflections.sort (s.reflectionsOf organizationId experienceId)

/-! ## Learning candidates -/

structure CreateLearningCandidateInput where
  experienceId : Str
  reflectionId : Str
  statement : Str
  applicability : Fields
  confidence : Option Rat

def validateCandidate (input : CreateLearningCandidateInput) : Program Store Unit := do
  requireText input.experienceId "experienceId is required."
  requireText input.reflectionId "reflectionId is required."
  requireText input.statement "statement is required."
  confidenceRange input.confidence

/-- `PrismaLearningMaturityRepository.createCandidate`. -/
def insertCandidate (organizationId : Str) (input : CreateLearningCandidateInput) :
    Program Store Candidate :=
  change fun c s => s.insertCandidate
    { id := c.id
      organizationId := organizationId
      experienceId := input.experienceId
      reflectionId := input.reflectionId
      statement := input.statement
      applicability := input.applicability
      maturity := .observation
      confidence := input.confidence
      status := .active
      createdAt := c.now }

/-- `LearningMaturityService.createCandidate`. -/
def createCandidate (platform : Platform) (context : TenantContext)
    (input : CreateLearningCandidateInput) : Program Store Candidate := do
  validateCandidate input
  let experience ← getExperience context.organizationId input.experienceId
  Proc.require (experience.status = .reflected)
    (.badRequest "experience must be reflected before creating a learning observation.")
  let reflections ← listReflections platform context.organizationId input.experienceId
  Proc.require (reflections.any fun reflection => reflection.id = input.reflectionId)
    (.badRequest "reflection must belong to the referenced experience.")
  let candidate ← insertCandidate context.organizationId input
  audit
  return candidate

/-- `LearningMaturityService.get`. -/
def getCandidate (organizationId candidateId : Str) : Program Store Candidate := do
  let candidate ← query fun s => s.getCandidate organizationId candidateId
  Proc.expect candidate (.notFound "Learning candidate not found.")

/-- `ORDER`. -/
def LearningMaturity.index : LearningMaturity → Nat
  | .observation => 0
  | .hypothesis => 1
  | .pattern => 2
  | .policy => 3

/-- One step up or down. -/
def LearningMaturity.adjacent (a b : LearningMaturity) : Bool :=
  b.index = a.index + 1 ∨ b.index + 1 = a.index

structure PromoteLearningCandidateInput where
  candidateId : Str
  /-- Nothing is a value that is not in `ORDER`. -/
  toMaturity : Option LearningMaturity
  evidence : Fields
  reason : Str
  actorType : Option ActorType
  actorId : Option Str
  approvalRef : Option Str

/-- `validatePromotion`, which answers the maturity that is asked for. -/
def validatePromotion (input : PromoteLearningCandidateInput) :
    Program Store LearningMaturity := do
  requireText input.candidateId "candidateId is required."
  let toMaturity ← Proc.expect input.toMaturity (.badRequest "invalid toMaturity.")
  requireText input.reason "promotion reason is required."
  Proc.require (input.evidence ≠ []) (.badRequest "promotion evidence is required.")
  return toMaturity

/-- An approval reference that says something. -/
def hasApproval (approvalRef : Option Str) : Bool := approvalRef.any fun text => ¬ Blank text

/-- What a promotion to a policy needs besides. -/
def approvePolicy (context : TenantContext) (approvalRef : Option Str)
    (toMaturity : LearningMaturity) : Program Store Unit :=
  if toMaturity = .policy then do
    Proc.require context.human?.isSome
      (.badRequest "Policy promotion requires an authenticated human approval.")
    Proc.require (hasApproval approvalRef)
      (.badRequest "Policy promotion requires an approvalRef.")
  else pure ()

/-- The change from the maturity that has been read. -/
def Candidate.change (candidate : Candidate) (session : Nat) (context : TenantContext)
    (toMaturity : LearningMaturity) (approvalRef : Option Str) : MaturityChange where
  session := session
  context := context
  candidateId := candidate.id
  fromMaturity := candidate.maturity
  toMaturity := toMaturity
  approvalRef := approvalRef
  recorded := false

/-- `PrismaLearningMaturityRepository.setMaturity`. -/
def setMaturity (candidateChange : MaturityChange) : Program Store Bool :=
  change fun _ s => (.ok (s.setMaturity candidateChange).1, (s.setMaturity candidateChange).2)

/-- `createPromotion`, by the session that has changed the maturity. -/
def createPromotion (session : Nat) (context : TenantContext) (candidate : Candidate)
    (toMaturity : LearningMaturity) (input : PromoteLearningCandidateInput) :
    Program Store Promotion :=
  change fun c s => s.insertPromotion session
    { id := c.id
      organizationId := context.organizationId
      candidateId := candidate.id
      fromMaturity := candidate.maturity
      toMaturity := toMaturity
      evidence := input.evidence
      reason := input.reason
      actorType := input.actorType.getD .system
      actorId := input.actorId.or context.userId
      approvalRef := input.approvalRef }

/-- `LearningMaturityService.promote`. -/
def promote (session : Nat) (context : TenantContext) (input : PromoteLearningCandidateInput) :
    Program Store Promotion := do
  let toMaturity ← validatePromotion input
  let candidate ← getCandidate context.organizationId input.candidateId
  Proc.require (candidate.status = .active)
    (.badRequest "Only active learning candidates can change maturity.")
  Proc.require (candidate.maturity.adjacent toMaturity)
    (.badRequest "Maturity changes must move exactly one governed step at a time.")
  approvePolicy context input.approvalRef toMaturity
  let changed ← setMaturity (candidate.change session context toMaturity input.approvalRef)
  Proc.require changed
    (.conflict "Learning candidate changed concurrently; retry with current maturity.")
  let promotion ← createPromotion session context candidate toMaturity input
  audit
  return promotion

/-! ## Failure patterns -/

structure RecordFailurePatternInput where
  experienceId : Str
  reflectionId : Str
  outcomeIds : List Str
  signature : Str
  rootCause : Str
  prevention : Str
  applicability : Fields
  severity : Rat
  confidence : Option Rat

def validateFailurePattern (input : RecordFailurePatternInput) : Program Store Unit := do
  requireText input.experienceId "experienceId is required."
  requireText input.reflectionId "reflectionId is required."
  Proc.require (input.outcomeIds ≠ []) (.badRequest "at least one outcomeId is required.")
  requireText input.signature "signature is required."
  requireText input.rootCause "rootCause is required."
  requireText input.prevention "prevention is required."
  requireRange 0 (some input.severity) "severity must be between 0 and 1."
  confidenceRange input.confidence

def createFailurePattern (organizationId : Str) (input : RecordFailurePatternInput)
    (outcomeIds : List Str) : Program Store FailurePattern :=
  change fun c s => s.insertFailurePattern
    { id := c.id
      organizationId := organizationId
      experienceId := input.experienceId
      reflectionId := input.reflectionId
      outcomeIds := outcomeIds
      signature := input.signature
      rootCause := input.rootCause
      prevention := input.prevention
      applicability := input.applicability
      severity := input.severity
      confidence := input.confidence
      status := .active }

/-- `FailurePatternService.record`. -/
def recordFailurePattern (platform : Platform) (context : TenantContext)
    (input : RecordFailurePatternInput) : Program Store FailurePattern := do
  validateFailurePattern input
  let experience ← getExperience context.organizationId input.experienceId
  Proc.require (experience.status = .reflected ∨ experience.status = .learningCandidate)
    (.badRequest "failure pattern requires a reflected experience.")
  let reflections ← listReflections platform context.organizationId input.experienceId
  Proc.require (reflections.any fun reflection => reflection.id = input.reflectionId)
    (.badRequest "reflection must belong to the referenced experience.")
  let persistedOutcomes ← listOutcomes platform context.organizationId input.experienceId
  let selectedIds := input.outcomeIds.eraseDups
  let selected := persistedOutcomes.filter fun outcome => outcome.id ∈ selectedIds
  Proc.require (selected.length = selectedIds.length)
    (.badRequest "failure outcomes must belong to the referenced experience.")
  Proc.require (selected.any fun outcome => outcome.score < 0)
    (.badRequest "failure pattern requires at least one objectively negative outcome.")
  let pattern ← createFailurePattern context.organizationId input selectedIds
  audit
  return pattern

/-! ## Skill candidates -/

/-- `0.7`, as a double has it. -/
def MIN_SKILL_CANDIDATE_CONFIDENCE : Rat := 6305039478318694 / 9007199254740992

structure RecordSkillCandidateInput where
  learningCandidateId : Str
  code : Str
  name : Str
  description : Str
  procedure : Fields
  applicability : Fields
  supportingOutcomeIds : List Str
  confidence : Rat
  approvalRef : Str

def validateSkillCandidate (input : RecordSkillCandidateInput) : Program Store Unit := do
  requireText input.learningCandidateId "learningCandidateId is required."
  requireText input.code "code is required."
  requireText input.name "name is required."
  requireText input.description "description is required."
  Proc.require (input.procedure ≠ []) (.badRequest "procedure is required.")
  requireRange MIN_SKILL_CANDIDATE_CONFIDENCE (some input.confidence)
    "confidence must be between 0.7 and 1."
  requireText input.approvalRef "approvalRef is required."

def createSkillCandidate (organizationId approvedByUserId : Str)
    (input : RecordSkillCandidateInput) (outcomeIds : List Str) : Program Store SkillCandidate :=
  change fun c s => s.insertSkillCandidate
    { id := c.id
      organizationId := organizationId
      learningCandidateId := input.learningCandidateId
      code := trim input.code
      name := trim input.name
      description := trim input.description
      procedure := input.procedure
      applicability := input.applicability
      supportingOutcomeIds := outcomeIds
      confidence := input.confidence
      approvalRef := trim input.approvalRef
      approvedByUserId := approvedByUserId
      status := .recorded }

/-- `SkillCandidateService.record`. -/
def recordSkillCandidate (context : TenantContext) (input : RecordSkillCandidateInput) :
    Program Store SkillCandidate := do
  validateSkillCandidate input
  let userId ← Proc.expect context.human?
    (.badRequest "Skill candidate recording requires authenticated human governance approval.")
  let candidate ← getCandidate context.organizationId input.learningCandidateId
  Proc.require (candidate.status = .active)
    (.badRequest "Skill candidate requires an active learning candidate.")
  Proc.require (candidate.maturity = .pattern ∨ candidate.maturity = .policy)
    (.badRequest "Skill candidate requires PATTERN or POLICY maturity.")
  Proc.require (candidate.confidence.any fun confidence =>
      MIN_SKILL_CANDIDATE_CONFIDENCE ≤ confidence)
    (.badRequest "Learning candidate confidence is below the skill-candidate threshold.")
  let outcomeIds := input.supportingOutcomeIds.eraseDups
  Proc.require (2 ≤ outcomeIds.length)
    (.badRequest "Skill candidate requires at least two distinct objective outcomes.")
  let belong ← query fun s => s.outcomesBelongToExperience context.organizationId
    candidate.experienceId outcomeIds
  Proc.require belong (.badRequest
    "All supporting outcomes must belong to the source learning candidate experience.")
  let skill ← createSkillCandidate context.organizationId userId input outcomeIds
  audit
  return skill

/-! ## Promotion of skills -/

/-- `SkillPromotionService.requireHumanGovernance`. -/
def requireHumanGovernance (context : TenantContext) : Program Store Str :=
  Proc.expect context.human? (.badRequest "Skill promotion requires authenticated human governance.")

/-- `CAPABILITY_CODE_PATTERN`. -/
def isCapabilityCode (code : Str) : Bool :=
  let isUpper (c : Char) := 65 ≤ c.toNat && c.toNat ≤ 90
  let isRest (c : Char) := isUpper c || (48 ≤ c.toNat && c.toNat ≤ 57) || c = '_'
  match code with
  | [] => false
  | c :: rest => isUpper c && 1 ≤ rest.length && rest.length ≤ 127 && rest.all isRest

def normalizeCapabilityCode (platform : Platform) (value : Str) : Program Store Str :=
  let code := platform.toUpperCase (trim value)
  do
    Proc.require (isCapabilityCode code)
      (.badRequest "targetCapabilityCode must be an uppercase capability identifier.")
    return code

/-- `evidenceSnapshot`. -/
def SkillCandidate.evidenceSnapshot (candidate : SkillCandidate) : Fields :=
  [("learningCandidateId".toList, .string candidate.learningCandidateId),
    ("candidateCode".toList, .string candidate.code),
    ("supportingOutcomeIds".toList, .array (candidate.supportingOutcomeIds.map .string)),
    ("confidence".toList, .number candidate.confidence),
    ("approvalRef".toList, .string candidate.approvalRef),
    ("candidateStatus".toList, .string "RECORDED".toList)]

/-- `SkillPromotionService.propose`. -/
def propose (platform : Platform) (context : TenantContext)
    (skillCandidateId targetCapabilityCode : Str) : Program Store SkillPromotionReview := do
  let userId ← requireHumanGovernance context
  let found ← query fun s => s.getSkillCandidate context.organizationId skillCandidateId
  let candidate ← Proc.expect found (.notFound "Skill candidate not found.")
  Proc.require (candidate.status = .recorded)
    (.badRequest "Only RECORDED skill candidates may enter promotion review.")
  let capabilityCode ← normalizeCapabilityCode platform targetCapabilityCode
  let pending ← query fun s => s.pendingReview context.organizationId candidate.id
  Proc.require (!pending)
    (.conflict "A pending promotion review already exists for this skill candidate.")
  let review ← change fun c s => s.insertReview
    { id := c.id
      organizationId := context.organizationId
      skillCandidateId := candidate.id
      targetCapabilityCode := capabilityCode
      evidenceSnapshot := candidate.evidenceSnapshot
      status := .pendingReview
      requestedByUserId := userId
      reviewedByUserId := none
      reviewRationale := none
      reviewedAt := none }
  audit
  return review

/-- A review that is not pending any more, or has never been. -/
def reviewMissing {α : Type} (organizationId id : Str) : Program Store α := do
  let existing ← (query fun s => s.getReview organizationId id).tryCatch fun _ => pure none
  match existing with
  | none => .throw (.notFound "Skill promotion review not found.")
  | some _ => .throw (.conflict "Skill promotion review is already final.")

/-- `SkillPromotionService.review`. -/
def review (context : TenantContext) (id : Str) (status : SkillPromotionReviewStatus)
    (rationale : Str) : Program Store SkillPromotionReview := do
  let userId ← requireHumanGovernance context
  let normalizedRationale := trim rationale
  Proc.require (normalizedRationale ≠ [] ∧ utf16Length normalizedRationale ≤ 2000)
    (.badRequest "review rationale must contain between 1 and 2000 characters.")
  let decided ← change fun c s =>
    let result := s.decideReview context.organizationId id status userId normalizedRationale c.now
    (.ok result.1, result.2)
  match decided with
  | none => reviewMissing context.organizationId id
  | some row => do
      audit
      return row

def approveForRegistration (context : TenantContext) (id rationale : Str) :
    Program Store SkillPromotionReview :=
  review context id .approvedForRegistration rationale

def reject (context : TenantContext) (id rationale : Str) : Program Store SkillPromotionReview :=
  review context id .rejected rationale

end Learning
