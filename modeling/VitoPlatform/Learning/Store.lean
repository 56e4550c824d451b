import Mathlib.Data.List.Sort
import VitoPlatform.Library.Json
import VitoPlatform.Library.Tables
import VitoPlatform.Persistence.Services

/-!
# The tables of the learning core

Experiences, their objective outcomes and reflections, the learning candidates and failure
patterns drawn from them, and the skill candidates and promotion reviews built on these. A
statement checks the constraints of its table. What a human or a service did to the maturity of a
candidate is kept in `changes`, which no program looks at.
-/

namespace Learning

open Text Services

/-- A JSON object. -/
abbrev Fields := List (Str × Json)

inductive ExperienceStatus where
  | observed
  | evaluated
  | reflected
  | learningCandidate
  | archived
  deriving DecidableEq

inductive LearningMaturity where
  | observation
  | hypothesis
  | pattern
  | policy
  deriving DecidableEq

inductive LearningCandidateStatus where
  | active
  | rejected
  | retired
  deriving DecidableEq

inductive FailurePatternStatus where
  | active
  | resolved
  | archived
  deriving DecidableEq

inductive SkillCandidateStatus where
  | recorded
  | rejected
  | retired
  deriving DecidableEq

inductive SkillPromotionReviewStatus where
  | pendingReview
  | approvedForRegistration
  | rejected
  deriving DecidableEq

/-- `OutcomeEvaluatorType`, `ReflectorType` and `PromotionActorType`. -/
inductive ActorType where
  | system
  | user
  | external
  deriving DecidableEq

inductive AuthenticationMethod where
  | jwt
  | insecureHeader
  deriving DecidableEq

/-- What is known of whoever sends a request. -/
structure TenantContext where
  organizationId : Str
  userId : Option Str
  authenticationMethod : AuthenticationMethod

/-- The authenticated human behind a request. -/
def TenantContext.human? (context : TenantContext) : Option Str :=
  if context.authenticationMethod = .jwt then context.userId.filter (· ≠ []) else none

structure DigitalEmployee where
  id : Str
  organizationId : Str

structure Experience where
  id : Str
  organizationId : Str
  agentId : Str
  goal : Str
  successScore : Option Rat
  confidence : Option Rat
  status : ExperienceStatus

structure Outcome where
  id : Str
  organizationId : Str
  experienceId : Str
  metricCode : Str
  expectedValue : Option Json
  observedValue : Json
  evidence : Fields
  score : Rat
  confidence : Option Rat
  evaluatorType : ActorType
  evaluatorId : Option Str
  evaluatedAt : Int

structure Reflection where
  id : Str
  organizationId : Str
  experienceId : Str
  lesson : Str
  whatWorked : List Str
  whatFailed : List Str
  assumptions : List Str
  nextActionHint : Option Str
  evidenceOutcomeIds : List Str
  confidence : Option Rat
  reflectorType : ActorType
  reflectorId : Option Str
  createdAt : Int

structure Candidate where
  id : Str
  organizationId : Str
  experienceId : Str
  reflectionId : Str
  statement : Str
  applicability : Fields
  maturity : LearningMaturity
  confidence : Option Rat
  status : LearningCandidateStatus
  createdAt : Int

structure Promotion where
  id : Str
  organizationId : Str
  candidateId : Str
  fromMaturity : LearningMaturity
  toMaturity : LearningMaturity
  evidence : Fields
  reason : Str
  actorType : ActorType
  actorId : Option Str
  approvalRef : Option Str

structure FailurePattern where
  id : Str
  organizationId : Str
  experienceId : Str
  reflectionId : Str
  outcomeIds : List Str
  signature : Str
  rootCause : Str
  prevention : Str
  applicability : Fields
  severity : Rat
  confidence : Option Rat
  status : FailurePatternStatus

structure SkillCandidate where
  id : Str
  organizationId : Str
  learningCandidateId : Str
  code : Str
  name : Str
  description : Str
  procedure : Fields
  applicability : Fields
  supportingOutcomeIds : List Str
  confidence : Rat
  approvalRef : Str
  approvedByUserId : Str
  status : SkillCandidateStatus

structure SkillPromotionReview where
  id : Str
  organizationId : Str
  skillCandidateId : Str
  targetCapabilityCode : Str
  evidenceSnapshot : Fields
  status : SkillPromotionReviewStatus
  requestedByUserId : Str
  reviewedByUserId : Option Str
  reviewRationale : Option Str
  reviewedAt : Option Int

/-- A change of maturity by one session, and whether its promotion has been recorded. -/
structure MaturityChange where
  session : Nat
  context : TenantContext
  candidateId : Str
  fromMaturity : LearningMaturity
  toMaturity : LearningMaturity
  approvalRef : Option Str
  recorded : Bool

def MaturityChange.record (change : MaturityChange) : MaturityChange :=
  { change with recorded := true }

structure Store where
  organizations : List Str
  users : List Str
  digitalEmployees : List DigitalEmployee
  experiences : List Experience
  outcomes : List Outcome
  reflections : List Reflection
  candidates : List Candidate
  promotions : List Promotion
  failurePatterns : List FailurePattern
  skillCandidates : List SkillCandidate
  reviews : List SkillPromotionReview
  /-- What has been done to the maturity of candidates. -/
  changes : List MaturityChange

/-- The rows of a table in the order of a query. The order of rows that tie is left open. -/
structure OrderBy {α : Type} (before : α → α → Prop) where
  sort : List α → List α
  perm : ∀ rows, (sort rows).Perm rows
  sorted : ∀ rows, (sort rows).Pairwise before

def Outcome.newest (a b : Outcome) : Prop := b.evaluatedAt ≤ a.evaluatedAt

def Reflection.oldest (a b : Reflection) : Prop := a.createdAt ≤ b.createdAt

def Candidate.oldest (a b : Candidate) : Prop := a.createdAt ≤ b.createdAt

/-- The orders of the queries, and how a script writes a number and a text in capitals. -/
structure Platform where
  outcomes : OrderBy Outcome.newest
  reflections : OrderBy Reflection.oldest
  candidates : OrderBy Candidate.oldest
  numberText : Rat → Str
  toUpperCase : Str → Str

theorem OrderBy.mem_sort {α : Type} {before : α → α → Prop} (order : OrderBy before)
    {rows : List α} {row : α} : row ∈ order.sort rows ↔ row ∈ rows :=
  (order.perm rows).mem_iff

/-- Rows that tie stay in the order of their insertion. -/
def OrderBy.inserted {α : Type} {before : α → α → Prop} [DecidableRel before] [Std.Total before]
    [IsTrans α before] : OrderBy before where
  sort := List.insertionSort before
  perm := List.perm_insertionSort before
  sorted := List.pairwise_insertionSort before

section Orders

instance : DecidableRel Outcome.newest := fun a b =>
  inferInstanceAs (Decidable (b.evaluatedAt ≤ a.evaluatedAt))

instance : Std.Total Outcome.newest := ⟨fun _ _ => le_total _ _⟩

instance : IsTrans Outcome Outcome.newest := ⟨fun _ _ _ hab hbc => le_trans hbc hab⟩

instance : DecidableRel Reflection.oldest := fun a b =>
  inferInstanceAs (Decidable (a.createdAt ≤ b.createdAt))

instance : Std.Total Reflection.oldest := ⟨fun _ _ => le_total _ _⟩

instance : IsTrans Reflection Reflection.oldest := ⟨fun _ _ _ => le_trans⟩

instance : DecidableRel Candidate.oldest := fun a b =>
  inferInstanceAs (Decidable (a.createdAt ≤ b.createdAt))

instance : Std.Total Candidate.oldest := ⟨fun _ _ => le_total _ _⟩

instance : IsTrans Candidate Candidate.oldest := ⟨fun _ _ _ => le_trans⟩

end Orders

/-- A platform for texts without letters beyond the Latin ones, whose rows tie as they have been
inserted. -/
def Platform.plain (numberText : Rat → Str) : Platform where
  outcomes := .inserted
  reflections := .inserted
  candidates := .inserted
  numberText := numberText
  toUpperCase text := text.map Char.toUpper

/-! ## Queries -/

namespace Store

variable (s : Store)

def agentBelongsToOrganization (organizationId agentId : Str) : Bool :=
  s.digitalEmployees.any fun employee =>
    employee.id = agentId ∧ employee.organizationId = organizationId

def getById (organizationId experienceId : Str) : Option Experience :=
  s.experiences.find? fun experience =>
    experience.organizationId = organizationId ∧ experience.id = experienceId

def experienceExists (organizationId experienceId : Str) : Bool :=
  s.experiences.any fun experience =>
    experience.id = experienceId ∧ experience.organizationId = organizationId

def outcomesOf (organizationId experienceId : Str) : List Outcome :=
  s.outcomes.filter fun outcome =>
    outcome.organizationId = organizationId ∧ outcome.experienceId = experienceId

def reflectionsOf (organizationId experienceId : Str) : List Reflection :=
  s.reflections.filter fun reflection =>
    reflection.organizationId = organizationId ∧ reflection.experienceId = experienceId

def getCandidate (organizationId candidateId : Str) : Option Candidate :=
  s.candidates.find? fun candidate =>
    candidate.organizationId = organizationId ∧ candidate.id = candidateId

def activeCandidatesOf (organizationId experienceId reflectionId : Str) : List Candidate :=
  s.candidates.filter fun candidate =>
    candidate.organizationId = organizationId ∧ candidate.experienceId = experienceId ∧
      candidate.reflectionId = reflectionId ∧ candidate.status = .active

def getSkillCandidate (organizationId skillCandidateId : Str) : Option SkillCandidate :=
  s.skillCandidates.find? fun skill =>
    skill.organizationId = organizationId ∧ skill.id = skillCandidateId

def outcomesBelongToExperience (organizationId experienceId : Str) (outcomeIds : List Str) :
    Bool :=
  let ids := outcomeIds.eraseDups
  ids ≠ [] ∧ ((s.outcomesOf organizationId experienceId).filter (·.id ∈ ids)).length = ids.length

def getReview (organizationId id : Str) : Option SkillPromotionReview :=
  s.reviews.find? fun review => review.organizationId = organizationId ∧ review.id = id

def pendingReview (organizationId skillCandidateId : Str) : Bool :=
  s.reviews.any fun review =>
    review.organizationId = organizationId ∧ review.skillCandidateId = skillCandidateId ∧
      review.status = .pendingReview

/-! ## Constraints -/

/-- `CHECK (x IS NULL OR (x >= low AND x <= 1))`. -/
def inRange (low : Rat) (x : Option Rat) : Bool := x.all fun x => low ≤ x ∧ x ≤ 1

def admitsExperience (row : Experience) : Bool :=
  row.organizationId ∈ s.organizations ∧
    (Tables.find DigitalEmployee.id s.digitalEmployees row.agentId).isSome ∧
      inRange (-1) row.successScore ∧ inRange 0 row.confidence

/-- The experience that a row refers to exists. -/
def refersTo (organizationId experienceId : Str) : Bool :=
  organizationId ∈ s.organizations ∧ (Tables.find Experience.id s.experiences experienceId).isSome

def admitsOutcome (row : Outcome) : Bool :=
  s.refersTo row.organizationId row.experienceId ∧ inRange (-1) (some row.score) ∧
    inRange 0 row.confidence

def admitsReflection (row : Reflection) : Bool :=
  s.refersTo row.organizationId row.experienceId ∧ inRange 0 row.confidence ∧
    row.evidenceOutcomeIds ≠ []

def admitsCandidate (row : Candidate) : Bool :=
  s.refersTo row.organizationId row.experienceId ∧
    (Tables.find Reflection.id s.reflections row.reflectionId).isSome ∧ inRange 0 row.confidence

def admitsPromotion (row : Promotion) : Bool :=
  row.organizationId ∈ s.organizations ∧
    (Tables.find Candidate.id s.candidates row.candidateId).isSome

def admitsFailurePattern (row : FailurePattern) : Bool :=
  s.refersTo row.organizationId row.experienceId ∧
    (Tables.find Reflection.id s.reflections row.reflectionId).isSome ∧ row.outcomeIds ≠ [] ∧
      inRange 0 (some row.severity) ∧ inRange 0 row.confidence

/-- The code of a skill candidate is unique in its organization. -/
def admitsSkillCandidate (row : SkillCandidate) : Bool :=
  row.organizationId ∈ s.organizations ∧
    (Tables.find Candidate.id s.candidates row.learningCandidateId).isSome ∧
      row.approvedByUserId ∈ s.users ∧ inRange 0 (some row.confidence) ∧
        ∀ other ∈ s.skillCandidates,
          other.organizationId = row.organizationId → other.code ≠ row.code

/-- At most one review of a skill candidate is pending. -/
def admitsReview (row : SkillPromotionReview) : Bool :=
  (Tables.find SkillCandidate.id s.skillCandidates row.skillCandidateId).isSome ∧
    s.pendingReview row.organizationId row.skillCandidateId = false

/-! ## Statements -/

/-- `insert`, of a row under a new key that the table admits. -/
def insert {α : Type} (key : α → Str) (rows : List α) (admitted : Bool) (row : α)
    (put : List α → Store) : Except HttpError α × Store :=
  if (Tables.find key rows (key row)).isNone && admitted then (.ok row, put (rows ++ [row]))
  else (.error .database, s)

def insertExperience (row : Experience) : Except HttpError Experience × Store :=
  s.insert Experience.id s.experiences (s.admitsExperience row) row
    fun rows => { s with experiences := rows }

def insertOutcome (row : Outcome) : Except HttpError Outcome × Store :=
  s.insert Outcome.id s.outcomes (s.admitsOutcome row) row fun rows => { s with outcomes := rows }

def insertReflection (row : Reflection) : Except HttpError Reflection × Store :=
  s.insert Reflection.id s.reflections (s.admitsReflection row) row
    fun rows => { s with reflections := rows }

def insertCandidate (row : Candidate) : Except HttpError Candidate × Store :=
  s.insert Candidate.id s.candidates (s.admitsCandidate row) row
    fun rows => { s with candidates := rows }

/-- The promotion of the change that the session has made. -/
def insertPromotion (session : Nat) (row : Promotion) : Except HttpError Promotion × Store :=
  s.insert Promotion.id s.promotions (s.admitsPromotion row) row fun rows =>
    { s with
      promotions := rows
      changes := Tables.write MaturityChange.session s.changes session MaturityChange.record }

def insertFailurePattern (row : FailurePattern) : Except HttpError FailurePattern × Store :=
  s.insert FailurePattern.id s.failurePatterns (s.admitsFailurePattern row) row
    fun rows => { s with failurePatterns := rows }

def insertSkillCandidate (row : SkillCandidate) : Except HttpError SkillCandidate × Store :=
  s.insert SkillCandidate.id s.skillCandidates (s.admitsSkillCandidate row) row
    fun rows => { s with skillCandidates := rows }

def insertReview (row : SkillPromotionReview) : Except HttpError SkillPromotionReview × Store :=
  s.insert SkillPromotionReview.id s.reviews (s.admitsReview row) row
    fun rows => { s with reviews := rows }

/-- `UPDATE "experiences" SET "status"`, from one status to another. -/
def markExperience (organizationId experienceId : Str) (current next : ExperienceStatus) : Store :=
  { s with
    experiences := s.experiences.map fun experience =>
      if experience.organizationId = organizationId ∧ experience.id = experienceId ∧
          experience.status = current then
        { experience with status := next }
      else experience }

/-- Whether `setMaturity` finds the candidate as it has been read. -/
def findsCandidate (organizationId candidateId : Str) (fromMaturity : LearningMaturity)
    (candidate : Candidate) : Bool :=
  candidate.organizationId = organizationId ∧ candidate.id = candidateId ∧
    candidate.maturity = fromMaturity ∧ candidate.status = .active

/-- `setMaturity`: the change, if the candidate is found. -/
def setMaturity (change : MaturityChange) : Bool × Store :=
  let found := findsCandidate change.context.organizationId change.candidateId change.fromMaturity
  if s.candidates.any found then
    (true,
      { s with
        candidates := s.candidates.map fun candidate =>
          if found candidate then { candidate with maturity := change.toMaturity } else candidate
        changes := s.changes ++ [change] })
  else (false, s)

/-- Whether a review is pending. -/
def findsPending (organizationId id : Str) (review : SkillPromotionReview) : Bool :=
  review.organizationId = organizationId ∧ review.id = id ∧ review.status = .pendingReview

end Store

/-- A review by a user, with the reasons for it. -/
def SkillPromotionReview.decided (status : SkillPromotionReviewStatus) (userId rationale : Str)
    (now : Int) (review : SkillPromotionReview) : SkillPromotionReview :=
  { review with
    status := status
    reviewedByUserId := some userId
    reviewRationale := some rationale
    reviewedAt := some now }

/-- `UPDATE "skill_promotion_reviews"`, of a review that is pending. -/
def Store.decideReview (s : Store) (organizationId id : Str) (status : SkillPromotionReviewStatus)
    (userId rationale : Str) (now : Int) : Option SkillPromotionReview × Store :=
  let decided := SkillPromotionReview.decided status userId rationale now
  ((s.reviews.find? (findsPending organizationId id)).map decided,
    { s with
      reviews := s.reviews.map fun review =>
        if findsPending organizationId id review then decided review else review })

end Learning
