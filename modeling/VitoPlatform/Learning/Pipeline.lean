import VitoPlatform.Learning.Services

/-!
# The runtime's own learning

What the workflow runtime learns from a step it has executed: one outcome for its metric, one
reflection on the outcome, and one candidate drawn from the reflection. Each of them is looked for
before it is made. The calls of the whole learning core are gathered here.
-/

namespace Learning

open Text Concurrent Services

/-- `METRIC_CODE` and `RUNTIME_METRIC_CODE`. -/
def METRIC_CODE : Str := "workflow_step_execution_status".toList

structure RecordRuntimeOutcomeInput where
  organizationId : Str
  experienceId : Str
  workflowRunId : Str
  workflowStepRunId : Str
  stepType : Str
  capabilityCode : Str
  executionStatus : Str
  transitionKind : Option Str

def scoreForStatus (status : Str) : Rat :=
  if status = "SUCCEEDED".toList then 1
  else if status ∈ ["FAILED".toList, "TIMED_OUT".toList, "CANCELLED".toList] then -1
  else 0

/-- The outcome that the runtime records of a step. -/
def RecordRuntimeOutcomeInput.outcome (input : RecordRuntimeOutcomeInput) : RecordOutcomeInput where
  experienceId := input.experienceId
  metricCode := METRIC_CODE
  expectedValue := some (.string "SUCCEEDED".toList)
  observedValue := some (.string input.executionStatus)
  evidence :=
    [("source".toList, .string "WORKFLOW_AGENT_RUNTIME".toList),
      ("workflowRunId".toList, .string input.workflowRunId),
      ("workflowStepRunId".toList, .string input.workflowStepRunId),
      ("stepType".toList, .string input.stepType),
      ("capabilityCode".toList, .string input.capabilityCode),
      ("executionStatus".toList, .string input.executionStatus),
      ("transitionKind".toList, (input.transitionKind.map Json.string).getD .null)]
  score := scoreForStatus input.executionStatus
  confidence := some 1
  evaluatorType := some .system
  evaluatorId := none

/-- The outcomes of an experience under the metric of the runtime, in the order of the query. -/
def Platform.runtimeOutcome? (platform : Platform) (s : Store) (organizationId experienceId : Str) :
    Option Outcome :=
  (platform.outcomes.sort (s.outcomesOf organizationId experienceId)).find? fun outcome =>
    outcome.metricCode = METRIC_CODE

/-- `RuntimeOutcomeEvaluationService.record`. -/
def recordRuntimeOutcome (platform : Platform) (input : RecordRuntimeOutcomeInput) :
    Program Store Outcome := do
  let found ← query fun s => s.experienceExists input.organizationId input.experienceId
  Proc.require found .database
  let existing ← query fun s =>
    platform.runtimeOutcome? s input.organizationId input.experienceId
  match existing with
  | some outcome => return outcome
  | none => storeOutcome input.organizationId input.outcome

/-- `RuntimeOutcomeEvaluationService.tryRecord`. -/
def tryRecord (platform : Platform) (input : RecordRuntimeOutcomeInput) :
    Program Store (Option Outcome) :=
  attempt (recordRuntimeOutcome platform input)

/-! ## Reflection and candidate -/

structure RuntimeReflectionLearningInput where
  organizationId : Str
  experienceId : Str

/-- The disposition is `LEARNING_OBSERVATION_RECORDED` if there is a candidate, else
`INSUFFICIENT_OBJECTIVE_SIGNAL`. -/
structure RuntimeReflectionLearningResult where
  reflection : Option Reflection
  candidate : Option Candidate
  outcome : Option Outcome

def insufficient (outcome : Option Outcome) : RuntimeReflectionLearningResult :=
  ⟨none, none, outcome⟩

def printable (numberText : Rat → Str) (value : Option Json) : Str :=
  let unknown := "UNKNOWN".toList
  match value with
  | some (.string text) => if Blank text then unknown else trim text
  | some (.number n) => numberText n
  | some (.bool b) => (if b then "true" else "false").toList
  | _ => unknown

/-- What the texts about an outcome are made of. -/
structure Printed where
  observedStatus : Str
  expectedStatus : Str
  stepType : Str
  capabilityCode : Str

def Outcome.printed (numberText : Rat → Str) (outcome : Outcome) : Printed where
  observedStatus := printable numberText (some outcome.observedValue)
  expectedStatus := printable numberText outcome.expectedValue
  stepType := printable numberText (outcome.evidence.lookup "stepType".toList)
  capabilityCode := printable numberText (outcome.evidence.lookup "capabilityCode".toList)

def Outcome.lesson (numberText : Rat → Str) (outcome : Outcome) : Str :=
  let printed := outcome.printed numberText
  let matched := if 0 < outcome.score then " matched expected " else " did not match expected "
  "Observed ".toList ++ printed.stepType ++ " with ".toList ++ printed.capabilityCode ++
    ": execution status ".toList ++ printed.observedStatus ++ matched.toList ++
      printed.expectedStatus ++ ".".toList

/-- The reflection that the runtime makes on an outcome. -/
def Outcome.reflection (numberText : Rat → Str) (outcome : Outcome) (experienceId : Str) :
    RecordReflectionInput :=
  let printed := outcome.printed numberText
  let positive := 0 < outcome.score
  { experienceId := experienceId
    lesson := outcome.lesson numberText
    whatWorked :=
      if positive then ["Execution reached ".toList ++ printed.observedStatus ++ ".".toList] else []
    whatFailed :=
      if positive then []
      else ["Execution reached ".toList ++ printed.observedStatus ++ " instead of ".toList ++
        printed.expectedStatus ++ ".".toList]
    assumptions := []
    nextActionHint := none
    evidenceOutcomeIds := [outcome.id]
    confidence := outcome.confidence
    reflectorType := some .system
    reflectorId := none }

def Outcome.statement (numberText : Rat → Str) (outcome : Outcome) : Str :=
  let printed := outcome.printed numberText
  let start := "In this observed run, ".toList ++ printed.capabilityCode ++ " for ".toList ++
    printed.stepType
  if 0 < outcome.score then
    start ++ " reached expected execution status ".toList ++ printed.expectedStatus ++ ".".toList
  else
    start ++ " reached ".toList ++ printed.observedStatus ++ " instead of expected ".toList ++
      printed.expectedStatus ++ ".".toList

/-- The candidate that the runtime draws from a reflection. -/
def Outcome.candidate (numberText : Rat → Str) (outcome : Outcome)
    (experienceId reflectionId : Str) : CreateLearningCandidateInput :=
  let printed := outcome.printed numberText
  { experienceId := experienceId
    reflectionId := reflectionId
    statement := outcome.statement numberText
    applicability :=
      [("source".toList, .string "WORKFLOW_AGENT_RUNTIME".toList),
        ("metricCode".toList, .string outcome.metricCode),
        ("stepType".toList, .string printed.stepType),
        ("capabilityCode".toList, .string printed.capabilityCode),
        ("observedStatus".toList, .string printed.observedStatus),
        ("expectedStatus".toList, .string printed.expectedStatus),
        ("outcomeScore".toList, .number outcome.score)]
    confidence := outcome.confidence }

/-- The reflection that cites an outcome, in the order of the query. -/
def Platform.citing? (platform : Platform) (s : Store)
    (organizationId experienceId outcomeId : Str) : Option Reflection :=
  (platform.reflections.sort (s.reflectionsOf organizationId experienceId)).find? fun reflection =>
    outcomeId ∈ reflection.evidenceOutcomeIds

/-- The reflection on an outcome, made if there is none. -/
def reflectOn (platform : Platform) (input : RuntimeReflectionLearningInput) (outcome : Outcome) :
    Program Store Reflection := do
  let found ← query fun s =>
    platform.citing? s input.organizationId input.experienceId outcome.id
  match found with
  | some reflection => return reflection
  | none =>
      storeReflection input.organizationId
        (outcome.reflection platform.numberText input.experienceId)

/-- `findCandidate`: the identifier, and then the candidate. -/
def findCandidate (platform : Platform) (organizationId experienceId reflectionId : Str) :
    Program Store (Option Candidate) := do
  let first ← query fun s =>
    (platform.candidates.sort
      (s.activeCandidatesOf organizationId experienceId reflectionId)).head?
  match first with
  | none => return none
  | some candidate => query fun s => s.getCandidate organizationId candidate.id

/-- The candidate drawn from a reflection, made if there is none. -/
def observe (platform : Platform) (input : RuntimeReflectionLearningInput) (outcome : Outcome)
    (reflection : Reflection) : Program Store Candidate := do
  let found ← findCandidate platform input.organizationId input.experienceId reflection.id
  match found with
  | some candidate => return candidate
  | none => do
      let candidate ← insertCandidate input.organizationId
        (outcome.candidate platform.numberText input.experienceId reflection.id)
      audit
      return candidate

/-- What `process` does once the experience has been evaluated. -/
def learnFrom (platform : Platform) (input : RuntimeReflectionLearningInput)
    (outcome : Option Outcome) : Program Store RuntimeReflectionLearningResult :=
  match outcome with
  | none => pure (insufficient none)
  | some outcome =>
      if outcome.score = 0 then pure (insufficient (some outcome))
      else do
        let reflection ← reflectOn platform input outcome
        let candidate ← observe platform input outcome reflection
        return ⟨some reflection, some candidate, some outcome⟩

/-- `RuntimeReflectionLearningService.process`. -/
def process (platform : Platform) (input : RuntimeReflectionLearningInput) :
    Program Store RuntimeReflectionLearningResult := do
  let found ← query fun s => s.getById input.organizationId input.experienceId
  let experience ← Proc.expect found .database
  if experience.status = .evaluated ∨ experience.status = .reflected then do
    let outcome ← query fun s =>
      platform.runtimeOutcome? s input.organizationId input.experienceId
    learnFrom platform input outcome
  else pure (insufficient none)

/-- `RuntimeReflectionLearningService.tryProcess`. -/
def tryProcess (platform : Platform) (input : RuntimeReflectionLearningInput) :
    Program Store (Option RuntimeReflectionLearningResult) :=
  attempt (process platform input)

/-! ## Calls -/

inductive Call where
  | recordExperience (context : TenantContext) (input : RecordExperienceInput)
  | tryCapture (organizationId : Str) (input : RecordExperienceInput)
  | recordOutcome (context : TenantContext) (input : RecordOutcomeInput)
  | tryRecord (input : RecordRuntimeOutcomeInput)
  | recordReflection (context : TenantContext) (input : RecordReflectionInput)
  | tryProcess (input : RuntimeReflectionLearningInput)
  | createCandidate (context : TenantContext) (input : CreateLearningCandidateInput)
  | promote (context : TenantContext) (input : PromoteLearningCandidateInput)
  | recordFailurePattern (context : TenantContext) (input : RecordFailurePatternInput)
  | recordSkillCandidate (context : TenantContext) (input : RecordSkillCandidateInput)
  | propose (context : TenantContext) (skillCandidateId targetCapabilityCode : Str)
  | approveForRegistration (context : TenantContext) (id rationale : Str)
  | reject (context : TenantContext) (id rationale : Str)

/-- What a call returns is not looked at. -/
def ignore {α : Type} (p : Program Store α) : Program Store Unit := do
  let _ ← p

def Call.program (platform : Platform) (session : Nat) : Call → Program Store Unit
  | .recordExperience context input => ignore (Learning.recordExperience context input)
  | .tryCapture organizationId input => ignore (Learning.tryCapture organizationId input)
  | .recordOutcome context input => ignore (Learning.recordOutcome context input)
  | .tryRecord input => ignore (Learning.tryRecord platform input)
  | .recordReflection context input => ignore (Learning.recordReflection platform context input)
  | .tryProcess input => ignore (Learning.tryProcess platform input)
  | .createCandidate context input => ignore (Learning.createCandidate platform context input)
  | .promote context input => ignore (Learning.promote session context input)
  | .recordFailurePattern context input =>
      ignore (Learning.recordFailurePattern platform context input)
  | .recordSkillCandidate context input => ignore (Learning.recordSkillCandidate context input)
  | .propose context skillCandidateId targetCapabilityCode =>
      ignore (Learning.propose platform context skillCandidateId targetCapabilityCode)
  | .approveForRegistration context id rationale =>
      ignore (Learning.approveForRegistration context id rationale)
  | .reject context id rationale => ignore (Learning.reject context id rationale)

def programs (platform : Platform) (calls : List Call) : List (Program Store Unit) :=
  calls.mapIdx fun session call => call.program platform session

abbrev Move := Concurrent.Move Store Choice HttpError Unit

/-- A run of any calls from a store. -/
abbrev Run (platform : Platform) (calls : List Call) (store : Store) (moves : List Move)
    (s : System Store Choice HttpError Unit) : Prop :=
  Concurrent.Run store (programs platform calls) moves s

end Learning
