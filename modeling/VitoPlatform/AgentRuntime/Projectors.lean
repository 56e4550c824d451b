import VitoPlatform.Workflow.Recovery

/-!
# Projectors of the results of an agent

What an agent has written on its standard output, read as the result of a test, of a release
verification or of a review. `JSON.parse` is a parameter, which answers nothing where it throws.
-/

namespace AgentRuntime

open Text Workflow Invocation

def MAX_STDOUT_CHARS : Nat := 64 * 1024

/-- The parsed object on the standard output of an execution. -/
def stdoutPayload (parse : Str → Option Json) (execution : Json) : Option Json := do
  let providerMetadata := Json.member (some execution) "providerExecutionMetadata".toList
  let stdout ← boundedString (Json.member providerMetadata "stdout".toList) MAX_STDOUT_CHARS
  parse stdout

/-- `testCount` and `checkCount`: a safe integer up to a bound. -/
def count (value : Option Json) (max : Nat) : Option Nat :=
  match value with
  | some (.number value) =>
      if value.den = 1 ∧ 0 ≤ value.num ∧ value.num ≤ max then some value.num.toNat else none
  | _ => none

/-- All items of an array that is not too long are strings of a bounded length. -/
def strings (value : Option Json) (maxItems maxChars : Nat) : Option (List Str) :=
  match value with
  | some (.array items) =>
      if items.length > maxItems then none
      else items.mapM fun item => boundedString (some item) maxChars
  | _ => none

inductive ResultStatus where
  | pass
  | fail
  | blocked
  deriving DecidableEq

def ResultStatus.text : ResultStatus → Str
  | .pass => "PASS".toList
  | .fail => "FAIL".toList
  | .blocked => "BLOCKED".toList

/-- `isStatus`. -/
def resultStatus (value : Option Json) : Option ResultStatus :=
  (Json.text value).bind fun text =>
    [ResultStatus.pass, .fail, .blocked].find? fun status => status.text = text

/-! ## Tests -/

def MAX_TEST_COUNT : Nat := 1000000

structure TestResultProjection where
  status : ResultStatus
  testsExecuted : Nat
  testsFailed : Nat
  evidenceRefs : List Str

/-- What the status says agrees with the counts. -/
def TestResultProjection.coherent (result : TestResultProjection) : Bool :=
  result.testsFailed ≤ result.testsExecuted &&
    match result.status with
    | .pass => 1 ≤ result.testsExecuted ∧ result.testsFailed = 0
    | .fail => 1 ≤ result.testsExecuted ∧ 1 ≤ result.testsFailed
    | .blocked => true

/-- `WorkflowTestResultProjectorService.project`. -/
def projectTest (parse : Str → Option Json) (execution : Json) : Option TestResultProjection := do
  let payload ← stdoutPayload parse execution
  let status ← resultStatus (Json.member (some payload) "status".toList)
  let testsExecuted ← count (Json.member (some payload) "testsExecuted".toList) MAX_TEST_COUNT
  let testsFailed ← count (Json.member (some payload) "testsFailed".toList) MAX_TEST_COUNT
  let evidenceRefs ← strings (Json.member (some payload) "evidenceRefs".toList) 32 2048
  let result : TestResultProjection := ⟨status, testsExecuted, testsFailed, evidenceRefs⟩
  if result.coherent then some result else none

/-! ## Release verifications -/

def MAX_CHECK_COUNT : Nat := 1000000

structure ReleaseVerificationResultProjection where
  status : ResultStatus
  checksExecuted : Nat
  checksFailed : Nat
  blockingReasons : List Str
  evidenceRefs : List Str

/-- What the status says agrees with the counts and the reasons. -/
def ReleaseVerificationResultProjection.coherent (result : ReleaseVerificationResultProjection) :
    Bool :=
  result.checksFailed ≤ result.checksExecuted &&
    match result.status with
    | .pass => 1 ≤ result.checksExecuted ∧ result.checksFailed = 0 ∧ result.blockingReasons = []
    | .fail => 1 ≤ result.checksExecuted ∧ 1 ≤ result.checksFailed ∧ result.blockingReasons ≠ []
    | .blocked => result.blockingReasons ≠ []

/-- `WorkflowReleaseVerificationResultProjectorService.project`. -/
def projectVerification (parse : Str → Option Json) (execution : Json) :
    Option ReleaseVerificationResultProjection := do
  let payload ← stdoutPayload parse execution
  let status ← resultStatus (Json.member (some payload) "status".toList)
  let checksExecuted ← count (Json.member (some payload) "checksExecuted".toList) MAX_CHECK_COUNT
  let checksFailed ← count (Json.member (some payload) "checksFailed".toList) MAX_CHECK_COUNT
  let blockingReasons ← strings (Json.member (some payload) "blockingReasons".toList) 16 1000
  let evidenceRefs ← strings (Json.member (some payload) "evidenceRefs".toList) 32 2048
  let result : ReleaseVerificationResultProjection :=
    ⟨status, checksExecuted, checksFailed, blockingReasons, evidenceRefs⟩
  if result.coherent then some result else none

/-! ## Reviews -/

inductive ReviewFindingSeverity where
  | info
  | low
  | medium
  | high
  | critical
  deriving DecidableEq

def ReviewFindingSeverity.text : ReviewFindingSeverity → Str
  | .info => "INFO".toList
  | .low => "LOW".toList
  | .medium => "MEDIUM".toList
  | .high => "HIGH".toList
  | .critical => "CRITICAL".toList

inductive ReviewFindingCategory where
  | correctness
  | security
  | architecture
  | testing
  | maintainability
  | governance
  | other
  deriving DecidableEq

def ReviewFindingCategory.text : ReviewFindingCategory → Str
  | .correctness => "CORRECTNESS".toList
  | .security => "SECURITY".toList
  | .architecture => "ARCHITECTURE".toList
  | .testing => "TESTING".toList
  | .maintainability => "MAINTAINABILITY".toList
  | .governance => "GOVERNANCE".toList
  | .other => "OTHER".toList

inductive AssuranceLevel where
  | al1
  | al2
  | al3
  | al4
  deriving DecidableEq

def AssuranceLevel.text : AssuranceLevel → Str
  | .al1 => "AL1".toList
  | .al2 => "AL2".toList
  | .al3 => "AL3".toList
  | .al4 => "AL4".toList

def verdictText : ReviewVerdict → Str
  | .A => ['A']
  | .B => ['B']
  | .C => ['C']
  | .D => ['D']

structure ReviewFinding where
  id : Str
  severity : ReviewFindingSeverity
  category : ReviewFindingCategory
  summary : Str
  evidenceRefs : List Str
  blocking : Bool

structure ProjectedReview where
  verdict : ReviewVerdict
  findings : List ReviewFinding
  reviewerExecutionId : Str
  assuranceLevel : AssuranceLevel
  artifactRefs : List Str

/-- The member of an enumeration whose text a value is. -/
def member? {α : Type} (members : List α) (text : α → Str) (value : Option Json) : Option α :=
  (Json.text value).bind fun value => members.find? fun member => text member = value

def isVerdict : Option Json → Option ReviewVerdict := member? [.A, .B, .C, .D] verdictText

def isSeverity : Option Json → Option ReviewFindingSeverity :=
  member? [.info, .low, .medium, .high, .critical] ReviewFindingSeverity.text

def isCategory : Option Json → Option ReviewFindingCategory :=
  member? [.correctness, .security, .architecture, .testing, .maintainability, .governance, .other]
    ReviewFindingCategory.text

/-- The normalization of the level: `AL-1` is `AL1`. -/
def normalizedLevel : Str → Str
  | ['A', 'L', '-', digit] => if digit.isDigit then ['A', 'L', digit] else ['A', 'L', '-', digit]
  | value => value

def assuranceLevel (value : Str) : Option AssuranceLevel :=
  [AssuranceLevel.al1, .al2, .al3, .al4].find? fun level => level.text = normalizedLevel value

/-- The strings of an array that is not too long; the other items are dropped. -/
def references (value : Option Json) (max : Nat) : List Str :=
  match value with
  | some (.array items) =>
      if items.length > max then [] else items.filterMap fun item => boundedString (some item) 2048
  | _ => []

def finding (source : Json) : Option ReviewFinding := do
  let id ← boundedString (Json.member (some source) "id".toList) 256
  let summary ← boundedString (Json.member (some source) "summary".toList) 1000
  let severity ← isSeverity (Json.member (some source) "severity".toList)
  let category ← isCategory (Json.member (some source) "category".toList)
  match Json.member (some source) "blocking".toList,
      Json.member (some source) "evidenceRefs".toList with
  | some (.bool blocking), some (.array items) =>
      let evidenceRefs := references (some (.array items)) 16
      if evidenceRefs.length ≠ items.length then none
      else some ⟨id, severity, category, summary, evidenceRefs, blocking⟩
  | _, _ => none

/-- `WorkflowReviewResultProjectorService.project`. -/
def projectReview (parse : Str → Option Json) (execution : Json) (level : Str) :
    Option ProjectedReview := do
  let invocationId ← boundedString (Json.member (some execution) "invocationId".toList) 256
  let assurance ← assuranceLevel level
  let payload ← stdoutPayload parse execution
  let verdict ← isVerdict (Json.member (some payload) "verdict".toList)
  match Json.member (some payload) "findings".toList with
  | some (.array candidates) =>
      if candidates.length > 50 then none
      else do
        let findings ← candidates.mapM finding
        some ⟨verdict, findings, invocationId, assurance,
          references (Json.member (some execution) "artifactReferences".toList) 32⟩
  | _ => none

end AgentRuntime
