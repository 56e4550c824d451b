import VitoPlatform.Invocation.Types
import VitoPlatform.Persistence.Rows

/-!
# The engineering state machine

`nextEngineeringStep` of `state-machine.ts`, with the resolution of review verdicts and the
AL4 requirements, and `nextEngineeringHumanDecision` of `human-decision.ts`. Pure functions:
what a completed step leads to, from what its completion carries and from the run.
-/

namespace Workflow

open Text Policy Persistence Invocation

inductive ReviewVerdict where
  | A
  | B
  | C
  | D
  deriving DecidableEq

/-- The fields of a review result that the state machine reads. -/
structure ReviewResult where
  verdict : EnumValue ReviewVerdict
  reviewerExecutionId : Str

structure IndependenceContext where
  builderProviderId : Option Str
  builderModelFamily : Option Str
  previousReviewerProviderIds : List Str
  previousReviewerModelFamilies : List Str

inductive AssuranceUnsatisfiedReason where
  | reviewerIndependenceUnsatisfied
  | modelFamilyRequirementUnsatisfied
  | minReviewerCountUnsatisfied
  | builderModelFamilyUnknown
  | reviewEvidenceInsufficient
  | reviewerExecutionNotDistinct
  | reviewerProviderNotDistinct
  deriving DecidableEq

inductive BlockReason where
  | loopExhausted (correctionLoopCount : Int)
  | reviewDisagreement (verdicts : List (EnumValue ReviewVerdict))
  | humanDecisionRequired (verdict : ReviewVerdict)
  | assuranceUnsatisfied (reason : AssuranceUnsatisfiedReason)
  | humanApprovalMissing
  | providerBlocked (providerStatus : AgentExecutionStatus)
  deriving DecidableEq

/-- `reason.type`. -/
def BlockReason.code : BlockReason → BlockReasonCode
  | .loopExhausted _ => .loopExhausted
  | .reviewDisagreement _ => .reviewDisagreement
  | .humanDecisionRequired _ => .humanDecisionRequired
  | .assuranceUnsatisfied _ => .assuranceUnsatisfied
  | .humanApprovalMissing => .humanApprovalMissing
  | .providerBlocked _ => .providerBlocked

inductive TransitionOutcome where
  | nextStep (nextStep : EngineeringStepType)
  | blocked (reason : BlockReason)
  | completed
  | failed (reason : String)
  deriving DecidableEq

/-- `'SUCCEEDED' | 'FAILED'`. -/
inductive CompletionStatus where
  | succeeded
  | failed
  deriving DecidableEq

structure RetryPolicy where
  maxCorrectionLoops : Int
  maxProviderRetriesPerStep : Int

/-- `DEFAULT_RETRY_POLICY`. -/
def defaultRetryPolicy : RetryPolicy := ⟨3, 2⟩

structure StateMachineInput where
  completedStep : EngineeringStepType
  stepStatus : CompletionStatus
  verdict : Option (EnumValue ReviewVerdict)
  reviewResults : Option (List ReviewResult)
  providerStatus : Option AgentExecutionStatus
  correctionLoopCount : Int
  retryPolicy : RetryPolicy
  humanApproved : Bool
  independenceContext : Option IndependenceContext
  assuranceLevel : Str

/-- All verdicts are the same, or the reviewers disagree. -/
def resolveReviewerDisagreement (reviewResults : List ReviewResult) :
    Except BlockReason (EnumValue ReviewVerdict) :=
  match reviewResults.map (·.verdict) with
  | [] => .error (.reviewDisagreement [])
  | first :: rest =>
      if rest.all (· == first) then .ok first else .error (.reviewDisagreement (first :: rest))

/-- The effective verdict: of the review results if there are any, else the single one. -/
def resolveVerdict (input : StateMachineInput) : Except BlockReason (EnumValue ReviewVerdict) :=
  match input.reviewResults with
  | some (first :: rest) => resolveReviewerDisagreement (first :: rest)
  | _ =>
      match input.verdict with
      | some verdict => .ok verdict
      | none => .error (.reviewDisagreement [])

/-- Tests 4 to 8 of the AL4 requirements, on the independence context. -/
def enforceAl4Independence (context : IndependenceContext) : Option AssuranceUnsatisfiedReason :=
  if context.previousReviewerProviderIds.eraseDups.length < 2 then
    some .reviewerProviderNotDistinct
  else
    match context.previousReviewerModelFamilies with
    | reviewer1Family :: reviewer2Family :: _ =>
        match (truthy context.builderModelFamily).filter fun family => trim family ≠ [] with
        | none => some .builderModelFamilyUnknown
        | some builderModelFamily =>
            if reviewer1Family = builderModelFamily then some .reviewerIndependenceUnsatisfied
            else if reviewer1Family ≠ [] ∧ reviewer1Family = reviewer2Family then
              some .modelFamilyRequirementUnsatisfied
            else none
    | _ => some .modelFamilyRequirementUnsatisfied

/-- The AL4 requirements before PARSE_VERDICT may lead anywhere. -/
def enforceAl4Requirements (input : StateMachineInput) : Option BlockReason :=
  if input.assuranceLevel ≠ "AL4".toList then none
  else
    match input.reviewResults with
    | some (first :: second :: rest) =>
        if ¬ ((first :: second :: rest).map (·.reviewerExecutionId)).Nodup then
          some (.assuranceUnsatisfied .reviewerExecutionNotDistinct)
        else
          match input.independenceContext with
          | none => some (.assuranceUnsatisfied .minReviewerCountUnsatisfied)
          | some context => (enforceAl4Independence context).map .assuranceUnsatisfied
    | _ => some (.assuranceUnsatisfied .reviewEvidenceInsufficient)

/-- A step that leads to `next` when it succeeded and fails the run otherwise. -/
def advance (input : StateMachineInput) (next : TransitionOutcome) (reason : String) :
    TransitionOutcome :=
  if input.stepStatus = .succeeded then next else .failed reason

/-- One more correction, unless the loop is exhausted. -/
def correctOrExhaust (input : StateMachineInput) : TransitionOutcome :=
  if input.correctionLoopCount ≥ input.retryPolicy.maxCorrectionLoops then
    .blocked (.loopExhausted input.correctionLoopCount)
  else .nextStep .correction

/-- PARSE_VERDICT with the resolved verdict. -/
def followVerdict (input : StateMachineInput) (verdict : EnumValue ReviewVerdict) :
    TransitionOutcome :=
  match verdict.member? with
  | some .A | some .B => .nextStep .verify
  | some .C => correctOrExhaust input
  | some .D => .blocked (.humanDecisionRequired .D)
  | none => .failed "Unknown step type: PARSE_VERDICT"

def parseVerdict (input : StateMachineInput) : TransitionOutcome :=
  if input.stepStatus ≠ .succeeded then .failed "PARSE_VERDICT requires succeeded status"
  else
    match resolveVerdict input with
    | .error reason => .blocked reason
    | .ok verdict =>
        match enforceAl4Requirements input with
        | some reason => .blocked reason
        | none => followVerdict input verdict

/-- The provider statuses that block a run. -/
def isProviderBlocked (status : Option AgentExecutionStatus) : Bool :=
  status == some .quotaBlocked || status == some .policyBlocked

def nextEngineeringStep (input : StateMachineInput) : TransitionOutcome :=
  match input.providerStatus.filter fun status => isProviderBlocked (some status) with
  | some status => .blocked (.providerBlocked status)
  | none =>
      match input.completedStep with
      | .plan => advance input (.nextStep .build) "PLAN step failed"
      | .build => advance input (.nextStep .test) "BUILD step failed"
      | .test =>
          if input.stepStatus = .succeeded then .nextStep .package else correctOrExhaust input
      | .package => advance input (.nextStep .redTeam) "PACKAGE step failed"
      | .redTeam => advance input (.nextStep .parseVerdict) "RED_TEAM step failed"
      | .parseVerdict => parseVerdict input
      | .correction => advance input (.nextStep .test) "CORRECTION step failed"
      | .verify => advance input (.nextStep .humanReleaseGate) "VERIFY step failed"
      | .humanReleaseGate =>
          if input.humanApproved then .nextStep .releaseExecution
          else .blocked .humanApprovalMissing
      | .releaseExecution =>
          advance input (.nextStep .remoteVerify) "RELEASE_EXECUTION step failed"
      | .remoteVerify => advance input .completed "REMOTE_VERIFY step failed"

/-- `nextEngineeringHumanDecision` for the decision CORRECTION. -/
def nextEngineeringHumanDecision (blockReason : BlockReason) (correctionLoopCount : Int)
    (retryPolicy : RetryPolicy) : TransitionOutcome :=
  match blockReason with
  | .humanDecisionRequired .D =>
      if correctionLoopCount ≥ retryPolicy.maxCorrectionLoops then
        .blocked (.loopExhausted correctionLoopCount)
      else .nextStep .correction
  | _ => .blocked blockReason

/-! ## Blocking -/

section Blocking

variable {input : StateMachineInput} {reason : BlockReason}

theorem resolveVerdict_error (h : resolveVerdict input = .error reason) :
    reason.code = .reviewDisagreement := by
  unfold resolveVerdict at h
  split at h
  · rw [resolveReviewerDisagreement] at h
    split at h
    · cases h
      rfl
    · split at h
      · cases h
      · cases h
        rfl
  · split at h
    · cases h
    · cases h
      rfl

theorem enforceAl4Requirements_some (h : enforceAl4Requirements input = some reason) :
    reason.code = .assuranceUnsatisfied := by
  unfold enforceAl4Requirements at h
  split at h
  · cases h
  split at h
  · split at h
    · cases h
      rfl
    · split at h
      · cases h
        rfl
      · obtain ⟨unsatisfied, -, rfl⟩ := Option.map_eq_some_iff.mp h
        rfl
  · cases h
    rfl

theorem correctOrExhaust_blocked (h : correctOrExhaust input = .blocked reason) :
    reason.code = .loopExhausted := by
  rw [correctOrExhaust] at h
  split at h
  · cases h
    rfl
  · cases h

theorem followVerdict_blocked {verdict : EnumValue ReviewVerdict}
    (h : followVerdict input verdict = .blocked reason) :
    reason.code = .loopExhausted ∨ reason.code = .humanDecisionRequired := by
  unfold followVerdict at h
  split at h
  · cases h
  · cases h
  · exact .inl (correctOrExhaust_blocked h)
  · cases h
    exact .inr rfl
  · cases h

theorem parseVerdict_blocked (h : parseVerdict input = .blocked reason) :
    reason.code ≠ .providerBlocked := by
  rw [parseVerdict] at h
  split at h
  · cases h
  split at h
  · rename_i hresolve
    cases h
    rw [resolveVerdict_error hresolve]
    decide
  · split at h
    · rename_i henforce
      cases h
      rw [enforceAl4Requirements_some henforce]
      decide
    · obtain h | h := followVerdict_blocked h
      · rw [h]
        decide
      · rw [h]
        decide

theorem advance_blocked {next : TransitionOutcome} {text : String}
    (hnext : next ≠ .blocked reason) : advance input next text ≠ .blocked reason := by
  rw [advance]
  split
  · exact hnext
  · exact nofun

/-- A provider status is the one cause of a block with the code PROVIDER_BLOCKED. -/
theorem nextEngineeringStep_blocked (h : nextEngineeringStep input = .blocked reason) :
    reason.code = .providerBlocked ↔ isProviderBlocked input.providerStatus = true := by
  unfold nextEngineeringStep at h
  split at h
  · rename_i status hstatus
    obtain ⟨hprovider, hblocked⟩ := Option.filter_eq_some_iff.mp hstatus
    cases h
    simp only [BlockReason.code, hprovider, hblocked]
  · rename_i hstatus
    have hfree : isProviderBlocked input.providerStatus = false := by
      cases hprovider : input.providerStatus with
      | none => rfl
      | some status =>
          rw [hprovider] at hstatus
          simpa using Option.filter_eq_none_iff.mp hstatus status rfl
    have hcode : reason.code ≠ .providerBlocked := by
      split at h
      · exact absurd h (advance_blocked nofun)
      · exact absurd h (advance_blocked nofun)
      · split at h
        · cases h
        · rw [correctOrExhaust_blocked h]
          decide
      · exact absurd h (advance_blocked nofun)
      · exact absurd h (advance_blocked nofun)
      · exact parseVerdict_blocked h
      · exact absurd h (advance_blocked nofun)
      · exact absurd h (advance_blocked nofun)
      · split at h
        · cases h
        · cases h
          decide
      · exact absurd h (advance_blocked nofun)
      · exact absurd h (advance_blocked nofun)
    simp [hcode, hfree]

end Blocking

end Workflow
