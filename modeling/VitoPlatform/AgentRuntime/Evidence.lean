import VitoPlatform.AgentRuntime.Execution
import Mathlib.Data.List.Forall2
import Mathlib.Data.Rat.Cast.Defs

/-!
# A step succeeds only on evidence

What a projector answers is what the object on the standard output says. A step is completed as
SUCCEEDED only after a dispatch whose execution has succeeded and, where the type of the step asks
for a result, shows a result that counts (`Evidence`).
-/

namespace AgentRuntime

open Text Workflow Invocation Persistence Prog
open Services (HttpError)

/-! ## What a projector answers -/

section Projectors

variable {α : Type} {value : Option Json} {text : Str} {n max : Nat} {payload execution : Json}
variable {parse : Str → Option Json}

theorem boundedString_eq_some : boundedString value max = some text ↔
    value = some (.string text) ∧ text ≠ [] ∧ utf16Length text ≤ max := by
  simp [boundedString, Option.filter_eq_some_iff, Json.text_eq_some]

theorem count_eq_some : count value max = some n ↔ value = some (.number n) ∧ n ≤ max := by
  unfold count
  split
  · rename_i q
    constructor
    · intro h
      split at h
      · rename_i hq
        obtain ⟨hden, hpos, hle⟩ := hq
        cases h
        have hnum : ((q.num.toNat : Int) : Rat) = q := by
          rw [Int.toNat_of_nonneg hpos]
          exact Rat.coe_int_num_of_den_eq_one hden
        refine ⟨?_, by omega⟩
        rw [← Int.cast_natCast (q.num.toNat), hnum]
      · cases h
    · rintro ⟨hq, hle⟩
      cases hq
      rw [if_pos ⟨Rat.den_natCast _, by simp, by simpa using hle⟩]
      simp
  · rename_i hother
    constructor
    · intro h
      cases h
    · rintro ⟨rfl, -⟩
      exact absurd rfl (hother _)

theorem member?_text {members : List α} (text : α → Str) {a : α}
    (h : member? members text value = some a) : value = some (.string (text a)) := by
  obtain ⟨t, ht, hfind⟩ := Option.bind_eq_some_iff.mp h
  have htext : text a = t := by simpa using List.find?_some hfind
  rw [htext]
  exact Json.text_eq_some.mp ht

theorem resultStatus_text {status : ResultStatus} (h : resultStatus value = some status) :
    value = some (.string status.text) := member?_text _ h

/-- What an object says is what is answered of it. -/
structure TestReport (payload : Json) (result : TestResultProjection) : Prop where
  status : Json.member (some payload) "status".toList = some (.string result.status.text)
  testsExecuted : Json.member (some payload) "testsExecuted".toList =
    some (.number result.testsExecuted)
  testsFailed : Json.member (some payload) "testsFailed".toList = some (.number result.testsFailed)
  coherent : result.coherent = true

theorem projectTest_report {result : TestResultProjection}
    (h : projectTest parse execution = some result) :
    ∃ payload, stdoutPayload parse execution = some payload ∧ TestReport payload result := by
  simp only [projectTest, Option.bind_eq_bind, Option.bind_eq_some_iff] at h
  obtain ⟨payload, hpayload, status, hstatus, executed, hexecuted, failed, hfailed, refs, -, h⟩ := h
  split at h
  · rename_i hcoherent
    cases h
    exact ⟨payload, hpayload, resultStatus_text hstatus, (count_eq_some.mp hexecuted).1,
      (count_eq_some.mp hfailed).1, hcoherent⟩
  · cases h

structure VerificationReport (payload : Json) (result : ReleaseVerificationResultProjection) :
    Prop where
  status : Json.member (some payload) "status".toList = some (.string result.status.text)
  checksExecuted : Json.member (some payload) "checksExecuted".toList =
    some (.number result.checksExecuted)
  checksFailed : Json.member (some payload) "checksFailed".toList =
    some (.number result.checksFailed)
  coherent : result.coherent = true

theorem projectVerification_report {result : ReleaseVerificationResultProjection}
    (h : projectVerification parse execution = some result) :
    ∃ payload, stdoutPayload parse execution = some payload ∧
      VerificationReport payload result := by
  simp only [projectVerification, Option.bind_eq_bind, Option.bind_eq_some_iff] at h
  obtain ⟨payload, hpayload, status, hstatus, executed, hexecuted, failed, hfailed, reasons, -,
    refs, -, h⟩ := h
  split at h
  · rename_i hcoherent
    cases h
    exact ⟨payload, hpayload, resultStatus_text hstatus, (count_eq_some.mp hexecuted).1,
      (count_eq_some.mp hfailed).1, hcoherent⟩
  · cases h

/-- Items that are all read are read one by one. -/
theorem forall₂_of_mapM {β : Type} {f : α → Option β} {items : List α} {results : List β}
    (h : items.mapM f = some results) :
    List.Forall₂ (fun item result => f item = some result) items results := by
  induction items generalizing results with
  | nil =>
      cases h
      exact .nil
  | cons item items ih =>
      simp only [List.mapM_cons, Option.bind_eq_bind, Option.bind_eq_some_iff] at h
      obtain ⟨result, hitem, rest, hrest, h⟩ := h
      cases h
      exact .cons hitem (ih hrest)

/-- If none of the items is dropped, the items are the strings that are kept. -/
theorem items_of_references {items : List Json} (hle : items.length ≤ max)
    (h : (references (some (.array items)) max).length = items.length) :
    items = (references (some (.array items)) max).map Json.string := by
  simp only [references, gt_iff_lt, if_neg (not_lt.mpr hle)] at h ⊢
  clear hle
  induction items with
  | nil => rfl
  | cons item items ih =>
      cases hitem : boundedString (some item) 2048 with
      | none =>
          simp only [List.filterMap_cons, hitem, List.length_cons] at h
          have hle := List.length_filterMap_le (fun item => boundedString (some item) 2048) items
          omega
      | some text =>
          simp only [List.filterMap_cons, hitem, List.length_cons, Nat.add_right_cancel_iff] at h
          simp only [List.filterMap_cons, hitem, List.map_cons, ← ih h]
          rw [Option.some.inj (boundedString_eq_some.mp hitem).1]

structure FindingReport (source : Json) (finding : ReviewFinding) : Prop where
  id : Json.member (some source) "id".toList = some (.string finding.id)
  named : finding.id ≠ []
  summary : Json.member (some source) "summary".toList = some (.string finding.summary)
  summarized : finding.summary ≠ []
  severity : Json.member (some source) "severity".toList = some (.string finding.severity.text)
  category : Json.member (some source) "category".toList = some (.string finding.category.text)
  blocking : Json.member (some source) "blocking".toList = some (.bool finding.blocking)
  evidenceRefs : Json.member (some source) "evidenceRefs".toList =
    some (.array (finding.evidenceRefs.map Json.string))

theorem finding_report {source : Json} {result : ReviewFinding}
    (h : finding source = some result) : FindingReport source result := by
  simp only [finding, Option.bind_eq_bind, Option.bind_eq_some_iff] at h
  obtain ⟨id, hid, summary, hsummary, severity, hseverity, category, hcategory, h⟩ := h
  obtain ⟨hid, hnamed, -⟩ := boundedString_eq_some.mp hid
  obtain ⟨hsummary, hsummarized, -⟩ := boundedString_eq_some.mp hsummary
  split at h
  · rename_i blocking items hblocking hitems
    split at h
    · cases h
    · rename_i hkept
      cases h
      refine ⟨hid, hnamed, hsummary, hsummarized, member?_text _ hseverity, member?_text _ hcategory,
        hblocking, ?_⟩
      have hkept := not_not.mp hkept
      have hle : items.length ≤ 16 := by
        by_contra hlong
        rw [references, if_pos (not_le.mp hlong), List.length_nil] at hkept
        omega
      rw [hitems, ← items_of_references hle hkept]
  · cases h

structure ReviewReport (execution payload : Json) (result : ProjectedReview) : Prop where
  verdict : Json.member (some payload) "verdict".toList =
    some (.string (verdictText result.verdict))
  findings : ∃ candidates, Json.member (some payload) "findings".toList =
    some (.array candidates) ∧ List.Forall₂ FindingReport candidates result.findings
  invocation : Json.member (some execution) "invocationId".toList =
    some (.string result.reviewerExecutionId)
  identified : result.reviewerExecutionId ≠ []

theorem projectReview_report {result : ProjectedReview} {level : Str}
    (h : projectReview parse execution level = some result) :
    ∃ payload, stdoutPayload parse execution = some payload ∧
      ReviewReport execution payload result := by
  simp only [projectReview, Option.bind_eq_bind, Option.bind_eq_some_iff] at h
  obtain ⟨invocationId, hinvocation, level, -, payload, hpayload, verdict, hverdict, h⟩ := h
  obtain ⟨hinvocation, hidentified, -⟩ := boundedString_eq_some.mp hinvocation
  split at h
  · rename_i candidates hcandidates
    split at h
    · cases h
    · obtain ⟨findings, hfindings, h⟩ := Option.bind_eq_some_iff.mp h
      cases h
      exact ⟨payload, hpayload, member?_text _ hverdict, ⟨candidates, hcandidates,
        (forall₂_of_mapM hfindings).imp fun _ _ => finding_report⟩, hinvocation, hidentified⟩
  · cases h

end Projectors

/-! ## Completed steps -/

/-- The result that a step of this type has to show, as it has been projected. -/
def Evidence (service : WorkflowAgentRuntimeService) (run : RunRow) (step : StepRow)
    (execution : Json) (metadata : CompletionMetadata) : Prop :=
  match step.stepType with
  | .test => ∃ result payload,
      metadata.projection = .valid none (some result) none ∧
        projectTest service.parse execution = some result ∧
          stdoutPayload service.parse execution = some payload ∧ TestReport payload result ∧
            result.status = .pass ∧ 1 ≤ result.testsExecuted ∧ result.testsFailed = 0
  | .verify | .remoteVerify => ∃ result payload,
      metadata.projection = .valid none none (some result) ∧
        projectVerification service.parse execution = some result ∧
          stdoutPayload service.parse execution = some payload ∧
            VerificationReport payload result ∧ result.status = .pass
  | .redTeam => ∃ result payload,
      metadata.projection = .valid (some result) none none ∧
        projectReview service.parse execution run.assuranceLevel = some result ∧
          stdoutPayload service.parse execution = some payload ∧
            ReviewReport execution payload result
  | .correction =>
      metadata.executionEvidence = service.executionEvidence execution .correction ∧
        changedFilesFromExecutionEvidence metadata.executionEvidence ≠ []
  | .plan | .build | .package | .parseVerdict | .humanReleaseGate | .releaseExecution => True

/-- The step has been dispatched, its execution has succeeded, and it shows its result. -/
def Shown (service : WorkflowAgentRuntimeService) (t : List Happened) (completion : Completion) :
    Prop :=
  ∃ run stepType step input dispatch,
    (⟨.findRun completion.organizationId completion.workflowRunId, .ok (some run)⟩ : Happened) ∈ t ∧
    (⟨.findReadyStep completion.organizationId completion.workflowRunId stepType,
      .ok (some step)⟩ : Happened) ∈ t ∧
    (⟨.dispatch input, .ok dispatch⟩ : Happened) ∈ t ∧
    step.id = completion.workflowStepRunId ∧ input.workflowStepRunId = step.id ∧
    Json.member (some (.object dispatch.execution)) "status".toList =
      some (.string "SUCCEEDED".toList) ∧
    Evidence service run step (.object dispatch.execution) completion.metadata

section Completions

variable {service : WorkflowAgentRuntimeService} {t : List Happened} {d : Dispatched}

/-- A step is completed as SUCCEEDED only when its result has been shown. -/
def guard (service : WorkflowAgentRuntimeService) (t : List Happened) : Effect → Prop
  | .completeStep completion => completion.stepStatus = .succeeded → Shown service t completion
  | _ => True

abbrev Holds (service : WorkflowAgentRuntimeService) {α : Type} (p : Program α)
    (t : List Happened) : Prop :=
  wp (guard service) p (fun _ _ => True) (fun _ _ => True) t

theorem recordOutcome_holds {kind : Option Str} : Holds service (service.recordOutcome d kind) t := by
  unfold WorkflowAgentRuntimeService.recordOutcome
  split
  · refine wp_bind.mpr (wp_perform.mpr ⟨trivial, fun outcome => ?_, fun _ => trivial⟩)
    split
    · exact wp_bind.mpr (wp_perform.mpr ⟨trivial, fun _ => trivial, fun _ => trivial⟩)
    · trivial
  · trivial

theorem complete_holds {disposition : Disposition} {stepStatus : CompletionStatus}
    {providerStatus : Option AgentExecutionStatus} {projection : Projection}
    (h : stepStatus = .succeeded →
      Shown service t (service.completion d stepStatus providerStatus projection)) :
    Holds service (service.complete d disposition stepStatus providerStatus projection) t := by
  refine wp_bind.mpr (wp_perform.mpr ⟨h, fun kind => ?_, fun _ => trivial⟩)
  exact wp_bind.mpr (wp_mono recordOutcome_holds (fun _ _ _ => trivial) fun _ _ _ => trivial)

theorem complete_failed {disposition : Disposition}
    {providerStatus : Option AgentExecutionStatus} {projection : Projection} :
    Holds service (service.complete d disposition .failed providerStatus projection) t :=
  complete_holds nofun

/-- What has happened once a step has been dispatched. -/
structure DispatchedIn (d : Dispatched) (t : List Happened) : Prop where
  run : (⟨.findRun d.organizationId d.workflowRunId, .ok (some d.run)⟩ : Happened) ∈ t
  step : ∃ stepType, (⟨.findReadyStep d.organizationId d.workflowRunId stepType,
    .ok (some d.step)⟩ : Happened) ∈ t
  dispatch : ∃ input, (⟨.dispatch input, .ok d.dispatch⟩ : Happened) ∈ t ∧
    input.workflowStepRunId = d.step.id

theorem completionStatus_succeeded (h : d.completionStatus = some .succeeded) :
    Json.member (some d.execution) "status".toList = some (.string "SUCCEEDED".toList) := by
  unfold Dispatched.completionStatus toWorkflowCompletionStatus at h
  split at h
  · rename_i hstatus
    exact member?_text executionStatusText hstatus
  all_goals cases h

/-- A dispatched step whose execution has succeeded and shows its result. -/
theorem DispatchedIn.shown {projection : Projection} (h : DispatchedIn d t)
    (hstatus : d.completionStatus = some .succeeded)
    (hevidence : Evidence service d.run d.step d.execution
      (service.completion d .succeeded none projection).metadata) :
    Shown service t (service.completion d .succeeded none projection) := by
  obtain ⟨stepType, hstep⟩ := h.step
  obtain ⟨input, hdispatch, hid⟩ := h.dispatch
  exact ⟨d.run, stepType, d.step, input, d.dispatch, h.run, hstep, hdispatch, rfl, hid,
    completionStatus_succeeded hstatus, hevidence⟩

/-- The branches of a step whose execution has succeeded, by the type of the step. -/
theorem settle_succeeded (h : DispatchedIn d t) (hblocked : d.providerBlocked = false)
    (hstatus : d.completionStatus = some .succeeded) : Holds service (service.settle d) t := by
  have hsucceeded (stepTypes : List EngineeringStepType) :
      d.succeededAs stepTypes = decide (d.step.stepType ∈ stepTypes) := by
    simp [Dispatched.succeededAs, hstatus]
  -- The branch that completes the step, and the branch that fails it.
  have hshown {review : Option ProjectedReview} {test : Option TestResultProjection}
      {verification : Option ReleaseVerificationResultProjection}
      (hsettle : service.settle d = service.complete d .transitioned .succeeded none
        (.valid review test verification))
      (hevidence : Evidence service d.run d.step d.execution (service.completion d .succeeded none
        (.valid review test verification)).metadata) : Holds service (service.settle d) t :=
    hsettle ▸ complete_holds fun _ => h.shown hstatus hevidence
  have hfailed {disposition : Disposition} {projection : Projection}
      (hsettle : service.settle d = service.complete d disposition .failed none projection) :
      Holds service (service.settle d) t :=
    hsettle ▸ complete_failed
  cases htype : d.step.stepType with
  | plan | build | package | parseVerdict | humanReleaseGate | releaseExecution =>
      refine @hshown none none none ?_ ?_
      · simp [WorkflowAgentRuntimeService.settle, hblocked, hstatus, hsucceeded, htype]
      · rw [Evidence, htype]
        trivial
  | test =>
      cases hproject : projectTest service.parse d.execution with
      | none =>
          exact hfailed (by simp [WorkflowAgentRuntimeService.settle, hblocked, hstatus,
            hsucceeded, htype, hproject]; rfl)
      | some result =>
          by_cases hpass : result.status = .pass
          · obtain ⟨payload, hpayload, hreport⟩ := projectTest_report hproject
            have hcoherent := hreport.coherent
            simp only [TestResultProjection.coherent, hpass, Bool.and_eq_true,
              decide_eq_true_eq] at hcoherent
            refine hshown (by simp [WorkflowAgentRuntimeService.settle, hblocked, hstatus,
              hsucceeded, htype, hproject, hpass]; rfl) ?_
            rw [Evidence, htype]
            exact ⟨result, payload, rfl, hproject, hpayload, hreport, hpass, hcoherent.2⟩
          · exact hfailed (by simp [WorkflowAgentRuntimeService.settle, hblocked, hstatus,
              hsucceeded, htype, hproject, hpass]; rfl)
  | verify | remoteVerify =>
      cases hproject : projectVerification service.parse d.execution with
      | none =>
          exact hfailed (by simp [WorkflowAgentRuntimeService.settle, hblocked, hstatus,
            hsucceeded, htype, hproject]; rfl)
      | some result =>
          by_cases hpass : result.status = .pass
          · obtain ⟨payload, hpayload, hreport⟩ := projectVerification_report hproject
            refine hshown (by simp [WorkflowAgentRuntimeService.settle, hblocked, hstatus,
              hsucceeded, htype, hproject, hpass]; rfl) ?_
            rw [Evidence, htype]
            exact ⟨result, payload, rfl, hproject, hpayload, hreport, hpass⟩
          · exact hfailed (by simp [WorkflowAgentRuntimeService.settle, hblocked, hstatus,
              hsucceeded, htype, hproject, hpass]; rfl)
  | redTeam =>
      cases hproject : projectReview service.parse d.execution d.run.assuranceLevel with
      | none =>
          exact hfailed (by simp [WorkflowAgentRuntimeService.settle, hblocked, hstatus,
            hsucceeded, htype, hproject]; rfl)
      | some result =>
          obtain ⟨payload, hpayload, hreport⟩ := projectReview_report hproject
          refine hshown (by simp [WorkflowAgentRuntimeService.settle, hblocked, hstatus,
            hsucceeded, htype, hproject]; rfl) ?_
          rw [Evidence, htype]
          exact ⟨result, payload, rfl, hproject, hpayload, hreport⟩
  | correction =>
      by_cases hfiles : changedFilesFromExecutionEvidence (service.evidence d) = []
      · exact hfailed (by simp [WorkflowAgentRuntimeService.settle, hblocked, hstatus,
          hsucceeded, htype, hfiles]; rfl)
      · refine hshown (by simp [WorkflowAgentRuntimeService.settle, hblocked, hstatus,
          hsucceeded, htype, hfiles]; rfl) ?_
        rw [Evidence, htype]
        refine ⟨?_, hfiles⟩
        rw [← htype]
        rfl

theorem settle_holds (h : DispatchedIn d t) : Holds service (service.settle d) t := by
  cases hblocked : d.providerBlocked with
  | true =>
      rw [WorkflowAgentRuntimeService.settle, if_pos hblocked]
      exact complete_failed
  | false =>
      cases hstatus : d.completionStatus with
      | none =>
          simp only [WorkflowAgentRuntimeService.settle, hblocked, Bool.false_eq_true, if_false,
            hstatus]
          exact wp_bind.mpr (wp_mono recordOutcome_holds (fun _ _ _ => trivial)
            fun _ _ _ => trivial)
      | some status =>
          cases status with
          | succeeded => exact settle_succeeded h hblocked hstatus
          | failed =>
              have hnot (stepTypes : List EngineeringStepType) :
                  d.succeededAs stepTypes = false := by
                simp [Dispatched.succeededAs, hstatus]
              simp only [WorkflowAgentRuntimeService.settle, hblocked, Bool.false_eq_true,
                if_false, hstatus, hnot, Bool.false_and]
              exact complete_failed

/-- An answer that is asked for or not: what comes after it has only to grow with the trace. -/
theorem wp_askIf {needed available : Bool} {error : HttpError} {e : Effect}
    {post : Option (Answer e) → List Happened → Prop} (hguard : guard service t e)
    (h : ∀ answer more, post answer (t ++ more)) :
    wp (guard service) (WorkflowAgentRuntimeService.askIf needed available error e) post
      (fun _ _ => True) t := by
  unfold WorkflowAgentRuntimeService.askIf
  split
  · refine wp_bind.mpr (wp_require.mpr ⟨fun _ => ?_, fun _ => trivial⟩)
    exact wp_bind.mpr (wp_perform.mpr ⟨hguard, fun answer => h (some answer) _, fun _ => trivial⟩)
  · have hpost := h none []
    rw [List.append_nil] at hpost
    exact hpost

theorem dispatchStep_holds {organizationId workflowRunId capabilityCode : Str} {run : RunRow}
    {step : StepRow} (stepType : EngineeringStepType)
    (hrun : (⟨.findRun organizationId workflowRunId, .ok (some run)⟩ : Happened) ∈ t)
    (hstep : (⟨.findReadyStep organizationId workflowRunId stepType, .ok (some step)⟩ : Happened) ∈
      t) :
    Holds service (service.dispatchStep organizationId workflowRunId run step capabilityCode) t := by
  refine wp_bind.mpr (wp_askIf trivial fun codeBuildApproval more₁ => ?_)
  refine wp_bind.mpr (wp_expect.mpr ⟨fun taskId _ => ?_, fun _ => trivial⟩)
  refine wp_bind.mpr (wp_perform.mpr ⟨trivial, fun task => ?_, fun _ => trivial⟩)
  refine wp_bind.mpr (wp_require.mpr ⟨fun _ => ?_, fun _ => trivial⟩)
  refine wp_bind.mpr (wp_askIf trivial fun redTeamEvidenceManifest more₂ => ?_)
  refine wp_bind.mpr (wp_askIf trivial fun correctionContextManifest more₃ => ?_)
  refine wp_bind.mpr (wp_perform.mpr ⟨trivial, fun dispatch => ?_, fun _ => trivial⟩)
  refine settle_holds ⟨?_, ⟨stepType, ?_⟩, ⟨_, List.mem_append_right _
    (List.mem_singleton_self _), rfl⟩⟩
  · simp [hrun]
  · simp [hstep]

theorem executeCurrentStep_holds {organizationId workflowRunId : Str} :
    Holds service (service.executeCurrentStep organizationId workflowRunId) [] := by
  refine wp_bind.mpr (wp_perform.mpr ⟨trivial, fun found => ?_, fun _ => trivial⟩)
  refine wp_bind.mpr (wp_expect.mpr ⟨?_, fun _ => trivial⟩)
  rintro run rfl
  refine wp_bind.mpr (wp_require.mpr ⟨fun _ => ?_, fun _ => trivial⟩)
  refine wp_bind.mpr (wp_expect.mpr ⟨fun stepType _ => ?_, fun _ => trivial⟩)
  refine wp_bind.mpr (wp_perform.mpr ⟨trivial, fun found => ?_, fun _ => trivial⟩)
  refine wp_bind.mpr (wp_expect.mpr ⟨?_, fun _ => trivial⟩)
  rintro step rfl
  split
  · trivial
  · refine dispatchStep_holds stepType ?_ ?_
    · simp
    · simp

/-- A step is completed as SUCCEEDED only after a dispatch whose execution has succeeded and shows
the result that a step of this type has to show. -/
theorem succeeds_on_evidence {organizationId workflowRunId : Str} {completion : Completion}
    {k : Except HttpError (Option Str) → Program StepExecution}
    (trace : Trace (service.executeCurrentStep organizationId workflowRunId) t
      (.call (.completeStep completion) k)) (hsucceeded : completion.stepStatus = .succeeded) :
    Shown service t completion :=
  trace.guarded executeCurrentStep_holds hsucceeded

end Completions

section Examples

private def field (name : String) (value : Json) : Str × Json := (name.toList, value)

/-- Three tests have been executed, and none has failed. -/
private def passed : Json := .object [field "status" (.string "PASS".toList),
  field "testsExecuted" (.number 3), field "testsFailed" (.number 0), field "evidenceRefs" (.array [])]

private def sampleService : WorkflowAgentRuntimeService where
  runtimeOutcome := false
  runtimeReflectionLearning := false
  codeBuildApprovals := false
  redTeamEvidence := false
  correctionContext := false
  parse _ := some passed
  sha256 text := text

/-- A test step whose agent reports success. -/
private def sampleEnvironment : (e : Effect) → Except HttpError (Answer e)
  | .findRun _ _ =>
      .ok (some ⟨"run".toList, some "task".toList, .running, some .test, "AL2".toList, []⟩)
  | .findReadyStep _ _ _ => .ok (some ⟨"step".toList, .test, 1⟩)
  | .findTask _ _ => .ok (some ⟨"task".toList, [], none⟩)
  | .dispatch _ => .ok ⟨[], [], [], none, [field "status" (.string "SUCCEEDED".toList),
      field "providerExecutionMetadata" (.object [field "stdout" (.string "report".toList)])]⟩
  | .resolveForWorkflowDispatch _ _ _ => .error .database
  | .resolveRedTeamEvidence _ _ _ => .error .database
  | .resolveCorrectionContext _ _ _ => .error .database
  | .completeStep _ => .ok none
  | .tryRecord _ => .ok none
  | .tryProcess _ _ => .ok ()

private def isCompletion : Effect → Bool
  | .completeStep _ => true
  | _ => false

private def sampleRun : List Happened × Program StepExecution :=
  (sampleService.executeCurrentStep "org".toList "run".toList).runUntil sampleEnvironment
    isCompletion

theorem succeeds_on_evidence_passed : ∃ completion,
    sampleRun.2.next = some (.completeStep completion) ∧ completion.stepStatus = .succeeded ∧
      Shown sampleService sampleRun.1 completion := by
  have hnext : ∃ completion, sampleRun.2.next = some (.completeStep completion) ∧
      completion.stepStatus = .succeeded := by
    exact ⟨_, rfl, rfl⟩
  obtain ⟨completion, hcompletes, hsucceeded⟩ := hnext
  obtain ⟨k, hk⟩ := next_eq_some hcompletes
  refine ⟨completion, hcompletes, hsucceeded, ?_⟩
  have trace : Trace (sampleService.executeCurrentStep "org".toList "run".toList) sampleRun.1
      (.call (.completeStep completion) k) := by
    rw [← hk]
    exact trace_runUntil _ _ _
  exact succeeds_on_evidence trace hsucceeded

end Examples

end AgentRuntime
