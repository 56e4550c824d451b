import VitoPlatform.AgentRuntime.Evidence
import VitoPlatform.AgentRuntime.Reviews
import VitoPlatform.Library.Selections

/-!
# A verdict rests on governed reviews

What `parseAndTransition` hands to the state machine has been read from a RED_TEAM step that has
succeeded, and agrees with the execution ledger. Two reviews whose reviewers are registered with
other model families than the builder's leave nothing of the AL4 requirements to be tested: the
verdicts alone decide what follows.
-/

namespace AgentRuntime.Reviews

open Text Workflow Invocation Persistence Prog
open Services (HttpError)

/-! ## What a verdict rests on -/

/-- The reviewer is registered with its model family, and the ledger has its execution of the
review, with the artifacts that the review refers to. -/
structure Backed (t : List Happened) (organizationId workflowRunId reviewStepRunId : Str)
    (review : StoredReview) (reviewer : ReviewerIdentity) : Prop where
  provider : ∃ provider,
    (⟨.findProvider organizationId reviewer.providerId, .ok (some provider)⟩ : Happened) ∈ t ∧
      provider.modelFamily = some reviewer.modelFamily
  execution : ∃ record,
    (⟨.findRecord ⟨review.reviewerExecutionId, organizationId, workflowRunId, reviewStepRunId,
      "RED_TEAM".toList, some reviewer.providerId⟩, .ok (some record)⟩ : Happened) ∈ t ∧
      ∀ reference ∈ referenceList (some (strings review.artifactRefs)),
        reference ∈ referenceList (some record.artifactReferences)
  identified : trim reviewer.providerId ≠ []
  known : trim reviewer.modelFamily ≠ []

theorem Backed.mono {t t' : List Happened} {organizationId workflowRunId reviewStepRunId : Str}
    {review : StoredReview} {reviewer : ReviewerIdentity}
    (h : Backed t organizationId workflowRunId reviewStepRunId review reviewer) (ht : t ⊆ t') :
    Backed t' organizationId workflowRunId reviewStepRunId review reviewer := by
  obtain ⟨⟨provider, hprovider, hfamily⟩, ⟨record, hrecord, hartifacts⟩, hid, hknown⟩ := h
  exact ⟨⟨provider, ht hprovider, hfamily⟩, ⟨record, ht hrecord, hartifacts⟩, hid, hknown⟩

/-- The run has been read at PARSE_VERDICT, with a step that is READY. -/
structure AtVerdict (t : List Happened) (completion : ReviewCompletion) (run : RunRow)
    (level : AssuranceLevel) : Prop where
  found : (⟨.findRun completion.organizationId completion.workflowRunId, .ok (some run)⟩ :
    Happened) ∈ t
  status : run.status = .running
  current : run.currentStepType = some .parseVerdict
  assured : AgentRuntime.assuranceLevel run.assuranceLevel = some level
  ready : ∃ parseStep, (⟨.findNewestStep completion.organizationId completion.workflowRunId
    .parseVerdict .ready .startedAt, .ok (some parseStep)⟩ : Happened) ∈ t ∧
      parseStep.id = completion.workflowStepRunId

/-- What the verdict of two reviews rests on. -/
structure Al4Grounds (t : List Happened) (completion : ReviewCompletion)
    (reviews : List StoredReview) (step : ReviewStep) (builder : ReviewerIdentity)
    (reviewers : List ReviewerIdentity) : Prop where
  results : completion.reviewResults = some reviews
  context : completion.independenceContext = some (contextOf builder reviewers)
  found : (⟨.findNewestStep completion.organizationId completion.workflowRunId .redTeam
    .succeeded .finishedAt, .ok (some step)⟩ : Happened) ∈ t
  coordinated : isText (member (some step.metadata) "source")
    "WORKFLOW_AL4_REVIEW_COORDINATOR" = true
  stored : reviewResults (member (some step.metadata) "reviewResults") = some reviews
  two : reviews.length = 2
  backed : List.Forall₂ (Backed t completion.organizationId completion.workflowRunId step.id)
    reviews reviewers
  builderKnown : trim builder.modelFamily ≠ []
  distinctProviders : (reviewers.map ReviewerIdentity.providerId).Nodup
  distinctFamilies : (reviewers.map ReviewerIdentity.modelFamily).Nodup
  notBuilder : builder.providerId ∉ reviewers.map ReviewerIdentity.providerId
  otherFamily : builder.modelFamily ∉ reviewers.map ReviewerIdentity.modelFamily

/-- What the verdict of one review rests on: the step is read twice. -/
structure SingleGrounds (t : List Happened) (completion : ReviewCompletion)
    (verdict : ReviewVerdict) (record : ExecutionRecord) (bound step : ReviewStep) : Prop where
  results : completion.reviewResults = none
  given : completion.verdict = some verdict
  found : (⟨.findNewestStep completion.organizationId completion.workflowRunId .redTeam
    .succeeded .startedAt, .ok (some bound)⟩ : Happened) ∈ t
  again : (⟨.findStep bound.id completion.organizationId completion.workflowRunId .redTeam
    .succeeded, .ok (some step)⟩ : Happened) ∈ t
  stored : member (member (some step.metadata) "reviewResult") "verdict" =
    some (.string (verdictText verdict))
  execution : ∃ invocationId,
    member (member (some bound.metadata) "executionEvidence") "invocationId" =
      some (.string invocationId) ∧
    (⟨.findRecord ⟨invocationId, completion.organizationId, completion.workflowRunId, bound.id,
      "RED_TEAM".toList, none⟩, .ok (some record)⟩ : Happened) ∈ t
  reviewer : member (member (some step.metadata) "reviewResult") "reviewerExecutionId" =
    some (.string record.id)
  artifacts : ∃ artifactRefs,
    stringArray (member (member (some step.metadata) "reviewResult") "artifactRefs") =
      some artifactRefs ∧ artifactRefs ⊆ referenceList (some record.artifactReferences)

/-- What has been read before a verdict completes its step. -/
def Grounded (t : List Happened) (completion : ReviewCompletion) (level : AssuranceLevel) : Prop :=
  if level = .al4 then
    completion.verdict = none ∧
      ∃ reviews step builder reviewers, Al4Grounds t completion reviews step builder reviewers
  else ∃ verdict record bound step, SingleGrounds t completion verdict record bound step

def guard (t : List Happened) : Effect → Prop
  | .completeStep completion =>
      ∃ run level, AtVerdict t completion run level ∧ Grounded t completion level
  | _ => True

/-! ## The runs of a verdict -/

section Runs

variable {t : List Happened} {organizationId workflowRunId reviewStepRunId : Str}

theorem nonEmptyString_eq_some {value : Option Json} {text : Str} :
    nonEmptyString value = some text ↔ value = some (.string text) ∧ trim text ≠ [] := by
  simp [nonEmptyString, Option.filter_eq_some_iff, Json.text_eq_some]

theorem independent_iff {builder : ReviewerIdentity} {reviewers : List ReviewerIdentity}
    {context : IndependenceContext} : independent builder reviewers context = true ↔
      (reviewers.map ReviewerIdentity.providerId).Nodup ∧
        (reviewers.map ReviewerIdentity.modelFamily).Nodup ∧
        builder.providerId ∉ reviewers.map ReviewerIdentity.providerId ∧
        builder.modelFamily ∉ reviewers.map ReviewerIdentity.modelFamily ∧
        context.previousReviewerProviderIds = reviewers.map ReviewerIdentity.providerId ∧
        context.previousReviewerModelFamilies = reviewers.map ReviewerIdentity.modelFamily := by
  simp only [independent, Bool.and_eq_true, decide_eq_true_eq, and_assoc]

/-- A reviewer that has been accepted is backed by what has been read. -/
theorem reviewerOf_backed {review : StoredReview} {lineage : Json} :
    leads guard (reviewerOf organizationId workflowRunId reviewStepRunId review lineage)
      (fun reviewer t' => t ⊆ t' ∧
        Backed t' organizationId workflowRunId reviewStepRunId review reviewer) t := by
  unfold reviewerOf
  refine leads_expect fun executionId _ => leads_expect fun providerId hprovider => ?_
  refine leads_expect fun modelFamily hfamily => leads_require fun hexecution => ?_
  refine leads_require fun _ => leads_perform trivial fun provider => ?_
  refine leads_require fun hsame => leads_perform trivial fun found => ?_
  refine leads_expect fun record hrecord => leads_require fun hartifacts => ?_
  subst hrecord
  obtain ⟨provider, rfl, hmodel⟩ := (Option.any_eq_true _ _).mp hsame
  have hsame : review.reviewerExecutionId = executionId := of_decide_eq_true hexecution
  refine ⟨by simp, ⟨provider, by simp, of_decide_eq_true hmodel⟩, ⟨record, by simp [hsame], ?_⟩,
    (nonEmptyString_eq_some.mp hprovider).2, (nonEmptyString_eq_some.mp hfamily).2⟩
  simpa using hartifacts

/-- The loop over the reviews: each of them is backed. -/
theorem reviewersOf_backed : ∀ (pairs : List (StoredReview × Json)) {t : List Happened},
    leads guard (reviewersOf organizationId workflowRunId reviewStepRunId pairs)
      (fun reviewers t' => t ⊆ t' ∧
        List.Forall₂ (Backed t' organizationId workflowRunId reviewStepRunId)
          (pairs.map Prod.fst) reviewers) t
  | [], _ => ⟨fun _ h => h, .nil⟩
  | (review, lineage) :: rest, t => by
      refine leads_bind reviewerOf_backed fun reviewer t₁ hfirst => ?_
      refine leads_bind (reviewersOf_backed rest) fun reviewers t₂ hrest => ?_
      refine ⟨fun _ h => hrest.1 (hfirst.1 h), ?_⟩
      exact .cons (hfirst.2.mono hrest.1) hrest.2

theorem al4Evidence_eq_some {metadata : Option Json} {evidence : Al4Evidence}
    (h : al4Evidence metadata = some evidence) :
    reviewResults (member metadata "reviewResults") = some evidence.reviews ∧
      independenceContext (member metadata "independenceContext") = some evidence.context ∧
      evidence.reviews.length = 2 ∧ evidence.lineage.length = 2 := by
  simp only [al4Evidence, Option.bind_eq_bind, Option.bind_eq_some_iff] at h
  obtain ⟨reviews, hreviews, context, hcontext, builder, -, h⟩ := h
  split at h
  · rename_i hlengths
    cases h
    simp only [Bool.and_eq_true, decide_eq_true_eq] at hlengths
    exact ⟨hreviews, hcontext, hlengths⟩
  · cases h

theorem builderOf_eq_some {evidence : Al4Evidence} {builder : ReviewerIdentity}
    (h : builderOf evidence = some builder) :
    evidence.context.builderProviderId = some builder.providerId ∧
      evidence.context.builderModelFamily = some builder.modelFamily ∧
      trim builder.modelFamily ≠ [] := by
  simp only [builderOf, Option.bind_eq_bind, Option.bind_eq_some_iff] at h
  obtain ⟨providerId, -, modelFamily, hfamily, h⟩ := h
  split at h
  · rename_i hsame
    cases h
    simp only [Bool.and_eq_true, decide_eq_true_eq] at hsame
    exact ⟨hsame.1, hsame.2, (nonEmptyString_eq_some.mp hfamily).2⟩
  · cases h

/-- The context is the one of these reviewers. -/
theorem context_eq {evidence : Al4Evidence} {builder : ReviewerIdentity}
    {reviewers : List ReviewerIdentity} (hbuilder : builderOf evidence = some builder)
    (hindependent : independent builder reviewers evidence.context = true) :
    evidence.context = contextOf builder reviewers := by
  obtain ⟨hid, hfamily, -⟩ := builderOf_eq_some hbuilder
  obtain ⟨-, -, -, -, hids, hfamilies⟩ := independent_iff.mp hindependent
  cases hcontext : evidence.context with
  | mk builderProviderId builderModelFamily ids families =>
      rw [hcontext] at hid hfamily hids hfamilies
      rw [contextOf, ← hid, ← hfamily, ← hids, ← hfamilies]

theorem parseAl4AndTransition_holds {run : RunRow} {parseStep : ReviewStep}
    (hrun : (⟨.findRun organizationId workflowRunId, .ok (some run)⟩ : Happened) ∈ t)
    (hstatus : run.status = .running) (hcurrent : run.currentStepType = some .parseVerdict)
    (hlevel : AgentRuntime.assuranceLevel run.assuranceLevel = some .al4)
    (hready : (⟨.findNewestStep organizationId workflowRunId .parseVerdict .ready .startedAt,
      .ok (some parseStep)⟩ : Happened) ∈ t) :
    leads guard (parseAl4AndTransition organizationId workflowRunId parseStep.id)
      (fun _ _ => True) t := by
  unfold parseAl4AndTransition
  refine leads_perform trivial fun found => leads_expect fun step hstep => ?_
  subst hstep
  refine leads_require fun hsource => leads_expect fun evidence hevidence => ?_
  refine leads_expect fun builder hbuilder => ?_
  refine leads_bind (reviewersOf_backed _) fun reviewers t' hreviewers => ?_
  refine leads_require fun hindependent => ?_
  obtain ⟨hreviews, -, htwo, hlineage⟩ := al4Evidence_eq_some hevidence
  obtain ⟨hids, hfamilies, hnot, hother, -⟩ := independent_iff.mp hindependent
  obtain ⟨ht, hbacked⟩ := hreviewers
  have hzip : (evidence.reviews.zip evidence.lineage).map Prod.fst = evidence.reviews :=
    List.map_fst_zip (by omega)
  rw [hzip] at hbacked
  refine leads_perform ⟨run, .al4, ⟨ht (by simp [hrun]), hstatus, hcurrent, hlevel, parseStep,
    ht (by simp [hready]), rfl⟩, ?_⟩ fun _ => trivial
  rw [Grounded, if_pos rfl]
  exact ⟨rfl, evidence.reviews, step, builder, reviewers, rfl,
    congrArg some (context_eq hbuilder hindependent), ht (by simp), hsource, hreviews, htwo,
    hbacked, (builderOf_eq_some hbuilder).2.2, hids, hfamilies, hnot, hother⟩

/-- The evidence of a single review, with what has been read for it. -/
structure Resolved (t : List Happened) (organizationId workflowRunId : Str) (record : ExecutionRecord)
    (bound : ReviewStep) (evidence : ReviewEvidence) : Prop where
  found : (⟨.findNewestStep organizationId workflowRunId .redTeam .succeeded .startedAt,
    .ok (some bound)⟩ : Happened) ∈ t
  execution : ∃ invocationId,
    member (member (some bound.metadata) "executionEvidence") "invocationId" =
      some (.string invocationId) ∧
    (⟨.findRecord ⟨invocationId, organizationId, workflowRunId, bound.id, "RED_TEAM".toList,
      none⟩, .ok (some record)⟩ : Happened) ∈ t
  step : evidence.reviewStepRunId = bound.id
  invocation : evidence.invocationId = record.id
  artifacts : evidence.artifactReferences = referenceList (some record.artifactReferences)

theorem resolveEvidence_resolved :
    leads guard (resolveEvidence organizationId workflowRunId)
      (fun evidence t' => t ⊆ t' ∧ ∃ record bound,
        Resolved t' organizationId workflowRunId record bound evidence) t := by
  unfold resolveEvidence
  refine leads_perform trivial fun _ => leads_expect fun run _ => ?_
  refine leads_perform trivial fun found => leads_expect fun bound hbound => ?_
  refine leads_expect fun invocationId hinvocation => leads_perform trivial fun found => ?_
  refine leads_expect fun record hrecord => leads_require fun _ => leads_require fun _ => ?_
  subst hbound hrecord
  exact ⟨by simp, record, bound, by simp, ⟨invocationId, (boundedString_eq_some.mp hinvocation).1,
    by simp⟩, rfl, rfl, rfl⟩

theorem parseSingleAndTransition_holds {run : RunRow} {parseStep : ReviewStep}
    {level : AssuranceLevel} (hne : level ≠ .al4)
    (hrun : (⟨.findRun organizationId workflowRunId, .ok (some run)⟩ : Happened) ∈ t)
    (hstatus : run.status = .running) (hcurrent : run.currentStepType = some .parseVerdict)
    (hlevel : AgentRuntime.assuranceLevel run.assuranceLevel = some level)
    (hready : (⟨.findNewestStep organizationId workflowRunId .parseVerdict .ready .startedAt,
      .ok (some parseStep)⟩ : Happened) ∈ t) :
    leads guard (parseSingleAndTransition organizationId workflowRunId parseStep.id level)
      (fun _ _ => True) t := by
  unfold parseSingleAndTransition
  refine leads_bind resolveEvidence_resolved fun evidence t' hresolved => ?_
  refine leads_perform trivial fun found => leads_expect fun step hstep => ?_
  subst hstep
  refine leads_require fun _ => leads_expect fun verdict hverdict => leads_require fun hsame => ?_
  refine leads_require fun _ => leads_require fun hartifacts => ?_
  obtain ⟨ht, record, bound, resolved⟩ := hresolved
  refine leads_perform ⟨run, level, ⟨by simp [ht hrun], hstatus, hcurrent, hlevel, parseStep,
    by simp [ht hready], rfl⟩, ?_⟩ fun _ => trivial
  rw [Grounded, if_neg hne]
  obtain ⟨invocationId, hinvocation, hrecord⟩ := resolved.execution
  refine ⟨verdict, record, bound, step, rfl, rfl, by simp [resolved.found], ?_,
    member?_text verdictText hverdict, ⟨invocationId, hinvocation,
      List.mem_append_left _ hrecord⟩, ?_, ?_⟩
  · simp [resolved.step]
  · rw [← resolved.invocation]
    exact Json.text_eq_some.mp (of_decide_eq_true hsame)
  · obtain ⟨artifactRefs, hrefs, hall⟩ := (Option.any_eq_true _ _).mp hartifacts
    have hall : ∀ reference ∈ artifactRefs, reference ∈ evidence.artifactReferences := by
      simpa using hall
    exact ⟨artifactRefs, hrefs, fun reference h => resolved.artifacts ▸ hall reference h⟩

theorem parseAndTransition_holds :
    leads guard (parseAndTransition organizationId workflowRunId) (fun _ _ => True) [] := by
  unfold parseAndTransition
  refine leads_perform trivial fun found => leads_expect fun run hrun => ?_
  refine leads_require fun hready => leads_expect fun level hlevel => ?_
  refine leads_perform trivial fun foundStep => leads_expect fun parseStep hparse => ?_
  subst hrun hparse
  obtain ⟨hstatus, hcurrent⟩ : run.status = .running ∧
      run.currentStepType = some .parseVerdict := by simpa using hready
  split
  · rename_i h
    exact parseAl4AndTransition_holds (by simp) hstatus hcurrent (h ▸ hlevel) (by simp)
  · rename_i h
    exact parseSingleAndTransition_holds h (by simp) hstatus hcurrent hlevel (by simp)

end Runs

/-! ## What the state machine makes of two reviews -/

/-- What the database promises of the execution records: an answer meets its condition, and a record
keeps its provider. -/
structure Ledger (t : List Happened) : Prop where
  selected : ∀ query record, (⟨.findRecord query, .ok (some record)⟩ : Happened) ∈ t →
    record.id = query.id ∧ ∀ providerId ∈ query.providerId, record.providerId = providerId
  keyed : ∀ query query' record record',
    (⟨.findRecord query, .ok (some record)⟩ : Happened) ∈ t →
    (⟨.findRecord query', .ok (some record')⟩ : Happened) ∈ t →
    record.id = record'.id → record.providerId = record'.providerId

def StoredReview.toResult (review : StoredReview) : ReviewResult :=
  ⟨.known review.verdict, review.reviewerExecutionId⟩

/-- The completion as the workflow runtime is given it. -/
def ReviewCompletion.toInput (completion : ReviewCompletion) : CompleteStepInput where
  organizationId := completion.organizationId
  workflowRunId := completion.workflowRunId
  workflowStepRunId := completion.workflowStepRunId
  stepStatus := .succeeded
  providerStatus := none
  verdict := completion.verdict.map .known
  reviewResults := completion.reviewResults.map fun reviews => reviews.map StoredReview.toResult
  independenceContext := completion.independenceContext
  humanApproved := false
  metadata := some completion.metadata

/-- Whether an effect completes a step. -/
def completes : Effect → Bool
  | .completeStep _ => true
  | _ => false

section Decisions

variable {t : List Happened} {completion : ReviewCompletion} {reviews : List StoredReview}
variable {step : ReviewStep} {builder : ReviewerIdentity} {reviewers : List ReviewerIdentity}
variable {organizationId workflowRunId : Str}

/-- Reviews by different providers are different executions. -/
theorem executions_nodup (ledger : Ledger t)
    (backed : List.Forall₂ (Backed t organizationId workflowRunId step.id) reviews reviewers)
    (hdistinct : (reviewers.map ReviewerIdentity.providerId).Nodup) :
    (reviews.map StoredReview.reviewerExecutionId).Nodup := by
  induction backed with
  | nil => exact List.nodup_nil
  | @cons review reviewer reviews reviewers hbacked hrest ih =>
      rw [List.map_cons, List.nodup_cons] at hdistinct ⊢
      refine ⟨?_, ih hdistinct.2⟩
      intro hmem
      obtain ⟨other, hother, hid⟩ := List.mem_map.mp hmem
      -- The same execution would have the same provider.
      obtain ⟨provider, hprovider, hother⟩ := Selections.exists_of_forall₂ hrest hother
      obtain ⟨record, hrecord, -⟩ := hbacked.execution
      obtain ⟨record', hrecord', -⟩ := hother.execution
      obtain ⟨hsame, hof⟩ := ledger.selected _ _ hrecord
      obtain ⟨hsame', hof'⟩ := ledger.selected _ _ hrecord'
      have hproviders := ledger.keyed _ _ _ _ hrecord hrecord' (by rw [hsame, hsame', hid])
      rw [hof _ rfl, hof' _ rfl] at hproviders
      exact hdistinct.1 (hproviders ▸ List.mem_map_of_mem hprovider)

/-- The context of two reviewers that have been accepted. -/
theorem Al4Grounds.independent (grounds : Al4Grounds t completion reviews step builder reviewers) :
    IndependentReviewers (contextOf builder reviewers) where
  two := by
    simp only [contextOf, List.length_map, ← grounds.backed.length_eq, grounds.two, le_refl]
  distinctProviders := grounds.distinctProviders
  notBuilder := by
    rintro _ ⟨⟩
    exact grounds.notBuilder
  builderFamily := ⟨_, rfl, grounds.builderKnown, grounds.otherFamily⟩
  knownFamilies := by
    intro family hfamily
    obtain ⟨reviewer, hreviewer, rfl⟩ := List.mem_map.mp hfamily
    obtain ⟨review, -, hbacked⟩ := Selections.exists_of_forall₂ grounds.backed.flip hreviewer
    exact hbacked.known
  distinctFamilies := grounds.distinctFamilies

/-- Independent reviewers pass the tests of the state machine on the context. -/
theorem Al4Grounds.tested (grounds : Al4Grounds t completion reviews step builder reviewers) :
    TestedContext (contextOf builder reviewers) := by
  have hlength := grounds.backed.length_eq.symm.trans grounds.two
  obtain ⟨first, second, rfl⟩ := List.length_eq_two.mp hlength
  obtain ⟨hids, -⟩ := List.nodup_cons.mp grounds.distinctProviders
  obtain ⟨hfamilies, -⟩ := List.nodup_cons.mp grounds.distinctFamilies
  obtain ⟨hother, -⟩ := not_or.mp (List.mem_cons.not.mp grounds.otherFamily)
  rw [List.map_singleton, List.mem_singleton] at hids hfamilies
  refine ⟨?_, first.modelFamily, second.modelFamily, [], builder.modelFamily, rfl, rfl,
    grounds.builderKnown, Ne.symm hother, fun _ => hfamilies⟩
  simp [contextOf, List.eraseDups_cons, Ne.symm hids]

section Outcomes

variable {input : StateMachineInput}

/-- Nothing of the AL4 requirements fails. -/
theorem Al4Grounds.enforced (grounds : Al4Grounds t completion reviews step builder reviewers)
    (ledger : Ledger t) (hresults : input.reviewResults = some (reviews.map StoredReview.toResult))
    (hcontext : input.independenceContext = some (contextOf builder reviewers)) :
    enforceAl4Requirements input = none := by
  by_cases hlevel : input.assuranceLevel = "AL4".toList
  · refine (enforceAl4Requirements_none hlevel).mpr
      ⟨⟨_, hresults, ?_, ?_⟩, _, hcontext, grounds.tested⟩
    · simp [grounds.two]
    · rw [List.map_map]
      exact executions_nodup ledger grounds.backed grounds.distinctProviders
  · rw [enforceAl4Requirements, if_pos hlevel]

/-- PARSE_VERDICT is decided by the verdicts alone. -/
theorem Al4Grounds.decided {first second : StoredReview}
    (grounds : Al4Grounds t completion [first, second] step builder reviewers) (ledger : Ledger t)
    (hstep : input.completedStep = .parseVerdict) (hstatus : input.stepStatus = .succeeded)
    (hprovider : input.providerStatus = none)
    (hresults : input.reviewResults = some [first.toResult, second.toResult])
    (hcontext : input.independenceContext = some (contextOf builder reviewers)) :
    nextEngineeringStep input =
      if second.verdict = first.verdict then followVerdict input (.known first.verdict)
      else .blocked (.reviewDisagreement [.known first.verdict, .known second.verdict]) := by
  have hparse : nextEngineeringStep input = Workflow.parseVerdict input := by
    simp [nextEngineeringStep, hprovider, hstep]
  rw [hparse, Workflow.parseVerdict, if_neg (not_not.mpr hstatus),
    resolveVerdict_of_results hresults]
  by_cases hsame : second.verdict = first.verdict
  · have hagree : resolveReviewerDisagreement [first.toResult, second.toResult] =
        .ok (.known first.verdict) :=
      resolveReviewerDisagreement_ok.mpr ⟨by simp, by simp [StoredReview.toResult, hsame]⟩
    simp only [hagree, grounds.enforced ledger hresults hcontext, if_pos hsame]
  · simp [resolveReviewerDisagreement, StoredReview.toResult, hsame]

theorem accepted_of_followVerdict {verdict : ReviewVerdict}
    (h : followVerdict input (.known verdict) = .nextStep .verify) : verdict = .A ∨ verdict = .B := by
  cases verdict with
  | A => exact .inl rfl
  | B => exact .inr rfl
  | C =>
      change correctOrExhaust input = .nextStep .verify at h
      rw [correctOrExhaust] at h
      split at h
      · cases h
      · cases h
  | D => cases h

/-- What leads to VERIFY has been accepted by both reviewers. -/
theorem Al4Grounds.unanimous {first second : StoredReview}
    (grounds : Al4Grounds t completion [first, second] step builder reviewers) (ledger : Ledger t)
    (h : (if second.verdict = first.verdict then followVerdict input (.known first.verdict)
      else .blocked (.reviewDisagreement [.known first.verdict, .known second.verdict])) =
        .nextStep .verify) :
    UnanimousReviews [first.toResult, second.toResult] := by
  split at h
  · rename_i hsame
    refine ⟨le_refl 2, ?_, first.verdict, accepted_of_followVerdict h, ?_⟩
    · exact executions_nodup ledger grounds.backed grounds.distinctProviders
    · simp [StoredReview.toResult, hsame]
  · cases h

end Outcomes

/-- What two reviews lead to: their reviewers are independent, by every rule of the code, and the
verdicts alone decide. -/
structure Decides (completion : ReviewCompletion) (first second : StoredReview)
    (context : IndependenceContext) (input : StateMachineInput) : Prop where
  reviewers : IndependentReviewers context
  checked : checkAl4Independence context 2 = none
  routed : DescribesRouting context
  outcome : nextEngineeringStep input =
    if second.verdict = first.verdict then followVerdict input (.known first.verdict)
    else .blocked (.reviewDisagreement [.known first.verdict, .known second.verdict])
  verified : nextEngineeringStep input = .nextStep .verify → Independent input

/-- Every verdict of two reviews rests on reviews by independent reviewers, which are registered
and whose executions are in the ledger; the state machine decides by their verdicts alone, and
leads to VERIFY only what has been reviewed independently. -/
theorem al4_verdict_is_independent
    {k : Except HttpError (Option Str) → Program VerdictTransition}
    (trace : Trace (parseAndTransition organizationId workflowRunId) t
      (.call (.completeStep completion) k))
    (hreviews : completion.reviewResults = some reviews) (ledger : Ledger t) :
    ∃ first second step builder reviewers,
      reviews = [first, second] ∧ Al4Grounds t completion reviews step builder reviewers ∧
        ∀ (freshRun : WorkflowRun) (freshStep : WorkflowStepRun),
          freshStep.stepType = .parseVerdict →
          Decides completion first second (contextOf builder reviewers)
            (stateMachineInput completion.toInput freshRun freshStep) := by
  obtain ⟨run, level, -, grounded⟩ := trace.guarded parseAndTransition_holds
  rw [Grounded] at grounded
  split at grounded
  case isFalse =>
    obtain ⟨verdict, record, bound, step, single⟩ := grounded
    rw [single.results] at hreviews
    cases hreviews
  obtain ⟨-, reviews', step, builder, reviewers, grounds⟩ := grounded
  obtain rfl : reviews' = reviews := Option.some.inj (grounds.results.symm.trans hreviews)
  obtain ⟨first, second, rfl⟩ := List.length_eq_two.mp grounds.two
  refine ⟨first, second, step, builder, reviewers, rfl, grounds, ?_⟩
  intro freshRun freshStep hstep
  have hresults : (stateMachineInput completion.toInput freshRun freshStep).reviewResults =
      some [first.toResult, second.toResult] := by
    simp [stateMachineInput, ReviewCompletion.toInput, grounds.results]
  have hdecided : nextEngineeringStep (stateMachineInput completion.toInput freshRun freshStep) =
      if second.verdict = first.verdict then
        followVerdict (stateMachineInput completion.toInput freshRun freshStep)
          (.known first.verdict)
      else .blocked (.reviewDisagreement [.known first.verdict, .known second.verdict]) :=
    grounds.decided ledger hstep rfl rfl hresults grounds.context
  have hchecked := checkAl4Independence_none grounds.tested (le_refl 2)
  have hrouted : DescribesRouting (contextOf builder reviewers) :=
    grounds.independent.describesRouting (by simp [contextOf])
  refine ⟨grounds.independent, hchecked, hrouted, hdecided, fun hverify => ?_⟩
  rw [hdecided] at hverify
  exact ⟨_, _, hresults, grounds.unanimous ledger hverify, grounds.context, grounds.independent,
    hchecked, hrouted⟩

end Decisions

/-! ## A run -/

section Samples

private def sampleReview (executionId : String) (verdict : ReviewVerdict) : ProjectedReview :=
  ⟨verdict, [], executionId.toList, .al4, ["gov://report".toList]⟩

private def sampleReviewed (executionId providerId : String) : Reviewed :=
  ⟨⟨[], providerId.toList, [], none, []⟩, sampleReview executionId .A⟩

private def sampleMetadata : Json :=
  coordinationMetadata ⟨"builder".toList, "claude".toList⟩
    [(sampleReviewed "e1" "p1", ⟨"p1".toList, "gpt".toList⟩),
      (sampleReviewed "e2" "p2", ⟨"p2".toList, "gemini".toList⟩)]

/-- The ledger has two executions. -/
private def sampleRecord (query : RecordQuery) : Option ExecutionRecord :=
  let record (providerId : String) : ExecutionRecord :=
    ⟨query.id, providerId.toList, "RED_TEAM".toList, none, strings ["gov://report".toList], none,
      none⟩
  let found := if query.id = "e1".toList then some (record "p1")
    else if query.id = "e2".toList then some (record "p2") else none
  found.filter fun record => query.providerId.all (· = record.providerId)

/-- A run of which two reviews have been coordinated. -/
private def sampleAnswer : (e : Effect) → Except HttpError (Answer e)
  | .findRun _ _ =>
      .ok (some ⟨"run".toList, none, .running, some .parseVerdict, "AL4".toList, []⟩)
  | .findNewestStep _ _ stepType _ _ =>
      .ok (some ⟨(stepName stepType).toList, sampleMetadata, none⟩)
  | .findStep _ _ _ _ _ => .ok none
  | .findTask _ _ => .ok none
  | .findProvider _ id =>
      .ok (some ⟨id, some (if id = "p1".toList then "gpt".toList else "gemini".toList)⟩)
  | .findRecord query => .ok (sampleRecord query)
  | .dispatch _ => .error .database
  | .completeStep _ => .ok none

private def verdictRun : List Happened × Program VerdictTransition :=
  (parseAndTransition "org".toList "run".toList).runUntil sampleAnswer completes

private theorem sampleRecord_some {query : RecordQuery} {record : ExecutionRecord}
    (h : sampleRecord query = some record) :
    record.id = query.id ∧ (∀ providerId ∈ query.providerId, record.providerId = providerId) ∧
      record.providerId = if query.id = "e1".toList then "p1".toList else "p2".toList := by
  obtain ⟨hfound, hprovider⟩ := Option.filter_eq_some_iff.mp h
  have hof : ∀ providerId ∈ query.providerId, record.providerId = providerId := by
    rintro providerId hquery
    rw [Option.mem_def.mp hquery] at hprovider
    exact (of_decide_eq_true hprovider).symm
  split at hfound
  · rename_i hid
    cases hfound
    exact ⟨rfl, hof, (if_pos hid).symm⟩
  · rename_i hid
    split at hfound
    · cases hfound
      exact ⟨rfl, hof, (if_neg hid).symm⟩
    · cases hfound

private theorem verdictRun_ledger : Ledger verdictRun.1 where
  selected query record h := by
    have hrecord := sampleRecord_some (Except.ok.inj (mem_runUntil h)).symm
    exact ⟨hrecord.1, hrecord.2.1⟩
  keyed query query' record record' h h' hid := by
    obtain ⟨hrecord, -, hprovider⟩ := sampleRecord_some (Except.ok.inj (mem_runUntil h)).symm
    obtain ⟨hrecord', -, hprovider'⟩ := sampleRecord_some (Except.ok.inj (mem_runUntil h')).symm
    rw [hprovider, hprovider', ← hrecord, ← hrecord', hid]

theorem al4_verdict_is_independent_two :
    ∃ completion reviews, verdictRun.2.next = some (.completeStep completion) ∧
      completion.reviewResults = some reviews ∧
      ∃ first second step builder reviewers,
        reviews = [first, second] ∧
          Al4Grounds verdictRun.1 completion reviews step builder reviewers ∧
          ∀ (freshRun : WorkflowRun) (freshStep : WorkflowStepRun),
            freshStep.stepType = .parseVerdict →
            Decides completion first second (contextOf builder reviewers)
              (stateMachineInput completion.toInput freshRun freshStep) := by
  have hnext : ∃ completion reviews, verdictRun.2.next = some (.completeStep completion) ∧
      completion.reviewResults = some reviews := by
    exact ⟨_, _, rfl, rfl⟩
  obtain ⟨completion, reviews, hcompletes, hreviews⟩ := hnext
  obtain ⟨k, hk⟩ := next_eq_some hcompletes
  have trace : Trace (parseAndTransition "org".toList "run".toList) verdictRun.1
      (.call (.completeStep completion) k) := by
    rw [← hk]
    exact trace_runUntil _ _ _
  exact ⟨completion, reviews, hcompletes, hreviews,
    al4_verdict_is_independent trace hreviews verdictRun_ledger⟩

end Samples

end AgentRuntime.Reviews
