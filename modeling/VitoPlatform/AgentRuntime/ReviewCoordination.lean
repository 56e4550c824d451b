import VitoPlatform.AgentRuntime.ReviewVerdicts

/-!
# What two reviews leave for their verdict

`coordinate` completes the RED_TEAM step with what `parseAndTransition` reads later. What it has
written are the reviews of two agents that have been dispatched one after the other, and the verdict
takes them as they are, unless the first of the two reviewers is the builder.
-/

namespace AgentRuntime.Reviews

open Text Workflow Invocation Persistence Prog
open Services (HttpError)

/-! ## What is written about two reviews -/

/-- A reviewer that is registered with its model family. -/
def Registered (t : List Happened) (organizationId providerId : Str) (reviewer : ReviewerIdentity) :
    Prop :=
  ∃ provider, (⟨.findProvider organizationId providerId, .ok (some provider)⟩ : Happened) ∈ t ∧
    provider.id = reviewer.providerId ∧ provider.modelFamily = some reviewer.modelFamily ∧
    trim reviewer.modelFamily ≠ []

/-- The builder is the provider that the newest BUILD step has selected. -/
def Built (t : List Happened) (organizationId workflowRunId : Str) (builder : ReviewerIdentity) :
    Prop :=
  ∃ buildStep providerId, (⟨.findNewestStep organizationId workflowRunId .build .succeeded
    .finishedAt, .ok (some buildStep)⟩ : Happened) ∈ t ∧
    member (some buildStep.metadata) "selectedProviderId" = some (.string providerId) ∧
    trim providerId ≠ [] ∧ Registered t organizationId providerId builder

/-- A review has been dispatched for the step in this context, and is what its agent reports. -/
structure ReviewedIn (parse : Str → Option Json) (t : List Happened)
    (organizationId stepRunId : Str) (context : IndependenceContext) (reviewed : Reviewed)
    (reviewer : ReviewerIdentity) : Prop where
  dispatched : ∃ input, (⟨.dispatch input, .ok reviewed.dispatch⟩ : Happened) ∈ t ∧
    input.workflowStepRunId = stepRunId ∧
    input.capabilityCode = "RED_TEAM".toList ∧ input.assuranceLevel = "AL4".toList ∧
    input.independenceContext = context
  succeeded : isText (member (some (.object reviewed.dispatch.execution)) "status") "SUCCEEDED" =
    true
  projected : projectReview parse (.object reviewed.dispatch.execution) "AL4".toList =
    some reviewed.review
  registered : Registered t organizationId reviewed.dispatch.selectedProviderId reviewer

/-- What `coordinate` completes the step with. -/
structure Coordinated (parse : Str → Option Json) (t : List Happened)
    (completion : ReviewCompletion) (builder : ReviewerIdentity)
    (first second : Reviewed × ReviewerIdentity) : Prop where
  metadata : completion.metadata = coordinationMetadata builder [first, second]
  built : Built t completion.organizationId completion.workflowRunId builder
  firstReview : ReviewedIn parse t completion.organizationId completion.workflowStepRunId
    (contextOf builder []) first.1 first.2
  secondReview : ReviewedIn parse t completion.organizationId completion.workflowStepRunId
    (contextOf builder [first.2]) second.1 second.2
  otherProvider : second.2.providerId ≠ first.2.providerId
  otherFamily : second.2.modelFamily ≠ first.2.modelFamily
  notBuilder : second.2.providerId ≠ builder.providerId
  notFamily : second.2.modelFamily ≠ builder.modelFamily

def coordinationGuard (parse : Str → Option Json) (t : List Happened) : Effect → Prop
  | .completeStep completion =>
      ∃ builder first second, Coordinated parse t completion builder first second
  | _ => True

section Coordination

variable {parse : Str → Option Json} {t : List Happened} {organizationId workflowRunId : Str}

theorem resolveReviewerIdentity_registered {providerId : Str} :
    leads (coordinationGuard parse) (resolveReviewerIdentity organizationId providerId)
      (fun reviewer t' => t ⊆ t' ∧ Registered t' organizationId providerId reviewer) t := by
  unfold resolveReviewerIdentity
  refine leads_perform trivial fun found => wp_expect.mpr ⟨fun reviewer h => ?_, fun _ => trivial⟩
  simp only [Option.bind_eq_bind, Option.bind_eq_some_iff, Option.filter_eq_some_iff] at h
  obtain ⟨provider, rfl, modelFamily, ⟨hfamily, hknown⟩, h⟩ := h
  cases h
  exact ⟨by simp, provider, by simp, rfl, hfamily, of_decide_eq_true hknown⟩

theorem Registered.mono {t' : List Happened} {providerId : Str} {reviewer : ReviewerIdentity}
    (h : Registered t organizationId providerId reviewer) (ht : t ⊆ t') :
    Registered t' organizationId providerId reviewer := by
  obtain ⟨provider, hprovider, hidentity⟩ := h
  exact ⟨provider, ht hprovider, hidentity⟩

theorem ReviewedIn.mono {t' : List Happened} {stepRunId : Str} {context : IndependenceContext}
    {reviewed : Reviewed} {reviewer : ReviewerIdentity}
    (h : ReviewedIn parse t organizationId stepRunId context reviewed reviewer) (ht : t ⊆ t') :
    ReviewedIn parse t' organizationId stepRunId context reviewed reviewer := by
  obtain ⟨⟨input, hdispatch, hinput⟩, hsucceeded, hprojected, hregistered⟩ := h
  exact ⟨⟨input, ht hdispatch, hinput⟩, hsucceeded, hprojected, hregistered.mono ht⟩

theorem Built.mono {t' : List Happened} {builder : ReviewerIdentity}
    (h : Built t organizationId workflowRunId builder) (ht : t ⊆ t') :
    Built t' organizationId workflowRunId builder := by
  obtain ⟨buildStep, providerId, hstep, hselected, hknown, hregistered⟩ := h
  exact ⟨buildStep, providerId, ht hstep, hselected, hknown, hregistered.mono ht⟩

theorem resolveBuilderLineage_built :
    leads (coordinationGuard parse) (resolveBuilderLineage organizationId workflowRunId)
      (fun builder t' => Built t' organizationId workflowRunId builder) t := by
  unfold resolveBuilderLineage
  refine leads_perform trivial fun found => leads_expect fun providerId hselected => ?_
  obtain ⟨hselected, hknown⟩ := nonEmptyString_eq_some.mp hselected
  cases found with
  | none => cases hselected
  | some buildStep =>
      refine wp_mono resolveReviewerIdentity_registered ?_ fun _ _ _ => trivial
      rintro builder t' ⟨ht, hregistered⟩
      exact ⟨buildStep, providerId, ht (by simp), hselected, hknown, hregistered⟩

/-- A review and the identity of its reviewer. -/
theorem review_holds {input : ReviewDispatch} {α : Type}
    {post : α → List Happened → Prop} {k : Reviewed → ReviewerIdentity → Program α}
    (hcapability : input.capabilityCode = "RED_TEAM".toList)
    (hlevel : input.assuranceLevel = "AL4".toList)
    (h : ∀ reviewed reviewer t', t ⊆ t' →
      ReviewedIn parse t' organizationId input.workflowStepRunId input.independenceContext
        reviewed reviewer →
      leads (coordinationGuard parse) (k reviewed reviewer) post t') :
    leads (coordinationGuard parse)
      (dispatchReview parse input >>= fun reviewed =>
        resolveReviewerIdentity organizationId reviewed.dispatch.selectedProviderId >>=
          k reviewed) post t := by
  have hdispatch : leads (coordinationGuard parse) (dispatchReview parse input)
      (fun reviewed t' => t' = t ++ [⟨.dispatch input, .ok reviewed.dispatch⟩] ∧
        isText (member (some (.object reviewed.dispatch.execution)) "status") "SUCCEEDED" = true ∧
          projectReview parse (.object reviewed.dispatch.execution) "AL4".toList =
            some reviewed.review) t := by
    unfold dispatchReview
    refine leads_perform trivial fun dispatch => leads_require fun hsucceeded => ?_
    refine leads_expect fun review hreview => ?_
    exact ⟨rfl, hsucceeded, hlevel ▸ hreview⟩
  refine leads_bind hdispatch fun reviewed t₁ hreviewed => ?_
  obtain ⟨rfl, hsucceeded, hprojected⟩ := hreviewed
  refine leads_bind resolveReviewerIdentity_registered fun reviewer t' hreviewer => ?_
  refine h reviewed reviewer t' (fun _ hmem => hreviewer.1 (by simp [hmem])) ?_
  exact ⟨⟨input, hreviewer.1 (by simp), rfl, hcapability, hlevel, rfl⟩, hsucceeded, hprojected,
    hreviewer.2⟩

theorem coordinate_holds :
    leads (coordinationGuard parse) (coordinate parse organizationId workflowRunId)
      (fun _ _ => True) [] := by
  unfold coordinate
  refine leads_perform trivial fun _ => leads_expect fun run _ => leads_require fun _ => ?_
  refine leads_perform trivial fun _ => leads_expect fun step _ => ?_
  refine leads_expect fun capabilityCode hcapability => leads_expect fun taskId _ => ?_
  refine leads_perform trivial fun _ => leads_expect fun task _ => ?_
  refine leads_bind resolveBuilderLineage_built fun builder t hbuilder => ?_
  have hcode : capabilityCode = "RED_TEAM".toList := by
    obtain ⟨-, hcode⟩ := Option.filter_eq_some_iff.mp hcapability
    exact of_decide_eq_true hcode
  refine review_holds hcode rfl fun first firstReviewer t₁ ht₁ hfirst => ?_
  refine review_holds hcode rfl fun second secondReviewer t₂ ht₂ hsecond => ?_
  refine leads_require fun hdiffer => ?_
  simp only [Bool.and_eq_true, decide_eq_true_eq, ne_eq] at hdiffer
  obtain ⟨⟨⟨hprovider, hfamily⟩, hnotBuilder⟩, hnotFamily⟩ := hdiffer
  refine leads_perform ⟨builder, (first, firstReviewer), (second, secondReviewer), ?_⟩
    fun _ => trivial
  exact ⟨rfl, (hbuilder.mono ht₁).mono ht₂, hfirst.mono ht₂, hsecond, hprovider, hfamily,
    hnotBuilder, hnotFamily⟩

end Coordination

/-! ## What the verdict reads of it -/

/-- The review as it is read from what has been written. -/
def stored (review : ProjectedReview) : StoredReview :=
  ⟨review.verdict, review.reviewerExecutionId, review.assuranceLevel, review.artifactRefs⟩

section Readers

theorem texts_mapM (texts : List Str) :
    (texts.map Json.string).mapM (fun item => Json.text (some item)) = some texts := by
  induction texts with
  | nil => rfl
  | cons text texts ih =>
      rw [List.map_cons, List.mapM_cons, ih]
      rfl

@[simp] theorem stringArray_strings (texts : List Str) :
    stringArray (some (strings texts)) = some texts := texts_mapM texts

theorem isVerdict_text (verdict : ReviewVerdict) :
    isVerdict (some (.string (verdictText verdict))) = some verdict := by
  cases verdict <;> rfl

theorem normalizeAssuranceLevel_text (level : AssuranceLevel) :
    normalizeAssuranceLevel (some (.string level.text)) = some level := by
  cases level <;> rfl

theorem reviewResult_reviewJson {review : ProjectedReview}
    (hid : boundedString (some (.string review.reviewerExecutionId)) 256 =
      some review.reviewerExecutionId) (hlevel : review.assuranceLevel = .al4) :
    reviewResult (reviewJson review) = some (stored review) := by
  have hverdict : isVerdict (member (some (reviewJson review)) "verdict") = some review.verdict :=
    isVerdict_text review.verdict
  have hexecution : boundedString (member (some (reviewJson review)) "reviewerExecutionId") 256 =
      some review.reviewerExecutionId := hid
  have hassured : normalizeAssuranceLevel (member (some (reviewJson review)) "assuranceLevel") =
      some review.assuranceLevel := normalizeAssuranceLevel_text review.assuranceLevel
  have hrefs : stringArray (member (some (reviewJson review)) "artifactRefs") =
      some review.artifactRefs := stringArray_strings _
  have hfindings : isArray (member (some (reviewJson review)) "findings") = true := rfl
  simp [reviewResult, hverdict, hexecution, hassured, hrefs, hfindings, hlevel, stored]

/-- What a projected review has from the execution and the level. -/
theorem projectReview_source {parse : Str → Option Json} {execution : Json} {level : Str}
    {review : ProjectedReview} (h : projectReview parse execution level = some review) :
    boundedString (some (.string review.reviewerExecutionId)) 256 =
        some review.reviewerExecutionId ∧
      AgentRuntime.assuranceLevel level = some review.assuranceLevel ∧
      review.artifactRefs = references (member (some execution) "artifactReferences") 32 := by
  simp only [projectReview, Option.bind_eq_bind, Option.bind_eq_some_iff] at h
  obtain ⟨invocationId, hinvocation, assurance, hlevel, payload, -, verdict, -, h⟩ := h
  have hbounded := boundedString_eq_some.mp hinvocation
  split at h
  · split at h
    · cases h
    · obtain ⟨findings, -, h⟩ := Option.bind_eq_some_iff.mp h
      cases h
      exact ⟨boundedString_eq_some.mpr ⟨rfl, hbounded.2⟩, hlevel, rfl⟩
  · cases h

/-- The references of a projection are among those of what it has been projected from. -/
theorem mem_referenceList_of_references {value : Option Json} {reference : Str}
    (h : reference ∈ referenceList (some (strings (references value 32)))) :
    reference ∈ referenceList (some (value.getD .null)) := by
  have hmem : reference ∈ references value 32 := by
    obtain ⟨item, hitem, hreference⟩ := List.mem_filterMap.mp (List.mem_of_mem_take h)
    obtain ⟨text, htext, rfl⟩ := List.mem_map.mp hitem
    obtain ⟨hsame, -⟩ := boundedString_eq_some.mp hreference
    cases hsame
    exact htext
  unfold references at hmem
  split at hmem
  · rename_i items
    split at hmem
    · cases hmem
    · rename_i hfew
      have hlength := List.length_filterMap_le (fun item => boundedString (some item) 2048) items
      change reference ∈ (items.filterMap fun item => boundedString (some item) 2048).take 32
      rwa [List.take_of_length_le (by omega)]
  · cases hmem

end Readers

/-! ## The verdict takes the reviews as they are -/

/-- The ledger has the execution of a review, and the reviewer is still registered with its model
family. -/
structure Confirms (env : (e : Effect) → Except HttpError (Answer e))
    (organizationId workflowRunId stepRunId : Str) (review : Reviewed × ReviewerIdentity) :
    Prop where
  identified : trim review.2.providerId ≠ []
  provider : ∃ provider, env (.findProvider organizationId review.2.providerId) =
    .ok (some provider) ∧ provider.modelFamily = some review.2.modelFamily
  record : ∃ record, env (.findRecord ⟨review.1.review.reviewerExecutionId, organizationId,
      workflowRunId, stepRunId, "RED_TEAM".toList, some review.2.providerId⟩) =
      .ok (some record) ∧
    record.artifactReferences =
      (member (some (.object review.1.dispatch.execution)) "artifactReferences").getD .null

/-- What a verdict finds of a run whose RED_TEAM step has been completed. -/
structure Finds (env : (e : Effect) → Except HttpError (Answer e)) (completion : ReviewCompletion)
    (run : RunRow) (parseStep step : ReviewStep) : Prop where
  foundRun : env (.findRun completion.organizationId completion.workflowRunId) = .ok (some run)
  status : run.status = .running
  current : run.currentStepType = some .parseVerdict
  level : AgentRuntime.assuranceLevel run.assuranceLevel = some .al4
  ready : env (.findNewestStep completion.organizationId completion.workflowRunId .parseVerdict
    .ready .startedAt) = .ok (some parseStep)
  foundStep : env (.findNewestStep completion.organizationId completion.workflowRunId .redTeam
    .succeeded .finishedAt) = .ok (some step)
  metadata : step.metadata = completion.metadata

section Agreement

variable {env : (e : Effect) → Except HttpError (Answer e)} {parse : Str → Option Json}
variable {organizationId workflowRunId stepRunId : Str} {t : List Happened}

/-- A review that has been reported as it was projected. -/
structure Projected (parse : Str → Option Json) (review : Reviewed × ReviewerIdentity) : Prop where
  projected : projectReview parse (.object review.1.dispatch.execution) "AL4".toList =
    some review.1.review
  known : trim review.2.modelFamily ≠ []

theorem reviewerOf_run {review : Reviewed × ReviewerIdentity} (hprojected : Projected parse review)
    (h : Confirms env organizationId workflowRunId stepRunId review) :
    ((reviewerOf organizationId workflowRunId stepRunId (stored review.1.review)
      (reviewerLineage review.1 review.2)).runUntil env completes).2 = .pure review.2 := by
  obtain ⟨hbounded, hlevel, hrefs⟩ := projectReview_source hprojected.projected
  obtain ⟨provider, hprovider, hfamily⟩ := h.provider
  obtain ⟨record, hrecord, hartifacts⟩ := h.record
  unfold reviewerOf
  refine (runUntil_expect hbounded).trans ?_
  refine (runUntil_expect (nonEmptyString_eq_some.mpr ⟨rfl, h.identified⟩)).trans ?_
  refine (runUntil_expect (nonEmptyString_eq_some.mpr ⟨rfl, hprojected.known⟩)).trans ?_
  refine (runUntil_require (decide_eq_true rfl)).trans ?_
  refine (runUntil_require (decide_eq_true (Option.some.inj hlevel).symm)).trans ?_
  refine (runUntil_perform rfl hprovider).trans ?_
  refine (runUntil_require (decide_eq_true hfamily)).trans ?_
  refine (runUntil_perform rfl hrecord).trans ?_
  refine (runUntil_expect rfl).trans ?_
  refine (runUntil_require ?_).trans rfl
  simp only [List.all_eq_true, decide_eq_true_eq]
  intro reference hreference
  rw [hartifacts]
  exact mem_referenceList_of_references (hrefs ▸ hreference)

theorem reviewersOf_run : ∀ (reviews : List (Reviewed × ReviewerIdentity)),
    (∀ review ∈ reviews, Projected parse review ∧
      Confirms env organizationId workflowRunId stepRunId review) →
    ((reviewersOf organizationId workflowRunId stepRunId (reviews.map fun review =>
      (stored review.1.review, reviewerLineage review.1 review.2))).runUntil env completes).2 =
        .pure (reviews.map Prod.snd)
  | [], _ => rfl
  | review :: rest, h => by
      obtain ⟨hprojected, hconfirms⟩ := h review List.mem_cons_self
      have hrest := reviewersOf_run rest fun other hother => h other (List.mem_cons_of_mem _ hother)
      exact (runUntil_bind (reviewerOf_run hprojected hconfirms)).trans (runUntil_bind hrest)

theorem reviewResults_map {reviews : List (Reviewed × ReviewerIdentity)}
    (h : ∀ review ∈ reviews, Projected parse review) :
    reviewResults (some (.array (reviews.map fun review => reviewJson review.1.review))) =
      some (reviews.map fun review => stored review.1.review) := by
  simp only [reviewResults]
  induction reviews with
  | nil => rfl
  | cons review reviews ih =>
      obtain ⟨hbounded, hlevel, -⟩ :=
        projectReview_source (h review List.mem_cons_self).projected
      have hal4 : review.1.review.assuranceLevel = .al4 := (Option.some.inj hlevel).symm
      rw [List.map_cons, List.mapM_cons, reviewResult_reviewJson hbounded hal4,
        ih fun other hother => h other (List.mem_cons_of_mem _ hother)]
      rfl

/-- The evidence of two reviews that have been written. -/
def writtenEvidence (builder : ReviewerIdentity) (reviews : List (Reviewed × ReviewerIdentity)) :
    Al4Evidence where
  reviews := reviews.map fun review => stored review.1.review
  context := contextOf builder (reviews.map Prod.snd)
  builder := .object (identityFields builder)
  lineage := reviews.map fun review => reviewerLineage review.1 review.2

theorem independenceContext_written {builder : ReviewerIdentity}
    {reviews : List (Reviewed × ReviewerIdentity)} (hid : trim builder.providerId ≠ [])
    (hfamily : trim builder.modelFamily ≠ []) :
    independenceContext (member (some (coordinationMetadata builder reviews))
      "independenceContext") = some (contextOf builder (reviews.map Prod.snd)) := by
  let written := member (some (coordinationMetadata builder reviews)) "independenceContext"
  have hproviderId : nonEmptyString (member written "builderProviderId") =
      some builder.providerId := nonEmptyString_eq_some.mpr ⟨rfl, hid⟩
  have hmodelFamily : nonEmptyString (member written "builderModelFamily") =
      some builder.modelFamily := nonEmptyString_eq_some.mpr ⟨rfl, hfamily⟩
  have hids : stringArray (member written "previousReviewerProviderIds") =
      some (reviews.map (·.2.providerId)) := stringArray_strings _
  have hfamilies : stringArray (member written "previousReviewerModelFamilies") =
      some (reviews.map (·.2.modelFamily)) := stringArray_strings _
  change independenceContext written = _
  simp [independenceContext, hproviderId, hmodelFamily, hids, hfamilies, contextOf, Function.comp]

theorem al4Evidence_coordinationMetadata {builder : ReviewerIdentity}
    {first second : Reviewed × ReviewerIdentity} (hid : trim builder.providerId ≠ [])
    (hfamily : trim builder.modelFamily ≠ [])
    (hprojected : ∀ review ∈ [first, second], Projected parse review) :
    al4Evidence (some (coordinationMetadata builder [first, second])) =
      some (writtenEvidence builder [first, second]) := by
  have hreviews : reviewResults (member (some (coordinationMetadata builder [first, second]))
      "reviewResults") = some (writtenEvidence builder [first, second]).reviews :=
    reviewResults_map hprojected
  have hcontext : independenceContext (member (some (coordinationMetadata builder [first, second]))
      "independenceContext") = some (writtenEvidence builder [first, second]).context :=
    independenceContext_written hid hfamily
  have hbuilder : (member (some (coordinationMetadata builder [first, second]))
      "builderLineage").filter (fun builder => (RedTeamEvidence.record (some builder)).isSome) =
        some (writtenEvidence builder [first, second]).builder := rfl
  have hlineage : objectArray (member (some (coordinationMetadata builder [first, second]))
      "reviewerLineage") = (writtenEvidence builder [first, second]).lineage := rfl
  simp only [al4Evidence, hreviews, hcontext, hbuilder, hlineage]
  rfl

/-- What the verdict is completed with. -/
def verdictCompletion (completion : ReviewCompletion) (parseStepId stepId : Str)
    (builder : ReviewerIdentity) (reviews : List (Reviewed × ReviewerIdentity)) :
    ReviewCompletion where
  organizationId := completion.organizationId
  workflowRunId := completion.workflowRunId
  workflowStepRunId := parseStepId
  verdict := none
  reviewResults := some (reviews.map fun review => stored review.1.review)
  independenceContext := some (contextOf builder (reviews.map Prod.snd))
  metadata := al4VerdictMetadata stepId (reviews.map fun review => stored review.1.review) builder
    (reviews.map Prod.snd)

/-- How a verdict on two written reviews ends. -/
def VerdictEnds (verdict : Program VerdictTransition) (completion : ReviewCompletion)
    (parseStepId stepId : Str) (builder : ReviewerIdentity)
    (reviews : List (Reviewed × ReviewerIdentity)) : Prop :=
  if independent builder (reviews.map Prod.snd) (contextOf builder (reviews.map Prod.snd)) then
    verdict.next =
      some (.completeStep (verdictCompletion completion parseStepId stepId builder reviews))
  else
    verdict = .throw (.conflict ("AL4 reviewer independence cannot be proven from " ++
      "persisted authoritative lineage."))

theorem builderOf_written {builder : ReviewerIdentity}
    {reviews : List (Reviewed × ReviewerIdentity)} (hid : trim builder.providerId ≠ [])
    (hfamily : trim builder.modelFamily ≠ []) :
    builderOf (writtenEvidence builder reviews) = some builder := by
  have hproviderId : nonEmptyString (member (some (.object (identityFields builder)))
      "providerId") = some builder.providerId := nonEmptyString_eq_some.mpr ⟨rfl, hid⟩
  have hmodelFamily : nonEmptyString (member (some (.object (identityFields builder)))
      "modelFamily") = some builder.modelFamily := nonEmptyString_eq_some.mpr ⟨rfl, hfamily⟩
  simp [builderOf, hproviderId, hmodelFamily, writtenEvidence, contextOf]

theorem parseAl4AndTransition_run {completion : ReviewCompletion} {run : RunRow}
    {parseStep step : ReviewStep} {builder : ReviewerIdentity}
    {first second : Reviewed × ReviewerIdentity} (h : Finds env completion run parseStep step)
    (hmetadata : completion.metadata = coordinationMetadata builder [first, second])
    (hid : trim builder.providerId ≠ []) (hfamily : trim builder.modelFamily ≠ [])
    (hreviews : ∀ review ∈ [first, second], Projected parse review ∧
      Confirms env completion.organizationId completion.workflowRunId step.id review) :
    VerdictEnds ((parseAndTransition completion.organizationId completion.workflowRunId).runUntil
      env completes).2 completion parseStep.id step.id builder [first, second] := by
  have hevidence : al4Evidence (some step.metadata) =
      some (writtenEvidence builder [first, second]) := by
    rw [h.metadata, hmetadata]
    exact al4Evidence_coordinationMetadata hid hfamily fun review hmem => (hreviews review hmem).1
  have hsource : isText (member (some step.metadata) "source")
      "WORKFLOW_AL4_REVIEW_COORDINATOR" = true := by
    rw [h.metadata, hmetadata]
    rfl
  have hparse : ((parseAndTransition completion.organizationId completion.workflowRunId).runUntil
      env completes).2 = ((parseAl4AndTransition completion.organizationId completion.workflowRunId
        parseStep.id).runUntil env completes).2 := by
    unfold parseAndTransition
    refine (runUntil_perform rfl h.foundRun).trans ?_
    refine (runUntil_expect rfl).trans ?_
    refine (runUntil_require (by simp [h.status, h.current])).trans ?_
    refine (runUntil_expect h.level).trans ?_
    refine (runUntil_perform rfl h.ready).trans ?_
    refine (runUntil_expect rfl).trans ?_
    rw [if_pos rfl]
  have hreviewers : ((reviewersOf completion.organizationId completion.workflowRunId step.id
      ((writtenEvidence builder [first, second]).reviews.zip
        (writtenEvidence builder [first, second]).lineage)).runUntil env completes).2 =
      .pure [first.2, second.2] := reviewersOf_run [first, second] hreviews
  rw [VerdictEnds, hparse]
  unfold parseAl4AndTransition ask
  rw [runUntil_perform rfl h.foundStep, runUntil_expect rfl, runUntil_require hsource,
    runUntil_expect hevidence, runUntil_expect (builderOf_written hid hfamily),
    runUntil_bind hreviewers]
  split
  · rename_i hindependent
    exact (congrArg Prog.next (runUntil_require hindependent)).trans (next_runUntil rfl)
  · rename_i hindependent
    exact runUntil_require_false (Bool.eq_false_iff.mpr hindependent)

/-- The verdict looks at the first reviewer, whom `coordinate` leaves to the routing. -/
theorem Coordinated.independent_iff {completion : ReviewCompletion} {builder : ReviewerIdentity}
    {first second : Reviewed × ReviewerIdentity}
    (h : Coordinated parse t completion builder first second) :
    independent builder [first.2, second.2] (contextOf builder [first.2, second.2]) = true ↔
      first.2.providerId ≠ builder.providerId ∧ first.2.modelFamily ≠ builder.modelFamily := by
  rw [Reviews.independent_iff]
  simp only [contextOf, List.map_cons, List.map_nil, List.nodup_cons, List.mem_cons,
    List.not_mem_nil, or_false, not_false_eq_true, List.nodup_nil, and_true, not_or]
  constructor
  · rintro ⟨-, -, hprovider, hfamily⟩
    exact ⟨Ne.symm hprovider.1, Ne.symm hfamily.1⟩
  · rintro ⟨hprovider, hfamily⟩
    exact ⟨Ne.symm h.otherProvider, Ne.symm h.otherFamily,
      ⟨Ne.symm hprovider, Ne.symm h.notBuilder⟩, Ne.symm hfamily, Ne.symm h.notFamily⟩

/-- What `coordinate` completes a step with are the reviews of two agents, dispatched one after the
other. The verdict hands exactly these reviews and reviewers to the state machine if the first
reviewer is neither the builder nor of its model family, and otherwise it is refused. -/
theorem reviews_reach_their_verdict {completion : ReviewCompletion}
    {k : Except HttpError (Option Str) → Program Coordination}
    (trace : Trace (coordinate parse organizationId workflowRunId) t
      (.call (.completeStep completion) k)) :
    ∃ builder first second, Coordinated parse t completion builder first second ∧
      ∀ (env : (e : Effect) → Except HttpError (Answer e)) (run : RunRow)
        (parseStep step : ReviewStep),
        Finds env completion run parseStep step → trim builder.providerId ≠ [] →
        Confirms env completion.organizationId completion.workflowRunId step.id first →
        Confirms env completion.organizationId completion.workflowRunId step.id second →
        let verdict := ((parseAndTransition completion.organizationId
          completion.workflowRunId).runUntil env completes).2
        if first.2.providerId ≠ builder.providerId ∧ first.2.modelFamily ≠ builder.modelFamily then
          verdict.next = some (.completeStep
            (verdictCompletion completion parseStep.id step.id builder [first, second]))
        else
          verdict = .throw (.conflict ("AL4 reviewer independence cannot be proven from " ++
            "persisted authoritative lineage.")) := by
  obtain ⟨builder, first, second, coordinated⟩ := trace.guarded coordinate_holds
  refine ⟨builder, first, second, coordinated, ?_⟩
  intro env run parseStep step finds hid hfirst hsecond
  have hreviews : ∀ review ∈ [first, second], Projected parse review ∧
      Confirms env completion.organizationId completion.workflowRunId step.id review := by
    obtain ⟨-, -, -, -, hfirstKnown⟩ := coordinated.firstReview.registered
    obtain ⟨-, -, -, -, hsecondKnown⟩ := coordinated.secondReview.registered
    intro review hmem
    obtain rfl | rfl := List.mem_pair.mp hmem
    · exact ⟨⟨coordinated.firstReview.projected, hfirstKnown⟩, hfirst⟩
    · exact ⟨⟨coordinated.secondReview.projected, hsecondKnown⟩, hsecond⟩
  obtain ⟨-, -, -, -, -, -, -, -, -, hbuilderKnown⟩ := coordinated.built
  have hends := parseAl4AndTransition_run finds coordinated.metadata hid hbuilderKnown hreviews
  simp only [VerdictEnds, List.map_cons, List.map_nil] at hends
  intro verdict
  split
  · rename_i hother
    rwa [if_pos (coordinated.independent_iff.mpr hother)] at hends
  · rename_i hsame
    rwa [if_neg (coordinated.independent_iff.not.mpr hsame)] at hends

end Agreement

/-! ## A run -/

section Samples

private def familyOf (providerId : Str) : Str :=
  if providerId = "builder".toList then "claude".toList
  else if providerId = "p1".toList then "gpt".toList
  else "gemini".toList

private def acceptingReport : Json :=
  .object [("verdict".toList, .string ['A']), ("findings".toList, .array [])]

private def reportedBy (providerId invocationId : String) : AgentDispatch :=
  ⟨[], providerId.toList, [], none, [("status".toList, .string "SUCCEEDED".toList),
    ("invocationId".toList, .string invocationId.toList),
    ("providerExecutionMetadata".toList,
      .object [("stdout".toList, .string "report".toList)]),
    ("artifactReferences".toList, strings ["gov://report".toList])]⟩

/-- Each review is dispatched to another provider. -/
private def reviewDispatch (input : ReviewDispatch) : AgentDispatch :=
  if input.independenceContext.previousReviewerProviderIds = [] then reportedBy "p1" "e1"
  else reportedBy "p2" "e2"

/-- A run whose change has been built by the provider `builder`. -/
private def coordinationAnswer : (e : Effect) → Except HttpError (Answer e)
  | .findRun _ _ => .ok (some ⟨"run".toList, some "task".toList, .running, some .redTeam,
      "AL4".toList, []⟩)
  | .findNewestStep _ _ stepType _ _ => .ok (some ⟨(stepName stepType).toList,
      .object [("selectedProviderId".toList, .string "builder".toList)], none⟩)
  | .findStep _ _ _ _ _ => .ok none
  | .findTask _ taskId => .ok (some ⟨taskId, [], none⟩)
  | .findProvider _ id => .ok (some ⟨id, some (familyOf id)⟩)
  | .findRecord _ => .ok none
  | .dispatch input => .ok (reviewDispatch input)
  | .completeStep _ => .ok none

/-- What the verdict finds, once the RED_TEAM step has these metadata. -/
private def verdictAnswer (metadata : Json) : (e : Effect) → Except HttpError (Answer e)
  | .findRun _ _ => .ok (some ⟨"run".toList, some "task".toList, .running, some .parseVerdict,
      "AL4".toList, []⟩)
  | .findNewestStep _ _ stepType _ _ => .ok (some ⟨(stepName stepType).toList, metadata, none⟩)
  | .findStep _ _ _ _ _ => .ok none
  | .findTask _ _ => .ok none
  | .findProvider _ id => .ok (some ⟨id, some (familyOf id)⟩)
  | .findRecord query => .ok (some ⟨query.id, query.providerId.getD [], query.capabilityCode, none,
      strings ["gov://report".toList], none, none⟩)
  | .dispatch _ => .error .database
  | .completeStep _ => .ok none

private def coordinationRun : List Happened × Program Coordination :=
  (coordinate (fun _ => some acceptingReport) "org".toList "run".toList).runUntil
    coordinationAnswer completes

private theorem coordinationRun_registered {organizationId providerId : Str}
    {reviewer : ReviewerIdentity}
    (h : Registered coordinationRun.1 organizationId providerId reviewer) :
    reviewer = ⟨providerId, familyOf providerId⟩ := by
  obtain ⟨provider, hprovider, hid, hfamily, -⟩ := h
  cases Option.some.inj (Except.ok.inj (mem_runUntil hprovider))
  cases reviewer with
  | mk id family =>
      cases hid
      cases hfamily
      rfl

private theorem coordinationRun_reviewed {parse : Str → Option Json} {stepRunId : Str}
    {context : IndependenceContext} {organizationId : Str} {review : Reviewed × ReviewerIdentity}
    (h : ReviewedIn parse coordinationRun.1 organizationId stepRunId context review.1 review.2) :
    (review.2 = ⟨"p1".toList, "gpt".toList⟩ ∨ review.2 = ⟨"p2".toList, "gemini".toList⟩) ∧
      member (some (.object review.1.dispatch.execution)) "artifactReferences" =
        some (strings ["gov://report".toList]) := by
  obtain ⟨input, hdispatch, -⟩ := h.dispatched
  have hanswer : review.1.dispatch = reviewDispatch input :=
    Except.ok.inj (mem_runUntil hdispatch)
  rw [coordinationRun_registered h.registered, hanswer, reviewDispatch]
  split
  · exact ⟨.inl rfl, rfl⟩
  · exact ⟨.inr rfl, rfl⟩

private theorem coordinationRun_confirmed {parse : Str → Option Json} {stepRunId : Str}
    {context : IndependenceContext} {organizationId workflowRunId stepId : Str} {metadata : Json}
    {review : Reviewed × ReviewerIdentity}
    (h : ReviewedIn parse coordinationRun.1 organizationId stepRunId context review.1 review.2) :
    Confirms (verdictAnswer metadata) organizationId workflowRunId stepId review := by
  obtain ⟨hreviewer, hartifacts⟩ := coordinationRun_reviewed h
  refine ⟨?_, ⟨_, rfl, ?_⟩, _, rfl, ?_⟩
  · obtain hreviewer | hreviewer := hreviewer
    · rw [hreviewer]
      decide
    · rw [hreviewer]
      decide
  · obtain hreviewer | hreviewer := hreviewer
    · rw [hreviewer]
      rfl
    · rw [hreviewer]
      rfl
  · rw [hartifacts]
    rfl

theorem reviews_reach_their_verdict_accepted :
    ∃ completion builder first second,
      coordinationRun.2.next = some (.completeStep completion) ∧
        Coordinated (fun _ => some acceptingReport) coordinationRun.1 completion builder first
          second ∧
        ((parseAndTransition completion.organizationId completion.workflowRunId).runUntil
            (verdictAnswer completion.metadata) completes).2.next =
          some (.completeStep (verdictCompletion completion "PARSE_VERDICT".toList
            "RED_TEAM".toList builder [first, second])) := by
  have hnext : ∃ completion, coordinationRun.2.next = some (.completeStep completion) := by
    exact ⟨_, rfl⟩
  obtain ⟨completion, hcompletes⟩ := hnext
  obtain ⟨k, hk⟩ := next_eq_some hcompletes
  have trace : Trace (coordinate (fun _ => some acceptingReport) "org".toList "run".toList)
      coordinationRun.1 (.call (.completeStep completion) k) := by
    rw [← hk]
    exact trace_runUntil _ _ _
  obtain ⟨builder, first, second, coordinated, hverdict⟩ := reviews_reach_their_verdict trace
  have hbuilder : builder = ⟨"builder".toList, "claude".toList⟩ := by
    obtain ⟨buildStep, providerId, hstep, hselected, -, hregistered⟩ := coordinated.built
    cases Option.some.inj (Except.ok.inj (mem_runUntil hstep))
    cases hselected
    exact coordinationRun_registered hregistered
  have hother : first.2.providerId ≠ builder.providerId ∧
      first.2.modelFamily ≠ builder.modelFamily := by
    obtain ⟨hfirst | hfirst, -⟩ := coordinationRun_reviewed coordinated.firstReview
    · rw [hfirst, hbuilder]
      decide
    · rw [hfirst, hbuilder]
      decide
  have hid : trim builder.providerId ≠ [] := by
    rw [hbuilder]
    decide
  have finds : Finds (verdictAnswer completion.metadata) completion
      ⟨"run".toList, some "task".toList, .running, some .parseVerdict, "AL4".toList, []⟩
      ⟨"PARSE_VERDICT".toList, completion.metadata, none⟩
      ⟨"RED_TEAM".toList, completion.metadata, none⟩ :=
    ⟨rfl, rfl, rfl, rfl, rfl, rfl, rfl⟩
  have hends := hverdict _ _ _ _ finds hid (coordinationRun_confirmed coordinated.firstReview)
    (coordinationRun_confirmed coordinated.secondReview)
  dsimp only at hends
  rw [if_pos hother] at hends
  exact ⟨completion, builder, first, second, hcompletes, coordinated, hends⟩

end Samples

end AgentRuntime.Reviews
