import Mathlib.Algebra.Order.Ring.Rat
import Mathlib.Data.Rat.Floor
import VitoPlatform.Dispatch.Approvals
import VitoPlatform.Library.InsertionMap
import VitoPlatform.Library.Ranking
import VitoPlatform.Workflow.Independence

/-!
# The provider router

`ProviderRouterService`: every provider of the organization is checked in a fixed order of
phases, the eligible ones are scored, and the one that comes first by score and then by code is
selected. Scores are rational numbers; `localeCompare` is a parameter, and so is the clock, which
each of the two freshness checks of a candidate reads anew.

Identifiers are generated, so no record is asked for a key that has a meaning of its own. What
the decision stores and audits is the response again and is left out.
-/

namespace Routing

open Text Invocation Workflow Dispatch

inductive EligibilityPhase where
  | capability
  | statusPolicy
  | availability
  | quota
  | assurance
  | independence
  | budget
  deriving DecidableEq

/-- A declaration with what the router reads besides: times of observation and scores. -/
structure RoutedDeclaration extends ProviderDeclaration where
  healthCheckedAt : Option Int
  quotaCheckedAt : Option Int
  qualityScore : Option Rat
  latencyScore : Option Rat
  costScore : Option Rat
  deriving DecidableEq

/-! ## Freshness -/

/-- `ProviderRuntimeStateService`, with the times its checks read for a provider code. -/
structure RuntimeState where
  healthyTtlMs : Int
  failureBackoffMs : Int
  healthCheckAt : Str → Int
  quotaCheckAt : Str → Int

namespace RuntimeState

def healthTtl (state : RuntimeState) (status : ProviderHealthStatus) : Int :=
  if status = .healthy ∨ status = .degraded then state.healthyTtlMs else state.failureBackoffMs

def quotaTtl (state : RuntimeState) (status : ProviderQuotaStatus) : Int :=
  if status = .available ∨ status = .limited then state.healthyTtlMs else state.failureBackoffMs

def isHealthFresh (state : RuntimeState) (provider : RoutedDeclaration) : Bool :=
  provider.healthCheckedAt.any fun checkedAt =>
    state.healthCheckAt provider.providerCode - checkedAt ≤ state.healthTtl provider.healthStatus

def isQuotaFresh (state : RuntimeState) (provider : RoutedDeclaration) : Bool :=
  provider.quotaCheckedAt.any fun checkedAt =>
    state.quotaCheckAt provider.providerCode - checkedAt ≤ state.quotaTtl provider.quotaStatus

end RuntimeState

/-! ## Scores -/

structure RawScores where
  qualityRaw : Rat
  costRaw : Rat
  latencyRaw : Rat
  healthRaw : Rat

structure ProviderScoreComponents where
  qualityScore : Rat
  costScore : Rat
  latencyScore : Rat
  healthPreference : Rat
  raw : RawScores

structure RoutingScoreWeights where
  quality : Rat
  cost : Rat
  latency : Rat
  healthPreference : Rat

/-- `DEFAULT_ROUTING_SCORE_WEIGHTS`. -/
def defaultRoutingScoreWeights : RoutingScoreWeights := ⟨4 / 10, 3 / 10, 2 / 10, 1 / 10⟩

def computeScore (provider : RoutedDeclaration) : ProviderScoreComponents :=
  let healthPreference : Rat :=
    match provider.healthStatus with
    | .healthy => 1
    | .degraded => 1 / 2
    | _ => 3 / 10
  { qualityScore := provider.qualityScore.getD (1 / 2)
    costScore := (provider.costScore.map fun cost => max 0 (1 - cost / 1000)).getD (1 / 2)
    latencyScore :=
      (provider.latencyScore.map fun latency => max 0 (1 - latency / 10000)).getD (1 / 2)
    healthPreference := healthPreference
    raw :=
      { qualityRaw := provider.qualityScore.getD (1 / 2)
        costRaw := provider.costScore.getD 500
        latencyRaw := provider.latencyScore.getD 5000
        healthRaw := healthPreference } }

def aggregateScore (components : ProviderScoreComponents) : Rat :=
  let weights := defaultRoutingScoreWeights
  components.qualityScore * weights.quality + components.costScore * weights.cost +
    components.latencyScore * weights.latency +
    components.healthPreference * weights.healthPreference

/-! ## Eligibility -/

structure RoutingCandidate where
  provider : RoutedDeclaration
  eligible : Bool
  rejectionReason : Option RoutingRejectionReason := none
  rejectionPhase : Option EligibilityPhase := none
  scoreComponents : Option ProviderScoreComponents := none
  finalScore : Option Rat := none

def rejected (provider : RoutedDeclaration) (reason : RoutingRejectionReason)
    (phase : EligibilityPhase) : RoutingCandidate where
  provider := provider
  eligible := false
  rejectionReason := some reason
  rejectionPhase := some phase

/-- The last phase, and the acceptance of a candidate that passes it. -/
def evaluateBudget (provider : RoutedDeclaration) (request : ProviderRoutingRequest) :
    RoutingCandidate :=
  match request.maxCostMinorUnits with
  | none => { provider := provider, eligible := true }
  | some maximum =>
      match provider.estimatedCostMinorUnits with
      | none => rejected provider .costUnknown .budget
      | some cost =>
          if cost > maximum then rejected provider .budgetIncompatible .budget
          else { provider := provider, eligible := true }

def evaluateCandidate (runtimeState : Option RuntimeState) (request : ProviderRoutingRequest)
    (provider : RoutedDeclaration) : RoutingCandidate :=
  if !providerSupportsCapability provider.toProviderDeclaration request.capability then
    rejected provider .capabilityUnsupported .capability
  else if provider.status = .disabled then rejected provider .providerDisabled .statusPolicy
  else if provider.status = .degraded then rejected provider .providerUnhealthy .statusPolicy
  else if runtimeState.any fun state => !state.isHealthFresh provider then
    rejected provider .healthStatusStale .availability
  else if provider.healthStatus = .disabled then
    rejected provider .providerDisabled .availability
  else if provider.healthStatus = .unavailable then
    rejected provider .providerUnavailable .availability
  else if provider.healthStatus = .quotaLimited then
    rejected provider .quotaUnavailable .availability
  else if provider.healthStatus = .unknown then
    rejected provider .providerUnhealthy .availability
  else if runtimeState.any fun state => !state.isQuotaFresh provider then
    rejected provider .quotaStatusStale .quota
  else if provider.quotaStatus = .exhausted then rejected provider .quotaExhausted .quota
  else if provider.quotaStatus = .unknown then rejected provider .quotaStatusUnknown .quota
  -- An empty level is falsy: it is no requirement.
  else if (truthy request.assuranceLevel).any fun level =>
      provider.assuranceLevels.length > 0 && !provider.assuranceLevels.contains level then
    rejected provider .assuranceLevelUnsupported .assurance
  else
    match request.independenceContext.bind
        (checkIndependence provider.toProviderDeclaration ·) with
    | some violation => rejected provider violation .independence
    | none => evaluateBudget provider request

/-! ## Selection -/

section Selection

variable (localeCompare : Str → Str → Ordering)

/-- The comparison of the sort: the higher score first, then by provider code. -/
def compareScored (a b : RoutingCandidate) : Ordering :=
  (compare (b.finalScore.getD 0) (a.finalScore.getD 0)).then
    (localeCompare a.provider.providerCode b.provider.providerCode)

/-- An eligible candidate with its score. -/
def scoreCandidate (candidate : RoutingCandidate) : RoutingCandidate :=
  { candidate with
    scoreComponents := some (computeScore candidate.provider)
    finalScore := some (aggregateScore (computeScore candidate.provider)) }

/-- `value.toFixed(4)`. -/
def toFixed4 (value : Rat) : Str :=
  let scaled := (|value| * 10000 + 1 / 2).floor.toNat
  let decimals := Nat.toDigits 10 (scaled % 10000)
  (if value < 0 then ['-'] else []) ++ Nat.toDigits 10 (scaled / 10000) ++
    '.' :: (List.replicate (4 - decimals.length) '0' ++ decimals)

def decisionReason (selected : Option RoutingCandidate) : Str :=
  match selected with
  | some candidate =>
      "Provider ".toList ++ candidate.provider.providerCode ++ " ausgewählt (Score: ".toList ++
        ((candidate.finalScore.map toFixed4).getD "N/A".toList) ++ ")".toList
  | none => "Kein geeigneter Provider für die angeforderte Capability".toList

/-- The response, but for the identifier of the stored decision. -/
structure RoutingResponse where
  selectedProvider : Option RoutedDeclaration
  eligibleCandidateIds : List Str
  allCandidateIds : List Str
  rejectionReasons : InsertionMap Str RoutingRejectionReason
  rejectionPhases : InsertionMap Str EligibilityPhase
  scoreComponents : InsertionMap Str ProviderScoreComponents
  finalScores : InsertionMap Str Rat
  decisionReason : Str

/-- The entries `(id, field)` of the candidates that have the field. -/
def recordOf {α : Type} (field : RoutingCandidate → Option α)
    (candidates : List RoutingCandidate) : InsertionMap Str α :=
  .ofEntries (candidates.filterMap fun c => (field c).map fun value => (c.provider.id, value))

variable (runtimeState : Option RuntimeState) (request : ProviderRoutingRequest)

/-- The evaluated candidates that are eligible, in the order of the sort. -/
def scoredCandidates (candidates : List RoutedDeclaration) : List RoutingCandidate :=
  Ranking.sort (compareScored localeCompare)
    (((candidates.map (evaluateCandidate runtimeState request)).filter (·.eligible)).map
      scoreCandidate)

/-- The evaluated candidates, with the scores of the eligible ones. -/
def allCandidates (candidates : List RoutedDeclaration) : List RoutingCandidate :=
  let scored := scoredCandidates localeCompare runtimeState request candidates
  let scoredMap := InsertionMap.ofEntries (scored.map fun s => (s.provider.id, s))
  (candidates.map (evaluateCandidate runtimeState request)).map fun c =>
    (scoredMap.get c.provider.id).getD c

def routeInternal (candidates : List RoutedDeclaration) : RoutingResponse :=
  let evaluated := candidates.map (evaluateCandidate runtimeState request)
  let rejected := evaluated.filter (!·.eligible)
  let allCandidates := allCandidates localeCompare runtimeState request candidates
  let selected := (scoredCandidates localeCompare runtimeState request candidates).head?
  { selectedProvider := selected.map (·.provider)
    eligibleCandidateIds := (allCandidates.filter (·.eligible)).map (·.provider.id)
    allCandidateIds := allCandidates.map (·.provider.id)
    rejectionReasons := recordOf (·.rejectionReason) rejected
    rejectionPhases := recordOf (·.rejectionPhase) rejected
    scoreComponents := recordOf (·.scoreComponents) allCandidates
    finalScores := recordOf (·.finalScore) allCandidates
    decisionReason := decisionReason selected }

end Selection

/-! ## What the checks establish -/

/-- The declaration passes every phase. -/
structure Routable (runtimeState : Option RuntimeState) (request : ProviderRoutingRequest)
    (provider : RoutedDeclaration) : Prop where
  capability : providerSupportsCapability provider.toProviderDeclaration request.capability = true
  status : provider.status = .active
  healthFresh : ∀ state, runtimeState = some state → state.isHealthFresh provider = true
  health : provider.healthStatus = .healthy ∨ provider.healthStatus = .degraded
  quotaFresh : ∀ state, runtimeState = some state → state.isQuotaFresh provider = true
  quota : provider.quotaStatus = .available ∨ provider.quotaStatus = .limited
  assurance : ∀ level, request.assuranceLevel = some level → level ≠ [] →
    provider.assuranceLevels = [] ∨ level ∈ provider.assuranceLevels
  independence : ∀ context, request.independenceContext = some context →
    checkIndependence provider.toProviderDeclaration context = none
  budget : ∀ maximum, request.maxCostMinorUnits = some maximum →
    ∃ cost, provider.estimatedCostMinorUnits = some cost ∧ cost ≤ maximum

/-- A rejection with its reason and phase, or an acceptance without. -/
inductive Evaluated (provider : RoutedDeclaration) : RoutingCandidate → Prop where
  | rejected (reason : RoutingRejectionReason) (phase : EligibilityPhase) :
      Evaluated provider (rejected provider reason phase)
  | eligible : Evaluated provider { provider := provider, eligible := true }

section Checks

variable {runtimeState : Option RuntimeState} {request : ProviderRoutingRequest}
variable {provider : RoutedDeclaration}

/-! A check that fails rejects, and a check that passes leaves the later ones to decide. -/

theorem Evaluated.check {failed : Prop} [Decidable failed] {reason : RoutingRejectionReason}
    {phase : EligibilityPhase} {rest : RoutingCandidate} (h : Evaluated provider rest) :
    Evaluated provider (if failed then Routing.rejected provider reason phase else rest) := by
  by_cases hfailed : failed
  · rw [if_pos hfailed]
    exact .rejected reason phase
  · rwa [if_neg hfailed]

theorem eligible_check {failed : Prop} [Decidable failed] {reason : RoutingRejectionReason}
    {phase : EligibilityPhase} {rest : RoutingCandidate} :
    (if failed then rejected provider reason phase else rest).eligible = true ↔
      ¬ failed ∧ rest.eligible = true := by
  by_cases hfailed : failed <;> simp [rejected, hfailed]

theorem evaluateBudget_evaluated : Evaluated provider (evaluateBudget provider request) := by
  unfold evaluateBudget
  split
  · exact .eligible
  · split
    · exact .rejected _ _
    · exact Evaluated.check .eligible

theorem evaluateCandidate_evaluated (runtimeState : Option RuntimeState)
    (request : ProviderRoutingRequest) (provider : RoutedDeclaration) :
    Evaluated provider (evaluateCandidate runtimeState request provider) := by
  unfold evaluateCandidate
  iterate 12 refine .check ?_
  split
  · exact .rejected _ _
  · exact evaluateBudget_evaluated

@[simp] theorem evaluateCandidate_provider :
    (evaluateCandidate runtimeState request provider).provider = provider := by
  have h := evaluateCandidate_evaluated runtimeState request provider
  generalize evaluateCandidate runtimeState request provider = candidate at h
  cases h <;> rfl

theorem evaluateBudget_eligible :
    (evaluateBudget provider request).eligible = true ↔
      ∀ maximum, request.maxCostMinorUnits = some maximum →
        ∃ cost, provider.estimatedCostMinorUnits = some cost ∧ cost ≤ maximum := by
  unfold evaluateBudget
  cases request.maxCostMinorUnits with
  | none => simp
  | some maximum =>
      cases provider.estimatedCostMinorUnits with
      | none => simp [rejected]
      | some cost => simp [eligible_check]

theorem any_not_fresh {fresh : RuntimeState → Bool} :
    ¬ (runtimeState.any fun state => !fresh state) = true ↔
      ∀ state, runtimeState = some state → fresh state = true := by
  cases runtimeState <;> simp

theorem assurance_passes :
    ¬ ((truthy request.assuranceLevel).any fun level =>
        provider.assuranceLevels.length > 0 && !provider.assuranceLevels.contains level) = true ↔
      ∀ level, request.assuranceLevel = some level → level ≠ [] →
        provider.assuranceLevels = [] ∨ level ∈ provider.assuranceLevels := by
  simp only [Option.any_eq_true, truthy_eq_some]
  simp [or_iff_not_imp_left, List.length_pos_iff]

theorem independence_passes {context : Option IndependenceContext} :
    context.bind (checkIndependence provider.toProviderDeclaration ·) = none ↔
      ∀ c, context = some c → checkIndependence provider.toProviderDeclaration c = none := by
  cases context <;> simp

/-- A declaration is eligible when it passes every phase. -/
theorem evaluateCandidate_eligible :
    (evaluateCandidate runtimeState request provider).eligible = true ↔
      Routable runtimeState request provider := by
  have hlast :
      (match request.independenceContext.bind
          (checkIndependence provider.toProviderDeclaration ·) with
        | some violation => rejected provider violation .independence
        | none => evaluateBudget provider request).eligible = true ↔
      (∀ context, request.independenceContext = some context →
        checkIndependence provider.toProviderDeclaration context = none) ∧
      (evaluateBudget provider request).eligible = true := by
    rw [← independence_passes]
    split
    · rename_i violation hviolation
      simp [hviolation, rejected]
    · rename_i hnone
      simp [hnone]
  have hstatus : ¬ provider.status = .disabled ∧ ¬ provider.status = .degraded ↔
      provider.status = .active := by
    cases provider.status <;> simp
  have hhealth : ¬ provider.healthStatus = .disabled ∧ ¬ provider.healthStatus = .unavailable ∧
      ¬ provider.healthStatus = .quotaLimited ∧ ¬ provider.healthStatus = .unknown ↔
      provider.healthStatus = .healthy ∨ provider.healthStatus = .degraded := by
    cases provider.healthStatus <;> simp
  have hquota : ¬ provider.quotaStatus = .exhausted ∧ ¬ provider.quotaStatus = .unknown ↔
      provider.quotaStatus = .available ∨ provider.quotaStatus = .limited := by
    cases provider.quotaStatus <;> simp
  simp only [evaluateCandidate, eligible_check, hlast, evaluateBudget_eligible, any_not_fresh,
    assurance_passes, Bool.not_eq_true', Bool.not_eq_false]
  constructor
  · rintro ⟨h1, h2, h3, h4, h5, h6, h7, h8, h9, h10, h11, h12, h13, h14⟩
    exact
      { capability := h1, status := hstatus.mp ⟨h2, h3⟩, healthFresh := h4
        health := hhealth.mp ⟨h5, h6, h7, h8⟩, quotaFresh := h9
        quota := hquota.mp ⟨h10, h11⟩, assurance := h12, independence := h13, budget := h14 }
  · intro h
    obtain ⟨h2, h3⟩ := hstatus.mpr h.status
    obtain ⟨h5, h6, h7, h8⟩ := hhealth.mpr h.health
    obtain ⟨h10, h11⟩ := hquota.mpr h.quota
    exact ⟨h.capability, h2, h3, h.healthFresh, h5, h6, h7, h8, h.quotaFresh, h10, h11,
      h.assurance, h.independence, h.budget⟩

end Checks

end Routing
