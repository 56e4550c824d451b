import VitoPlatform.Invocation.Stages
import VitoPlatform.Routing.Selection

/-!
# What routing selects, the invocation accepts

`evaluateCandidate` and `resolveAndValidateProvider` decide about the same declaration: the
router rejects with a reason, the invocation throws. Everything the invocation checks, but for
the organization, the router has checked before, except an assurance level that is the empty
text: the router takes it for no requirement, the invocation for a level the provider must
declare.
-/

namespace Routing

open Text Invocation Workflow Persistence Database
open Dispatch (ProviderRoutingRequest)

/-- The routing request and the invocation ask for the same. -/
structure SameDemand (routing : ProviderRoutingRequest) (invocation : Request) : Prop where
  capability : invocation.capabilityCode = routing.capability
  assuranceLevel : invocation.assuranceLevel = routing.assuranceLevel
  budget : (budget invocation).maxCostMinorUnits = routing.maxCostMinorUnits

/-- The resolver answers the declaration, everything else fails. -/
def resolving (declaration : ProviderDeclaration) :
    (e : Effect Row Ask) → Except Failure (Answer Row Ans e)
  | .ask (.resolveProvider _ _) => .ok (some declaration)
  | _ => .error (.error "")

def organizationMismatch : Failure :=
  .error "ORGANIZATION_MISMATCH: Provider does not belong to requesting organization"

/-- The program throws when the resolver answers the declaration, and not because of the
organization. -/
def Refuses {α : Type} (declaration : ProviderDeclaration) (program : Program α) : Prop :=
  ∃ error, (program.runUntil (resolving declaration) fun _ => false).2.outcome =
    some (.error error) ∧ error ≠ organizationMismatch

/-- The invocation refuses the declaration. -/
def Refused (invocation : Request) (declaration : ProviderDeclaration) : Prop :=
  Refuses declaration (resolveAndValidateProvider invocation)

section Rules

variable {α β : Type} {declaration : ProviderDeclaration}

theorem refuses_pure {a : α} : ¬ Refuses declaration (pure a : Program α) := by
  rintro ⟨error, h, -⟩
  cases h

theorem refuses_resolve {providerId organizationId : Str}
    {rest : Option ProviderDeclaration → Program α} :
    Refuses declaration (ask (.resolveProvider providerId organizationId) >>= rest) ↔
      Refuses declaration (rest (some declaration)) :=
  Iff.rfl

theorem refuses_organization {condition : Bool} {rest : Unit → Program α} :
    Refuses declaration
        (requireThat condition
          "ORGANIZATION_MISMATCH: Provider does not belong to requesting organization" >>= rest) ↔
      condition = true ∧ Refuses declaration (rest ()) := by
  cases condition with
  | true =>
      rw [eq_self_iff_true, true_and]
      exact Iff.rfl
  | false =>
      simp only [Bool.false_eq_true, false_and, iff_false]
      rintro ⟨error, h, hne⟩
      cases h
      exact hne rfl

theorem refuses_requireThat {condition : Bool} {message : String} {rest : Unit → Program α}
    (hne : Failure.error message ≠ organizationMismatch) :
    Refuses declaration (requireThat condition message >>= rest) ↔
      (condition = true → Refuses declaration (rest ())) := by
  cases condition with
  | true =>
      rw [eq_self_iff_true, true_imp_iff]
      exact Iff.rfl
  | false =>
      simp only [Bool.false_eq_true, false_imp_iff, iff_true]
      exact ⟨_, rfl, hne⟩

theorem refuses_expectSome {value : Option β} {message : String} {rest : β → Program α}
    (hne : Failure.error message ≠ organizationMismatch) :
    Refuses declaration (expectSome value message >>= rest) ↔
      ∀ b, value = some b → Refuses declaration (rest b) := by
  cases value with
  | none =>
      simp only [reduceCtorEq, false_imp_iff, implies_true, iff_true]
      exact ⟨_, rfl, hne⟩
  | some b =>
      simp only [Option.some.injEq, forall_eq']
      exact Iff.rfl

end Rules

/-- The last check, of the estimated cost. -/
theorem refuses_cost {invocation : Request} {declaration : ProviderDeclaration} :
    Refuses declaration
        (match (budget invocation).maxCostMinorUnits with
          | none => pure declaration
          | some maxCostMinorUnits => do
              let estimatedCost ← expectSome declaration.estimatedCostMinorUnits
                ("PROVIDER_NOT_ELIGIBLE: Provider estimated cost is unknown while an execution " ++
                  "budget is bounded")
              requireThat (estimatedCost ≤ maxCostMinorUnits)
                "PROVIDER_NOT_ELIGIBLE: Provider estimated cost exceeds the bounded execution budget"
              pure declaration) ↔
      ¬ ∀ maximum, (budget invocation).maxCostMinorUnits = some maximum →
        ∃ cost, declaration.estimatedCostMinorUnits = some cost ∧ cost ≤ maximum := by
  cases (budget invocation).maxCostMinorUnits with
  | none => simp [refuses_pure]
  | some maximum =>
      simp only
      rw [refuses_expectSome (by simp [organizationMismatch])]
      cases declaration.estimatedCostMinorUnits with
      | none => simp
      | some cost =>
          simp only [Option.some.injEq, forall_eq']
          rw [refuses_requireThat (by simp [organizationMismatch])]
          simp [refuses_pure]

/-- The invocation refuses what is not eligible, in its own organization. -/
theorem refused_iff {invocation : Request} {declaration : ProviderDeclaration} :
    Refused invocation declaration ↔
      declaration.organizationId = invocation.organizationId ∧
        ¬ Eligible invocation declaration := by
  rw [Refused, resolveAndValidateProvider, refuses_resolve,
    refuses_expectSome (by simp [organizationMismatch])]
  simp only [Option.some.injEq, forall_eq']
  rw [refuses_organization]
  iterate 4 rw [refuses_requireThat (by simp [organizationMismatch])]
  rw [beq_iff_eq]
  refine and_congr_right fun horganization => ?_
  have heligible : Eligible invocation declaration ↔
      providerSupportsCapability declaration invocation.capabilityCode = true ∧
      isProviderRoutable declaration = true ∧
      (!(declaration.quotaStatus == .exhausted || declaration.quotaStatus == .unknown)) = true ∧
      invocation.assuranceLevel.all (providerSupportsAssuranceLevel declaration) = true ∧
      ∀ maximum, (budget invocation).maxCostMinorUnits = some maximum →
        ∃ cost, declaration.estimatedCostMinorUnits = some cost ∧ cost ≤ maximum := by
    constructor
    · intro h
      exact ⟨h.capability, h.routable, by simpa using h.quota,
        (Option.all_eq_true _ _).mpr h.assurance, h.cost⟩
    · rintro ⟨hcapability, hroutable, hquota, hassurance, hcost⟩
      exact ⟨horganization, hcapability, hroutable, by simpa using hquota,
        (Option.all_eq_true _ _).mp hassurance, hcost⟩
  rw [heligible]
  simp only [not_and]
  iterate 4 refine imp_congr_right fun _ => ?_
  exact refuses_cost

/-! ## The two decisions compared -/

/-- The request names the empty assurance level, and the provider declares levels without it. -/
def EmptyLevelUndeclared (routing : ProviderRoutingRequest) (provider : RoutedDeclaration) :
    Prop :=
  routing.assuranceLevel = some [] ∧ provider.assuranceLevels ≠ [] ∧
    [] ∉ provider.assuranceLevels

/-- Whatever the router selects the invocation does not refuse, and whatever the invocation
refuses the router rejects. -/
def Agree (localeCompare : Str → Str → Ordering) (runtimeState : Option RuntimeState)
    (routing : ProviderRoutingRequest) (invocation : Request) (provider : RoutedDeclaration) :
    Prop :=
  (∀ candidates,
    (routeInternal localeCompare runtimeState routing candidates).selectedProvider =
      some provider → ¬ Refused invocation provider.toProviderDeclaration) ∧
  (Refused invocation provider.toProviderDeclaration →
    (evaluateCandidate runtimeState routing provider).eligible = false)

section Comparison

variable {localeCompare : Str → Str → Ordering} {runtimeState : Option RuntimeState}
variable {routing : ProviderRoutingRequest} {invocation : Request}
variable {provider : RoutedDeclaration}

theorem supports_iff {declaration : ProviderDeclaration} {level : Str} :
    providerSupportsAssuranceLevel declaration level = true ↔
      declaration.assuranceLevels = [] ∨ level ∈ declaration.assuranceLevels := by
  simp [providerSupportsAssuranceLevel]

/-- A routable provider is eligible for the invocation, but for the empty level. -/
theorem Routable.eligible_iff (h : Routable runtimeState routing provider)
    (demand : SameDemand routing invocation)
    (horganization : provider.organizationId = invocation.organizationId) :
    Eligible invocation provider.toProviderDeclaration ↔
      ¬ EmptyLevelUndeclared routing provider := by
  constructor
  · rintro eligible ⟨hlevel, hne, hmem⟩
    rw [← demand.assuranceLevel] at hlevel
    obtain hnil | hin := supports_iff.mp (eligible.assurance [] hlevel)
    · exact hne hnil
    · exact hmem hin
  · intro hempty
    refine
      { organization := horganization
        capability := by rw [demand.capability]; exact h.capability
        routable := ?_, quota := ?_, assurance := ?_
        cost := by rw [demand.budget]; exact h.budget }
    · have hhealth := h.health
      simp [isProviderRoutable, h.status, hhealth]
    · obtain hquota | hquota := h.quota <;> simp [hquota]
    · intro level hlevel
      rw [demand.assuranceLevel] at hlevel
      rw [supports_iff]
      by_cases hnil : level = []
      · subst hnil
        by_contra hnot
        obtain ⟨hne, hmem⟩ := not_or.mp hnot
        exact hempty ⟨hlevel, hne, hmem⟩
      · exact h.assurance level hlevel hnil

/-- What the router selects is eligible. -/
theorem routable_of_selected {candidates : List RoutedDeclaration}
    (h : (routeInternal localeCompare runtimeState routing candidates).selectedProvider =
      some provider) : Routable runtimeState routing provider := by
  rw [selectedProvider_eq] at h
  exact (mem_eligibleProviders.mp (Ranking.mem_of_first h)).2

end Comparison

/-- Routing and invocation agree about a provider exactly if they do not meet an empty assurance
level that the provider does not declare, in a provider which is otherwise acceptable. -/
theorem agree_iff (localeCompare : Str → Str → Ordering) (runtimeState : Option RuntimeState)
    (routing : ProviderRoutingRequest) (invocation : Request) (provider : RoutedDeclaration)
    (demand : SameDemand routing invocation) :
    Agree localeCompare runtimeState routing invocation provider ↔
      ¬ (EmptyLevelUndeclared routing provider ∧ Routable runtimeState routing provider ∧
        provider.organizationId = invocation.organizationId) := by
  constructor
  · rintro ⟨-, hrejected⟩ ⟨hempty, hroutable, horganization⟩
    have hrefused : Refused invocation provider.toProviderDeclaration :=
      refused_iff.mpr ⟨horganization, fun eligible =>
        (hroutable.eligible_iff demand horganization).mp eligible hempty⟩
    rw [evaluateCandidate_eligible.mpr hroutable] at hrejected
    exact Bool.noConfusion (hrejected hrefused)
  · intro h
    have hagree (hrefused : Refused invocation provider.toProviderDeclaration) :
        ¬ Routable runtimeState routing provider := by
      intro hroutable
      obtain ⟨horganization, hnot⟩ := refused_iff.mp hrefused
      refine hnot ((hroutable.eligible_iff demand horganization).mpr fun hempty => ?_)
      exact h ⟨hempty, hroutable, horganization⟩
    constructor
    · intro candidates hselected hrefused
      exact hagree hrefused (routable_of_selected hselected)
    · intro hrefused
      exact Bool.eq_false_iff.mpr fun heligible =>
        hagree hrefused (evaluateCandidate_eligible.mp heligible)

/-! ## An empty level -/

section EmptyLevel

/-- A provider that declares the level AL3. -/
private def declaring : RoutedDeclaration where
  id := "provider".toList
  organizationId := "org".toList
  providerCode := "CODEX".toList
  providerType := .cloudLlm
  status := .active
  capabilityAssignments := [⟨"PLAN".toList, true⟩]
  estimatedCostMinorUnits := none
  healthStatus := .healthy
  quotaStatus := .available
  assuranceLevels := ["AL3".toList]
  credentialRequirement := none
  healthCheckedAt := none
  quotaCheckedAt := none
  qualityScore := none
  latencyScore := none
  costScore := none

private def routing (assuranceLevel : Option Str) : ProviderRoutingRequest where
  organizationId := "org".toList
  capability := "PLAN".toList
  assuranceLevel := assuranceLevel
  workflowRunId := []
  workflowStepRunId := []
  independenceContext := none
  maxCostMinorUnits := none
  correlationId := []

private def invocation (assuranceLevel : Option Str) : Request where
  invocationId := "invocation".toList
  organizationId := "org".toList
  workflowRunId := "run".toList
  workflowStepRunId := "step".toList
  correlationId := "correlation".toList
  capabilityCode := "PLAN".toList
  providerId := "provider".toList
  executionProfile := .known .builder
  assuranceLevel := assuranceLevel
  inputReference := none
  governedInputPayload := none
  executionBudget := some ⟨none, none, none⟩
  requestedAction := .known .readFile
  requestedPath := none
  requestedCommand := none
  humanApprovalReference := none
  requestedAt := some 0

private theorem sameDemand (assuranceLevel : Option Str) :
    SameDemand (routing assuranceLevel) (invocation assuranceLevel) := ⟨rfl, rfl, rfl⟩

/-- With a declared level, and with none, both accept the provider. -/
theorem agree_iff_declared :
    Agree (List.compareLex compare) none (routing (some "AL3".toList))
        (invocation (some "AL3".toList)) declaring ∧
      Agree (List.compareLex compare) none (routing none) (invocation none) declaring :=
  ⟨(agree_iff _ _ _ _ _ (sameDemand _)).mpr fun h => absurd h.1.1 (by decide),
    (agree_iff _ _ _ _ _ (sameDemand _)).mpr fun h => absurd h.1.1 (by decide)⟩

/-- With the empty level the router accepts the provider, and the invocation refuses it. -/
theorem not_agree :
    ¬ Agree (List.compareLex compare) none (routing (some [])) (invocation (some []))
      declaring := by
  rintro ⟨-, hrejected⟩
  have hrefused : Refused (invocation (some [])) declaring.toProviderDeclaration := by
    refine refused_iff.mpr ⟨rfl, fun eligible => ?_⟩
    exact absurd (eligible.assurance [] rfl) (by decide)
  exact absurd (hrejected hrefused) (by decide)

end EmptyLevel

end Routing
