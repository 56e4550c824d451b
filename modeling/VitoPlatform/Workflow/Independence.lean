import Mathlib.Data.List.Nodup
import VitoPlatform.Workflow.StateMachine

/-!
# Independence of AL4 reviewers

Three places decide whether reviewers are independent: the AL4 requirements of the state
machine, `checkAl4Independence`, and `checkIndependence` of the provider router, which sees
one reviewer at a time. `Independent` states what the rule is for: every reviewer is another
provider of another, known model family than the builder and than every other reviewer.

Routing the reviewers one after the other decides exactly that. The state machine compares
the first two positions of the lists only, and `BeyondTests` is what it leaves open.
-/

namespace Workflow

open Text Policy Persistence Invocation

/-- `checkAl4Independence`. -/
def checkAl4Independence (context : IndependenceContext) (reviewerCount : Nat) :
    Option AssuranceUnsatisfiedReason :=
  if reviewerCount < 2 then some .minReviewerCountUnsatisfied
  else
    match context.previousReviewerModelFamilies with
    | reviewer1Family :: reviewer2Family :: _ =>
        match (truthy context.builderModelFamily).filter fun family => trim family ≠ [] with
        | none => some .builderModelFamilyUnknown
        | some builderModelFamily =>
            if reviewer1Family = builderModelFamily then some .reviewerIndependenceUnsatisfied
            else if reviewer1Family ≠ [] ∧ reviewer1Family = reviewer2Family then
              some .modelFamilyRequirementUnsatisfied
            else none
    | _ => some .modelFamilyRequirementUnsatisfied

inductive RoutingRejectionReason where
  | capabilityUnsupported
  | providerDisabled
  | providerUnhealthy
  | providerUnavailable
  | healthStatusStale
  | quotaUnavailable
  | quotaExhausted
  | quotaStatusUnknown
  | quotaStatusStale
  | policyIncompatible
  | assuranceLevelUnsupported
  | independenceRequirementUnsatisfied
  | modelIdentityUnverifiable
  | budgetIncompatible
  | costUnknown
  | noEligibleProvider
  deriving DecidableEq

/-- `checkIndependence` of the provider router. -/
def checkIndependence (provider : ProviderDeclaration) (context : IndependenceContext) :
    Option RoutingRejectionReason :=
  if truthy context.builderProviderId = some provider.id then
    some .independenceRequirementUnsatisfied
  else
    match truthy provider.modelFamily with
    | some family =>
        if truthy context.builderModelFamily = some family then
          some .independenceRequirementUnsatisfied
        else if provider.id ∈ context.previousReviewerProviderIds then
          some .independenceRequirementUnsatisfied
        else if family ∈ context.previousReviewerModelFamilies then
          some .independenceRequirementUnsatisfied
        else if trim family = [] then some .modelIdentityUnverifiable
        else none
    | none =>
        if provider.id ∈ context.previousReviewerProviderIds then
          some .independenceRequirementUnsatisfied
        else some .modelIdentityUnverifiable

/-! ## Routing one reviewer after the other -/

/-- The context that names `reviewers` as the reviewers so far. -/
def contextOf (builderProviderId builderModelFamily : Option Str)
    (reviewers : List ProviderDeclaration) : IndependenceContext where
  builderProviderId := builderProviderId
  builderModelFamily := builderModelFamily
  previousReviewerProviderIds := reviewers.map (·.id)
  previousReviewerModelFamilies := reviewers.filterMap (·.modelFamily)

/-- The router lets the reviewers through, each after the ones before it. -/
inductive RoutedInTurn (builderProviderId builderModelFamily : Option Str) :
    List ProviderDeclaration → Prop where
  | nil : RoutedInTurn builderProviderId builderModelFamily []
  | snoc {reviewers : List ProviderDeclaration} {provider : ProviderDeclaration} :
      RoutedInTurn builderProviderId builderModelFamily reviewers →
      checkIndependence provider (contextOf builderProviderId builderModelFamily reviewers) =
        none →
      RoutedInTurn builderProviderId builderModelFamily (reviewers ++ [provider])

/-- The context describes reviewers that the router lets through one after the other. -/
def DescribesRouting (context : IndependenceContext) : Prop :=
  ∃ reviewers,
    context = contextOf context.builderProviderId context.builderModelFamily reviewers ∧
    RoutedInTurn context.builderProviderId context.builderModelFamily reviewers

theorem truthy_eq_none {value : Option Str} : truthy value = none ↔ ∀ t ∈ value, t = [] := by
  cases value with
  | none => simp [truthy]
  | some text =>
      cases text with
      | nil => simp [truthy]
      | cons c text => simp [truthy]

theorem checkIndependence_none {provider : ProviderDeclaration} {context : IndependenceContext} :
    checkIndependence provider context = none ↔
      truthy context.builderProviderId ≠ some provider.id ∧
        provider.id ∉ context.previousReviewerProviderIds ∧
        ∃ family, provider.modelFamily = some family ∧ trim family ≠ [] ∧
          truthy context.builderModelFamily ≠ some family ∧
          family ∉ context.previousReviewerModelFamilies := by
  rw [checkIndependence]
  by_cases hbuilder : truthy context.builderProviderId = some provider.id
  · simp [hbuilder]
  rw [if_neg hbuilder]
  cases hfamily : truthy provider.modelFamily with
  | none =>
      have blank : ∀ family ∈ provider.modelFamily, family = [] := truthy_eq_none.mp hfamily
      constructor
      · intro h
        change ite _ _ _ = none at h
        split at h
        · cases h
        · cases h
      · rintro ⟨_, _, family, hprovider, hknown, _⟩
        rw [blank family hprovider] at hknown
        exact absurd rfl hknown
  | some family =>
      obtain ⟨hprovider, _⟩ := truthy_eq_some.mp hfamily
      simp only [hprovider, Option.some.injEq, exists_eq_left']
      constructor
      · intro h
        split at h
        · cases h
        split at h
        · cases h
        split at h
        · cases h
        split at h
        · cases h
        · exact ⟨hbuilder, by assumption, by assumption, by assumption, by assumption⟩
      · rintro ⟨_, hid, hknown, hother, hnew⟩
        rw [if_neg hother, if_neg hid, if_neg hnew, if_neg hknown]

/-- What routing in turn decides: all reviewers are different providers of different known
model families, and none shares either with the builder. -/
theorem routedInTurn_iff {builderProviderId builderModelFamily : Option Str}
    {reviewers : List ProviderDeclaration} :
    RoutedInTurn builderProviderId builderModelFamily reviewers ↔
      (reviewers.map (·.id)).Nodup ∧ (reviewers.filterMap (·.modelFamily)).Nodup ∧
        ∀ provider ∈ reviewers, truthy builderProviderId ≠ some provider.id ∧
          ∃ family, provider.modelFamily = some family ∧ trim family ≠ [] ∧
            truthy builderModelFamily ≠ some family := by
  induction reviewers using List.reverseRecOn with
  | nil => exact ⟨fun _ => by simp, fun _ => .nil⟩
  | append_singleton reviewers provider ih =>
      have last : RoutedInTurn builderProviderId builderModelFamily (reviewers ++ [provider]) ↔
          RoutedInTurn builderProviderId builderModelFamily reviewers ∧
            checkIndependence provider
              (contextOf builderProviderId builderModelFamily reviewers) = none := by
        constructor
        · intro h
          generalize hall : reviewers ++ [provider] = all at h
          cases h with
          | nil => simp at hall
          | snoc h hcheck =>
              obtain ⟨rfl, hprovider⟩ := List.append_inj' hall rfl
              cases hprovider
              exact ⟨h, hcheck⟩
        · exact fun ⟨h, hcheck⟩ => .snoc h hcheck
      rw [last, ih, checkIndependence_none]
      simp only [contextOf, List.map_append, List.map_cons, List.map_nil, List.filterMap_append,
        List.forall_mem_append, List.forall_mem_singleton]
      constructor
      · rintro ⟨⟨hids, hfamilies, hall⟩, hbuilder, hid, family, hfamily, hknown, hother, hnew⟩
        refine ⟨?_, ?_, hall, hbuilder, family, hfamily, hknown, hother⟩
        · rw [List.nodup_append_comm, List.singleton_append, List.nodup_cons]
          exact ⟨hid, hids⟩
        · rw [List.filterMap_cons_some hfamily, List.filterMap_nil, List.nodup_append_comm,
            List.singleton_append, List.nodup_cons]
          exact ⟨hnew, hfamilies⟩
      · rintro ⟨hids, hfamilies, hall, hbuilder, family, hfamily, hknown, hother⟩
        rw [List.nodup_append_comm, List.singleton_append, List.nodup_cons] at hids
        rw [List.filterMap_cons_some hfamily, List.filterMap_nil, List.nodup_append_comm,
          List.singleton_append, List.nodup_cons] at hfamilies
        exact ⟨⟨hids.2, hfamilies.2, hall⟩, hbuilder, hids.1, family, hfamily, hknown, hother,
          hfamilies.1⟩

/-! ## What the state machine tests -/

/-- At least two reviews by different executions, with one common accepted verdict. -/
structure UnanimousReviews (results : List ReviewResult) : Prop where
  two : 2 ≤ results.length
  distinct : (results.map (·.reviewerExecutionId)).Nodup
  accepted : ∃ verdict, (verdict = ReviewVerdict.A ∨ verdict = ReviewVerdict.B) ∧
    ∀ result ∈ results, result.verdict = .known verdict

/-- The tests of the AL4 requirements on the context: two different provider ids, a known
builder family, and the first two families. -/
structure TestedContext (context : IndependenceContext) : Prop where
  twoProviders : 2 ≤ context.previousReviewerProviderIds.eraseDups.length
  families : ∃ first second rest builder,
    context.previousReviewerModelFamilies = first :: second :: rest ∧
    context.builderModelFamily = some builder ∧ trim builder ≠ [] ∧ first ≠ builder ∧
    (first ≠ [] → first ≠ second)

/-- The input passes every test on the way to VERIFY. -/
structure PassesTests (input : StateMachineInput) : Prop where
  unblocked : isProviderBlocked input.providerStatus = false
  succeeded : input.stepStatus = .succeeded
  reviews : ∃ results, input.reviewResults = some results ∧ UnanimousReviews results
  context : ∃ context, input.independenceContext = some context ∧ TestedContext context

theorem resolveReviewerDisagreement_ok {results : List ReviewResult}
    {verdict : EnumValue ReviewVerdict} :
    resolveReviewerDisagreement results = .ok verdict ↔
      results ≠ [] ∧ ∀ result ∈ results, result.verdict = verdict := by
  rw [resolveReviewerDisagreement]
  cases results with
  | nil => simp
  | cons first rest =>
      simp only [List.map_cons]
      split
      · rename_i h
        simp only [List.all_map, List.all_eq_true, Function.comp, beq_iff_eq] at h
        simp only [Except.ok.injEq, ne_eq, reduceCtorEq, not_false_eq_true, true_and,
          List.forall_mem_cons]
        constructor
        · rintro rfl
          exact ⟨rfl, h⟩
        · exact fun ⟨h, _⟩ => h
      · rename_i h
        simp only [reduceCtorEq, ne_eq, not_false_eq_true, true_and, false_iff,
          List.forall_mem_cons]
        rintro ⟨rfl, hall⟩
        refine h ?_
        simpa [List.all_map, List.all_eq_true] using hall

/-- The tests of the first two families, shared by `enforceAl4Independence` and
`checkAl4Independence`. -/
theorem families_tested {families : List Str} {builder : Option Str}
    {short unknown same repeated : AssuranceUnsatisfiedReason} :
    (match families with
      | first :: second :: _ =>
          match (truthy builder).filter fun family => trim family ≠ [] with
          | none => some unknown
          | some family =>
              if first = family then some same
              else if first ≠ [] ∧ first = second then some repeated
              else none
      | _ => some short) = none ↔
      ∃ first second rest family, families = first :: second :: rest ∧ builder = some family ∧
        trim family ≠ [] ∧ first ≠ family ∧ (first ≠ [] → first ≠ second) := by
  match families with
  | [] => simp
  | [_] => simp
  | first :: second :: rest =>
      cases hknown : (truthy builder).filter fun family => trim family ≠ [] with
      | none =>
          simp only [reduceCtorEq, false_iff]
          rintro ⟨_, _, _, family, -, rfl, hfamily, -⟩
          have hne : family ≠ [] := by
            rintro rfl
            exact hfamily rfl
          have hpresent : truthy (some family) = some family := truthy_eq_some.mpr ⟨rfl, hne⟩
          rw [hpresent] at hknown
          simp [hfamily] at hknown
      | some family =>
          obtain ⟨hpresent, hfamily⟩ := Option.filter_eq_some_iff.mp hknown
          obtain ⟨rfl, -⟩ := truthy_eq_some.mp hpresent
          constructor
          · intro h
            refine ⟨first, second, rest, family, rfl, rfl, by simpa using hfamily, ?_⟩
            simp only at h
            split at h
            · cases h
            split at h
            · cases h
            · rename_i hother hdistinct
              exact ⟨hother, fun hne heq => hdistinct ⟨hne, heq⟩⟩
          · rintro ⟨_, _, _, _, hlist, hbuilder, -, hother, hdistinct⟩
            cases hlist
            cases hbuilder
            show ite _ _ _ = none
            rw [if_neg hother, if_neg fun h => hdistinct h.1 h.2]

theorem enforceAl4Independence_none {context : IndependenceContext} :
    enforceAl4Independence context = none ↔ TestedContext context := by
  rw [enforceAl4Independence]
  split
  · rename_i hproviders
    simp only [reduceCtorEq, false_iff]
    intro tested
    exact absurd tested.twoProviders (by omega)
  · rename_i hproviders
    constructor
    · intro h
      exact ⟨by omega, families_tested.mp h⟩
    · intro tested
      exact families_tested.mpr tested.families

theorem checkAl4Independence_none {context : IndependenceContext} {reviewerCount : Nat}
    (tested : TestedContext context) (htwo : 2 ≤ reviewerCount) :
    checkAl4Independence context reviewerCount = none := by
  rw [checkAl4Independence, if_neg (by omega)]
  exact families_tested.mpr tested.families

section Verify

variable {input : StateMachineInput}

theorem enforceAl4Requirements_none (hlevel : input.assuranceLevel = "AL4".toList) :
    enforceAl4Requirements input = none ↔
      (∃ results, input.reviewResults = some results ∧ 2 ≤ results.length ∧
        (results.map (·.reviewerExecutionId)).Nodup) ∧
      ∃ context, input.independenceContext = some context ∧ TestedContext context := by
  unfold enforceAl4Requirements
  rw [if_neg (not_not.mpr hlevel)]
  split
  · rename_i first second rest hresults
    simp only [hresults, Option.some.injEq, exists_eq_left']
    split
    · rename_i hrepeated
      constructor
      · nofun
      · exact fun h => absurd h.1.2 hrepeated
    · rename_i hdistinct
      split
      · rename_i hcontext
        simp [hcontext]
      · rename_i context hcontext
        rw [Option.map_eq_none_iff, enforceAl4Independence_none]
        simp only [hcontext, Option.some.injEq, exists_eq_left']
        exact ⟨fun h => ⟨⟨by simp, not_not.mp hdistinct⟩, h⟩, fun h => h.2⟩
  · rename_i hshort
    constructor
    · nofun
    · rintro ⟨⟨results, hresults, htwo, -⟩, -⟩
      exfalso
      match results, htwo with
      | first :: second :: rest, _ => exact hshort first second rest hresults

theorem resolveVerdict_of_results {first : ReviewResult} {rest : List ReviewResult}
    (h : input.reviewResults = some (first :: rest)) :
    resolveVerdict input = resolveReviewerDisagreement (first :: rest) := by
  rw [resolveVerdict, h]

/-- PARSE_VERDICT leads an AL4 run to VERIFY exactly when every test passes. -/
theorem nextEngineeringStep_verify (hstep : input.completedStep = .parseVerdict)
    (hlevel : input.assuranceLevel = "AL4".toList) :
    nextEngineeringStep input = .nextStep .verify ↔ PassesTests input := by
  have hparse : isProviderBlocked input.providerStatus = false →
      nextEngineeringStep input = parseVerdict input := by
    intro hfree
    have hnone : input.providerStatus.filter (fun s => isProviderBlocked (some s)) = none := by
      cases hstatus : input.providerStatus with
      | none => rfl
      | some status =>
          rw [hstatus] at hfree
          simp [hfree]
    rw [nextEngineeringStep, hnone]
    simp only [hstep]
  have haccepted : ∀ verdict, followVerdict input verdict = .nextStep .verify ↔
      ∃ v, (v = ReviewVerdict.A ∨ v = ReviewVerdict.B) ∧ verdict = .known v := by
    intro verdict
    cases verdict with
    | unknown text => simp [followVerdict, EnumValue.member?]
    | known v =>
        cases v with
        | A => simp [followVerdict, EnumValue.member?]
        | B => simp [followVerdict, EnumValue.member?]
        | C =>
            simp only [followVerdict, EnumValue.member?, correctOrExhaust]
            split <;> simp
        | D => simp [followVerdict, EnumValue.member?]
  constructor
  · intro h
    have hfree : isProviderBlocked input.providerStatus = false := by
      by_contra hblocked
      rw [nextEngineeringStep] at h
      cases hstatus : input.providerStatus with
      | none =>
          rw [hstatus] at hblocked
          exact hblocked rfl
      | some status =>
          rw [hstatus, Bool.not_eq_false] at hblocked
          have hsome : input.providerStatus.filter (fun s => isProviderBlocked (some s)) =
              some status := by rw [hstatus, Option.filter_some, if_pos hblocked]
          rw [hsome] at h
          cases h
    rw [hparse hfree, parseVerdict] at h
    split at h
    · cases h
    rename_i hsucceeded
    split at h
    · cases h
    rename_i verdict hresolve
    split at h
    · cases h
    rename_i henforce
    obtain ⟨⟨results, hresults, htwo, hdistinct⟩, hcontext⟩ :=
      (enforceAl4Requirements_none hlevel).mp henforce
    obtain ⟨v, hv, rfl⟩ := (haccepted verdict).mp h
    cases results with
    | nil => exact absurd htwo (by decide)
    | cons first rest =>
        rw [resolveVerdict_of_results hresults, resolveReviewerDisagreement_ok] at hresolve
        exact ⟨hfree, not_not.mp hsucceeded, ⟨_, hresults, htwo, hdistinct, v, hv, hresolve.2⟩,
          hcontext⟩
  · rintro ⟨hfree, hsucceeded, ⟨results, hresults, htwo, hdistinct, v, hv, hall⟩, hcontext⟩
    have henforce : enforceAl4Requirements input = none :=
      (enforceAl4Requirements_none hlevel).mpr ⟨⟨results, hresults, htwo, hdistinct⟩, hcontext⟩
    have hresolve : resolveVerdict input = .ok (.known v) := by
      cases results with
      | nil => exact absurd htwo (by decide)
      | cons first rest =>
          rw [resolveVerdict_of_results hresults, resolveReviewerDisagreement_ok]
          exact ⟨by simp, hall⟩
    rw [hparse hfree, parseVerdict, if_neg (not_not.mpr hsucceeded), hresolve]
    simp only [henforce]
    exact (haccepted _).mpr ⟨v, hv, rfl⟩

end Verify

/-! ## What the tests leave open -/

/-- Every reviewer is another provider of another, known model family than the builder and
than every other reviewer. -/
structure IndependentReviewers (context : IndependenceContext) : Prop where
  two : 2 ≤ context.previousReviewerProviderIds.length
  distinctProviders : context.previousReviewerProviderIds.Nodup
  notBuilder : ∀ builder ∈ context.builderProviderId,
    builder ∉ context.previousReviewerProviderIds
  builderFamily : ∃ family, context.builderModelFamily = some family ∧ trim family ≠ [] ∧
    family ∉ context.previousReviewerModelFamilies
  knownFamilies : ∀ family ∈ context.previousReviewerModelFamilies, trim family ≠ []
  distinctFamilies : context.previousReviewerModelFamilies.Nodup

/-- The reviews are unanimous, the reviewers independent, and the other implementations of
the rule agree. -/
def Independent (input : StateMachineInput) : Prop :=
  ∃ results context, input.reviewResults = some results ∧ UnanimousReviews results ∧
    input.independenceContext = some context ∧ IndependentReviewers context ∧
    checkAl4Independence context results.length = none ∧ DescribesRouting context

/-- What no test of the state machine looks at: the lengths of the two lists, a third and
later provider, the builder's provider id, blank families, the second family against the
builder's, and the third and later families. -/
structure BeyondTests (context : IndependenceContext) : Prop where
  paired : context.previousReviewerProviderIds.length =
    context.previousReviewerModelFamilies.length
  distinctProviders : context.previousReviewerProviderIds.Nodup
  notBuilder : ∀ builder ∈ context.builderProviderId,
    builder ∉ context.previousReviewerProviderIds
  knownFamilies : ∀ family ∈ context.previousReviewerModelFamilies, trim family ≠ []
  laterNotBuilder : ∀ family ∈ context.builderModelFamily,
    family ∉ context.previousReviewerModelFamilies.tail
  laterDistinct : context.previousReviewerModelFamilies.tail.Nodup ∧
    ∀ first ∈ context.previousReviewerModelFamilies.head?,
      first ∉ context.previousReviewerModelFamilies.drop 2

theorem two_le_length_of_eraseDups {ids : List Str} (h : 2 ≤ ids.eraseDups.length) :
    2 ≤ ids.length := by
  match ids with
  | [] => simp at h
  | [_] => simp [List.eraseDups_cons] at h
  | _ :: _ :: _ => simp

/-- A reviewer of which only the id and the model family matter. -/
def reviewerOf (id modelFamily : Str) : ProviderDeclaration where
  id := id
  organizationId := []
  providerCode := []
  providerType := .cloudLlm
  status := .active
  capabilityAssignments := []
  estimatedCostMinorUnits := none
  healthStatus := .healthy
  quotaStatus := .available
  assuranceLevels := []
  credentialRequirement := none
  modelFamily := some modelFamily

/-- A context whose families are paired with its provider ids is the context of a list of
reviewers of known families. -/
theorem exists_contextOf {context : IndependenceContext}
    (hpaired : context.previousReviewerProviderIds.length =
      context.previousReviewerModelFamilies.length) :
    ∃ reviewers, context =
        contextOf context.builderProviderId context.builderModelFamily reviewers ∧
      ∀ provider ∈ reviewers, ∃ family, provider.modelFamily = some family := by
  obtain ⟨builderProviderId, builderModelFamily, ids, families⟩ := context
  refine ⟨(ids.zip families).map fun pair => reviewerOf pair.1 pair.2, ?_, ?_⟩
  · have hids : ((ids.zip families).map fun pair => reviewerOf pair.1 pair.2).map (·.id) =
        ids := by
      rw [List.map_map]
      exact List.map_fst_zip (le_of_eq hpaired)
    have hfamilies : ((ids.zip families).map fun pair => reviewerOf pair.1 pair.2).filterMap
        (·.modelFamily) = families := by
      rw [List.filterMap_map]
      show (ids.zip families).filterMap (fun pair => some pair.2) = families
      rw [List.filterMap_eq_map']
      exact List.map_snd_zip (ge_of_eq hpaired)
    rw [contextOf, hids, hfamilies]
  · intro provider hprovider
    obtain ⟨pair, -, rfl⟩ := List.mem_map.mp hprovider
    exact ⟨pair.2, rfl⟩

theorem RoutedInTurn.paired {builderProviderId builderModelFamily : Option Str}
    {reviewers : List ProviderDeclaration}
    (h : RoutedInTurn builderProviderId builderModelFamily reviewers) :
    (reviewers.map (·.id)).length = (reviewers.filterMap (·.modelFamily)).length := by
  induction h with
  | nil => rfl
  | snoc _ hcheck ih =>
      obtain ⟨_, _, family, hfamily, _⟩ := checkIndependence_none.mp hcheck
      rw [List.map_append, List.filterMap_append, List.length_append, List.length_append, ih,
        List.filterMap_cons_some hfamily]
      rfl

/-- The tests and what they leave open together are independence. -/
theorem BeyondTests.independent {context : IndependenceContext} (beyond : BeyondTests context)
    (tested : TestedContext context) : IndependentReviewers context := by
  obtain ⟨first, second, rest, builder, hfamilies, hbuilder, hknown, hfirst, hdiffer⟩ :=
    tested.families
  have hlater := beyond.laterNotBuilder builder hbuilder
  have hfirstKnown := beyond.knownFamilies first (by rw [hfamilies]; exact List.mem_cons_self)
  obtain ⟨hrest, hrepeat⟩ := beyond.laterDistinct
  rw [hfamilies, List.tail_cons] at hlater hrest
  rw [hfamilies] at hrepeat
  constructor
  case two => exact two_le_length_of_eraseDups tested.twoProviders
  case distinctProviders => exact beyond.distinctProviders
  case notBuilder => exact beyond.notBuilder
  case knownFamilies => exact beyond.knownFamilies
  case builderFamily =>
    refine ⟨builder, hbuilder, hknown, ?_⟩
    rw [hfamilies, List.mem_cons, not_or]
    exact ⟨Ne.symm hfirst, hlater⟩
  case distinctFamilies =>
    have hne : first ≠ [] := by
      rintro rfl
      exact hfirstKnown rfl
    have hnew : first ∉ rest := hrepeat first rfl
    rw [hfamilies, List.nodup_cons, List.mem_cons, not_or]
    exact ⟨⟨hdiffer hne, hnew⟩, hrest⟩

/-- The router lets independent reviewers through, in the order of the context. -/
theorem IndependentReviewers.describesRouting {context : IndependenceContext}
    (independent : IndependentReviewers context)
    (hpaired : context.previousReviewerProviderIds.length =
      context.previousReviewerModelFamilies.length) : DescribesRouting context := by
  obtain ⟨reviewers, hof, hknown⟩ := exists_contextOf hpaired
  obtain ⟨builder, hbuilder, hne, hother⟩ := independent.builderFamily
  have hids : context.previousReviewerProviderIds = reviewers.map (·.id) := by rw [hof]; rfl
  have hfamilies : context.previousReviewerModelFamilies =
      reviewers.filterMap (·.modelFamily) := by rw [hof]; rfl
  refine ⟨reviewers, hof, routedInTurn_iff.mpr ⟨?_, ?_, fun provider hprovider => ?_⟩⟩
  · rw [← hids]
    exact independent.distinctProviders
  · rw [← hfamilies]
    exact independent.distinctFamilies
  · obtain ⟨family, hfamily⟩ := hknown provider hprovider
    have hmem : family ∈ context.previousReviewerModelFamilies := by
      rw [hfamilies]
      exact List.mem_filterMap.mpr ⟨provider, hprovider, hfamily⟩
    refine ⟨?_, family, hfamily, independent.knownFamilies family hmem, ?_⟩
    · intro h
      obtain ⟨hid, _⟩ := truthy_eq_some.mp h
      apply independent.notBuilder provider.id hid
      rw [hids]
      exact List.mem_map.mpr ⟨provider, hprovider, rfl⟩
    · intro h
      obtain ⟨hsame, _⟩ := truthy_eq_some.mp h
      rw [hbuilder] at hsame
      cases hsame
      exact hother hmem

/-- Exactly when an AL4 run that is led to VERIFY was reviewed independently: the tests of
the state machine fail, or what they leave open holds. -/
theorem nextEngineeringStep_verify_independent_iff {input : StateMachineInput}
    (hstep : input.completedStep = .parseVerdict)
    (hlevel : input.assuranceLevel = "AL4".toList) :
    (nextEngineeringStep input = .nextStep .verify → Independent input) ↔
      (PassesTests input → ∀ context ∈ input.independenceContext, BeyondTests context) := by
  rw [nextEngineeringStep_verify hstep hlevel]
  constructor
  · intro h passes context hcontext
    obtain ⟨results, _, hresults, reviews, hcontext', independent, -, hrouting⟩ := h passes
    obtain rfl : context = _ := Option.some.inj (hcontext.symm.trans hcontext')
    obtain ⟨reviewers, hof, routed⟩ := hrouting
    obtain ⟨builder, hbuilder, _, hother⟩ := independent.builderFamily
    have hpaired : context.previousReviewerProviderIds.length =
        context.previousReviewerModelFamilies.length := by
      rw [hof]
      exact routed.paired
    refine ⟨hpaired, independent.distinctProviders, independent.notBuilder,
      independent.knownFamilies, ?_, ?_⟩
    · intro family hfamily hmem
      rw [Option.mem_def.mp hfamily] at hbuilder
      cases hbuilder
      exact hother (List.mem_of_mem_tail hmem)
    · have hdistinct := independent.distinctFamilies
      revert hdistinct
      cases context.previousReviewerModelFamilies with
      | nil => simp
      | cons first families =>
          intro hdistinct
          obtain ⟨hfirst, hrest⟩ := List.nodup_cons.mp hdistinct
          refine ⟨hrest, ?_⟩
          rintro _ ⟨⟩ hmem
          exact hfirst (List.mem_of_mem_drop hmem)
  · intro h passes
    obtain ⟨results, hresults, reviews⟩ := passes.reviews
    obtain ⟨context, hcontext, tested⟩ := passes.context
    have beyond := h passes context hcontext
    refine ⟨results, context, hresults, reviews, hcontext, ?_,
      checkAl4Independence_none tested reviews.two, ?_⟩
    · exact beyond.independent tested
    · exact (beyond.independent tested).describesRouting beyond.paired

/-- Two reviewers with verdict A and the given model families, for a builder of the family
`claude`. -/
def al4Input (families : List String) : StateMachineInput where
  completedStep := .parseVerdict
  stepStatus := .succeeded
  verdict := none
  reviewResults := some [⟨.known .A, "e1".toList⟩, ⟨.known .A, "e2".toList⟩]
  providerStatus := none
  correctionLoopCount := 0
  retryPolicy := defaultRetryPolicy
  humanApproved := false
  independenceContext := some
    { builderProviderId := some "builder".toList
      builderModelFamily := some "claude".toList
      previousReviewerProviderIds := ["p1".toList, "p2".toList]
      previousReviewerModelFamilies := families.map String.toList }
  assuranceLevel := "AL4".toList

theorem nextEngineeringStep_verify_independent_iff_two :
    (nextEngineeringStep (al4Input ["gpt", "gemini"]) = .nextStep .verify →
        Independent (al4Input ["gpt", "gemini"])) ↔
      (PassesTests (al4Input ["gpt", "gemini"]) →
        ∀ context ∈ (al4Input ["gpt", "gemini"]).independenceContext, BeyondTests context) :=
  nextEngineeringStep_verify_independent_iff rfl rfl

/-- A second reviewer of the builder's own model family is led to VERIFY. -/
theorem nextEngineeringStep_verify_same_family :
    nextEngineeringStep (al4Input ["gpt", "claude"]) = .nextStep .verify ∧
      ¬ Independent (al4Input ["gpt", "claude"]) := by
  refine ⟨by decide, ?_⟩
  rintro ⟨results, context, -, -, hcontext, independent, -⟩
  cases hcontext
  obtain ⟨family, hfamily, -, hother⟩ := independent.builderFamily
  cases hfamily
  exact hother (by decide)

end Workflow
