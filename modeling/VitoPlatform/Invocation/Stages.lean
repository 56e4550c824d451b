import VitoPlatform.Invocation.Invoke

/-!
# The stages of an invocation

One lemma for each stage of `invoke` before the execution says what its normal exit leaves
behind. A run is the list of questions and answers so far, so "the resolver returned" is
membership of an event in it. The stages only put questions that prepare the execution, and
facts about a run are kept by every longer run, which is all they need to know of each other.
-/

namespace Invocation

open Text Policy Persistence Database Prog

/-! ## What the stages establish -/

/-- The checks of the provider registry on the declaration in force. -/
structure Eligible (request : Request) (provider : ProviderDeclaration) : Prop where
  organization : provider.organizationId = request.organizationId
  capability : providerSupportsCapability provider request.capabilityCode = true
  routable : isProviderRoutable provider = true
  quota : provider.quotaStatus ≠ .exhausted ∧ provider.quotaStatus ≠ .unknown
  assurance : ∀ level, request.assuranceLevel = some level →
    providerSupportsAssuranceLevel provider level = true
  cost : ∀ maximum, (budget request).maxCostMinorUnits = some maximum →
    ∃ cost, provider.estimatedCostMinorUnits = some cost ∧ cost ≤ maximum

/-- The provider may run a coding agent: a local tool without a cloud profile, or a cloud
provider whose profile is enabled. -/
def AuthorizedForCodingAgent (deps : GovernedInvocationDependencies)
    (provider : ProviderDeclaration) (t : List Happened) : Prop :=
  (provider.providerType = .localTool ∧
      (deps.cloudExecutionProfileRegistry = true →
        answered (.peekCloudProfile provider.providerCode) none ∈ t)) ∨
    (isCloudGovernedProviderType provider.providerType = true ∧
      ∃ profile, answered (.resolveCloudProfile provider.providerCode) (some profile) ∈ t ∧
        profile.enabled = true)

/-- The policy a request is judged under: the resolved one or, for the command of an
authorized coding agent, the resolved one trusting exactly this command as an alias. -/
inductive EffectivePolicy (deps : GovernedInvocationDependencies) (request : Request)
    (provider : ProviderDeclaration) (executionProfile : ExecutionProfile)
    (t : List Happened) (policy : ExecutionPolicyConfig) : ExecutionPolicyConfig → Prop
  | resolved : EffectivePolicy deps request provider executionProfile t policy policy
  | trustedAlias (command : Str) (executable : TrustedExecutable) :
      allowsCodingAgentAlias request provider executionProfile = true →
      truthy request.requestedCommand = some command →
      AuthorizedForCodingAgent deps provider t →
      answered (.resolveExecutable (trim command) (executableContext request))
        (some executable) ∈ t →
      EffectivePolicy deps request provider executionProfile t policy
        { policy with trustedCodingAgentAliases := some [trim command] }

/-- The provider needs no credential, or one was found and is still valid. -/
inductive CredentialMet (request : Request) (provider : ProviderDeclaration)
    (t : List Happened) : Prop
  | notRequired : provider.credentialRequirement = some .notRequired →
      CredentialMet request provider t
  | required (reference : Str) : provider.credentialRequirement = some .required →
      answered (.getCredentialReference provider.id request.organizationId)
        (some reference) ∈ t →
      answered (.validateCredentialReference reference) true ∈ t →
      CredentialMet request provider t

/-- The home directory of the policy evaluation is the trusted resolver's, and is there
whenever the request has a path. -/
inductive HomeResolved (request : Request) (t : List Happened) : Option Str → Prop
  | notAsked : truthy request.requestedPath = none → HomeResolved request t none
  | answered (home : Str) :
      Invocation.answered (.resolveHomeDirectory (resolutionContext request)) (some home) ∈ t →
      HomeResolved request t (some home)

/-- A human gate binding for this very request that has not expired at `now`. -/
structure BindingMatches (binding : HumanGateBinding) (request : Request) (now : Int) :
    Prop where
  organization : binding.organizationId = request.organizationId
  run : binding.workflowRunId = request.workflowRunId
  step : binding.workflowStepRunId = request.workflowStepRunId
  capability : binding.capabilityCode = request.capabilityCode
  action : binding.requestedAction = some request.requestedAction
  provider : ∀ id, truthy binding.providerId = some id → id = request.providerId
  input : ∀ input, truthy binding.inputReference = some input →
    request.inputReference = some input
  unexpired : ∀ expiry, binding.expiresAt = some expiry → now ≤ expiry

/-- Release authority: the profile, and a resolved binding that covers the request. -/
structure Released (request : Request) (executionProfile : ExecutionProfile)
    (t : List Happened) : Prop where
  profile : executionProfile = .releaseAuthority
  binding : ∃ reference binding now,
    truthy request.humanApprovalReference = some reference ∧
    answered (.resolveHumanGate reference (resolutionContext request) request.inputReference
      request.requestedAction) (some binding) ∈ t ∧
    answered .now now ∈ t ∧ BindingMatches binding request now

/-! ## Facts of a run are facts of the longer ones -/

section Longer

variable {deps : GovernedInvocationDependencies} {request : Request}
variable {provider : ProviderDeclaration} {executionProfile : ExecutionProfile}
variable {policy effective : ExecutionPolicyConfig} {t t' : List Happened}

theorem AuthorizedForCodingAgent.mono (h : AuthorizedForCodingAgent deps provider t)
    (sub : t ⊆ t') : AuthorizedForCodingAgent deps provider t' := by
  rcases h with ⟨htype, hpeek⟩ | ⟨htype, profile, hprofile, henabled⟩
  · exact .inl ⟨htype, fun hregistry => sub (hpeek hregistry)⟩
  · exact .inr ⟨htype, profile, sub hprofile, henabled⟩

theorem EffectivePolicy.mono
    (h : EffectivePolicy deps request provider executionProfile t policy effective)
    (sub : t ⊆ t') :
    EffectivePolicy deps request provider executionProfile t' policy effective := by
  cases h with
  | resolved => exact .resolved
  | trustedAlias command executable hallows hcommand hauthorized hexecutable =>
      exact .trustedAlias command executable hallows hcommand (hauthorized.mono sub) (sub hexecutable)

theorem CredentialMet.mono (h : CredentialMet request provider t) (sub : t ⊆ t') :
    CredentialMet request provider t' := by
  cases h with
  | notRequired hnot => exact .notRequired hnot
  | required reference hrequired hfound hvalid =>
      exact .required reference hrequired (sub hfound) (sub hvalid)

theorem HomeResolved.mono {home : Option Str} (h : HomeResolved request t home)
    (sub : t ⊆ t') : HomeResolved request t' home := by
  cases h with
  | notAsked hpath => exact .notAsked hpath
  | answered home hhome => exact .answered home (sub hhome)

theorem Released.mono (h : Released request executionProfile t) (sub : t ⊆ t') :
    Released request executionProfile t' := by
  obtain ⟨reference, binding, now, href, hbinding, hnow, hmatches⟩ := h.binding
  exact ⟨h.profile, reference, binding, now, href, sub hbinding, sub hnow, hmatches⟩

end Longer

/-! ## Longer runs -/

/-- The questions that prepare an execution. -/
def isSetup : Effect Row Ask → Bool
  | .ask (.execute _ _ _) | .ask (.auditInvocationComplete _ _) | .ask (.claim _ _ _)
  | .ask (.markCompleted _ _ _) => false
  | .ask _ => true
  | _ => false

/-- `t'` is `t` and then questions that prepare an execution. -/
def Extends (t t' : List Happened) : Prop :=
  ∃ s, t' = t ++ s ∧ ∀ event ∈ s, isSetup event.1 = true

namespace Extends

variable {t t' t'' : List Happened}

theorem refl (t : List Happened) : Extends t t := ⟨[], by simp, by simp⟩

theorem trans (h : Extends t t') (h' : Extends t' t'') : Extends t t'' := by
  obtain ⟨s, rfl, hs⟩ := h
  obtain ⟨s', rfl, hs'⟩ := h'
  refine ⟨s ++ s', List.append_assoc _ _ _, fun event hevent => ?_⟩
  rcases List.mem_append.mp hevent with hevent | hevent
  · exact hs event hevent
  · exact hs' event hevent

theorem snoc {e : Effect Row Ask} {r : Except Failure (Answer Row Ans e)}
    (h : isSetup e = true) : Extends t (t ++ [⟨e, r⟩]) :=
  ⟨[⟨e, r⟩], rfl, by simpa using h⟩

theorem subset (h : Extends t t') : t ⊆ t' := by
  obtain ⟨s, rfl, -⟩ := h
  exact List.subset_append_left _ _

end Extends

/-! ## The release gate -/

/-- An approved gate is a binding that matches the request. -/
theorem validateHumanGateBinding_approved {binding : Option HumanGateBinding}
    {request : Request} {now : Int}
    (haction : request.requestedAction = .known .gitCommit ∨
      request.requestedAction = .known .gitPush)
    (h : validateHumanGateBinding binding request now = .approved) :
    ∃ b, binding = some b ∧ BindingMatches b request now := by
  cases binding with
  | none => cases h
  | some b =>
      refine ⟨b, rfl, ?_⟩
      rw [validateHumanGateBinding] at h
      split at h <;> try cases h
      rename_i horganization
      split at h <;> try cases h
      rename_i hrun
      split at h <;> try cases h
      rename_i hstep
      split at h <;> try cases h
      rename_i hcapability
      split at h <;> try cases h
      rename_i hprovider
      split at h <;> try cases h
      rename_i hinput
      split at h <;> try cases h
      rename_i hscope
      split at h <;> try cases h
      split at h <;> try cases h
      rename_i hexpiry
      refine ⟨not_not.mp horganization, not_not.mp hrun, not_not.mp hstep,
        not_not.mp hcapability, ?_, ?_, ?_, ?_⟩
      · -- An approval without an action scope is no authority for a release action.
        rw [actionScopeMatches] at hscope
        split at hscope
        · rcases haction with h | h
          · simp [h, EnumValue.member?, releaseConsequentialActions] at hscope
          · simp [h, EnumValue.member?, releaseConsequentialActions] at hscope
        · rcases haction with h | h
          · simp [h, EnumValue.member?, releaseConsequentialActions] at hscope
          · simp [h, EnumValue.member?, releaseConsequentialActions] at hscope
        · rename_i scope _ hsome
          rw [hsome]
          simpa using hscope
      · intro id hid
        simpa [hid] using hprovider
      · intro input hinput'
        have hsome : some input = request.inputReference := by simpa [hinput'] using hinput
        exact hsome.symm
      · intro expiry hexpires
        simpa [hexpires] using hexpiry

/-! ## The stages of an invocation -/

section Stages

variable {guard : List Happened → Effect Row Ask → Prop}
variable {deps : GovernedInvocationDependencies} {request : Request}
variable {provider : ProviderDeclaration} {executionProfile : ExecutionProfile}
variable {t : List Happened}

/-- Questions that prepare an execution may be put at any time. -/
def AllowsSetup (guard : List Happened → Effect Row Ask → Prop) : Prop :=
  ∀ t e, isSetup e = true → guard t e

theorem wp_ask {x : Ask} {post : Ans x → List Happened → Prop}
    {fail : Failure → List Happened → Prop} :
    wp guard (ask x) post fail t ↔
      guard t (.ask x) ∧ (∀ a, post a (t ++ [answered x a])) ∧
        ∀ error, fail error (t ++ [⟨.ask x, .error error⟩]) := wp_perform

/-- A question that prepares the execution: its answer is an event of the run. -/
theorem wp_ask_setup {x : Ask} (setup : AllowsSetup guard)
    (hx : isSetup (.ask x) = true) {post : Ans x → List Happened → Prop}
    (h : ∀ a t', Extends t t' → answered x a ∈ t' → post a t') :
    wp guard (ask x) post (fun _ _ => True) t :=
  wp_ask.mpr ⟨setup t _ hx, fun a => h a _ (.snoc hx) (by simp), fun _ => trivial⟩

/-- A program that only prepares leaves a run that extends the one it started from. -/
theorem wp_extends {α : Type} {p : Program α}
    (h : wp (fun _ e => isSetup e = true) p (fun _ _ => True) (fun _ _ => True) t) :
    wp (fun _ e => isSetup e = true) p (fun _ t' => Extends t t') (fun _ t' => Extends t t') t := by
  have go : ∀ {t₀ t}, Extends t₀ t →
      wp (fun _ e => isSetup e = true) p (fun _ _ => True) (fun _ _ => True) t →
        wp (fun _ e => isSetup e = true) p (fun _ t' => Extends t₀ t')
          (fun _ t' => Extends t₀ t') t := by
    clear h
    induction p with
    | pure a => exact fun hext _ => hext
    | throw error => exact fun hext _ => hext
    | call e k ih => exact fun hext h => ⟨h.1, fun r => ih r (hext.trans (.snoc h.1)) (h.2 r)⟩
  exact go (.refl t) h

/-- Sequencing after a stage of which only its questions matter. -/
theorem wp_setup_bind {α β : Type} {p : Program α} {f : α → Program β}
    {post : β → List Happened → Prop} {fail : Failure → List Happened → Prop}
    (setup : AllowsSetup guard)
    (hp : wp (fun _ e => isSetup e = true) p (fun _ _ => True) (fun _ _ => True) t)
    (hfail : ∀ error t', Extends t t' → fail error t')
    (h : ∀ a t', Extends t t' → wp guard (f a) post fail t') :
    wp guard (p >>= f) post fail t := by
  rw [wp_bind]
  exact wp_guard_mono (wp_mono (wp_extends hp) h hfail) setup

theorem wp_validateRequest {post : Unit → List Happened → Prop} (h : post () t) :
    wp guard (validateRequest request) post (fun _ _ => True) t := by
  simp only [validateRequest, requireThat, wp_bind, wp_require, implies_true, and_true]
  intros
  exact h

theorem wp_resolveAndValidateProvider (setup : AllowsSetup guard)
    {post : ProviderDeclaration → List Happened → Prop}
    (h : ∀ provider t', Extends t t' →
      answered (.resolveProvider request.providerId request.organizationId)
        (some provider) ∈ t' →
      Eligible request provider → post provider t') :
    wp guard (resolveAndValidateProvider request) post (fun _ _ => True) t := by
  rw [resolveAndValidateProvider, wp_bind]
  refine wp_ask_setup setup rfl fun resolved t' sub hresolved => ?_
  simp only [expectSome, requireThat, wp_bind, wp_expect, wp_require, implies_true, and_true]
  rintro provider rfl horganization hcapability hroutable hquota hassurance
  have eligible : (∀ maximum, (budget request).maxCostMinorUnits = some maximum →
      ∃ cost, provider.estimatedCostMinorUnits = some cost ∧ cost ≤ maximum) →
      Eligible request provider := by
    refine fun hcost => ⟨by simpa using horganization, hcapability, hroutable, ?_, ?_, hcost⟩
    · simpa using hquota
    · intro level hlevel
      simpa [hlevel] using hassurance
  split
  · rename_i hbudget
    exact h provider t' sub hresolved (eligible fun maximum hmaximum => by simp_all)
  · rename_i maximum hbudget
    simp only [wp_bind, wp_expect, wp_require, wp_pure', implies_true, and_true]
    intro cost hcost hle
    refine h provider t' sub hresolved (eligible fun maximum' hmaximum => ?_)
    rw [hbudget] at hmaximum
    cases hmaximum
    exact ⟨cost, hcost, by simpa using hle⟩

theorem wp_resolveAdapter (setup : AllowsSetup guard)
    {post : Unit → List Happened → Prop} (h : ∀ t', Extends t t' → post () t') :
    wp guard (resolveAdapter provider) post (fun _ _ => True) t := by
  rw [resolveAdapter, wp_bind]
  refine wp_ask_setup setup rfl fun adapter t' sub _ => ?_
  simp only [expectSome, wp_expect, implies_true, and_true]
  intros
  exact h t' sub

theorem wp_resolveTrustedExecutionProfile (setup : AllowsSetup guard)
    {post : Option (EnumValue ExecutionProfile) → List Happened → Prop}
    (hnone : ∀ t', Extends t t' → post none t')
    (hsome : ∀ profile t', Extends t t' →
      answered (.resolveExecutionProfile (resolutionContext request)) profile ∈ t' →
      post profile t') :
    wp guard (resolveTrustedExecutionProfile deps request) post (fun _ _ => True) t := by
  rw [resolveTrustedExecutionProfile]
  split
  · rw [wp_tryCatch, wp_ask]
    refine ⟨setup t _ rfl, fun profile => ?_, fun error => ?_⟩
    · exact hsome profile _ (Extends.snoc rfl) (by simp)
    · exact hnone _ (Extends.snoc rfl)
  · exact hnone t (Extends.refl t)

theorem wp_resolveTrustedExecutionPolicy (setup : AllowsSetup guard)
    {post : ExecutionPolicyConfig → List Happened → Prop}
    (h : ∀ policy t', Extends t t' →
      answered (.resolveExecutionPolicy (resolutionContext request) executionProfile
        request.requestedAction) (some policy) ∈ t' →
      post policy t') :
    wp guard (resolveTrustedExecutionPolicy deps request executionProfile) post
      (fun _ _ => True) t := by
  simp only [resolveTrustedExecutionPolicy, requireThat, wp_bind, wp_require, implies_true,
    and_true]
  intro _
  refine wp_ask_setup setup rfl fun resolved t' sub hresolved => ?_
  simp only [expectSome, wp_expect, implies_true, and_true]
  rintro policy rfl
  exact h policy t' sub hresolved

theorem wp_isProviderAuthorizedForCodingAgent (setup : AllowsSetup guard)
    {post : Bool → List Happened → Prop}
    (h : ∀ authorized t', Extends t t' →
      (authorized = true → AuthorizedForCodingAgent deps provider t') → post authorized t') :
    wp guard (isProviderAuthorizedForCodingAgent deps provider) post (fun _ _ => True) t := by
  rw [isProviderAuthorizedForCodingAgent]
  split
  · rename_i htype
    split
    · rw [wp_bind]
      refine wp_ask_setup setup rfl fun profile t' sub hprofile => ?_
      refine h _ t' sub fun hnone => .inl ⟨htype, fun _ => ?_⟩
      rw [Option.isNone_iff_eq_none] at hnone
      rwa [hnone] at hprofile
    · rename_i hregistry
      exact h true t (Extends.refl t) fun _ => .inl ⟨htype, fun h => absurd h hregistry⟩
  · split
    · rename_i htype
      split
      · rw [wp_bind]
        refine wp_ask_setup setup rfl fun profile t' sub hprofile => ?_
        refine h _ t' sub fun henabled => .inr ⟨htype, ?_⟩
        obtain ⟨found, rfl, hfound⟩ := Option.any_eq_true .. |>.mp henabled
        exact ⟨found, hprofile, hfound⟩
      · exact h false t (Extends.refl t) fun h => absurd h (by decide)
    · exact h false t (Extends.refl t) fun h => absurd h (by decide)

theorem wp_augmentBuilderPolicy (setup : AllowsSetup guard)
    {policy : ExecutionPolicyConfig} {post : ExecutionPolicyConfig → List Happened → Prop}
    (h : ∀ effective t', Extends t t' →
      EffectivePolicy deps request provider executionProfile t' policy effective →
      post effective t') :
    wp guard (augmentBuilderPolicyWithTrustedCodingAgentAlias deps request provider
      executionProfile policy) post (fun _ _ => True) t := by
  have unchanged : ∀ t', Extends t t' → post policy t' := fun t' sub => h policy t' sub .resolved
  rw [augmentBuilderPolicyWithTrustedCodingAgentAlias]
  split
  · rename_i hallows
    rw [wp_bind]
    refine wp_isProviderAuthorizedForCodingAgent setup fun authorized t₁ sub₁ hauthorized => ?_
    split
    · exact unchanged t₁ sub₁
    · rename_i command hcommand
      obtain ⟨rfl, hcommand⟩ : authorized = true ∧ truthy request.requestedCommand =
          some command := by
        cases authorized with
        | true => exact ⟨rfl, hcommand⟩
        | false => cases hcommand
      split
      · rw [wp_bind, wp_tryCatch, wp_ask]
        refine ⟨setup t₁ _ rfl, fun executable => ?_, fun error => ?_⟩
        · cases executable with
          | none => exact unchanged _ (sub₁.trans (Extends.snoc rfl))
          | some executable =>
              refine h _ _ (sub₁.trans (Extends.snoc rfl)) ?_
              exact .trustedAlias command executable hallows hcommand
                ((hauthorized rfl).mono (List.subset_append_left _ _)) (by simp)
        · exact unchanged _ (sub₁.trans (Extends.snoc rfl))
      · exact unchanged t₁ sub₁
  · exact unchanged t (Extends.refl t)

/-- An approved gate comes from a binding that the resolver returned for this request. -/
theorem wp_resolveReleaseGate (setup : AllowsSetup guard)
    {post : ReleaseGateStatus → List Happened → Prop}
    (h : ∀ gate t', Extends t t' →
      ((request.requestedAction = .known .gitCommit ∨
          request.requestedAction = .known .gitPush) →
        gate = .approved → Released request .releaseAuthority t') →
      post gate t') :
    wp guard (resolveReleaseGate deps request) post (fun _ _ => True) t := by
  have refused : ∀ t', Extends t t' → post .notRequested t' := fun t' sub =>
    h _ t' sub fun _ happroved => by cases happroved
  rw [resolveReleaseGate]
  split
  · exact refused t (Extends.refl t)
  · rename_i reference href
    split
    · rw [wp_bind]
      refine wp_ask_setup setup rfl fun binding t₁ sub₁ hbinding => ?_
      rw [wp_bind]
      refine wp_ask_setup setup rfl fun now t₂ sub₂ hnow => ?_
      refine h _ t₂ (sub₁.trans sub₂) fun haction happroved => ?_
      obtain ⟨b, rfl, hmatches⟩ := validateHumanGateBinding_approved haction happroved
      exact ⟨rfl, reference, b, now, href, sub₂.subset hbinding, hnow, hmatches⟩
    · exact refused t (Extends.refl t)

theorem wp_resolveHomeDirectory (setup : AllowsSetup guard)
    {post : Option Str → List Happened → Prop}
    (h : ∀ home t', Extends t t' → HomeResolved request t' home → post home t') :
    wp guard (resolveHomeDirectory deps request) post (fun _ _ => True) t := by
  rw [resolveHomeDirectory]
  split
  · rename_i hpath
    exact h none t (Extends.refl t) (.notAsked hpath)
  · simp only [requireThat, wp_bind, wp_require, implies_true, and_true]
    intro _
    refine wp_ask_setup setup rfl fun resolved t' sub hresolved => ?_
    simp only [expectSome, wp_expect, wp_pure', implies_true, and_true]
    intro home hhome
    rw [(truthy_eq_some.mp hhome).1] at hresolved
    exact h _ t' sub (.answered home hresolved)

/-- What a context of the policy evaluation was built from. -/
structure ContextBuilt (deps : GovernedInvocationDependencies) (request : Request)
    (provider : ProviderDeclaration) (executionProfile : ExecutionProfile)
    (context : PolicyEvaluationContext) (gate : ReleaseGateStatus)
    (policy effective : ExecutionPolicyConfig) (t : List Happened) : Prop where
  built : ∃ home, HomeResolved request t home ∧ context =
    policyEvaluationContext request executionProfile gate home effective
  approved : (request.requestedAction = .known .gitCommit ∨
      request.requestedAction = .known .gitPush) →
    gate = .approved → Released request .releaseAuthority t
  resolvedPolicy : answered (.resolveExecutionPolicy (resolutionContext request)
    executionProfile request.requestedAction) (some policy) ∈ t
  judged : EffectivePolicy deps request provider executionProfile t policy effective

theorem wp_createPolicyEvaluationContext (setup : AllowsSetup guard)
    {post : PolicyEvaluationContext → List Happened → Prop}
    (h : ∀ context gate policy effective t', Extends t t' →
      ContextBuilt deps request provider executionProfile context gate policy effective t' →
      post context t') :
    wp guard (createPolicyEvaluationContext deps request provider executionProfile) post
      (fun _ _ => True) t := by
  simp only [createPolicyEvaluationContext, wp_bind, wp_pure']
  refine wp_resolveReleaseGate setup fun gate t₁ sub₁ hgate => ?_
  refine wp_resolveHomeDirectory setup fun home t₂ sub₂ hhome => ?_
  refine wp_resolveTrustedExecutionPolicy setup fun policy t₃ sub₃ hpolicy => ?_
  refine wp_augmentBuilderPolicy setup fun effective t₄ sub₄ heffective => ?_
  refine h _ gate policy effective t₄ (((sub₁.trans sub₂).trans sub₃).trans sub₄) ?_
  refine ⟨⟨home, hhome.mono (sub₃.trans sub₄).subset, rfl⟩, fun haction happroved => ?_,
    sub₄.subset hpolicy, heffective⟩
  exact (hgate haction happroved).mono ((sub₂.trans sub₃).trans sub₄).subset

theorem wp_resolveCredentials (setup : AllowsSetup guard)
    {post : Option Str → List Happened → Prop}
    (h : ∀ reference t', Extends t t' → CredentialMet request provider t' → post reference t') :
    wp guard (resolveCredentials deps provider request.organizationId) post
      (fun _ _ => True) t := by
  have known : ∀ requirement, requirement ≠ .unknown →
      provider.credentialRequirement.getD .unknown = requirement →
        provider.credentialRequirement = some requirement := by
    intro requirement hne hrequirement
    cases hdeclared : provider.credentialRequirement with
    | none =>
        rw [hdeclared] at hrequirement
        exact absurd hrequirement.symm hne
    | some declared =>
        rw [hdeclared] at hrequirement
        rw [← hrequirement, Option.getD_some]
  rw [resolveCredentials]
  split
  · rename_i hnot
    exact h none t (Extends.refl t) (.notRequired (known _ (by decide) hnot))
  · rename_i hrequired
    simp only [requireThat, wp_bind, wp_require, implies_true, and_true]
    intro _
    refine wp_ask_setup setup rfl fun found t₁ sub₁ hfound => ?_
    simp only [expectSome, wp_expect, implies_true, and_true]
    intro reference href
    refine wp_ask_setup setup rfl fun valid t₂ sub₂ hvalid => ?_
    simp only [wp_pure']
    rintro rfl
    rw [(truthy_eq_some.mp href).1] at hfound
    exact h _ t₂ (sub₁.trans sub₂)
      (.required reference (known _ (by decide) hrequired) (sub₂.subset hfound) hvalid)
  · trivial

theorem wp_buildExecutionContext (setup : AllowsSetup guard) {decision : PolicyDecision}
    {credentialReference : Option Str} {post : GovernedExecutionContext → List Happened → Prop}
    (h : ∀ context t', Extends t t' → context.policyDecision = decision →
      answered (.resolveWorkingDirectory (resolutionContext request))
        (some context.environment.workingDirectory) ∈ t' → post context t') :
    wp guard (buildExecutionContext deps request provider executionProfile decision
      credentialReference) post (fun _ _ => True) t := by
  simp only [buildExecutionContext, buildGovernedExecutionEnvironment, requireThat, wp_bind,
    wp_require, wp_pure', implies_true, and_true]
  intro _ _ _
  refine wp_ask_setup setup rfl fun resolved t₁ sub₁ hresolved => ?_
  simp only [expectSome, wp_expect, implies_true, and_true]
  intro workingDirectory hdirectory
  rw [(truthy_eq_some.mp hdirectory).1] at hresolved
  rw [resolveTrustedExecutable]
  split
  · exact h _ t₁ sub₁ rfl hresolved
  · simp only [requireThat, wp_bind, wp_require, implies_true, and_true]
    intro _
    refine wp_ask_setup setup rfl fun resolved t₂ sub₂ _ => ?_
    simp only [expectSome, wp_expect, wp_pure', implies_true, and_true]
    exact fun executable _ => h _ t₂ (sub₁.trans sub₂) rfl (sub₂.subset hresolved)

/-! ## Up to the claim gate -/

/-- The claim gate, where the action needs it, and the execution. -/
def executeGuarded (deps : GovernedInvocationDependencies) (request : Request)
    (provider : ProviderDeclaration) (executionProfile : ExecutionProfile)
    (context : GovernedExecutionContext) : Program Result :=
  match deps.idempotencyStore with
  | some store =>
      if isConsequentialExecutionAction request.requestedAction then
        claimAndExecute store request provider executionProfile context
      else executeAdapter request provider executionProfile context none
  | none => executeAdapter request provider executionProfile context none

theorem executeAllowed_eq (decision : PolicyDecision) :
    executeAllowed deps request provider executionProfile decision = (do
      let credentialReference ← resolveCredentials deps provider request.organizationId
      let context ← buildExecutionContext deps request provider executionProfile decision
        credentialReference
      executeGuarded deps request provider executionProfile context) := rfl

/-- Whatever holds of every run that has only prepared the execution, and of every run from the
claim gate on, holds of an invocation. -/
theorem wp_invoke_guarded (setup : AllowsSetup guard)
    {post : Result → List Happened → Prop} {fail : Failure → List Happened → Prop}
    (hpost : ∀ result t, Extends [] t → post result t)
    (hfail : ∀ error t, Extends [] t → fail error t)
    (hexecute : ∀ provider executionProfile context t, Extends [] t →
      wp guard (executeGuarded deps request provider executionProfile context) post fail t) :
    wp guard (invoke deps request) post fail [] := by
  have prepares : AllowsSetup fun _ e => isSetup e = true := fun _ _ h => h
  have stage : ∀ {α : Type} {p : Program α} {f : α → Program Result} {t : List Happened},
      Extends [] t →
      wp (fun _ e => isSetup e = true) p (fun _ _ => True) (fun _ _ => True) t →
      (∀ a t', Extends [] t' → wp guard (f a) post fail t') → wp guard (p >>= f) post fail t :=
    fun ht hp h => wp_setup_bind setup hp (fun error _ hext => hfail error _ (ht.trans hext))
      fun a _ hext => h a _ (ht.trans hext)
  rw [invoke]
  refine stage (.refl []) (wp_validateRequest trivial) fun _ t ht => ?_
  refine stage ht (by simp [requireThat]) fun _ t ht => ?_
  refine stage ht (wp_resolveAndValidateProvider prepares fun _ _ _ _ _ => trivial)
    fun provider t ht => ?_
  refine stage ht (wp_resolveAdapter prepares fun _ _ => trivial) fun _ t ht => ?_
  refine stage ht (wp_resolveTrustedExecutionProfile prepares (fun _ _ => trivial)
    fun _ _ _ _ => trivial) fun resolved t ht => ?_
  split
  · exact hpost _ t ht
  · rename_i executionProfile _
    rw [invokeUnder]
    refine stage ht (wp_createPolicyEvaluationContext prepares fun _ _ _ _ _ _ _ => trivial)
      fun context t ht => ?_
    refine stage ht ?_ fun decision t ht => ?_
    · rw [Invocation.decide, wp_bind]
      refine wp_ask_setup prepares rfl fun host t' _ _ => ?_
      simp
    refine stage ht (wp_ask_setup prepares rfl fun _ _ _ _ => trivial) fun _ t ht => ?_
    split
    · rw [executeAllowed_eq]
      refine stage ht (wp_resolveCredentials prepares fun _ _ _ _ => trivial)
        fun reference t ht => ?_
      exact stage ht (wp_buildExecutionContext prepares fun _ _ _ _ _ => trivial)
        fun context t ht => hexecute provider executionProfile context t ht
    · exact hpost _ t ht

end Stages

end Invocation
