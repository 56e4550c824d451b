import VitoPlatform.Invocation.Stages
import VitoPlatform.Policy.CommandSafety

/-!
# The execution gate

What has been established in every run of `invoke` that is about to call
`adapter.execute()`, whatever the resolvers, registries and the idempotency store answered.
-/

namespace Invocation

open Text Policy Persistence Database Prog

/-! ## Conditions of an execution -/

/-- The policy evaluation of the request under `policy` allowed it. -/
structure AllowedUnder (request : Request) (executionProfile : ExecutionProfile)
    (policy : ExecutionPolicyConfig) (t : List Happened) : Prop where
  decision : ∃ host gate home decision, answered .host host ∈ t ∧
    evaluatePolicy host (policyEvaluationContext request executionProfile gate home policy) =
      some decision ∧ decision.allowed = true

/-- Everything a run that executes an adapter has established. -/
structure Established (deps : GovernedInvocationDependencies) (request : Request)
    (provider : ProviderDeclaration) (executionProfile : ExecutionProfile)
    (policy effective : ExecutionPolicyConfig) (t : List Happened) : Prop where
  resolvedProvider : answered (.resolveProvider request.providerId request.organizationId)
    (some provider) ∈ t
  eligible : Eligible request provider
  resolvedProfile : answered (.resolveExecutionProfile (resolutionContext request))
    (some (.known executionProfile)) ∈ t
  resolvedPolicy : answered (.resolveExecutionPolicy (resolutionContext request) executionProfile
    request.requestedAction) (some policy) ∈ t
  judged : EffectivePolicy deps request provider executionProfile t policy effective
  allowed : AllowedUnder request executionProfile effective t
  credential : CredentialMet request provider t
  claimed : isConsequentialExecutionAction request.requestedAction = true →
    ∃ claim, answered
      (.claim (buildGovernedLogicalOperationKey request) request.invocationId
        (buildGovernedInvocationFingerprint request provider.id executionProfile))
      (.claimed claim) ∈ t
  released : request.requestedAction = .known .gitCommit ∨
    request.requestedAction = .known .gitPush → Released request executionProfile t

/-- The context an adapter is executed in carries the allowed decision about the request, and
the resolved working directory. -/
structure Judged (request : Request) (executionProfile : ExecutionProfile)
    (effective : ExecutionPolicyConfig) (context : GovernedExecutionContext)
    (t : List Happened) : Prop where
  evaluated : ∃ host gate home, answered .host host ∈ t ∧ HomeResolved request t home ∧
    evaluatePolicy host
        (policyEvaluationContext request executionProfile gate home effective) =
      some context.policyDecision
  allowed : context.policyDecision.allowed = true
  workingDirectory : answered (.resolveWorkingDirectory (resolutionContext request))
    (some context.environment.workingDirectory) ∈ t

def isExecute : Effect Row Ask → Bool
  | .ask (.execute _ _ _) => true
  | _ => false

/-- A release action is allowed only to the release authority under an approved gate. -/
theorem evaluatePolicy_release {host : Host} {request : Request}
    {executionProfile : ExecutionProfile} {gate : ReleaseGateStatus} {home : Option Str}
    {policy : ExecutionPolicyConfig} {decision : PolicyDecision}
    (haction : request.requestedAction = .known .gitCommit ∨
      request.requestedAction = .known .gitPush)
    (heval : evaluatePolicy host
      (policyEvaluationContext request executionProfile gate home policy) = some decision)
    (hallowed : decision.allowed = true) :
    executionProfile = .releaseAuthority ∧ gate = .approved := by
  rw [evaluatePolicy] at heval
  rcases haction with h | h
  · simp only [policyEvaluationContext, h, EnumValue.member?, Option.some.injEq] at heval
    subst heval
    rw [evaluateGrant, permitIf] at hallowed
    split at hallowed
    · simp_all
    · simp at hallowed
  · simp only [policyEvaluationContext, h, EnumValue.member?, Option.some.injEq] at heval
    subst heval
    rw [evaluateGrant, permitIf] at hallowed
    split at hallowed
    · simp_all
    · simp at hallowed

/-! ## Executing and finalizing -/

section Store

variable {guard : List Happened → Effect Row Ask → Prop}
variable {deps : GovernedInvocationDependencies} {request : Request}
variable {provider : ProviderDeclaration} {executionProfile : ExecutionProfile}
variable {policy : ExecutionPolicyConfig} {t t' : List Happened}

/-- Only executions are watched: anything else may be asked at any time. -/
def WatchesExecution (guard : List Happened → Effect Row Ask → Prop) : Prop :=
  ∀ t e, isExecute e = false → guard t e

theorem WatchesExecution.setup (watches : WatchesExecution guard) : AllowsSetup guard := by
  intro t e he
  refine watches t e ?_
  cases e with
  | ask x =>
      cases x with
      | execute _ _ _ => cases he
      | _ => rfl
  | _ => rfl

theorem AllowedUnder.mono (h : AllowedUnder request executionProfile policy t)
    (sub : t ⊆ t') : AllowedUnder request executionProfile policy t' := by
  obtain ⟨host, gate, home, decision, hhost, heval⟩ := h.decision
  exact ⟨host, gate, home, decision, sub hhost, heval⟩

/-- The stores of a run whose every answer is the environment's. -/
def Asking (claimed : Option (GovernedInvocationIdempotencyStore × Str)) : Prop :=
  ∀ store key, claimed = some (store, key) → store = askingStore

theorem wp_finalizeInvocation (watches : WatchesExecution guard) {result : Result}
    {claimed : Option (GovernedInvocationIdempotencyStore × Str)} (hclaimed : Asking claimed) :
    wp guard (finalizeInvocation request executionProfile result claimed) (fun _ _ => True)
      (fun _ _ => True) t := by
  have audited : ∀ t, wp guard (ask (.auditInvocationComplete executionProfile result))
      (fun _ _ => True) (fun _ _ => True) t := fun t =>
    wp_ask.mpr ⟨watches t _ rfl, fun _ => trivial, fun _ => trivial⟩
  obtain _ | ⟨store, key⟩ := claimed
  · simp only [finalizeInvocation, wp_bind, wp_pure']
    exact audited t
  · obtain rfl := hclaimed store key rfl
    simp only [finalizeInvocation, wp_bind, wp_pure', wp_tryCatch, askingStore_markCompleted]
    exact wp_ask.mpr ⟨watches t _ rfl, fun _ => audited _, fun _ => audited _⟩

theorem wp_attempt {α : Type} {p : Program α} {post : Except Failure α → List Happened → Prop}
    {fail : Failure → List Happened → Prop} :
    wp guard (attempt p) post fail t ↔
      wp guard p (fun a => post (.ok a)) (fun error => post (.error error)) t := by
  simp only [attempt, wp_tryCatch, wp_bind, wp_pure']

/-- The guard is asked for once, before the execution; nothing after it executes again. -/
theorem wp_executeAdapter (watches : WatchesExecution guard)
    {context : GovernedExecutionContext}
    {claimed : Option (GovernedInvocationIdempotencyStore × Str)} (hclaimed : Asking claimed)
    (hexecute : ∀ adapterRequest,
      guard t (.ask (.execute provider.providerType adapterRequest context))) :
    wp guard (executeAdapter request provider executionProfile context claimed)
      (fun _ _ => True) (fun _ _ => True) t := by
  rw [executeAdapter, wp_bind, wp_attempt]
  refine wp_ask.mpr ⟨hexecute _, fun adapterResult => ?_, fun error => ?_⟩
  · cases adapterResult with
    | none => trivial
    | some adapterResult =>
        simp only
        split
        · rw [wp_bind, normalizeAdapterResult]
          split
          · trivial
          · exact wp_finalizeInvocation watches hclaimed
        · exact wp_finalizeInvocation watches hclaimed
  · exact wp_finalizeInvocation watches hclaimed

theorem wp_claimAndExecute (watches : WatchesExecution guard)
    {context : GovernedExecutionContext}
    (hexecute : ∀ t' claim adapterRequest, t ⊆ t' →
      answered
        (.claim (buildGovernedLogicalOperationKey request) request.invocationId
          (buildGovernedInvocationFingerprint request provider.id executionProfile))
        (.claimed claim) ∈ t' →
      guard t' (.ask (.execute provider.providerType adapterRequest context))) :
    wp guard (claimAndExecute askingStore request provider executionProfile context)
      (fun _ _ => True) (fun _ _ => True) t := by
  have unclaimed : Asking none := fun _ _ h => by cases h
  rw [claimAndExecute, wp_bind, wp_attempt, askingStore_claim]
  refine wp_ask.mpr ⟨watches t _ rfl, fun outcome => ?_, fun error => ?_⟩
  · cases outcome with
    | duplicate existing => exact wp_finalizeInvocation watches unclaimed
    | contextConflict existing => exact wp_finalizeInvocation watches unclaimed
    | claimed claim =>
        refine wp_executeAdapter watches ?_ fun adapterRequest => ?_
        · intro store key h
          cases h
          rfl
        · exact hexecute _ claim adapterRequest (List.subset_append_left _ _) (by simp)
  · exact wp_finalizeInvocation watches unclaimed

end Store

/-! ## The gate -/

/-- The same dependencies with a store that may do anything in place of an injected one. -/
def GovernedInvocationDependencies.asking (deps : GovernedInvocationDependencies) :
    GovernedInvocationDependencies :=
  { deps with idempotencyStore := deps.idempotencyStore.map fun _ => askingStore }

/-- The guard of the gate. -/
def gate (deps : GovernedInvocationDependencies) (request : Request) (t : List Happened)
    (e : Effect Row Ask) : Prop :=
  ∀ providerType adapterRequest context,
    e = .ask (.execute providerType adapterRequest context) →
      ∃ provider executionProfile policy effective,
        Established deps request provider executionProfile policy effective t ∧
          Judged request executionProfile effective context t

theorem gate_watchesExecution (deps : GovernedInvocationDependencies) (request : Request) :
    WatchesExecution (gate deps request) := by
  rintro t e h providerType adapterRequest context rfl
  cases h

variable {deps : GovernedInvocationDependencies} {request : Request}
variable {provider : ProviderDeclaration} {executionProfile : ExecutionProfile}
variable {t : List Happened}

theorem wp_executeAllowed {decision : PolicyDecision}
    (hstore : (isConsequentialExecutionAction request.requestedAction &&
      deps.asking.idempotencyStore.isNone) = false)
    (h : ∀ t' context, t ⊆ t' → CredentialMet request provider t' →
      (isConsequentialExecutionAction request.requestedAction = true →
        ∃ claim, answered
          (.claim (buildGovernedLogicalOperationKey request) request.invocationId
            (buildGovernedInvocationFingerprint request provider.id executionProfile))
          (.claimed claim) ∈ t') →
      context.policyDecision = decision →
      answered (.resolveWorkingDirectory (resolutionContext request))
        (some context.environment.workingDirectory) ∈ t' →
      ∀ providerType adapterRequest,
        gate deps.asking request t' (.ask (.execute providerType adapterRequest context))) :
    wp (gate deps.asking request)
      (executeAllowed deps.asking request provider executionProfile decision)
      (fun _ _ => True) (fun _ _ => True) t := by
  have watches := gate_watchesExecution deps.asking request
  have unclaimed : Asking none := fun _ _ h => by cases h
  rw [executeAllowed, wp_bind]
  refine wp_resolveCredentials watches.setup fun reference t₁ sub₁ hcredential => ?_
  rw [wp_bind]
  refine wp_buildExecutionContext watches.setup fun context t₂ sub₂ hdecision hdirectory => ?_
  have hcredential₂ := hcredential.mono sub₂.subset
  split
  · rename_i store hinjected
    obtain rfl : askingStore = store := by
      simp only [GovernedInvocationDependencies.asking, Option.map_eq_some_iff] at hinjected
      obtain ⟨_, -, rfl⟩ := hinjected
      rfl
    split
    · refine wp_claimAndExecute watches fun t₃ claim adapterRequest sub₃ hclaim => ?_
      exact h t₃ context (List.Subset.trans (sub₁.trans sub₂).subset sub₃)
        (hcredential₂.mono sub₃) (fun _ => ⟨claim, hclaim⟩) hdecision (sub₃ hdirectory) _ _
    · rename_i haction
      exact wp_executeAdapter watches unclaimed fun _ =>
        h t₂ context (sub₁.trans sub₂).subset hcredential₂
          (fun hconsequential => absurd hconsequential haction) hdecision hdirectory _ _
  · rename_i hmissing
    refine wp_executeAdapter watches unclaimed fun _ =>
      h t₂ context (sub₁.trans sub₂).subset hcredential₂ ?_ hdecision hdirectory _ _
    intro hconsequential
    rw [hconsequential, hmissing] at hstore
    cases hstore

theorem wp_invokeUnder
    (hstore : (isConsequentialExecutionAction request.requestedAction &&
      deps.asking.idempotencyStore.isNone) = false)
    (hprovider : answered (.resolveProvider request.providerId request.organizationId)
      (some provider) ∈ t)
    (heligible : Eligible request provider)
    (hprofile : answered (.resolveExecutionProfile (resolutionContext request))
      (some (.known executionProfile)) ∈ t) :
    wp (gate deps.asking request) (invokeUnder deps.asking request provider executionProfile)
      (fun _ _ => True) (fun _ _ => True) t := by
  have watches := gate_watchesExecution deps.asking request
  rw [invokeUnder, wp_bind]
  refine wp_createPolicyEvaluationContext watches.setup
    fun context releaseGate policy effective t₁ sub₁ hcontext => ?_
  obtain ⟨⟨home, hhome, rfl⟩, hreleased, hpolicy, heffective⟩ := hcontext
  rw [wp_bind, Invocation.decide, wp_bind]
  refine wp_ask_setup watches.setup rfl fun host t₂ sub₂ hhost => ?_
  simp only [wp_expect, implies_true, and_true]
  intro decision heval
  rw [wp_bind]
  refine wp_ask_setup watches.setup rfl fun _ t₃ sub₃ _ => ?_
  split
  · rename_i hallowed
    refine wp_executeAllowed hstore fun t₄ context sub₄ hcredential hclaimed hdecision hdirectory
      providerType adapterRequest => ?_
    rintro _ _ _ ⟨⟩
    have sub₁₄ : t₁ ⊆ t₄ := List.Subset.trans (sub₂.trans sub₃).subset sub₄
    exact ⟨provider, executionProfile, policy, effective,
      { resolvedProvider := List.Subset.trans sub₁.subset sub₁₄ hprovider
        eligible := heligible
        resolvedProfile := List.Subset.trans sub₁.subset sub₁₄ hprofile
        resolvedPolicy := sub₁₄ hpolicy
        judged := heffective.mono sub₁₄
        allowed := ⟨host, releaseGate, home, decision,
          List.Subset.trans sub₃.subset sub₄ hhost, heval, hallowed⟩
        credential := hcredential
        claimed := hclaimed
        released := fun haction => by
          obtain ⟨rfl, happroved⟩ := evaluatePolicy_release haction heval hallowed
          exact (hreleased haction happroved).mono sub₁₄ },
      { evaluated := ⟨host, releaseGate, home, List.Subset.trans sub₃.subset sub₄ hhost,
          hhome.mono sub₁₄, by rw [hdecision, heval]⟩
        allowed := by rw [hdecision, hallowed]
        workingDirectory := hdirectory }⟩
  · trivial

/-- Every execution has passed the gate. -/
theorem wp_invoke : wp (gate deps.asking request) (invoke deps.asking request)
    (fun _ _ => True) (fun _ _ => True) [] := by
  have watches := gate_watchesExecution deps.asking request
  rw [invoke, wp_bind]
  refine wp_validateRequest ?_
  simp only [requireThat, wp_bind, wp_require, implies_true, and_true, Bool.not_eq_true']
  intro hstore
  refine wp_resolveAndValidateProvider watches.setup fun provider t₁ sub₁ hprovider heligible => ?_
  refine wp_resolveAdapter watches.setup fun t₂ sub₂ => ?_
  refine wp_resolveTrustedExecutionProfile watches.setup (fun t₃ sub₃ => trivial)
    fun profile t₃ sub₃ hprofile => ?_
  split
  · trivial
  · rename_i executionProfile hmember
    obtain ⟨value, rfl, hvalue⟩ := Option.bind_eq_some_iff.mp hmember
    cases value with
    | unknown text => cases hvalue
    | known value =>
        cases hvalue
        exact wp_invokeUnder hstore ((sub₂.trans sub₃).subset hprovider) heligible
          hprofile

/-! ## The profile hint -/

section Hint

variable {hint : EnumValue ExecutionProfile}

theorem finalizeInvocation_hint :
    finalizeInvocation { request with executionProfile := hint } =
      finalizeInvocation request := rfl

theorem normalizeAdapterRuntimeFailure_hint :
    normalizeAdapterRuntimeFailure { request with executionProfile := hint } =
      normalizeAdapterRuntimeFailure request := rfl

theorem normalizeAdapterResult_hint :
    normalizeAdapterResult { request with executionProfile := hint } =
      normalizeAdapterResult request := rfl

theorem executeAdapter_hint :
    executeAdapter { request with executionProfile := hint } = executeAdapter request := by
  funext provider executionProfile context claimed
  simp only [executeAdapter, finalizeInvocation_hint, normalizeAdapterRuntimeFailure_hint,
    normalizeAdapterResult_hint]
  refine congrArg _ (funext fun outcome => ?_)
  rcases outcome with error | _ | adapterResult
  · rfl
  · rfl
  · rfl

theorem claimAndExecute_hint {store : GovernedInvocationIdempotencyStore} :
    claimAndExecute store { request with executionProfile := hint } =
      claimAndExecute store request := by
  funext provider executionProfile context
  simp only [claimAndExecute, finalizeInvocation_hint, executeAdapter_hint]
  refine congrArg _ (funext fun outcome => ?_)
  rcases outcome with error | _ | _ | _
  · rfl
  · rfl
  · rfl
  · rfl

theorem executeAllowed_hint :
    executeAllowed deps { request with executionProfile := hint } =
      executeAllowed deps request := by
  funext provider executionProfile decision
  simp only [executeAllowed, executeAdapter_hint, claimAndExecute_hint]
  rfl

theorem invokeUnder_hint :
    invokeUnder deps { request with executionProfile := hint } = invokeUnder deps request := by
  funext provider executionProfile
  simp only [invokeUnder, executeAllowed_hint]
  rfl

/-- The caller's profile hint has no part in what an invocation does: two valid hints give
the same program. -/
theorem invoke_hint {hint hint' : EnumValue ExecutionProfile}
    (hvalid : hint.member?.isSome = true) (hvalid' : hint'.member?.isSome = true) :
    invoke deps { request with executionProfile := hint } =
      invoke deps { request with executionProfile := hint' } := by
  have same : validateRequest { request with executionProfile := hint } =
      validateRequest { request with executionProfile := hint' } := by
    simp only [validateRequest, hvalid, hvalid']
  simp only [invoke, same, invokeUnder_hint]
  rfl

end Hint

/-- Whatever the resolvers, registries and the store do: an adapter is executed only after
every condition of the gate, under the resolved policy or that policy trusting the command of
an authorized coding agent, and the caller's profile hint changes nothing. -/
theorem invoke_executes_established (deps : GovernedInvocationDependencies)
    (request : Request) :
    (∀ t providerType adapterRequest context k,
      Trace (invoke deps.asking request) t
        (.call (.ask (.execute providerType adapterRequest context)) k) →
      ∃ provider executionProfile policy effective,
        Established deps.asking request provider executionProfile policy effective t) ∧
    ∀ hint hint' : EnumValue ExecutionProfile,
      hint.member?.isSome = true → hint'.member?.isSome = true →
        invoke deps.asking { request with executionProfile := hint } =
          invoke deps.asking { request with executionProfile := hint' } := by
  refine ⟨fun t providerType adapterRequest context k trace => ?_, fun hint hint' h h' => ?_⟩
  · obtain ⟨provider, executionProfile, policy, effective, established, -⟩ :=
      trace.guarded wp_invoke _ _ _ rfl
    exact ⟨provider, executionProfile, policy, effective, established⟩
  · exact invoke_hint h h'

section CodingAgent

def agentProvider : ProviderDeclaration where
  id := "provider".toList
  organizationId := "org".toList
  providerCode := "agent".toList
  providerType := .localTool
  status := .active
  capabilityAssignments := [⟨"CODE_BUILD".toList, true⟩]
  estimatedCostMinorUnits := none
  healthStatus := .healthy
  quotaStatus := .available
  assuranceLevels := []
  credentialRequirement := some .notRequired

def agentRequest : Request where
  invocationId := "attempt".toList
  organizationId := "org".toList
  workflowRunId := "run".toList
  workflowStepRunId := "step".toList
  correlationId := "correlation".toList
  capabilityCode := "CODE_BUILD".toList
  providerId := "provider".toList
  executionProfile := .known .builder
  assuranceLevel := none
  inputReference := none
  governedInputPayload := none
  executionBudget := some ⟨none, none, none⟩
  requestedAction := .known .runCommand
  requestedPath := none
  requestedCommand := some "agent".toList
  humanApprovalReference := none
  requestedAt := some 0

def agentDependencies : GovernedInvocationDependencies where
  credentialBroker := false
  executionProfileResolver := true
  trustedExecutableResolver := true
  workingDirectoryResolver := true
  humanGateResolver := false
  homeDirectoryResolver := false
  executionPolicyResolver := true
  cloudExecutionProfileRegistry := false
  idempotencyStore := some askingStore

/-- Answers that let a local coding agent run. -/
def agentAnswers : (x : Ask) → Except Failure (Ans x)
  | .resolveProvider _ _ => .ok (some agentProvider)
  | .getAdapter _ => .ok (some ())
  | .resolveExecutionProfile _ => .ok (some (.known .builder))
  | .resolveExecutionPolicy _ _ _ => .ok (some (createBuilderPolicy "/work".toList))
  | .resolveExecutable command _ => .ok (some ⟨command, "/usr/bin/agent".toList⟩)
  | .host => .ok emptyHost
  | .auditPolicyDecision _ _ _ _ _ => .ok ()
  | .resolveWorkingDirectory _ => .ok (some "/work".toList)
  | .claim key invocationId fingerprint =>
      .ok (.claimed ⟨key, invocationId, fingerprint, .inProgress⟩)
  | .execute _ _ _ => .ok (some ⟨.known .succeeded, false, none⟩)
  | .auditInvocationComplete _ _ => .ok ()
  | _ => .error .typeError

def agentEnvironment : (e : Effect Row Ask) → Except Failure (Answer Row Ans e)
  | .ask x => agentAnswers x
  | _ => .error .typeError

/-- The run of the coding agent, up to its execution. -/
def agentRun : List Happened :=
  ((invoke agentDependencies agentRequest).runUntil agentEnvironment isExecute).1

theorem agentRun_executes : ∃ providerType adapterRequest context k,
    Trace (invoke agentDependencies agentRequest) agentRun
      (.call (.ask (.execute providerType adapterRequest context)) k) := by
  have trace := trace_runUntil agentEnvironment isExecute (invoke agentDependencies agentRequest)
  have hexecutes : (((invoke agentDependencies agentRequest).runUntil agentEnvironment
      isExecute).2.next).any isExecute = true := by decide +kernel
  obtain ⟨e, hnext, he⟩ := Option.any_eq_true .. |>.mp hexecutes
  obtain ⟨k, hk⟩ := next_eq_some hnext
  rw [hk] at trace
  cases e with
  | ask x =>
      cases x with
      | execute providerType adapterRequest context =>
          exact ⟨providerType, adapterRequest, context, k, trace⟩
      | _ => cases he
  | _ => cases he

theorem invoke_executes_established_agent :
    (∃ provider executionProfile policy effective,
      Established agentDependencies agentRequest provider executionProfile policy effective
        agentRun) ∧
    invoke agentDependencies { agentRequest with executionProfile := .known .builder } =
      invoke agentDependencies { agentRequest with executionProfile := .known .reviewer } := by
  obtain ⟨executes, hint⟩ := invoke_executes_established agentDependencies agentRequest
  obtain ⟨providerType, adapterRequest, context, k, trace⟩ := agentRun_executes
  exact ⟨executes _ providerType adapterRequest context k trace, hint _ _ rfl rfl⟩

/-- A resolver that returned this policy, or another event. -/
def resolvesTo (policy : Policy.ExecutionPolicyConfig) : Happened → Bool
  | ⟨.ask (.resolveExecutionPolicy _ _ _), .ok (some resolved)⟩ => resolved == policy
  | _ => true

/-- A run may execute although the policy that the trusted resolver returned allows the
request under no profile: the command was made a trusted alias for this evaluation. -/
theorem invoke_executes_beyond_resolved_policy :
    (∃ providerType adapterRequest context k,
      Trace (invoke agentDependencies agentRequest) agentRun
        (.call (.ask (.execute providerType adapterRequest context)) k)) ∧
    ∀ context executionProfile action policy,
      answered (.resolveExecutionPolicy context executionProfile action) (some policy) ∈
        agentRun →
      ∀ profile, ¬ AllowedUnder agentRequest profile policy agentRun := by
  refine ⟨agentRun_executes, ?_⟩
  intro context executionProfile action policy hpolicy profile hallowed
  have resolved : agentRun.all (resolvesTo (createBuilderPolicy "/work".toList)) = true := by
    decide +kernel
  have hbuilder : policy = createBuilderPolicy "/work".toList := by
    simpa [answered, resolvesTo] using List.all_eq_true.mp resolved _ hpolicy
  obtain ⟨host, gate, home, decision, -, heval, hdecision⟩ := hallowed.decision
  have classified := (evaluatePolicy_runCommand rfl rfl rfl rfl heval).mp hdecision
  rw [hbuilder] at classified
  revert classified
  cases profile <;> decide

end CodingAgent

end Invocation
