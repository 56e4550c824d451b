import VitoPlatform.Routing.Admission

/-!
# Routing after a refresh

`routeForExecution` probes the candidates whose state is stale, one after another, and routes when
the last probe is over. The clock is advanced by what each step takes, however long that is: the
probe's own timeout bounds the launcher only. A probe that has found a provider healthy counts if
the time that is spent after it does not exceed the TTL.
-/

namespace Routing

open Text Invocation Workflow Dispatch

/-! ## Settings -/

def DEFAULT_HEALTHY_TTL_MS : Int := 300000

def DEFAULT_FAILURE_BACKOFF_MS : Int := 900000

def MIN_TTL_MS : Int := 30000

def MAX_TTL_MS : Int := 21600000

/-- The argument is `Number(raw)`, where the variable is set and that is an integer. -/
def boundedMs (parsed : Option Int) (fallback : Int) : Int :=
  match parsed with
  | some value => if value < MIN_TTL_MS ∨ MAX_TTL_MS < value then fallback else value
  | none => fallback

/-- `VITO_PROVIDER_STATE_TTL_MS` and `VITO_PROVIDER_FAILURE_BACKOFF_MS`. -/
structure ProcessEnv where
  stateTtlMs : Option Int
  failureBackoffMs : Option Int

def ProcessEnv.healthyTtlMs (env : ProcessEnv) : Int :=
  boundedMs env.stateTtlMs DEFAULT_HEALTHY_TTL_MS

def ProcessEnv.runtimeState (env : ProcessEnv) (healthCheckAt quotaCheckAt : Str → Int) :
    RuntimeState where
  healthyTtlMs := env.healthyTtlMs
  failureBackoffMs := boundedMs env.failureBackoffMs DEFAULT_FAILURE_BACKOFF_MS
  healthCheckAt := healthCheckAt
  quotaCheckAt := quotaCheckAt

def needsRefresh (env : ProcessEnv) (provider : RoutedDeclaration) (now : Int) : Bool :=
  let state := env.runtimeState (fun _ => now) fun _ => now
  !state.isHealthFresh provider || !state.isQuotaFresh provider

/-! ## Probes -/

structure ProviderRuntimeObservation where
  healthStatus : ProviderHealthStatus
  quotaStatus : ProviderQuotaStatus
  reasonCode : Str

/-- What `classifyProbeResult` reads of a result; `limit` and `unauthorized` are what its patterns
find in the output. -/
structure ProbeResult where
  changedFiles : List Str
  empty : Bool
  timedOut : Bool
  limit : Option (ProviderQuotaStatus × Str)
  unauthorized : Bool
  providerIdentityError : Option Str
  exitCode : Option Int

def classifyProbeResult (result : ProbeResult) : ProviderRuntimeObservation :=
  if result.changedFiles.length > 0 ∨ !result.empty then
    ⟨.unavailable, .unknown, "PROBE_SIDE_EFFECT_DETECTED".toList⟩
  else if result.timedOut then ⟨.unavailable, .unknown, "PROBE_TIMED_OUT".toList⟩
  else
    match result.limit with
    | some (.exhausted, reasonCode) => ⟨.healthy, .exhausted, reasonCode⟩
    | some (.limited, reasonCode) => ⟨.quotaLimited, .limited, reasonCode⟩
    | _ =>
        if result.unauthorized then
          ⟨.unavailable, .unknown, "PROBE_AUTHENTICATION_FAILED".toList⟩
        else
          match result.providerIdentityError with
          | some code => ⟨.unavailable, .unknown, code⟩
          | none =>
              if result.exitCode = some 0 then ⟨.healthy, .available, "PROBE_SUCCEEDED".toList⟩
              else ⟨.unavailable, .unknown, "PROBE_PROVIDER_UNAVAILABLE".toList⟩

def isInfrastructureProbeFailure (code : Str) : Bool :=
  code = "WORKSPACE_PROVISION_FAILED".toList || code = "REPOSITORY_NOT_ALLOWED".toList ||
    code = "BASE_REF_NOT_ALLOWED".toList || code = "PROBE_EXECUTABLE_UNAVAILABLE".toList

/-- What comes of a probe. -/
inductive ProbeReply where
  | executableUnavailable
  | result (result : ProbeResult)
  | failed (code : Str)

/-- What is recorded of it, if anything. -/
def observe : ProbeReply → Option ProviderRuntimeObservation
  | .executableUnavailable => none
  | .result result => some (classifyProbeResult result)
  | .failed code =>
      if isInfrastructureProbeFailure code then none else some ⟨.unavailable, .unknown, code⟩

/-! ## The refresh -/

/-- The visit of the loop to a candidate: the milliseconds until the loop asks for its freshness,
until `refreshIfStale` asks again, until the probe's end is dated, and until it is stored. -/
structure Visit where
  decided : Nat
  asked : Nat
  probed : Nat
  stored : Nat
  reply : ProbeReply

/-- A call, with all that it meets: the providers of the organization, the launcher aliases of
their profiles by provider code, the visits by provider, and how long after the refresh the health
of a provider is checked, and how long after that its quota. -/
structure Call where
  request : ProviderRoutingRequest
  candidates : List RoutedDeclaration
  start : Int
  readinessProbeLauncherAlias : Str → Option Str
  visit : Str → Visit
  healthCheckAfter : Str → Nat
  quotaCheckAfter : Str → Nat

/-- What a visit comes to: how long it takes, and what is recorded how long after its start. -/
structure Turn where
  spent : Nat
  recorded : Option (Nat × ProviderRuntimeObservation)

section Refresh

variable (env : ProcessEnv) (call : Call)

def turn (now : Int) (provider : RoutedDeclaration) : Turn :=
  let visit := call.visit provider.id
  let decided := visit.decided
  let asked := decided + visit.asked
  let probed := asked + visit.probed
  if provider.status ≠ .active ∨
      !providerSupportsCapability provider.toProviderDeclaration call.request.capability ∨
      !needsRefresh env provider (now + decided) then ⟨decided, none⟩
  -- `refreshIfStale`
  else if !needsRefresh env provider (now + asked) then ⟨asked, none⟩
  else if provider.providerType ≠ .cloudLlm then ⟨asked, none⟩
  else if (truthy (call.readinessProbeLauncherAlias provider.providerCode)).isNone then
    ⟨asked, none⟩
  else ⟨probed + visit.stored, (observe visit.reply).map fun observation => (probed, observation)⟩

/-- The columns that `recordProbe` sets. -/
def observed (provider : RoutedDeclaration) (checkedAt : Int)
    (observation : ProviderRuntimeObservation) : RoutedDeclaration :=
  { provider with
    healthStatus := observation.healthStatus
    healthCheckedAt := some checkedAt
    quotaStatus := observation.quotaStatus
    quotaCheckedAt := some checkedAt }

def recordProbe (rows : List RoutedDeclaration) (providerId : Str) (checkedAt : Int)
    (observation : ProviderRuntimeObservation) : List RoutedDeclaration :=
  rows.map fun row => if row.id = providerId then observed row checkedAt observation else row

structure Refreshing where
  rows : List RoutedDeclaration
  now : Int
  refreshed : List Str

def refreshCandidate (state : Refreshing) (provider : RoutedDeclaration) : Refreshing :=
  let turn := turn env call state.now provider
  match turn.recorded with
  | none => { state with now := state.now + turn.spent }
  | some (after, observation) =>
      { rows := recordProbe state.rows provider.id (state.now + after) observation
        now := state.now + turn.spent
        refreshed := state.refreshed ++ [provider.id] }

def refreshStaleCandidates (candidates : List RoutedDeclaration) (state : Refreshing) :
    Refreshing :=
  candidates.foldl (refreshCandidate env call) state

def refreshedState : Refreshing :=
  refreshStaleCandidates env call call.candidates ⟨call.candidates, call.start, []⟩

/-- The state service, with the times at which the checks of the routing read the clock. -/
def routingState : RuntimeState :=
  let now := (refreshedState env call).now
  env.runtimeState (fun code => now + call.healthCheckAfter code)
    fun code => now + call.healthCheckAfter code + call.quotaCheckAfter code

def routeForExecution (localeCompare : Str → Str → Ordering) : RoutingResponse :=
  routeInternal localeCompare (some (routingState env call)) call.request
    (refreshedState env call).rows

/-- The time that the loop spends on some candidates. -/
def spentOn : Int → List RoutedDeclaration → Nat
  | _, [] => 0
  | now, provider :: rest =>
      let spent := (turn env call now provider).spent
      spent + spentOn (now + spent) rest

end Refresh

/-! ## What is promised -/

/-- The reasons that say nothing but that the state of a provider is not known to be good. -/
def staleReasons : List RoutingRejectionReason :=
  [.healthStatusStale, .quotaStatusStale, .providerUnhealthy, .quotaStatusUnknown]

/-- The visit that comes after some others has found the provider healthy and available. -/
def FoundHealthy (env : ProcessEnv) (call : Call) (before : List RoutedDeclaration)
    (provider : RoutedDeclaration) : Prop :=
  ∃ after observation,
    (turn env call (call.start + spentOn env call call.start before) provider).recorded =
      some (after, observation) ∧
    observation.healthStatus = .healthy ∧ observation.quotaStatus = .available

/-- The selected provider is fit and its state fresh, and no provider that the call has found
healthy is rejected for its state. -/
structure Lawful (localeCompare : Str → Str → Ordering) (env : ProcessEnv) (call : Call) :
    Prop where
  selected : ∀ provider,
    (routeForExecution env call localeCompare).selectedProvider = some provider →
    provider.status = .active ∧
      providerSupportsCapability provider.toProviderDeclaration call.request.capability = true ∧
      (provider.healthStatus = .healthy ∨ provider.healthStatus = .degraded) ∧
      (provider.quotaStatus = .available ∨ provider.quotaStatus = .limited) ∧
      (∃ checkedAt, provider.healthCheckedAt = some checkedAt ∧
        (routingState env call).healthCheckAt provider.providerCode - checkedAt ≤
          env.healthyTtlMs) ∧
      ∃ checkedAt, provider.quotaCheckedAt = some checkedAt ∧
        (routingState env call).quotaCheckAt provider.providerCode - checkedAt ≤ env.healthyTtlMs
  kept : ∀ before provider rest, call.candidates = before ++ provider :: rest →
    FoundHealthy env call before provider → ∀ reason ∈ staleReasons,
      (routeForExecution env call localeCompare).rejectionReasons.get provider.id ≠ some reason

/-- After a probe that has found a provider healthy, storing it, the visits to the candidates
behind it and the checks take no longer than the TTL. -/
def InTime (env : ProcessEnv) (call : Call) : Prop :=
  ∀ before provider rest, call.candidates = before ++ provider :: rest →
    FoundHealthy env call before provider →
      (((call.visit provider.id).stored +
        spentOn env call (call.start + spentOn env call call.start (before ++ [provider])) rest +
        call.healthCheckAfter provider.providerCode +
        call.quotaCheckAfter provider.providerCode : Nat) : Int) ≤ env.healthyTtlMs

section Facts

variable {env : ProcessEnv} {call : Call} {now : Int} {state : Refreshing}
variable {candidates before rest : List RoutedDeclaration} {provider row : RoutedDeclaration}
variable {after : Nat} {observation : ProviderRuntimeObservation}
variable {localeCompare : Str → Str → Ordering} {runtimeState : RuntimeState}
variable {request : ProviderRoutingRequest} {reason : RoutingRejectionReason}

/-- A turn that records something is a probe of a provider that can be selected. -/
theorem turn_recorded (h : (turn env call now provider).recorded = some (after, observation)) :
    provider.status = .active ∧
      providerSupportsCapability provider.toProviderDeclaration call.request.capability = true ∧
      (turn env call now provider).spent = after + (call.visit provider.id).stored := by
  unfold turn at h ⊢
  dsimp only at h ⊢
  split at h
  · cases h
  · rename_i hcandidate
    rw [if_neg hcandidate]
    split at h
    · cases h
    · rename_i hstale
      rw [if_neg hstale]
      split at h
      · cases h
      · rename_i htype
        rw [if_neg htype]
        split at h
        · cases h
        · rename_i hprofile
          rw [if_neg hprofile]
          obtain ⟨observed, -, hsame⟩ := Option.map_eq_some_iff.mp h
          obtain ⟨rfl, rfl⟩ := Prod.mk.inj hsame
          simp only [not_or, not_not, Bool.not_eq_false, ne_eq, Bool.not_eq_true'] at hcandidate
          exact ⟨hcandidate.1, hcandidate.2.1, rfl⟩

theorem refreshCandidate_now : (refreshCandidate env call state provider).now =
    state.now + (turn env call state.now provider).spent := by
  unfold refreshCandidate
  dsimp only
  split <;> rfl

theorem refresh_now :
    (refreshStaleCandidates env call candidates state).now =
      state.now + spentOn env call state.now candidates := by
  induction candidates generalizing state with
  | nil => exact (Int.add_zero _).symm
  | cons provider rest ih =>
      rw [refreshStaleCandidates, List.foldl_cons, ← refreshStaleCandidates, ih, spentOn,
        refreshCandidate_now]
      push_cast
      omega

theorem spentOn_append :
    spentOn env call now (before ++ rest) =
      spentOn env call now before + spentOn env call (now + spentOn env call now before) rest := by
  induction before generalizing now with
  | nil => simp [spentOn]
  | cons provider before ih =>
      rw [List.cons_append, spentOn, spentOn, ih]
      push_cast
      rw [Int.add_assoc, Nat.add_assoc]

theorem recordProbe_ids {id : Str} {checkedAt : Int} {rows : List RoutedDeclaration} :
    (recordProbe rows id checkedAt observation).map (·.id) = rows.map (·.id) := by
  rw [recordProbe, List.map_map]
  refine List.map_congr_left fun row _ => ?_
  dsimp only [Function.comp]
  split <;> rfl

theorem refreshCandidate_ids :
    (refreshCandidate env call state provider).rows.map (·.id) = state.rows.map (·.id) := by
  unfold refreshCandidate
  dsimp only
  split
  · rfl
  · exact recordProbe_ids

theorem refresh_ids : (refreshStaleCandidates env call candidates state).rows.map (·.id) =
    state.rows.map (·.id) := by
  induction candidates generalizing state with
  | nil => rfl
  | cons provider rest ih =>
      rw [refreshStaleCandidates, List.foldl_cons, ← refreshStaleCandidates, ih,
        refreshCandidate_ids]

/-- A row stays while others are visited. -/
theorem mem_refresh (h : row ∈ state.rows) (hother : row.id ∉ candidates.map (·.id)) :
    row ∈ (refreshStaleCandidates env call candidates state).rows := by
  induction candidates generalizing state with
  | nil => exact h
  | cons provider rest ih =>
      rw [List.map_cons, List.mem_cons, not_or] at hother
      rw [refreshStaleCandidates, List.foldl_cons, ← refreshStaleCandidates]
      refine ih ?_ hother.2
      unfold refreshCandidate
      dsimp only
      split
      · exact h
      · exact List.mem_map.mpr ⟨row, h, if_neg hother.1⟩

/-- The row of a provider whose probe has been recorded. -/
theorem observed_mem (hids : (call.candidates.map (·.id)).Nodup)
    (hcandidates : call.candidates = before ++ provider :: rest)
    (h : (turn env call (call.start + spentOn env call call.start before) provider).recorded =
      some (after, observation)) :
    observed provider (call.start + spentOn env call call.start before + after) observation ∈
      (refreshedState env call).rows := by
  have hsplit : refreshedState env call = refreshStaleCandidates env call rest
      (refreshCandidate env call
        (refreshStaleCandidates env call before ⟨call.candidates, call.start, []⟩) provider) := by
    rw [refreshedState, hcandidates]
    simp only [refreshStaleCandidates, List.foldl_append, List.foldl_cons]
  rw [hcandidates, List.map_append, List.map_cons, List.nodup_append] at hids
  obtain ⟨-, hrest, hbefore⟩ := hids
  have hmem : provider ∈
      (refreshStaleCandidates env call before ⟨call.candidates, call.start, []⟩).rows := by
    refine mem_refresh (by simp [hcandidates]) fun hvisited => ?_
    exact hbefore _ hvisited _ List.mem_cons_self rfl
  rw [hsplit]
  refine mem_refresh ?_ (List.nodup_cons.mp hrest).1
  rw [refreshCandidate, refresh_now]
  dsimp only
  rw [h]
  exact List.mem_map.mpr ⟨provider, hmem, if_pos rfl⟩

theorem evaluateBudget_reason (hreason : reason ∈ staleReasons) :
    (evaluateBudget row request).rejectionReason ≠ some reason := by
  unfold evaluateBudget
  split
  · nofun
  · split
    · rintro ⟨⟩
      exact absurd hreason (by decide)
    · split
      · rintro ⟨⟩
        exact absurd hreason (by decide)
      · nofun

theorem independence_reason {context : IndependenceContext} (hreason : reason ∈ staleReasons) :
    checkIndependence row.toProviderDeclaration context ≠ some reason := by
  have hunsatisfied : reason ≠ .independenceRequirementUnsatisfied := by
    rintro rfl
    exact absurd hreason (by decide)
  have hunverifiable : reason ≠ .modelIdentityUnverifiable := by
    rintro rfl
    exact absurd hreason (by decide)
  unfold checkIndependence
  grind

/-- A good state is rejected exactly if it is not fresh. -/
theorem evaluate_stale (hstatus : row.status = .active)
    (hcapability : providerSupportsCapability row.toProviderDeclaration request.capability = true)
    (hhealth : row.healthStatus = .healthy) (hquota : row.quotaStatus = .available) :
    (∃ reason ∈ staleReasons,
      (evaluateCandidate (some runtimeState) request row).rejectionReason = some reason) ↔
      ¬ (runtimeState.isHealthFresh row = true ∧ runtimeState.isQuotaFresh row = true) := by
  unfold evaluateCandidate
  simp only [hcapability, hstatus, hhealth, hquota, Option.any_some, reduceCtorEq, if_false,
    Bool.not_true, Bool.false_eq_true]
  cases runtimeState.isHealthFresh row with
  | false => simp [rejected, staleReasons]
  | true =>
      cases runtimeState.isQuotaFresh row with
      | false => simp [rejected, staleReasons]
      | true =>
          simp only [Bool.not_true, Bool.false_eq_true, if_false, and_self, not_true_eq_false,
            iff_false, not_exists, not_and]
          intro reason hreason
          split
          · rintro ⟨⟩
            exact absurd hreason (by decide)
          · split
            · rename_i violation hviolation
              obtain ⟨context, -, hcontext⟩ := Option.bind_eq_some_iff.mp hviolation
              rintro ⟨⟩
              exact independence_reason hreason hcontext
            · exact evaluateBudget_reason hreason

/-- What has been found healthy is rejected for its state exactly if the TTL has passed. -/
theorem kept_iff (hids : (call.candidates.map (·.id)).Nodup)
    (hcandidates : call.candidates = before ++ provider :: rest)
    (hfound : FoundHealthy env call before provider) :
    (∀ reason ∈ staleReasons,
      (routeForExecution env call localeCompare).rejectionReasons.get provider.id ≠
        some reason) ↔
      (((call.visit provider.id).stored +
        spentOn env call (call.start + spentOn env call call.start (before ++ [provider])) rest +
        call.healthCheckAfter provider.providerCode +
        call.quotaCheckAfter provider.providerCode : Nat) : Int) ≤ env.healthyTtlMs := by
  obtain ⟨after, observation, hrecorded, hhealth, hquota⟩ := hfound
  obtain ⟨hstatus, hcapability, hspent⟩ := turn_recorded hrecorded
  have hmem := observed_mem hids hcandidates hrecorded
  generalize hrow : observed provider (call.start + spentOn env call call.start before + after)
    observation = row at hmem
  have hnodup : ((refreshedState env call).rows.map (·.id)).Nodup := by
    rw [refreshedState, refresh_ids]
    exact hids
  have hid : row.id = provider.id := by rw [← hrow]; rfl
  -- the rejection of the provider is that of its row
  have hreasons : (∃ reason ∈ staleReasons,
      (routeForExecution env call localeCompare).rejectionReasons.get provider.id = some reason) ↔
      ∃ reason ∈ staleReasons,
        (evaluateCandidate (some (routingState env call)) call.request row).rejectionReason =
          some reason := by
    refine exists_congr fun reason => and_congr_right fun _ => ?_
    rw [routeForExecution, rejectionReasons_get hnodup]
    constructor
    · rintro ⟨other, hother, hsame, hreason⟩
      rwa [List.inj_on_of_nodup_map hnodup hother hmem (hsame.trans hid.symm)] at hreason
    · exact fun hreason => ⟨row, hmem, hid, hreason⟩
  have hstale : (∃ reason ∈ staleReasons,
      (evaluateCandidate (some (routingState env call)) call.request row).rejectionReason =
        some reason) ↔ ¬ ((routingState env call).isHealthFresh row = true ∧
          (routingState env call).isQuotaFresh row = true) :=
    evaluate_stale (by rw [← hrow]; exact hstatus) (by rw [← hrow]; exact hcapability)
      (by rw [← hrow]; exact hhealth) (by rw [← hrow]; exact hquota)
  have hnow : (refreshedState env call).now = call.start + spentOn env call call.start before +
      (after + (call.visit provider.id).stored : Nat) +
      spentOn env call (call.start + spentOn env call call.start (before ++ [provider])) rest := by
    have hone : spentOn env call call.start (before ++ [provider]) =
        spentOn env call call.start before + (after + (call.visit provider.id).stored) := by
      rw [spentOn_append, spentOn, spentOn, hspent, Nat.add_zero]
    have hall : call.candidates = (before ++ [provider]) ++ rest := by simp [hcandidates]
    rw [refreshedState, refresh_now, hall, spentOn_append, hone]
    push_cast
    omega
  have hfresh : (routingState env call).isHealthFresh row = true ∧
      (routingState env call).isQuotaFresh row = true ↔
      (((call.visit provider.id).stored +
        spentOn env call (call.start + spentOn env call call.start (before ++ [provider])) rest +
        call.healthCheckAfter provider.providerCode +
        call.quotaCheckAfter provider.providerCode : Nat) : Int) ≤ env.healthyTtlMs := by
    subst hrow
    simp only [RuntimeState.isHealthFresh, RuntimeState.isQuotaFresh, RuntimeState.healthTtl,
      RuntimeState.quotaTtl, observed, hhealth, hquota, Option.any_some, decide_eq_true_eq,
      true_or, if_true, routingState, ProcessEnv.runtimeState, hnow]
    omega
  rw [← hfresh, ← not_iff_not, ← hstale, ← hreasons]
  push Not
  rfl

theorem lawful_refreshed (hids : (call.candidates.map (·.id)).Nodup) :
    Lawful localeCompare env call ↔ InTime env call := by
  constructor
  · intro h before provider rest hcandidates hfound
    exact (kept_iff hids hcandidates hfound).mp (h.kept before provider rest hcandidates hfound)
  · intro h
    refine ⟨fun provider hselected => ?_, fun before provider rest hcandidates hfound => ?_⟩
    · have hroutable := routable_of_selected hselected
      have hhealth := hroutable.healthFresh _ rfl
      have hquota := hroutable.quotaFresh _ rfl
      obtain ⟨checkedAt, hchecked, hle⟩ := (Option.any_eq_true _ _).mp hhealth
      obtain ⟨checkedAt', hchecked', hle'⟩ := (Option.any_eq_true _ _).mp hquota
      rw [RuntimeState.healthTtl, if_pos hroutable.health, decide_eq_true_eq] at hle
      rw [RuntimeState.quotaTtl, if_pos hroutable.quota, decide_eq_true_eq] at hle'
      exact ⟨hroutable.status, hroutable.capability, hroutable.health, hroutable.quota,
        ⟨checkedAt, hchecked, hle⟩, ⟨checkedAt', hchecked', hle'⟩⟩
    · exact (kept_iff hids hcandidates hfound).mpr (h before provider rest hcandidates hfound)

end Facts

/-- What is promised about the routing after a refresh holds exactly if every probe that has found
a provider healthy is followed by no more than the TTL. -/
theorem routeForExecution_lawful_iff (localeCompare : Str → Str → Ordering) (env : ProcessEnv)
    (call : Call) (hids : (call.candidates.map (·.id)).Nodup) :
    Lawful localeCompare env call ↔ InTime env call :=
  lawful_refreshed hids

/-! ## Two providers -/

section Sample

/-- A provider that has never been observed. -/
private def unobserved (code : String) : RoutedDeclaration where
  id := code.toList
  organizationId := "org".toList
  providerCode := code.toList
  providerType := .cloudLlm
  status := .active
  capabilityAssignments := [⟨"PLAN".toList, true⟩]
  estimatedCostMinorUnits := none
  healthStatus := .unknown
  quotaStatus := .unknown
  assuranceLevels := []
  credentialRequirement := none
  healthCheckedAt := none
  quotaCheckedAt := none
  qualityScore := none
  latencyScore := none
  costScore := none

private def planRequest : ProviderRoutingRequest where
  organizationId := "org".toList
  capability := "PLAN".toList
  assuranceLevel := none
  workflowRunId := []
  workflowStepRunId := []
  independenceContext := none
  maxCostMinorUnits := none
  correlationId := []

private def answered (exitCode : Option Int) (timedOut : Bool) : ProbeReply :=
  .result ⟨[], true, timedOut, none, false, none, exitCode⟩

/-- The first provider answers after a second, the second one is stopped after its time. -/
private def slowCall (timeoutMs : Nat) : Call where
  request := planRequest
  candidates := [unobserved "a", unobserved "b"]
  start := 0
  readinessProbeLauncherAlias _ := some "probe".toList
  visit id :=
    if id = "a".toList then ⟨0, 0, 1000, 0, answered (some 0) false⟩
    else ⟨0, 0, timeoutMs, 0, answered none true⟩
  healthCheckAfter _ := 0
  quotaCheckAfter _ := 0

private theorem foundHealthy_slow {env : ProcessEnv} {timeoutMs : Nat} :
    FoundHealthy env (slowCall timeoutMs) [] (unobserved "a") :=
  ⟨1000, ⟨.healthy, .available, "PROBE_SUCCEEDED".toList⟩, rfl, rfl, rfl⟩

/-- With the TTL of five minutes that is in time. -/
theorem lawful_slow : Lawful (List.compareLex compare) ⟨none, none⟩ (slowCall 45000) := by
  refine (routeForExecution_lawful_iff (List.compareLex compare) ⟨none, none⟩ (slowCall 45000)
    (by decide)).mpr ?_
  intro before provider rest hcandidates _
  match before, hcandidates with
  | [], hcandidates =>
      obtain ⟨rfl, rfl⟩ := List.cons.inj hcandidates
      decide
  | [first], hcandidates =>
      obtain ⟨rfl, hrest⟩ := List.cons.inj hcandidates
      obtain ⟨rfl, rfl⟩ := List.cons.inj hrest
      decide
  | first :: second :: before, hcandidates =>
      have hlength := congrArg List.length hcandidates
      simp [slowCall] at hlength

/-- With the least TTL the first state is stale when the second probe has been stopped. -/
theorem not_lawful_slow : ¬ ∀ localeCompare env call, (call.candidates.map (·.id)).Nodup →
    Lawful localeCompare env call := fun h => by
  have hlawful := h (List.compareLex compare) ⟨some 30000, none⟩ (slowCall 45000) (by decide)
  have hin := lawful_refreshed (by decide) |>.mp hlawful [] (unobserved "a") [unobserved "b"] rfl
    foundHealthy_slow
  exact absurd hin (by decide)

end Sample

end Routing
