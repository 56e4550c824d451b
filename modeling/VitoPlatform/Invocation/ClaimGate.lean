import VitoPlatform.Invocation.Gate

/-!
# One call at the claim gate

What a single call of `invoke` over the database store does, read off its own trace: it
inserts at most one claim, executes a consequential action only with its claim obtained and
at most once, completes only a claim it has obtained, and when its insert is refused the
result it settles on is decided by its two reads.
-/

namespace Invocation

open Text Policy Persistence Database Prog

section Events

variable (request : Request)

def insertClaim (fingerprint : Str) : Effect Row Ask :=
  .stmt (.insert (.claim (newClaim (buildGovernedLogicalOperationKey request)
    request.invocationId fingerprint)))

def readByKey : Effect Row Ask :=
  .stmt (.select (isClaim fun row =>
    row.logicalOperationKey == buildGovernedLogicalOperationKey request))

def readByInvocation : Effect Row Ask :=
  .stmt (.select (isClaim fun row => row.invocationId == request.invocationId))

def completeClaim (state : GovernedInvocationClaimState) : Effect Row Ask :=
  .stmt (.update (completes (buildGovernedLogicalOperationKey request) request.invocationId)
    (setClaimState state))

def isInsert : Effect Row Ask → Bool
  | .stmt (.insert _) => true
  | _ => false

/-- The call has obtained the claim of its operation. -/
def Claimed (t : List Happened) : Prop :=
  ∃ fingerprint rows, (⟨insertClaim request fingerprint, .ok rows⟩ : Happened) ∈ t

/-- The call has not come to the claim gate. -/
def Unclaimed (t : List Happened) : Prop := ∀ event ∈ t, isInsert event.1 = false

/-- What the reads after a unique violation say, and the refusal they lead to. -/
inductive Refusal : List Happened → InvocationFailureReason → Option Str → Prop
  | sameAttempt (rows : List Row) (existing : GovernedInvocationClaim) :
      (rows.filterMap Row.claim?).head? = some existing →
      existing.invocationId = request.invocationId →
      Refusal [⟨readByKey request, .ok rows⟩] .invocationDuplicate none
  | conflict (rows rows' : List Row) (row : GovernedInvocationClaim) :
      (rows'.filterMap Row.claim?).head? = some row →
      row.logicalOperationKey ≠ buildGovernedLogicalOperationKey request →
      Refusal [⟨readByKey request, .ok rows⟩, ⟨readByInvocation request, .ok rows'⟩]
        .invocationIdempotencyConflict none
  | foreign (rows rows' : List Row) (existing : GovernedInvocationClaim) :
      (rows.filterMap Row.claim?).head? = some existing →
      existing.invocationId ≠ request.invocationId →
      (∀ row, (rows'.filterMap Row.claim?).head? = some row →
        row.logicalOperationKey = buildGovernedLogicalOperationKey request) →
      Refusal [⟨readByKey request, .ok rows⟩, ⟨readByInvocation request, .ok rows'⟩]
        .invocationDuplicate (some existing.invocationId)

/-- The refusal a claim result leads to, and the owner it names. -/
def refusalOf : GovernedInvocationClaimResult → Option (InvocationFailureReason × Option Str)
  | .duplicate existing =>
      some (.invocationDuplicate,
        if existing.invocationId ≠ request.invocationId then some existing.invocationId
        else none)
  | .contextConflict _ => some (.invocationIdempotencyConflict, none)
  | .claimed _ => none

/-- A statement that failed for another reason than a unique constraint. -/
def Broken (event : Happened) : Prop :=
  match event with
  | ⟨.stmt (.insert _), .error error⟩ => error ≠ .uniqueViolation
  | ⟨.stmt (.select _), .error _⟩ => True
  | _ => False

/-- What stands behind the result a call reports. -/
inductive Verdict (t : List Happened) (result : Result) : Prop
  | unclaimed : Unclaimed t → Verdict t result
  | claimed : Claimed request t → Verdict t result
  | refused (before reads : List Happened) (fingerprint : Str) (provider : ProviderDeclaration)
      (reason : InvocationFailureReason) (owner : Option Str) :
      t = before ++ ⟨insertClaim request fingerprint, .error .uniqueViolation⟩ :: reads →
      Refusal request reads reason owner →
      result = createIdempotencyBlockedResult request provider reason owner →
      Verdict t result
  | broken (event : Happened) : event ∈ t → Broken event → Verdict t result
  /-- Neither read finds the row that the insert clashed with. -/
  | lost (before : List Happened) (fingerprint : Str) (rows rows' : List Row) :
      t = before ++ [⟨insertClaim request fingerprint, .error .uniqueViolation⟩,
        ⟨readByKey request, .ok rows⟩, ⟨readByInvocation request, .ok rows'⟩] →
      rows.filterMap Row.claim? = [] →
      (∀ row, (rows'.filterMap Row.claim?).head? = some row →
        row.logicalOperationKey = buildGovernedLogicalOperationKey request) →
      Verdict t result

/-- How a call that came to the gate without obtaining the claim ends: with the result it has
reported, or with the failure of that report. -/
def Final (t : List Happened) (outcome : Except Failure Result) : Prop :=
  Unclaimed t ∨ Claimed request t ∨
    ∃ before executionProfile result answer,
      t = before ++ [⟨.ask (.auditInvocationComplete executionProfile result), answer⟩] ∧
        outcome = answer.map fun _ => result

/-- What each effect of a call presupposes of its past. -/
def gateGuard (t : List Happened) : Effect Row Ask → Prop
  | .stmt (.insert v) => Unclaimed t ∧
      ∃ fingerprint, v = .claim (newClaim (buildGovernedLogicalOperationKey request)
        request.invocationId fingerprint)
  | .stmt (.update p f) => Claimed request t ∧
      ∃ state, state ≠ .inProgress ∧
        p = completes (buildGovernedLogicalOperationKey request) request.invocationId ∧
        f = setClaimState state
  | .stmt (.select _) => True
  | .ask (.execute _ _ _) => (∀ event ∈ t, isExecute event.1 = false) ∧
      (isConsequentialExecutionAction request.requestedAction = true → Claimed request t)
  | .ask (.auditInvocationComplete _ result) => Verdict request t result
  | .ask _ => True
  | .begin | .commit | .rollback => False

end Events

section Call

variable {request : Request} {t t' : List Happened}

theorem Claimed.mono (h : Claimed request t) (sub : t ⊆ t') : Claimed request t' := by
  obtain ⟨fingerprint, rows, hmem⟩ := h
  exact ⟨fingerprint, rows, sub hmem⟩

theorem Unclaimed.extends (h : Unclaimed t) (hext : Extends t t') : Unclaimed t' := by
  obtain ⟨s, rfl, hs⟩ := hext
  intro event hevent
  rcases List.mem_append.mp hevent with hevent | hevent
  · exact h event hevent
  · have hsetup := hs event hevent
    obtain ⟨e, r⟩ := event
    cases e with
    | ask x => rfl
    | _ => cases hsetup

theorem gateGuard_setup : AllowsSetup (gateGuard request) := by
  intro t e he
  cases e with
  | ask x =>
      cases x with
      | execute _ _ _ => cases he
      | auditInvocationComplete _ _ => cases he
      | _ => trivial
  | _ => cases he

theorem wp_statement {guard : List Happened → Effect Row Ask → Prop} {s : Stmt Row}
    {post : List Row → List Happened → Prop} {fail : Failure → List Happened → Prop} :
    wp guard (statement s) post fail t ↔
      guard t (.stmt s) ∧ (∀ rows, post rows (t ++ [⟨.stmt s, .ok rows⟩])) ∧
        ∀ error, fail error (t ++ [⟨.stmt s, .error error⟩]) := wp_perform

variable {provider : ProviderDeclaration} {executionProfile : ExecutionProfile}
variable {result : Result}

/-- Reporting a result. -/
theorem wp_report (h : Verdict request t result) :
    wp (gateGuard request)
      (do
        ask (.auditInvocationComplete executionProfile result)
        Pure.pure result)
      (fun result t => Final request t (.ok result))
      (fun error t => Final request t (.error error)) t := by
  rw [wp_bind]
  refine wp_ask.mpr ⟨h, fun answer => ?_, fun error => ?_⟩
  · exact .inr (.inr ⟨t, executionProfile, result, .ok answer, rfl, rfl⟩)
  · exact .inr (.inr ⟨t, executionProfile, result, .error error, rfl, rfl⟩)

theorem wp_finalize_unclaimed (h : Verdict request t result) :
    wp (gateGuard request) (finalizeInvocation request executionProfile result none)
      (fun result t => Final request t (.ok result))
      (fun error t => Final request t (.error error)) t := by
  simp only [finalizeInvocation]
  exact wp_report h

theorem wp_finalize_claimed (h : Claimed request t) :
    wp (gateGuard request)
      (finalizeInvocation request executionProfile result
        (some (PrismaGovernedIdempotencyStore, buildGovernedLogicalOperationKey request)))
      (fun result t => Final request t (.ok result))
      (fun error t => Final request t (.error error)) t := by
  have report : ∀ {t'}, t ⊆ t' → wp (gateGuard request)
      (do
        ask (.auditInvocationComplete executionProfile result)
        Pure.pure result)
      (fun result t => Final request t (.ok result))
      (fun error t => Final request t (.error error)) t' :=
    fun sub => wp_report (.claimed (h.mono sub))
  simp only [finalizeInvocation]
  rw [wp_bind, wp_tryCatch, PrismaGovernedIdempotencyStore, wp_bind]
  refine wp_statement.mpr ⟨?_, fun rows => ?_, fun error => ?_⟩
  · exact ⟨h, claimStateForResultStatus result.status, claimStateForResultStatus_ne _, rfl, rfl⟩
  · rw [wp_require]
    exact ⟨fun _ => report (List.subset_append_left _ _),
      fun _ => report (List.subset_append_left _ _)⟩
  · exact report (List.subset_append_left _ _)

/-- An execution without a claim of this call is one of an action that needs none. -/
theorem wp_execute_unclaimed {context : GovernedExecutionContext} (h : Unclaimed t)
    (hexecute : ∀ event ∈ t, isExecute event.1 = false)
    (haction : isConsequentialExecutionAction request.requestedAction = false) :
    wp (gateGuard request) (executeAdapter request provider executionProfile context none)
      (fun result t => Final request t (.ok result))
      (fun error t => Final request t (.error error)) t := by
  have stays : ∀ {e : Effect Row Ask} {r : Except Failure (Answer Row Ans e)},
      isInsert e = false → Unclaimed (t ++ [⟨e, r⟩]) := by
    intro e r he event hevent
    rcases List.mem_append.mp hevent with hevent | hevent
    · exact h event hevent
    · rw [List.mem_singleton.mp hevent]
      exact he
  rw [executeAdapter, wp_bind, wp_attempt]
  refine wp_ask.mpr ⟨⟨hexecute, fun hconsequential => ?_⟩, fun adapterResult => ?_,
    fun error => ?_⟩
  · rw [haction] at hconsequential
    cases hconsequential
  · cases adapterResult with
    | none => exact .inl (stays rfl)
    | some adapterResult =>
        simp only
        split
        · rw [wp_bind, normalizeAdapterResult]
          split
          · exact .inl (stays rfl)
          · exact wp_finalize_unclaimed (.unclaimed (stays rfl))
        · exact wp_finalize_unclaimed (.unclaimed (stays rfl))
  · exact wp_finalize_unclaimed (.unclaimed (stays rfl))

theorem wp_execute_claimed {context : GovernedExecutionContext} (h : Claimed request t)
    (hexecute : ∀ event ∈ t, isExecute event.1 = false) :
    wp (gateGuard request)
      (executeAdapter request provider executionProfile context
        (some (PrismaGovernedIdempotencyStore, buildGovernedLogicalOperationKey request)))
      (fun result t => Final request t (.ok result))
      (fun error t => Final request t (.error error)) t := by
  have stays : ∀ {event : Happened}, Claimed request (t ++ [event]) :=
    h.mono (List.subset_append_left _ _)
  rw [executeAdapter, wp_bind, wp_attempt]
  refine wp_ask.mpr ⟨⟨hexecute, fun _ => h⟩, fun adapterResult => ?_, fun error => ?_⟩
  · cases adapterResult with
    | none => exact .inr (.inl stays)
    | some adapterResult =>
        simp only
        split
        · rw [wp_bind, normalizeAdapterResult]
          split
          · exact .inr (.inl stays)
          · exact wp_finalize_claimed stays
        · exact wp_finalize_claimed stays
  · exact wp_finalize_claimed stays

/-- After a unique violation: the two reads decide, and each of their outcomes is reported. -/
theorem wp_disambiguate {fingerprint : Str}
    {post : GovernedInvocationClaimResult → List Happened → Prop}
    {fail : Failure → List Happened → Prop}
    (hrefused : ∀ reads reason owner outcome, Refusal request reads reason owner →
      refusalOf request outcome = some (reason, owner) →
      post outcome
        (t ++ ⟨insertClaim request fingerprint, .error .uniqueViolation⟩ :: reads))
    (hfail : ∀ error t', (∃ event ∈ t', Broken event) ∨
      (∃ rows rows', t' = t ++ [⟨insertClaim request fingerprint, .error .uniqueViolation⟩,
          ⟨readByKey request, .ok rows⟩, ⟨readByInvocation request, .ok rows'⟩] ∧
        rows.filterMap Row.claim? = [] ∧
        ∀ row, (rows'.filterMap Row.claim?).head? = some row →
          row.logicalOperationKey = buildGovernedLogicalOperationKey request) →
      fail error t') :
    wp (gateGuard request)
      (disambiguate (buildGovernedLogicalOperationKey request) request.invocationId
        .uniqueViolation)
      post fail
      (t ++ [⟨insertClaim request fingerprint, .error .uniqueViolation⟩]) := by
  rw [disambiguate, findClaimByKey, wp_bind, wp_bind]
  refine wp_statement.mpr ⟨trivial, fun rows => ?_, fun error => ?_⟩
  · rw [wp_pure']
    split
    · rename_i existing hexisting
      obtain ⟨hfound, hattempt⟩ := Option.filter_eq_some_iff.mp hexisting
      have hattempt : existing.invocationId = request.invocationId := by simpa using hattempt
      rw [List.append_assoc]
      refine hrefused _ _ _ _ (.sameAttempt rows existing hfound hattempt) ?_
      rw [refusalOf, if_neg (not_not.mpr hattempt)]
    · rename_i hexisting
      rw [findClaimByInvocation, wp_bind, wp_bind]
      refine wp_statement.mpr ⟨trivial, fun rows' => ?_, fun error => ?_⟩
      · rw [wp_pure']
        split
        · rename_i hconflict
          obtain ⟨row, hrow, hne⟩ := Option.any_eq_true .. |>.mp hconflict
          rw [List.append_assoc, List.append_assoc]
          exact hrefused _ _ _ _ (.conflict rows rows' row hrow (by simpa using hne)) rfl
        · rename_i hsame
          have hsame : ∀ row, (rows'.filterMap Row.claim?).head? = some row →
              row.logicalOperationKey = buildGovernedLogicalOperationKey request := by
            intro row hrow
            simpa [hrow] using hsame
          split
          · rename_i existing hfound
            have hforeign : existing.invocationId ≠ request.invocationId := by
              simpa [hfound, Option.filter] using hexisting
            rw [List.append_assoc, List.append_assoc]
            refine hrefused _ _ _ _ (.foreign rows rows' existing hfound hforeign hsame) ?_
            rw [refusalOf, if_pos hforeign]
          · rename_i hnone
            refine hfail _ _ (.inr ⟨rows, rows', by simp [readByKey, readByInvocation], ?_, hsame⟩)
            simpa using hnone
      · exact hfail _ _ (.inl ⟨⟨readByInvocation request, .error error⟩,
          by simp [readByInvocation], trivial⟩)
  · exact hfail _ _ (.inl ⟨⟨readByKey request, .error error⟩, by simp [readByKey], trivial⟩)

theorem wp_claimGate {context : GovernedExecutionContext} (h : Unclaimed t)
    (hexecute : ∀ event ∈ t, isExecute event.1 = false) :
    wp (gateGuard request)
      (claimAndExecute PrismaGovernedIdempotencyStore request provider executionProfile context)
      (fun result t => Final request t (.ok result))
      (fun error t => Final request t (.error error)) t := by
  rw [claimAndExecute, wp_bind, wp_attempt, PrismaGovernedIdempotencyStore, wp_tryCatch, wp_bind]
  refine wp_statement.mpr ⟨⟨h, _, rfl⟩, fun rows => ?_, fun error => ?_⟩
  · have hclaimed : Claimed request (t ++ [⟨insertClaim request
        (buildGovernedInvocationFingerprint request provider.id executionProfile), .ok rows⟩]) :=
      ⟨_, rows, List.mem_append_right _ (List.mem_singleton.mpr rfl)⟩
    refine wp_execute_claimed hclaimed fun event hevent => ?_
    rcases List.mem_append.mp hevent with hevent | hevent
    · exact hexecute event hevent
    · rw [List.mem_singleton.mp hevent]
      rfl
  · split
    · rename_i hother
      exact wp_finalize_unclaimed
        (.broken ⟨insertClaim request _, .error error⟩
          (List.mem_append_right _ (List.mem_singleton.mpr rfl)) hother)
    · rename_i hunique
      obtain rfl : error = .uniqueViolation := not_not.mp hunique
      refine wp_disambiguate ?_ ?_
      · intro reads reason owner outcome hrefusal houtcome
        cases outcome with
        | claimed claim => cases houtcome
        | duplicate existing =>
            cases houtcome
            exact wp_finalize_unclaimed (.refused t reads _ provider _ _ rfl hrefusal rfl)
        | contextConflict existing =>
            cases houtcome
            exact wp_finalize_unclaimed (.refused t reads _ provider _ _ rfl hrefusal rfl)
      · rintro error t' (⟨event, hevent, hbroken⟩ | ⟨rows, rows', rfl, hnone, hsame⟩)
        · exact wp_finalize_unclaimed (.broken event hevent hbroken)
        · exact wp_finalize_unclaimed (.lost t _ rows rows' rfl hnone hsame)

/-! ## A whole call -/

variable {deps : GovernedInvocationDependencies}

/-- The same dependencies over the database store. -/
def GovernedInvocationDependencies.persistent (deps : GovernedInvocationDependencies) :
    GovernedInvocationDependencies :=
  { deps with idempotencyStore := some PrismaGovernedIdempotencyStore }

theorem Extends.unclaimed (h : Extends [] t) : Unclaimed t :=
  Unclaimed.extends (fun _ hevent => absurd hevent List.not_mem_nil) h

theorem Extends.unexecuted (h : Extends [] t) : ∀ event ∈ t, isExecute event.1 = false := by
  obtain ⟨s, rfl, hs⟩ := h
  intro event hevent
  have hsetup := hs event (by simpa using hevent)
  obtain ⟨e, r⟩ := event
  cases e with
  | ask x =>
      cases x with
      | execute _ _ _ => cases hsetup
      | _ => rfl
  | _ => rfl

/-- Every effect of a call meets its guard, and the call ends as it must. -/
theorem wp_invoke_gate (deps : GovernedInvocationDependencies) (request : Request) :
    wp (gateGuard request) (invoke deps.persistent request)
      (fun result t => Final request t (.ok result))
      (fun error t => Final request t (.error error)) [] := by
  refine wp_invoke_guarded gateGuard_setup (fun _ _ ht => .inl ht.unclaimed)
    (fun _ _ ht => .inl ht.unclaimed) fun provider executionProfile context t ht => ?_
  simp only [executeGuarded, GovernedInvocationDependencies.persistent]
  split
  · exact wp_claimGate ht.unclaimed ht.unexecuted
  · rename_i haction
    exact wp_execute_unclaimed ht.unclaimed ht.unexecuted (by simpa using haction)

end Call

end Invocation
