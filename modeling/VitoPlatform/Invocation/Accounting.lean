import VitoPlatform.Invocation.Gate
import VitoPlatform.Invocation.Shapes

/-!
# Every execution is accounted for

What an invocation that has obtained its claim does after the execution: it marks the claim
and writes its completion record, unless normalizing the adapter's data throws. So every
execution is accounted for exactly where the data can be read to the end
(`invoke_accounted_iff`).
-/

namespace Invocation

open Text Policy Persistence Database Prog

/-! ## What the service is answered -/

/-- The member of the enumeration that a status is the value of. -/
def statusOf (status : Value) : EnumValue AgentExecutionStatus :=
  match status with
  | .string text =>
      match [AgentExecutionStatus.queued, .starting, .running, .succeeded, .failed, .timedOut,
        .cancelled, .policyBlocked, .quotaBlocked].find? fun status => lit status.name == text with
      | some status => .known status
      | none => .unknown []
  | _ => .unknown []

/-- A value as the invocation reads it; nothing where reading its status throws. -/
def readResult (copied : CopiedFields) (secrets : List Units) (value : Value) :
    Option GovernedAdapterResult :=
  match value with
  | .undefined | .null => none
  | value =>
      let status := value.get "status"
      if isEndStatus status then
        some ⟨statusOf status, (value.get "error").truthy,
          if (resolvedResult copied value secrets).isSome then none
          else some "TypeError".toList⟩
      else if status.text.isSome then
        some ⟨statusOf status, (value.get "error").truthy, none⟩
      else none

/-- The answer of `adapter.execute()`. What it throws is put into a text, which may throw in
its turn. -/
def answerOf (copied : CopiedFields) (credentialReference : Option Units) :
    Resolution → Except Failure (Option GovernedAdapterResult)
  | .resolved value => .ok (readResult copied (trustedSecrets credentialReference) value)
  | .timedOut timeoutMs => .error (.adapterTimeout timeoutMs)
  | .threwError _ => .error (.outside [])
  | .threw value => if value.text.isSome then .error (.outside []) else .ok none

/-- The adapter's data can be read to the end: an `Error` or a printable value was thrown, no
answer came in time, or there is a result whose status is no terminal status and printable, or
whose status is a terminal one and which is well shaped. -/
def accountable (credentialReference : Option Units) : Resolution → Bool
  | .resolved .undefined | .resolved .null => false
  | .resolved value =>
      if isEndStatus (value.get "status") then wellShaped (trustedSecrets credentialReference) value
      else prints false (value.get "status")
  | .timedOut _ | .threwError _ => true
  | .threw value => prints false value

theorem isValidInvocationTransition_statusOf (status : Value) :
    isValidInvocationTransition .running (statusOf status) = isEndStatus status := by
  cases status with
  | string text =>
      rw [statusOf, isEndStatus, isTerminalStatus]
      split
      · rename_i status hfound
        have hname := List.find?_some hfound
        rw [beq_iff_eq] at hname
        rw [← hname]
        cases status <;> decide
      · rename_i hnone
        rw [List.find?_eq_none] at hnone
        symm
        change _ = false
        rw [Bool.eq_false_iff]
        intro hterminal
        obtain ⟨target, htarget, hname⟩ := List.any_eq_true.mp hterminal
        exact hnone target (by cases target <;> decide) hname
  | undefined | null | primitive | array | object => rfl

/-- An exception escapes exactly where the data is not accountable. -/
theorem resultOfResolution_isSome (copied : CopiedFields) (credentialReference : Option Units)
    (resolution : Resolution) :
    (resultOfResolution copied credentialReference resolution).isSome =
      accountable credentialReference resolution := by
  cases resolution with
  | resolved value =>
      cases value with
      | undefined | null => rfl
      | primitive | string | array | object =>
          unfold resultOfResolution accountable
          dsimp only
          split
          · exact resolvedResult_isSome copied _
          · rw [Option.isSome_map, text_isSome]
  | timedOut | threwError => rfl
  | threw value => rw [resultOfResolution, Option.isSome_map, text_isSome]; rfl

/-! ## After the execution -/

def isMark : Effect Row Ask → Bool
  | .ask (.markCompleted _ _ _) => true
  | _ => false

def isCompletion : Effect Row Ask → Bool
  | .ask (.auditInvocationComplete _ _) => true
  | _ => false

/-- The state that a claim is marked with for a status. -/
structure MarkedFor (state : GovernedInvocationClaimState)
    (status : EnumValue AgentExecutionStatus) : Prop where
  completed : state = .completed ↔ status = .known .succeeded
  timedOut : state = .timedOutUnknown ↔ status = .known .timedOut
  failed : state = .failedUnknown ↔ status ≠ .known .succeeded ∧ status ≠ .known .timedOut

theorem markedFor_claimStateForResultStatus (status : EnumValue AgentExecutionStatus) :
    MarkedFor (claimStateForResultStatus status) status := by
  cases status with
  | known status => cases status <;> exact ⟨by decide, by decide, by decide⟩
  | unknown text => exact ⟨by simp [claimStateForResultStatus], by simp [claimStateForResultStatus],
      by simp [claimStateForResultStatus]⟩

/-- One attempt to mark the claim of the operation, one completion record, and a normalized
result with a terminal status. -/
def AccountedFor (request : Request) (t : List Happened) (outcome : Except Failure Result) :
    Prop :=
  ∃ result executionProfile state marking recording, outcome = .ok result ∧
    t.filter (fun event => isMark event.1) =
      [⟨.ask (.markCompleted (buildGovernedLogicalOperationKey request) request.invocationId
        state), marking⟩] ∧
    MarkedFor state result.status ∧
    t.filter (fun event => isCompletion event.1) =
      [⟨.ask (.auditInvocationComplete executionProfile result), recording⟩] ∧
    isValidInvocationTransition .running result.status = true

/-- The result that an answer of the adapter leads to, if it is one that can be normalized. -/
def normalizedOf (request : Request) (provider : ProviderDeclaration) :
    Except Failure (Option GovernedAdapterResult) → Option Result
  | .error error => some (normalizeAdapterRuntimeFailure request provider error)
  | .ok none => none
  | .ok (some adapterResult) =>
      if isValidInvocationTransition .running adapterResult.status then
        match adapterResult.malformed with
        | some _ => none
        | none => some (resultOf request provider.id adapterResult.status
            (if adapterResult.error then
              some
                { reason := .executionFailed
                  agentExecutionStatus := adapterResult.status
                  duplicateOfInvocationId := none }
            else none))
      else some (createRuntimeFailureResult request provider .failed)

theorem normalizedOf_terminal {request : Request} {provider : ProviderDeclaration}
    {answer : Except Failure (Option GovernedAdapterResult)} {result : Result}
    (h : normalizedOf request provider answer = some result) :
    isValidInvocationTransition .running result.status = true := by
  rcases answer with error | _ | adapterResult
  · obtain rfl := Option.some.inj h
    cases error <;> rfl
  · cases h
  · simp only [normalizedOf] at h
    split at h
    · rename_i hvalid
      split at h
      · cases h
      · obtain rfl := Option.some.inj h
        exact hvalid
    · obtain rfl := Option.some.inj h
      rfl

/-- What follows the answer of the adapter, and how the call ends. -/
def Follows (request : Request) (provider : ProviderDeclaration)
    (executionProfile : ExecutionProfile)
    (answer : Except Failure (Option GovernedAdapterResult)) (after : List Happened)
    (outcome : Except Failure Result) : Prop :=
  match normalizedOf request provider answer with
  | none => after = [] ∧ ∃ error, outcome = .error error
  | some result => ∃ marking recording,
      after = [⟨.ask (.markCompleted (buildGovernedLogicalOperationKey request)
          request.invocationId (claimStateForResultStatus result.status)), marking⟩,
        ⟨.ask (.auditInvocationComplete executionProfile result), recording⟩] ∧
      outcome = recording.map fun _ => result

/-- The call has obtained its claim, executed and settled. -/
def Executed (request : Request) (t : List Happened) (outcome : Except Failure Result) : Prop :=
  ∃ before fingerprint claim providerType adapterRequest context answer provider
      executionProfile after,
    t = before ++ answered (.claim (buildGovernedLogicalOperationKey request)
        request.invocationId fingerprint) (.claimed claim) ::
      ⟨.ask (.execute providerType adapterRequest context), answer⟩ :: after ∧
    Extends [] before ∧ Follows request provider executionProfile answer after outcome

/-- No claim was obtained. -/
def Claimless (t : List Happened) : Prop :=
  ∀ key attempt fingerprint claim,
    answered (.claim key attempt fingerprint) (.claimed claim) ∉ t

/-- How a call ends. -/
def Settled (request : Request) (t : List Happened) (outcome : Except Failure Result) : Prop :=
  Claimless t ∨ Executed request t outcome

section Call

variable {deps : GovernedInvocationDependencies} {request : Request}
variable {provider : ProviderDeclaration} {executionProfile : ExecutionProfile}
variable {t : List Happened} {result : Result}
variable {post : Result → List Happened → Prop} {fail : Failure → List Happened → Prop}

/-- Effects that are not watched. -/
abbrev Anything (_ : List Happened) (_ : Effect Row Ask) : Prop := True

theorem Extends.claimless (h : Extends [] t) : Claimless t := by
  obtain ⟨s, rfl, hs⟩ := h
  intro key attempt fingerprint claim hmem
  have hsetup := hs _ (by simpa using hmem)
  cases hsetup

theorem Claimless.snoc (h : Claimless t) {event : Happened}
    (hevent : ∀ key attempt fingerprint claim,
      answered (.claim key attempt fingerprint) (.claimed claim) ≠ event) :
    Claimless (t ++ [event]) := by
  intro key attempt fingerprint claim hmem
  obtain hmem | hmem := List.mem_append.mp hmem
  · exact h _ _ _ _ hmem
  · exact hevent _ _ _ _ (List.mem_singleton.mp hmem)

theorem wp_finalize_claimless (ht : Claimless t) :
    wp Anything (finalizeInvocation request executionProfile result none)
      (fun result t => Settled request t (.ok result))
      (fun error t => Settled request t (.error error)) t := by
  simp only [finalizeInvocation, wp_bind, wp_pure']
  refine wp_ask.mpr ⟨trivial, fun _ => ?_, fun _ => ?_⟩
  · exact .inl (ht.snoc fun _ _ _ _ h => by cases h)
  · exact .inl (ht.snoc fun _ _ _ _ h => by cases h)

theorem wp_finalize_claim
    (hok : ∀ marking a, post result (t ++ [⟨.ask (.markCompleted
      (buildGovernedLogicalOperationKey request) request.invocationId
        (claimStateForResultStatus result.status)), marking⟩,
      ⟨.ask (.auditInvocationComplete executionProfile result), .ok a⟩]))
    (herror : ∀ marking error, fail error (t ++ [⟨.ask (.markCompleted
      (buildGovernedLogicalOperationKey request) request.invocationId
        (claimStateForResultStatus result.status)), marking⟩,
      ⟨.ask (.auditInvocationComplete executionProfile result), .error error⟩])) :
    wp Anything
      (finalizeInvocation request executionProfile result
        (some (askingStore, buildGovernedLogicalOperationKey request))) post fail t := by
  have report : ∀ marking, wp Anything
      (do
        ask (.auditInvocationComplete executionProfile result)
        Pure.pure result)
      post fail (t ++ [⟨.ask (.markCompleted (buildGovernedLogicalOperationKey request)
        request.invocationId (claimStateForResultStatus result.status)), marking⟩]) := by
    intro marking
    rw [wp_bind]
    refine wp_ask.mpr ⟨trivial, fun a => ?_, fun error => ?_⟩
    · rw [wp_pure', List.append_assoc]
      exact hok marking a
    · rw [List.append_assoc]
      exact herror marking error
  simp only [finalizeInvocation, askingStore_markCompleted]
  rw [wp_bind, wp_tryCatch]
  refine wp_ask.mpr ⟨trivial, fun a => ?_, fun error => ?_⟩
  · exact report (.ok a)
  · exact report (.error error)

/-- From the answer of the adapter on. -/
theorem wp_executeAdapter_settled {before : List Happened} (hbefore : Extends [] before)
    {fingerprint : Str} {claim : GovernedInvocationClaim} {context : GovernedExecutionContext}
    (ht : t = before ++ [answered (.claim (buildGovernedLogicalOperationKey request)
      request.invocationId fingerprint) (.claimed claim)]) :
    wp Anything
      (executeAdapter request provider executionProfile context
        (some (askingStore, buildGovernedLogicalOperationKey request)))
      (fun result t => Settled request t (.ok result))
      (fun error t => Settled request t (.error error)) t := by
  have hexecuted : ∀ adapterRequest answer after outcome,
      Follows request provider executionProfile answer after outcome →
      Settled request (t ++ [⟨.ask (.execute provider.providerType adapterRequest context),
        answer⟩] ++ after) outcome := by
    intro adapterRequest answer after outcome hfollows
    refine .inr ⟨before, fingerprint, claim, provider.providerType, adapterRequest, context, answer,
      provider, executionProfile, after, ?_, hbefore, hfollows⟩
    simp [ht]
  -- A result that is there is marked and recorded.
  have hfinal : ∀ adapterRequest answer result,
      normalizedOf request provider answer = some result →
      wp Anything
        (finalizeInvocation request executionProfile result
          (some (askingStore, buildGovernedLogicalOperationKey request)))
        (fun result t => Settled request t (.ok result))
        (fun error t => Settled request t (.error error))
        (t ++ [⟨.ask (.execute provider.providerType adapterRequest context), answer⟩]) := by
    intro adapterRequest answer result hresult
    refine wp_finalize_claim (fun marking a => ?_) fun marking error => ?_
    · refine hexecuted adapterRequest answer _ _ ?_
      rw [Follows, hresult]
      exact ⟨marking, .ok a, rfl, rfl⟩
    · refine hexecuted adapterRequest answer _ _ ?_
      rw [Follows, hresult]
      exact ⟨marking, .error error, rfl, rfl⟩
  -- Otherwise nothing follows.
  have hescape : ∀ adapterRequest answer error, normalizedOf request provider answer = none →
      Settled request (t ++ [⟨.ask (.execute provider.providerType adapterRequest context),
        answer⟩]) (.error error) := by
    intro adapterRequest answer error hnone
    have h := hexecuted adapterRequest answer [] (.error error) (by
      rw [Follows, hnone]
      exact ⟨rfl, error, rfl⟩)
    rwa [List.append_nil] at h
  rw [executeAdapter, wp_bind, wp_attempt]
  refine wp_ask.mpr ⟨trivial, fun adapterResult => ?_, fun error => ?_⟩
  · cases adapterResult with
    | none => exact hescape _ (.ok none) _ rfl
    | some adapterResult =>
        simp only
        split
        · rename_i hvalid
          rw [wp_bind, normalizeAdapterResult]
          split
          · rename_i text hmalformed
            refine hescape _ (.ok (some adapterResult)) _ ?_
            simp only [normalizedOf, hvalid, hmalformed, if_true]
          · rename_i hmalformed
            refine hfinal _ (.ok (some adapterResult)) _ ?_
            simp only [normalizedOf, hvalid, hmalformed, if_true]
        · rename_i hvalid
          refine hfinal _ (.ok (some adapterResult)) _ ?_
          simp only [normalizedOf, hvalid, if_false, Bool.false_eq_true]
  · exact hfinal _ (.error error) _ rfl

theorem wp_executeAdapter_claimless {context : GovernedExecutionContext} (ht : Claimless t) :
    wp Anything (executeAdapter request provider executionProfile context none)
      (fun result t => Settled request t (.ok result))
      (fun error t => Settled request t (.error error)) t := by
  have hexecuted : ∀ adapterRequest answer, Claimless
      (t ++ [⟨.ask (.execute provider.providerType adapterRequest context), answer⟩]) :=
    fun _ _ => ht.snoc fun _ _ _ _ => nofun
  rw [executeAdapter, wp_bind, wp_attempt]
  refine wp_ask.mpr ⟨trivial, fun adapterResult => ?_, fun error => ?_⟩
  · cases adapterResult with
    | none => exact .inl (hexecuted _ (.ok none))
    | some adapterResult =>
        simp only
        split
        · rw [wp_bind, normalizeAdapterResult]
          split
          · exact .inl (hexecuted _ (.ok (some adapterResult)))
          · exact wp_finalize_claimless (hexecuted _ (.ok (some adapterResult)))
        · exact wp_finalize_claimless (hexecuted _ (.ok (some adapterResult)))
  · exact wp_finalize_claimless (hexecuted _ (.error error))

theorem wp_executeGuarded_settled {context : GovernedExecutionContext} (ht : Extends [] t) :
    wp Anything (executeGuarded deps.asking request provider executionProfile context)
      (fun result t => Settled request t (.ok result))
      (fun error t => Settled request t (.error error)) t := by
  rw [executeGuarded]
  split
  · rename_i store hinjected
    obtain ⟨_, -, rfl⟩ := Option.map_eq_some_iff.mp hinjected
    split
    · rw [claimAndExecute, wp_bind, wp_attempt, askingStore_claim]
      refine wp_ask.mpr ⟨trivial, fun outcome => ?_, fun error => ?_⟩
      · cases outcome with
        | claimed claim => exact wp_executeAdapter_settled ht rfl
        | duplicate | contextConflict =>
            exact wp_finalize_claimless (ht.claimless.snoc fun _ _ _ _ h => by cases h)
      · exact wp_finalize_claimless (ht.claimless.snoc fun _ _ _ _ h => by cases h)
    · exact wp_executeAdapter_claimless ht.claimless
  · exact wp_executeAdapter_claimless ht.claimless

theorem wp_invoke_settled (deps : GovernedInvocationDependencies) (request : Request) :
    wp Anything (invoke deps.asking request) (fun result t => Settled request t (.ok result))
      (fun error t => Settled request t (.error error)) [] :=
  wp_invoke_guarded (fun _ _ _ => trivial) (fun _ _ ht => .inl ht.claimless)
    (fun _ _ ht => .inl ht.claimless) fun _ _ _ _ ht => wp_executeGuarded_settled ht

/-! ## Accounting -/

theorem Extends.unmarked (h : Extends [] t) :
    t.filter (fun event => isMark event.1) = [] ∧
      t.filter (fun event => isCompletion event.1) = [] ∧
      ∀ event ∈ t, isExecute event.1 = false := by
  obtain ⟨s, hts, hs⟩ := h
  rw [List.nil_append] at hts
  subst hts
  have hsetup : ∀ event ∈ t, isMark event.1 = false ∧ isCompletion event.1 = false ∧
      isExecute event.1 = false := by
    intro event hevent
    have hevent := hs event hevent
    obtain ⟨e, answer⟩ := event
    cases e with
    | ask x => cases x <;> first | exact ⟨rfl, rfl, rfl⟩ | cases hevent
    | stmt | begin | commit | rollback => cases hevent
  rw [List.filter_eq_nil_iff, List.filter_eq_nil_iff]
  refine ⟨fun event hevent => ?_, fun event hevent => ?_, fun event hevent => ?_⟩
  · rw [(hsetup event hevent).1]
    nofun
  · rw [(hsetup event hevent).2.1]
    nofun
  · exact (hsetup event hevent).2.2

/-- What is normalized is what an adapter's accountable data can be normalized to. -/
theorem normalizedOf_answerOf (copied : CopiedFields) (credentialReference : Option Units)
    (resolution : Resolution) :
    (normalizedOf request provider (answerOf copied credentialReference resolution)).isSome =
      accountable credentialReference resolution := by
  have hread : ∀ value : Value, value ≠ .undefined → value ≠ .null →
      (normalizedOf request provider
        (.ok (readResult copied (trustedSecrets credentialReference) value))).isSome =
      if isEndStatus (value.get "status") then wellShaped (trustedSecrets credentialReference) value
      else prints false (value.get "status") := by
    intro value hundefined hnull
    have hvalid := isValidInvocationTransition_statusOf (value.get "status")
    rw [readResult]
    · cases hends : isEndStatus (value.get "status") with
      | true =>
          rw [hends] at hvalid
          rw [if_pos rfl, if_pos rfl, ← resolvedResult_isSome copied value]
          simp only [normalizedOf, hvalid, if_true]
          cases (resolvedResult copied value (trustedSecrets credentialReference)).isSome <;> rfl
      | false =>
          rw [hends] at hvalid
          simp only [Bool.false_eq_true, if_false, ← text_isSome]
          cases (value.get "status").text.isSome with
          | true =>
              simp only [if_true, normalizedOf, hvalid]
              rfl
          | false => rfl
    · exact hundefined
    · exact hnull
  cases resolution with
  | resolved value =>
      cases value with
      | undefined | null => rfl
      | primitive | string | array | object => exact hread _ nofun nofun
  | timedOut | threwError => rfl
  | threw value =>
      rw [accountable, ← text_isSome, answerOf]
      cases value.text.isSome <;> rfl

/-- An invocation that has obtained its claim accounts for the execution exactly when the data
of the adapter is accountable. -/
theorem invoke_accounted_iff {copied : CopiedFields} {resolution : Resolution}
    {final : Program Result} {outcome : Except Failure Result}
    (hrun : Trace (invoke deps.asking request) t final) (hended : final.outcome = some outcome)
    (hclaimed : ¬ Claimless t)
    (hadapter : ∀ providerType adapterRequest context answer,
      (⟨.ask (.execute providerType adapterRequest context), answer⟩ : Happened) ∈ t →
        answer = answerOf copied (context.credentialReference.map units) resolution)
    (haudit : ∀ executionProfile result answer,
      (⟨.ask (.auditInvocationComplete executionProfile result), answer⟩ : Happened) ∈ t →
        answer = .ok ()) :
    ∃ providerType adapterRequest context answer,
      (⟨.ask (.execute providerType adapterRequest context), answer⟩ : Happened) ∈ t ∧
      (AccountedFor request t outcome ↔
        accountable (context.credentialReference.map units) resolution = true) := by
  have hsettled : Settled request t outcome := by
    cases final with
    | pure result =>
        obtain rfl := Option.some.inj hended
        exact hrun.returns (wp_invoke_settled deps request)
    | throw error =>
        obtain rfl := Option.some.inj hended
        exact hrun.throws (wp_invoke_settled deps request)
    | call => cases hended
  obtain hnone | ⟨before, fingerprint, claim, providerType, adapterRequest, context, answer,
    provider, executionProfile, after, ht, hbefore, hfollows⟩ := hsettled
  · exact absurd hnone hclaimed
  refine ⟨providerType, adapterRequest, context, answer, by simp [ht], ?_⟩
  obtain rfl := hadapter providerType adapterRequest context answer (by simp [ht])
  have hsome : (normalizedOf request provider (answerOf copied
      (context.credentialReference.map units) resolution)).isSome = _ :=
    normalizedOf_answerOf copied _ resolution
  rw [← hsome]
  obtain ⟨hmarks, hcompletions, -⟩ := hbefore.unmarked
  rw [Follows] at hfollows
  cases hnormalized : normalizedOf request provider
      (answerOf copied (context.credentialReference.map units) resolution) with
  | none =>
      rw [hnormalized] at hfollows
      obtain ⟨-, error, rfl⟩ := hfollows
      constructor
      · rintro ⟨result, -, -, -, -, hok, -⟩
        cases hok
      · exact nofun
  | some result =>
      rw [hnormalized] at hfollows
      obtain ⟨marking, recording, rfl, rfl⟩ := hfollows
      obtain rfl := haudit executionProfile result recording (by simp [ht])
      refine ⟨fun _ => rfl, fun _ => ?_⟩
      refine ⟨result, executionProfile, _, marking, .ok (), rfl, ?_,
        markedFor_claimStateForResultStatus result.status, ?_, normalizedOf_terminal hnormalized⟩
      · rw [ht, List.filter_append, hmarks]
        rfl
      · rw [ht, List.filter_append, hcompletions]
        rfl

end Call

section Agent

/-- The fields that results copy play no part here. -/
def noFields : CopiedFields := ⟨[], [], [], [], [], [], [], []⟩

/-- The answers that let a coding agent run, whose adapter does as it is told. -/
def adapterEnvironment (resolution : Resolution) :
    (e : Effect Row Ask) → Except Failure (Answer Row Ans e)
  | .ask (.execute _ _ context) =>
      answerOf noFields (context.credentialReference.map units) resolution
  | .ask (.markCompleted _ _ _) => .ok ()
  | e => agentEnvironment e

def adapterRun (resolution : Resolution) : List Happened × Program Result :=
  (invoke agentDependencies agentRequest).runUntil (adapterEnvironment resolution) fun _ => false

/-- A claim that was obtained. -/
def isClaimed : Happened → Bool
  | ⟨.ask (.claim _ _ _), .ok (.claimed _)⟩ => true
  | _ => false

theorem not_claimless {t : List Happened} (h : t.any isClaimed = true) : ¬ Claimless t := by
  obtain ⟨⟨e, answer⟩, hmem, hclaimed⟩ := List.any_eq_true.mp h
  intro hnone
  unfold isClaimed at hclaimed
  split at hclaimed
  · rename_i key attempt fingerprint claim heq
    rw [heq] at hmem
    exact hnone key attempt fingerprint claim hmem
  · cases hclaimed

theorem adapterRun_trace (resolution : Resolution) :
    Trace (invoke agentDependencies.asking agentRequest) (adapterRun resolution).1
      (adapterRun resolution).2 :=
  trace_runUntil _ _ _

theorem adapterRun_answer {resolution : Resolution} (providerType : ProviderType)
    (adapterRequest : GovernedAdapterRequest) (context : GovernedExecutionContext)
    (answer : Except Failure (Option GovernedAdapterResult))
    (h : (⟨.ask (.execute providerType adapterRequest context), answer⟩ : Happened) ∈
      (adapterRun resolution).1) :
    answer = answerOf noFields (context.credentialReference.map units) resolution :=
  mem_runUntil h

/-- A result without metadata. -/
def plainSuccess : Value := record [("status", .string (lit "SUCCEEDED"))]

theorem invoke_accounted_iff_plainSuccess :
    ∃ outcome, (adapterRun (.resolved plainSuccess)).2.outcome = some outcome ∧
      AccountedFor agentRequest (adapterRun (.resolved plainSuccess)).1 outcome := by
  have hended : (adapterRun (.resolved plainSuccess)).2.outcome.isSome = true := by
    decide +kernel
  obtain ⟨outcome, houtcome⟩ := Option.isSome_iff_exists.mp hended
  have hclaimed : (adapterRun (.resolved plainSuccess)).1.any isClaimed = true := by
    decide +kernel
  have hplain : ∀ credentialReference,
      accountable credentialReference (.resolved plainSuccess) = true := by
    intro credentialReference
    have hmetadata : plainSuccess.get "providerExecutionMetadata" = .undefined := rfl
    have hreads : sideEffectsRead (trustedSecrets credentialReference) .undefined = true := by
      simp [sideEffectsRead, listReads, callsRead, Value.get, Value.truthy]
    have hshaped : wellShaped (trustedSecrets credentialReference) plainSuccess = true := by
      rw [wellShaped, hmetadata]
      change (true && (_ || sideEffectsRead _ .undefined) && true && true) = true
      rw [hreads, Bool.or_true]
      rfl
    exact hshaped
  obtain ⟨_, _, context, _, _, hiff⟩ := invoke_accounted_iff
    (adapterRun_trace (.resolved plainSuccess)) houtcome (not_claimless hclaimed)
    adapterRun_answer fun _ _ _ hmem => mem_runUntil hmem
  exact ⟨outcome, houtcome, hiff.mpr (hplain _)⟩

/-- A result whose side effects are a text where a list is declared. -/
def textualSideEffects : Value :=
  record [("status", .string (lit "SUCCEEDED")),
    ("providerExecutionMetadata", record [("sideEffects",
      record [("filesCreated", .string (lit "report.txt"))])])]

/-- The call obtains its claim and executes, and then an exception escapes: the claim is not
marked and nothing is recorded. -/
theorem invoke_leaves_unaccounted :
    ∃ outcome, (adapterRun (.resolved textualSideEffects)).2.outcome = some outcome ∧
      ¬ Claimless (adapterRun (.resolved textualSideEffects)).1 ∧
      ¬ AccountedFor agentRequest (adapterRun (.resolved textualSideEffects)).1 outcome := by
  have hended : (adapterRun (.resolved textualSideEffects)).2.outcome.any (fun outcome =>
      match outcome with
      | .error _ => true
      | .ok _ => false) = true := by
    decide +kernel
  obtain ⟨outcome, houtcome, herror⟩ := (Option.any_eq_true _ _).mp hended
  have hclaimed : (adapterRun (.resolved textualSideEffects)).1.any isClaimed = true := by
    decide +kernel
  refine ⟨outcome, houtcome, not_claimless hclaimed, ?_⟩
  rintro ⟨result, -, -, -, -, rfl, -⟩
  cases herror

end Agent

end Invocation
