import VitoPlatform.Dispatch.Workforce

/-!
# What a call does to an approval

A call to the approval service, or a dispatch, as a program of its own: the statement by which
it writes, what it has done when it commits, and that it invokes a provider for CODE_BUILD only
after it has consumed an approval for the same execution target (`program_holds`). From the
statement follows how a published row came about (`Writes.made`), and that it evolves from the
row it replaces (`Made.evolves`).
-/

namespace Dispatch

open Text Invocation Database Prog

/-! ## Calls -/

inductive Request where
  | create (organizationId userId : Str) (dto : CreateCodeBuildApprovalDto)
  | revoke (organizationId userId id : Str)
  | consume (organizationId machineUserId id : Str) (dto : ConsumeCodeBuildApprovalDto)
  | consumeForDispatch (organizationId machineUserId id : Str)
      (dto : ConsumeCodeBuildApprovalDto) (executionTarget : CodeBuildExecutionTarget)
  | dispatch (input : DispatchAgentTaskInput)

inductive Reply where
  | approval (approval : CodeBuildApproval)
  | dispatched (result : DispatchResult)

def Request.program (service : AgentWorkforceService) : Request → Program Reply
  | .create organizationId userId dto => do
      let row ← Dispatch.create service.hash organizationId userId dto
      Prog.pure (.approval row)
  | .revoke organizationId userId id => do
      let row ← Dispatch.revoke organizationId userId id
      Prog.pure (.approval row)
  | .consume organizationId machineUserId id dto => do
      let row ← Dispatch.consume service.hash organizationId machineUserId id dto
      Prog.pure (.approval row)
  | .consumeForDispatch organizationId machineUserId id dto executionTarget => do
      let row ← Dispatch.consumeForDispatch service.hash organizationId machineUserId id dto
        executionTarget
      Prog.pure (.approval row)
  | .dispatch input => do
      let result ← service.dispatch input
      Prog.pure (.dispatched result)

abbrev LogEntry := Entry CodeBuildApproval Ask Failure Ans

/-- A run of any number of calls on an empty table. -/
abbrev Run (allowed : Choice Failure Ans → Prop) (service : AgentWorkforceService)
    (requests : List Request) (s : System CodeBuildApproval Ask Failure Ans Reply) : Prop :=
  System.Reaches schema allowed (System.start [] (requests.map (Request.program service))) s

/-! ## What a call does by itself -/

/-- The consumption of an approval for an execution target. -/
structure DispatchClaim where
  organizationId : Str
  machineUserId : Str
  id : Str
  dto : ConsumeCodeBuildApprovalDto
  executionTarget : CodeBuildExecutionTarget

namespace DispatchClaim

/-- The claim is written by the statement, at a time the clock has shown. -/
def WrittenBy (claim : DispatchClaim) (hash : Hashed → Str) (t : List Happened)
    (st : Stmt CodeBuildApproval) : Prop :=
  codeBuildTargetMatchesApprovalScope claim.executionTarget
      (claim.dto.scope claim.organizationId) = true ∧
    ∃ now, ⟨.ask .now, .ok now⟩ ∈ t ∧
      st = dispatchConsumption hash claim.organizationId claim.machineUserId claim.id claim.dto
        claim.executionTarget now

/-- The open transaction has written the claim on one approval. -/
def Taken (claim : DispatchClaim) (hash : Hashed → Str) (t : List Happened) : Prop :=
  ∃ pre reads asks st answer, Wrote pre reads asks st answer t ∧ answer.length = 1 ∧
    claim.WrittenBy hash t st

end DispatchClaim

/-- The claim of a dispatch, given the execution target. -/
def claimOf (input : DispatchAgentTaskInput) (evidence : CodeBuildEvidence)
    (executionTarget : CodeBuildExecutionTarget) : DispatchClaim :=
  ⟨input.organizationId, evidence.machineUserId, evidence.approvalId, evidence.scope,
    executionTarget⟩

/-- The transaction has found the approval before it has written anything. -/
def FoundApproval (organizationId id : Str) (t : List Happened) (row : CodeBuildApproval) : Prop :=
  ∃ a rest b, t = a ++ ⟨.stmt (.select (approvalOf organizationId id)), .ok (row :: rest)⟩ :: b ∧
    Reading a

/-- An invocation of a provider. -/
def isInvocation : Happened → Bool
  | ⟨.ask (.execute _), _⟩ => true
  | _ => false

/-- The call has invoked no provider. -/
def Uninvoked (t : List Happened) : Prop := ∀ event ∈ t, isInvocation event = false

/-- The statement by which a call may write. -/
def Writes (service : AgentWorkforceService) (t : List Happened) (st : Stmt CodeBuildApproval) :
    Request → Prop
  | .create organizationId userId dto =>
      ∃ id requestHash approvedAt,
        st = .insert (dto.row id organizationId userId requestHash approvedAt)
  | .revoke organizationId userId id =>
      (∃ row, FoundApproval organizationId id t row ∧ row.consumedAt = none) ∧
        ∃ now, st = revocation id now userId
  | .consume organizationId machineUserId id dto =>
      ∃ requestHash now, ⟨.ask .now, .ok now⟩ ∈ t ∧
        st = consumption organizationId machineUserId id dto.requestKey requestHash now
  | .consumeForDispatch organizationId machineUserId id dto executionTarget =>
      DispatchClaim.WrittenBy ⟨organizationId, machineUserId, id, dto, executionTarget⟩
        service.hash t st
  | .dispatch input =>
      ∃ evidence executionTarget, input.codeBuildApproval = some evidence ∧
        (claimOf input evidence executionTarget).WrittenBy service.hash t st

/-- What a call has done when it commits. -/
def Settles (service : AgentWorkforceService) (t : List Happened) : Request → Prop
  | .revoke organizationId userId id =>
      (∃ row, FoundApproval organizationId id t row ∧ row.revokedAt.isSome = true) ∨
        ∃ pre reads asks answer now,
          Wrote pre reads asks (revocation id now userId) answer t ∧ answer ≠ []
  | .consumeForDispatch organizationId machineUserId id dto executionTarget =>
      DispatchClaim.Taken ⟨organizationId, machineUserId, id, dto, executionTarget⟩ service.hash t
  | _ => True

/-- A dispatch has consumed its approval for the target it is about to run. -/
def Approved (service : AgentWorkforceService) (t : List Happened) (operation : GovernedOperation) :
    Request → Prop
  | .dispatch input =>
      ∃ evidence executionTarget a b, input.codeBuildApproval = some evidence ∧
        operation.codeBuildExecutionTarget = some executionTarget ∧
        t = a ++ ⟨.commit, .ok ()⟩ :: b ∧
        (claimOf input evidence executionTarget).Taken service.hash a
  | _ => False

/-- What a call may do at each effect. -/
def May (service : AgentWorkforceService) (request : Request) (t : List Happened) :
    Effect CodeBuildApproval Ask → Prop
  | .stmt (.update p f) => Writes service t (.update p f) request
  | .stmt (.insert v) => Writes service t (.insert v) request
  | .commit => Settles service t request
  | .ask (.execute operation) => Uninvoked t ∧
      (operation.capabilityCode = codeBuild → Approved service t operation request)
  | _ => True

section Rules

variable {service : AgentWorkforceService} {request : Request} {t : List Happened} {α : Type}

/-- A call whose failures do not matter. -/
abbrev Holds (service : AgentWorkforceService) (request : Request) (p : Program α)
    (post : α → List Happened → Prop) (t : List Happened) : Prop :=
  wp (Disciplined (May service request)) p post (fun _ _ => True) t

theorem Holds.ask {x : Ask} {post : Ans x → List Happened → Prop}
    (hx : ∀ operation, x ≠ .execute operation) (h : ∀ a, post a (t ++ [⟨.ask x, .ok a⟩])) :
    Holds service request (Dispatch.ask x) post t := by
  refine wp_perform.mpr ⟨⟨?_, trivial⟩, h, fun _ => trivial⟩
  cases x with
  | execute operation => exact absurd rfl (hx operation)
  | _ => trivial

theorem Holds.find {p : CodeBuildApproval → Bool}
    {post : Option CodeBuildApproval → List Happened → Prop}
    (h : ∀ rows, post rows.head? (t ++ [⟨.stmt (.select p), .ok rows⟩])) :
    Holds service request (findApproval p) post t :=
  wp_bind.mpr (wp_perform.mpr ⟨⟨trivial, trivial⟩, h, fun _ => trivial⟩)

theorem Holds.require {condition : Bool} {error : Failure} {post : Unit → List Happened → Prop}
    (h : condition = true → post () t) :
    Holds service request (Prog.require condition error) post t :=
  wp_require.mpr ⟨h, fun _ => trivial⟩

theorem Holds.expect {value : Option α} {error : Failure} {post : α → List Happened → Prop}
    (h : ∀ a, value = some a → post a t) :
    Holds service request (Prog.expect value error) post t :=
  wp_expect.mpr ⟨h, fun _ => trivial⟩

theorem Holds.transact {body : Program α} {post : α → List Happened → Prop}
    (h : Holds service request body
      (fun a t' => Disciplined (May service request) t' .commit ∧
        post a (t' ++ [⟨.commit, .ok ()⟩])) (t ++ [⟨.begin, .ok ()⟩])) :
    Holds service request (Database.transact body) post t := by
  refine wp_transact (fun _ => ⟨⟨trivial, trivial⟩, trivial, trivial⟩) (fun _ => trivial) (wp_mono h ?_ ?_)
  · exact fun a t' ha => ⟨ha.1, ha.2, fun _ => trivial⟩
  · exact fun _ _ _ => ⟨trivial, fun _ => trivial⟩

/-- The first write of a transaction. -/
theorem Holds.write {st : Stmt CodeBuildApproval}
    {post : List CodeBuildApproval → List Happened → Prop} (hreading : Reading t)
    (hwrites : Writes service t st request)
    (h : ∀ pre reads rows, t = pre ++ ⟨.begin, .ok ()⟩ :: reads →
      Wrote pre reads [] st rows (t ++ [⟨.stmt st, .ok rows⟩]) →
        post rows (t ++ [⟨.stmt st, .ok rows⟩])) :
    Holds service request (statement st) post t := by
  refine wp_perform.mpr ⟨?_, fun rows => ?_, fun _ => trivial⟩
  · cases st with
    | select p => exact ⟨trivial, trivial⟩
    | update p f => exact ⟨hwrites, .inl hreading⟩
    | insert v => exact ⟨hwrites, .inl hreading⟩
  · obtain ⟨pre, reads, ht, hwrote⟩ := hreading.write st rows
    exact h pre reads rows ht hwrote

theorem Holds.human {organizationId userId : Str} {post : Unit → List Happened → Prop}
    (h : ∀ user, post () (t ++ [⟨.ask (.findActiveUser userId organizationId), .ok user⟩])) :
    Holds service request (requireHuman organizationId userId) post t :=
  wp_bind.mpr (Holds.ask nofun fun user => Holds.require fun _ => h user)

theorem Uninvoked.snoc {event : Happened} (h : Uninvoked t) (hevent : isInvocation event = false) :
    Uninvoked (t ++ [event]) :=
  List.forall_mem_append.mpr ⟨h, List.forall_mem_singleton.mpr hevent⟩

theorem disciplined_commit (h : Committable t) (hrequest : Settles service t request) :
    Disciplined (May service request) t .commit :=
  ⟨hrequest, h⟩

end Rules

section Programs

variable {service : AgentWorkforceService} {t : List Happened} {organizationId userId id : Str}

theorem create_holds {dto : CreateCodeBuildApprovalDto} :
    Holds service (.create organizationId userId dto)
      (create service.hash organizationId userId dto) (fun _ _ => True) t := by
  refine wp_bind.mpr (Holds.ask nofun fun now => wp_bind.mpr (Holds.require fun _ => ?_))
  refine Holds.transact (wp_bind.mpr (Holds.human fun user => ?_))
  refine wp_bind.mpr (Holds.find fun rows => ?_)
  have hfound := ((reading_begin (t ++ [⟨.ask .now, .ok now⟩])).ask
    (.findActiveUser userId organizationId) (.ok user)).select
      (fun row => row.organizationId == organizationId && row.approvalRequestKey == dto.requestKey)
      rows
  cases rows.head? with
  | some existing =>
      refine wp_bind.mpr (Holds.require fun _ => ?_)
      exact ⟨disciplined_commit (.inl hfound) trivial, trivial⟩
  | none =>
      refine wp_bind.mpr (Holds.ask nofun fun id => ?_)
      refine wp_bind.mpr (Holds.ask nofun fun approvedAt => ?_)
      have hready := (hfound.ask .newId (.ok id)).ask .now (.ok approvedAt)
      refine wp_bind.mpr (Holds.write hready ⟨id, _, approvedAt, rfl⟩
        fun pre reads rows _ hwrote => ?_)
      refine wp_bind.mpr (Holds.ask nofun fun _ => ?_)
      exact ⟨disciplined_commit (hwrote.ask _ _).committable trivial, trivial⟩

theorem revoke_holds :
    Holds service (.revoke organizationId userId id) (revoke organizationId userId id)
      (fun _ _ => True) t := by
  refine Holds.transact (wp_bind.mpr (Holds.human fun user => ?_))
  refine wp_bind.mpr (Holds.find fun rows => wp_bind.mpr (Holds.expect fun approval hhead => ?_))
  have hhuman := (reading_begin t).ask (.findActiveUser userId organizationId) (.ok user)
  have hfound := hhuman.select (approvalOf organizationId id) rows
  obtain ⟨rest, rfl⟩ : ∃ rest, rows = approval :: rest := by
    cases rows with
    | nil => cases hhead
    | cons row rest => exact ⟨rest, by rw [Option.some.inj hhead]⟩
  split
  · rename_i hrevoked
    have hseen := (⟨_, rest, [], rfl, hhuman⟩ : FoundApproval organizationId id _ approval)
    exact ⟨disciplined_commit (.inl hfound) (.inl ⟨approval, hseen, hrevoked⟩), trivial⟩
  · refine wp_bind.mpr (Holds.require fun hconsumed => wp_bind.mpr (Holds.ask nofun fun now => ?_))
    refine wp_bind.mpr (Holds.write (hfound.ask .now (.ok now))
      ⟨⟨approval, ⟨_, rest, _, List.append_assoc _ _ _, hhuman⟩,
        Option.isNone_iff_eq_none.mp hconsumed⟩, now, rfl⟩
      fun pre reads rows _ hwrote => ?_)
    refine wp_bind.mpr (Holds.expect fun revoked hrevoked => wp_bind.mpr (Holds.ask nofun fun _ => ?_))
    have hwrote := hwrote.ask (.recordAudit organizationId userId "CODE_BUILD_APPROVAL_REVOKED" id)
      (.ok ())
    refine ⟨disciplined_commit hwrote.committable (.inr ⟨_, _, _, rows, now, hwrote, ?_⟩), trivial⟩
    rintro rfl
    cases hrevoked

theorem consume_holds {dto : ConsumeCodeBuildApprovalDto} :
    Holds service (.consume organizationId userId id dto)
      (consume service.hash organizationId userId id dto) (fun _ _ => True) t := by
  refine Holds.transact (wp_bind.mpr (Holds.ask nofun fun actor => ?_))
  refine wp_bind.mpr (Holds.require fun _ => wp_bind.mpr (Holds.find fun rows => ?_))
  refine wp_bind.mpr (Holds.expect fun approval _ => ?_)
  have hfound := ((reading_begin t).ask (.findActiveUser userId organizationId) (.ok actor)).select
    (approvalOf organizationId id) rows
  split
  · refine wp_bind.mpr (Holds.require fun _ => ?_)
    exact ⟨disciplined_commit (.inl hfound) trivial, trivial⟩
  · refine wp_bind.mpr (Holds.ask nofun fun checkedAt => wp_bind.mpr (Holds.require fun _ => ?_))
    refine wp_bind.mpr (Holds.ask nofun fun consumedAt => ?_)
    have hready := (hfound.ask .now (.ok checkedAt)).ask .now (.ok consumedAt)
    refine wp_bind.mpr (Holds.write hready ⟨_, consumedAt, by simp, rfl⟩
      fun pre reads rows _ hwrote => ?_)
    refine wp_bind.mpr (Holds.require fun _ => wp_bind.mpr (Holds.ask nofun fun _ => ?_))
    refine wp_bind.mpr (Holds.find fun found => Holds.expect fun row _ => ?_)
    exact ⟨disciplined_commit ((hwrote.ask _ _).select _ _).committable trivial, trivial⟩

/-- The claim of a call is taken when it commits. -/
theorem consumeForDispatch_holds {request : Request} (claim : DispatchClaim)
    {post : CodeBuildApproval → List Happened → Prop}
    (hwrites : ∀ t st, claim.WrittenBy service.hash t st → Writes service t st request)
    (hsettles : ∀ t, claim.Taken service.hash t → Settles service t request)
    (hpost : ∀ row t', claim.Taken service.hash t' → (Uninvoked t → Uninvoked t') →
      post row (t' ++ [⟨.commit, .ok ()⟩])) :
    Holds service request
      (consumeForDispatch service.hash claim.organizationId claim.machineUserId claim.id claim.dto
        claim.executionTarget) post t := by
  refine wp_bind.mpr (Holds.require fun htarget => ?_)
  rw [Bool.and_eq_true] at htarget
  refine Holds.transact (wp_bind.mpr (Holds.ask nofun fun actor => ?_))
  refine wp_bind.mpr (Holds.require fun _ => wp_bind.mpr (Holds.ask nofun fun now => ?_))
  have hready := ((reading_begin t).ask
    (.findActiveUser claim.machineUserId claim.organizationId) (.ok actor)).ask .now (.ok now)
  refine wp_bind.mpr (Holds.write hready (hwrites _ _ ⟨htarget.2, now, by simp, rfl⟩)
    fun pre reads rows _ hwrote => ?_)
  refine wp_bind.mpr (Holds.require fun hclaimed => wp_bind.mpr (Holds.ask nofun fun _ => ?_))
  refine wp_bind.mpr (Holds.find fun found => Holds.expect fun row _ => ?_)
  have hwrote := (hwrote.ask (.recordAudit claim.organizationId claim.machineUserId
    "CODE_BUILD_APPROVAL_CONSUMED" claim.id) (.ok ())).select (fun row => row.id == claim.id) found
  have htaken : claim.Taken service.hash _ :=
    ⟨_, _, _, _, rows, hwrote, by simpa using hclaimed, htarget.2, now, by
      rw [List.mem_append, List.mem_append, List.mem_append, List.mem_append]
      simp, rfl⟩
  refine ⟨disciplined_commit hwrote.committable (hsettles _ htaken), hpost _ _ htaken ?_⟩
  intro huninvoked
  simp [Uninvoked, isInvocation, or_imp, forall_and] at huninvoked ⊢
  exact huninvoked

/-- What is asked without failing the dispatch. -/
theorem Holds.advisory {request : Request} {x : Ask} {fallback : Ans x}
    {post : Ans x → List Happened → Prop} (hx : ∀ operation, x ≠ .execute operation)
    (h : ∀ a r, post a (t ++ [⟨.ask x, r⟩])) :
    Holds service request ((Dispatch.ask x).tryCatch fun _ => Prog.pure fallback) post t := by
  refine wp_tryCatch.mpr (wp_perform.mpr ⟨⟨?_, trivial⟩, fun a => h a _, fun error => ?_⟩)
  · cases x with
    | execute operation => exact absurd rfl (hx operation)
    | _ => trivial
  · exact h fallback (.error error)

/-- The evidence of a CODE_BUILD task is the one of its input. -/
theorem requireEvidence_holds {input : DispatchAgentTaskInput} {capabilityCode : Str}
    {post : Option CodeBuildEvidence → List Happened → Prop}
    (h : ∀ evidence, (∀ found, evidence = some found → input.codeBuildApproval = some found) →
      (capabilityCode = codeBuild → evidence.isSome = true) → post evidence t) :
    Holds service (.dispatch input) (service.requireEvidence input capabilityCode) post t := by
  unfold AgentWorkforceService.requireEvidence
  split
  · split
    · rename_i evidence hevidence
      refine wp_bind.mpr (Holds.require fun _ => h _ ?_ fun _ => rfl)
      rintro found ⟨⟩
      exact hevidence
    · trivial
  · rename_i hother
    exact h none nofun fun hcode => absurd hcode hother

theorem claimTarget_holds {input : DispatchAgentTaskInput} {evidence : Option CodeBuildEvidence}
    {provider : RoutedProvider} {tier : ExecutionTier} {command : Str}
    {post : Option CodeBuildExecutionTarget → List Happened → Prop}
    (hinput : ∀ found, evidence = some found → input.codeBuildApproval = some found)
    (hnone : evidence = none → post none t)
    (hsome : ∀ found target a, evidence = some found →
      (claimOf input found target).Taken service.hash a → (Uninvoked t → Uninvoked a) →
        post (some target) (a ++ [⟨.commit, .ok ()⟩])) :
    Holds service (.dispatch input) (service.claimTarget input evidence provider tier command)
      post t := by
  cases evidence with
  | none => exact hnone rfl
  | some found =>
      refine wp_bind.mpr (Holds.require fun _ => wp_bind.mpr ?_)
      let target := AgentWorkforceService.executionTarget input found provider tier command
      refine consumeForDispatch_holds (claimOf input found target) ?_ ?_ ?_
      · exact fun t st hwritten => ⟨found, target, hinput found rfl, hwritten⟩
      · exact fun _ _ => trivial
      · exact fun row a htaken => hsome found target a rfl htaken

/-- Whatever has been consumed before the provider is invoked has been consumed for the target
it is invoked with. -/
theorem invokeProvider_holds {input : DispatchAgentTaskInput}
    {correlationId capabilityCode routingDecisionId command : Str} {provider : RoutedProvider}
    {args : List Str} {target : Option CodeBuildExecutionTarget} (huninvoked : Uninvoked t)
    (h : capabilityCode = codeBuild → ∃ found target' a, input.codeBuildApproval = some found ∧
      target = some target' ∧ t = a ++ [⟨.commit, .ok ()⟩] ∧
        (claimOf input found target').Taken service.hash a) :
    Holds service (.dispatch input)
      (service.invokeProvider input correlationId capabilityCode routingDecisionId provider command
        args target) (fun _ _ => True) t := by
  refine wp_bind.mpr (Holds.advisory nofun fun prompt r => ?_)
  refine wp_bind.mpr (wp_perform.mpr ⟨⟨⟨?_, fun hcapability => ?_⟩, trivial⟩, fun execution => ?_,
    fun _ => trivial⟩)
  · exact List.forall_mem_append.mpr ⟨huninvoked, by simp [isInvocation]⟩
  · obtain ⟨found, target', a, hfound, rfl, rfl, htaken⟩ := h hcapability
    exact ⟨found, target', a, _, hfound, rfl, List.append_assoc _ _ _, htaken⟩
  · exact wp_bind.mpr (Holds.advisory nofun fun _ _ => trivial)

theorem dispatchAs_holds {input : DispatchAgentTaskInput} {identity : Option PersistedIdentity}
    {correlationId : Str} (huninvoked : Uninvoked t) :
    Holds service (.dispatch input) (service.dispatchAs input identity correlationId)
      (fun _ _ => True) t := by
  refine wp_bind.mpr (requireEvidence_holds fun evidence hevidence hcode => ?_)
  refine wp_bind.mpr (Holds.ask nofun fun routing => ?_)
  have hrouted : ∀ r, Uninvoked (t ++ [⟨.ask (.routeForExecution r), .ok routing⟩]) :=
    fun _ => huninvoked.snoc rfl
  refine wp_bind.mpr (Holds.expect fun provider _ => wp_bind.mpr (Holds.expect fun tier _ => ?_))
  refine wp_bind.mpr (Holds.expect fun command _ => wp_bind.mpr (Holds.expect fun args _ => ?_))
  refine wp_bind.mpr (claimTarget_holds hevidence ?_ ?_)
  · rintro rfl
    exact invokeProvider_holds (hrouted _) fun hcapability =>
      absurd (hcode hcapability) Bool.false_ne_true
  · intro found target a hfound htaken hkept
    exact invokeProvider_holds ((hkept (hrouted _)).snoc rfl) fun _ =>
      ⟨found, target, a, hevidence found hfound, rfl, rfl, htaken⟩

theorem dispatch_holds {input : DispatchAgentTaskInput} (huninvoked : Uninvoked t) :
    Holds service (.dispatch input) (service.dispatch input) (fun _ _ => True) t := by
  refine wp_bind.mpr (wp_bind.mpr (Holds.require fun _ => ?_))
  refine wp_bind.mpr (Holds.require fun _ => Holds.require fun _ => ?_)
  refine wp_bind.mpr (Holds.ask nofun fun identity => wp_bind.mpr ?_)
  unfold AgentWorkforceService.correlationOf
  split
  · exact dispatchAs_holds (huninvoked.snoc rfl)
  · exact Holds.ask nofun fun correlationId => dispatchAs_holds ((huninvoked.snoc rfl).snoc rfl)

/-- A call keeps its discipline. -/
theorem program_holds (service : AgentWorkforceService) (request : Request) :
    wp (Disciplined (May service request)) (request.program service) (fun _ _ => True)
      (fun _ _ => True) [] := by
  cases request with
  | create organizationId userId dto => exact wp_bind.mpr create_holds
  | revoke organizationId userId id => exact wp_bind.mpr revoke_holds
  | consume organizationId machineUserId id dto => exact wp_bind.mpr consume_holds
  | consumeForDispatch organizationId machineUserId id dto executionTarget =>
      exact wp_bind.mpr (consumeForDispatch_holds
        ⟨organizationId, machineUserId, id, dto, executionTarget⟩ (fun _ _ h => h) (fun _ h => h)
        fun _ _ _ _ => trivial)
  | dispatch input => exact wp_bind.mpr (dispatch_holds (List.forall_mem_nil _))

end Programs

/-! ## Published rows -/

/-- The row by which a claim consumes an approval, over the committed one. -/
structure ClaimMade (claim : DispatchClaim) (before : List CodeBuildApproval)
    (w u : CodeBuildApproval) (now : Int) : Prop where
  found : find schema before claim.id = some u
  available : available now u = true
  scope : u.scope = claim.dto.scope claim.organizationId
  matched : codeBuildTargetMatchesApprovalScope claim.executionTarget
    (claim.dto.scope claim.organizationId) = true
  row : ∃ requestHash targetHash, w =
    { consumedRow now claim.machineUserId claim.dto.requestKey requestHash u with
      executionTargetHash := some targetHash
      executionTarget := some claim.executionTarget }

/-- How a published row came about, for each kind of call. -/
inductive Made (before : List CodeBuildApproval) (w : CodeBuildApproval) : Request → Prop
  | granted {organizationId userId : Str} {dto : CreateCodeBuildApprovalDto}
      (id requestHash : Str) (approvedAt : Int) :
      w = dto.row id organizationId userId requestHash approvedAt →
        find schema before w.id = none → Made before w (.create organizationId userId dto)
  | revoked {organizationId userId id : Str} (u : CodeBuildApproval) (now : Int) :
      find schema before id = some u → w = revokedRow now userId u →
        Made before w (.revoke organizationId userId id)
  | consumed {organizationId machineUserId id : Str} {dto : ConsumeCodeBuildApprovalDto}
      (u : CodeBuildApproval) (now : Int) (requestHash : Str) :
      find schema before id = some u → available now u = true →
        w = consumedRow now machineUserId dto.requestKey requestHash u →
          Made before w (.consume organizationId machineUserId id dto)
  | claimed {organizationId machineUserId id : Str} {dto : ConsumeCodeBuildApprovalDto}
      {executionTarget : CodeBuildExecutionTarget} (u : CodeBuildApproval) (now : Int) :
      ClaimMade ⟨organizationId, machineUserId, id, dto, executionTarget⟩ before w u now →
        Made before w (.consumeForDispatch organizationId machineUserId id dto executionTarget)
  | dispatched {input : DispatchAgentTaskInput} (evidence : CodeBuildEvidence)
      (executionTarget : CodeBuildExecutionTarget) (u : CodeBuildApproval) (now : Int) :
      input.codeBuildApproval = some evidence →
        ClaimMade (claimOf input evidence executionTarget) before w u now →
          Made before w (.dispatch input)

section Rows

variable {service : AgentWorkforceService} {t : List Happened} {before published : List CodeBuildApproval}
variable {st : Stmt CodeBuildApproval} {w u : CodeBuildApproval}

theorem approvalOf_iff {organizationId id : Str} :
    approvalOf organizationId id u = true ↔ u.id = id ∧ u.organizationId = organizationId := by
  simp [approvalOf]

theorem available_iff {now : Int} :
    available now u = true ↔ u.consumedAt = none ∧ u.revokedAt = none ∧ now < u.expiresAt := by
  simp [available, and_assoc]

theorem DispatchClaim.WrittenBy.made {claim : DispatchClaim}
    (h : claim.WrittenBy service.hash t st) (hpublishes : Publishes schema before published st)
    (hw : w ∈ published) : ∃ u now, ⟨.ask .now, .ok now⟩ ∈ t ∧ ClaimMade claim before w u now := by
  obtain ⟨hmatched, now, hnow, rfl⟩ := h
  obtain ⟨u, hu, hp, rfl, -⟩ := hpublishes w hw
  simp only [Bool.and_eq_true, beq_iff_eq] at hp
  obtain ⟨⟨⟨⟨hof, hmission⟩, hrepository⟩, hbranch⟩, havailable⟩ := hp
  obtain ⟨hid, horganization⟩ := approvalOf_iff.mp hof
  refine ⟨u, now, hnow, ?_, havailable, ?_, hmatched, _, _, rfl⟩
  · rw [← hid]
    exact hu
  · rw [CodeBuildApproval.scope, horganization, hmission, hrepository, hbranch]
    rfl

theorem Writes.made {request : Request} (h : Writes service t st request)
    (hpublishes : Publishes schema before published st) (hw : w ∈ published) :
    Made before w request := by
  cases request with
  | create organizationId userId dto =>
      obtain ⟨id, requestHash, approvedAt, rfl⟩ := h
      obtain ⟨rfl, hclash⟩ := hpublishes
      obtain rfl := List.mem_singleton.mp hw
      refine .granted id requestHash approvedAt rfl ?_
      have hmissing := not_mem_key_of_clash hclash
      rwa [← find_isSome_iff, Bool.not_eq_true, Option.isSome_eq_false_iff,
        Option.isNone_iff_eq_none] at hmissing
  | revoke organizationId userId id =>
      obtain ⟨-, now, rfl⟩ := h
      obtain ⟨u, hu, hp, rfl, -⟩ := hpublishes w hw
      refine .revoked u now ?_ rfl
      rwa [← beq_iff_eq.mp hp]
  | consume organizationId machineUserId id dto =>
      obtain ⟨requestHash, now, -, rfl⟩ := h
      obtain ⟨u, hu, hp, rfl, -⟩ := hpublishes w hw
      rw [Bool.and_eq_true, approvalOf_iff] at hp
      refine .consumed u now requestHash ?_ hp.2 rfl
      rwa [← hp.1.1]
  | consumeForDispatch organizationId machineUserId id dto executionTarget =>
      have hwritten : DispatchClaim.WrittenBy
        ⟨organizationId, machineUserId, id, dto, executionTarget⟩ service.hash t st := h
      obtain ⟨u, now, -, hmade⟩ := hwritten.made hpublishes hw
      exact .claimed u now hmade
  | dispatch input =>
      obtain ⟨evidence, executionTarget, hevidence, hwritten⟩ := h
      obtain ⟨u, now, -, hmade⟩ := hwritten.made hpublishes hw
      exact .dispatched evidence executionTarget u now hevidence hmade

/-- What no call changes in an approval, and what it changes once at most. -/
structure Evolves (a b : CodeBuildApproval) : Prop where
  id : b.id = a.id
  scope : b.scope = a.scope
  expiresAt : b.expiresAt = a.expiresAt
  consumed : a.consumedAt.isSome = true →
    b.consumedAt = a.consumedAt ∧ b.executionTarget = a.executionTarget
  revoked : a.revokedAt.isSome = true → b.revokedAt.isSome = true

theorem Evolves.refl (a : CodeBuildApproval) : Evolves a a :=
  ⟨rfl, rfl, rfl, fun _ => ⟨rfl, rfl⟩, fun h => h⟩

theorem Evolves.trans {a b c : CodeBuildApproval} (hab : Evolves a b) (hbc : Evolves b c) :
    Evolves a c where
  id := hbc.id.trans hab.id
  scope := hbc.scope.trans hab.scope
  expiresAt := hbc.expiresAt.trans hab.expiresAt
  consumed h := by
    obtain ⟨hb, htarget⟩ := hab.consumed h
    obtain ⟨hc, htarget'⟩ := hbc.consumed (by rwa [hb])
    exact ⟨hc.trans hb, htarget'.trans htarget⟩
  revoked h := hbc.revoked (hab.revoked h)

theorem evolves_consumedRow {now : Int} {machineUserId requestKey requestHash : Str}
    (h : u.consumedAt = none) :
    Evolves u (consumedRow now machineUserId requestKey requestHash u) := by
  refine ⟨rfl, rfl, rfl, fun hsome => ?_, fun h => h⟩
  rw [h] at hsome
  cases hsome

theorem ClaimMade.evolves {claim : DispatchClaim} {now : Int} (h : ClaimMade claim before w u now) :
    Evolves u w := by
  obtain ⟨requestHash, targetHash, rfl⟩ := h.row
  refine ⟨rfl, rfl, rfl, fun hsome => ?_, fun h => h⟩
  rw [(available_iff.mp h.available).1] at hsome
  cases hsome

theorem Made.evolves {request : Request} (h : Made before w request)
    (hfound : find schema before w.id = some u) : Evolves u w := by
  -- The row a call has read is the one under the id of what it publishes.
  have same : ∀ {v : CodeBuildApproval} {id : Str}, find schema before id = some v →
      Evolves v w → Evolves u w := by
    intro v id hv hevolves
    have hid : v.id = id := find_key hv
    rw [hevolves.id, hid, hv] at hfound
    rwa [← Option.some.inj hfound]
  cases h with
  | granted id requestHash approvedAt _ hfresh =>
      rw [hfresh] at hfound
      cases hfound
  | revoked v now hv hw =>
      refine same hv ?_
      rw [hw]
      exact ⟨rfl, rfl, rfl, fun _ => ⟨rfl, rfl⟩, fun _ => rfl⟩
  | consumed v now requestHash hv havailable hw =>
      refine same hv ?_
      rw [hw]
      exact evolves_consumedRow (available_iff.mp havailable).1
  | claimed v now hmade => exact same hmade.found hmade.evolves
  | dispatched evidence executionTarget v now _ hmade => exact same hmade.found hmade.evolves

end Rows

end Dispatch
