import VitoPlatform.Workforce.Approvals

/-!
# Identities are authorized

An identity that a step is resolved to has the capability that the server has for the step. Its
agent has been approved for the step by a human, and the approval has not been revoked when the
call reads it; or there is no approval, and the agent is the one of the task.
-/

namespace Workforce

open Text Concurrent Services Services.Steps Journals
open AgentRuntime (capabilityForStep)
open Learning (TenantContext)
open Persistence (EngineeringStepType WorkflowRun WorkflowStepRun)

/-! ## What an identity shows -/

def PersistedWorkflowExecutionIdentity.key (identity : PersistedWorkflowExecutionIdentity) :
    StepKey :=
  ⟨identity.organizationId, identity.workflowRunId, identity.stepType⟩

/-- The step is bound to the capability that the server has for it. -/
def Planned (t : Store) (key : StepKey) (capabilityCode : Str) : Prop :=
  capabilityForStep key.stepType = some capabilityCode ∧
    ∃ row, t.planEntry key = some row ∧ row.capabilityCode = capabilityCode

/-- What has been approved for a step and not revoked or replaced before a read. -/
structure Stands (before : List Entry) (key : StepKey) (found : Option WorkflowAgentAssignment) :
    Prop where
  approved : ∀ assignment ∈ found, assignment.key = key ∧ ∃ earlier session context later,
    before = earlier ++ .approved session context assignment :: later ∧
      Approval earlier session context assignment ∧ ∀ entry ∈ later, Passes Entry.write key entry
  absent : found = none → ∀ earlier session context assignment later,
    before = earlier ++ .approved session context assignment :: later → assignment.key = key →
      ∃ session context, .revoked session context key ∈ later

/-- The identity is that of a step and its run. -/
structure Reflects (identity : PersistedWorkflowExecutionIdentity) (step : WorkflowStepRun)
    (run : WorkflowRun) : Prop where
  id : step.id = identity.workflowStepRunId
  organizationId : step.organizationId = identity.organizationId ∧
    run.organizationId = identity.organizationId
  workflowRunId : step.workflowRunId = identity.workflowRunId ∧ run.id = identity.workflowRunId
  stepType : step.stepType = identity.stepType
  attemptNumber : step.attemptNumber = identity.attemptNumber
  taskId : run.taskId = some identity.taskId
  assuranceLevel : run.assuranceLevel = identity.assuranceLevel
  correlationId : run.correlationId = identity.correlationId

/-- The agent is the approved one, which is active, or that of the task. -/
structure Chosen (organizationId taskId capabilityCode : Str)
    (found : Option WorkflowAgentAssignment) (task : Tasks.Task)
    (agent : Activation.DigitalEmployee) : Prop where
  ofTask : task.id = taskId ∧ task.organizationId = organizationId
  ofAgent : agent.organizationId = organizationId
  approved : ∀ assignment ∈ found, assignment.capabilityCode = capabilityCode ∧
    assignment.digitalEmployeeId = agent.id ∧ agent.status = .active
  fallback : found = none → task.assignment.assignedDigitalEmployeeId = some agent.id

structure Authorized (t : Store) (i : Nat) (identity : PersistedWorkflowExecutionIdentity) :
    Prop where
  planned : Planned t identity.key identity.capabilityCode
  read : ∃ before after step run found task agent,
    t.journal = before ++ .assignmentRead i identity.key found :: after ∧
      Entry.stepRead i step run ∈ before ∧ Reflects identity step run ∧
      Stands before identity.key found ∧
      [.taskRead i task, .agentRead i agent].Sublist after ∧ agent.id = identity.agentId ∧
      Chosen identity.organizationId identity.taskId identity.capabilityCode found task agent

/-! ## Reads -/

/-- What has been read, in this order. -/
def Noted (entries : List Entry) (t : Store) : Prop := entries.Sublist t.journal

variable {s t : Store} {i : Nat} {α β : Type} {entries : List Entry} {key : StepKey}
  {capabilityCode taskId : Str} {context : TenantContext} {found : Option WorkflowAgentAssignment}

theorem noted_nil : Noted [] t := List.nil_sublist _

theorem Noted.record {entry : Entry} (h : Noted entries t) :
    Noted (entries ++ [entry]) (t.record entry) :=
  List.Sublist.append h (List.Sublist.refl _)

theorem stable_noted : steps.Stable i (Noted entries) :=
  fun _ _ _ hnoted hbetween =>
    hbetween.elim (fun h => List.Sublist.trans hnoted h.journal.sublist) False.elim

theorem Planned.grows (h : Planned s key capabilityCode) (hgrows : Grows s t) :
    Planned t key capabilityCode := by
  obtain ⟨hcapability, row, hrow, hcode⟩ := h
  exact ⟨hcapability, row, hgrows.planned key row hrow, hcode⟩

theorem stable_planned : steps.Stable i fun t => Planned t key capabilityCode :=
  fun _ _ _ hplanned hbetween => hbetween.elim (fun h => hplanned.grows h) False.elim

/-- A read, and what is done with what it has found. -/
theorem lookup_bind {find : Store → Option β} {entry : β → Entry}
    {k : Option β → Program Store α} {post : α → Store → Prop} (A : Store → Prop)
    (stable : steps.Stable i A) (hs : Sound s) (hA : A s)
    (hentry : ∀ b journal, (entry b).write = none ∧ (entry b).Justified journal)
    (hnone : ∀ t, Sound t → A t → steps.Safe i (k none) t post)
    (hsome : ∀ b t, Sound t → A t → find t = some b → Sound (t.record (entry b)) →
      A (t.record (entry b)) → steps.Safe i (k (some b)) (t.record (entry b)) post) :
    steps.Safe i (lookup find entry >>= k) s post := by
  refine Steps.change_bind A stable hs hA fun t c ht hA => ?_
  cases hfind : find t with
  | none =>
      refine ⟨Grows.refl t, ?_⟩
      rintro _ ⟨⟩ _
      exact hnone t ht hA
  | some b =>
      have hgrows : Grows t (t.record (entry b)) :=
        .record (hentry b t.journal).1 fun _ => (hentry b t.journal).2
      refine ⟨hgrows, ?_⟩
      rintro _ ⟨⟩ hafter
      exact hsome b t ht hA hfind hafter (stable t _ ht hA (.inl hgrows))

/-! ## Assignments -/

theorem eligible_eq_some {r : Records} {organizationId digitalEmployeeId : Str}
    {found : Activation.DigitalEmployee × Activation.Assignments}
    (h : r.eligible organizationId digitalEmployeeId capabilityCode = some found) :
    found.1.id = digitalEmployeeId ∧ isEligible organizationId capabilityCode found.1 found.2 := by
  obtain ⟨employee, hemployee, rfl⟩ := Option.map_eq_some_iff.mp h
  have hfound := List.find?_some hemployee
  rw [decide_eq_true_eq] at hfound
  exact hfound

theorem mem_journal_of_approve {session : Nat} {new assignment : WorkflowAgentAssignment}
    (h : s.approve session context new = (.ok assignment, t)) :
    Entry.approved session context assignment ∈ t.journal := by
  unfold Store.approve at h
  split at h
  · cases h
  · split at h
    · obtain ⟨⟨⟩, rfl⟩ := Prod.mk.inj h
      exact List.mem_append_right _ (List.mem_singleton_self _)
    · split at h
      · cases h
      · obtain ⟨⟨⟩, rfl⟩ := Prod.mk.inj h
        exact List.mem_append_right _ (List.mem_singleton_self _)

/-- An assignment that has been answered has been approved. -/
theorem approve_safe (input : ApproveInput) (hs : Sound s) :
    steps.Safe i (approve i context input) s
      fun assignment t => Noted [.approved i context assignment] t := by
  unfold approve
  refine Steps.expect_bind hs fun userId huserId => ?_
  refine Steps.require_bind hs fun href => ?_
  refine Steps.query_bind (fun _ => True) stable_true hs trivial fun t ht _ => ?_
  refine Steps.require_bind ht fun _ => ?_
  refine Steps.expect_bind ht fun capabilityCode hcapability => ?_
  refine lookup_bind (fun _ => True) stable_true ht trivial (fun _ _ => ⟨rfl, trivial⟩)
    (fun u hu _ => Steps.fails hu) fun found u hu _ hfound hafter _ => ?_
  obtain ⟨hid, heligible⟩ := eligible_eq_some hfound
  have hnoted : Noted [.eligible i found.1 found.2] (u.record (.eligible i found.1 found.2)) :=
    noted_nil.record
  refine Steps.change_bind (Noted [.eligible i found.1 found.2]) stable_noted hafter hnoted
    fun v c hv hnoted => ?_
  have happroval : Approval v.journal i context (input.assignment context.organizationId
      capabilityCode userId (trim input.approvalRef) c.id) :=
    ⟨huserId, rfl, href, hcapability, found.1, found.2, List.singleton_sublist.mp hnoted, hid,
      heligible⟩
  refine ⟨Store.approve_grows (fun _ => happroval) rfl, fun assignment hassignment hw => ?_⟩
  refine Steps.query_bind (Noted [.approved i context assignment]) stable_noted hw
    (List.singleton_sublist.mpr (mem_journal_of_approve (Prod.ext hassignment rfl)))
    fun x hx hnoted => ?_
  exact Steps.ends _ stable_noted hx hnoted fun _ _ h => h

theorem mem_journal_of_revoke {session : Nat} {assignment : WorkflowAgentAssignment}
    (h : s.revoke session context key = (some assignment, t)) :
    Entry.revoked session context key ∈ t.journal := by
  unfold Store.revoke at h
  split at h
  · cases h
  · obtain ⟨-, rfl⟩ := Prod.mk.inj h
    exact List.mem_append_right _ (List.mem_singleton_self _)

/-- An assignment that has been answered as revoked has been revoked. -/
theorem revoke_safe {workflowRunId : Str} {stepType : EngineeringStepType} (hs : Sound s) :
    steps.Safe i (revoke i context workflowRunId stepType) s fun _ t =>
      Noted [.revoked i context ⟨context.organizationId, workflowRunId, stepType⟩] t := by
  unfold revoke
  refine Steps.expect_bind hs fun userId huserId => ?_
  refine Steps.change_bind (fun _ => True) stable_true hs trivial fun t c ht _ => ?_
  refine ⟨Store.revoke_grows (Option.isSome_of_eq_some huserId) rfl, ?_⟩
  rintro _ ⟨⟩ hu
  refine Steps.expect_bind hu fun assignment hassignment => ?_
  have hnoted : Noted [.revoked i context ⟨context.organizationId, workflowRunId, stepType⟩]
      (t.revoke i context ⟨context.organizationId, workflowRunId, stepType⟩).2 :=
    List.singleton_sublist.mpr (mem_journal_of_revoke (Prod.ext hassignment rfl))
  refine Steps.query_bind _ stable_noted hu hnoted fun v hv hnoted => ?_
  exact Steps.ends _ stable_noted hv hnoted fun _ _ h => h

/-! ## Plan entries -/

theorem planned_of_row {row : WorkflowExecutionPlanEntry} {A : Store → Prop}
    (stable : steps.Stable i A) (hs : Sound s) (hA : A s)
    (hcapability : capabilityForStep key.stepType = some capabilityCode)
    (hrow : s.planEntry key = some row) :
    steps.Safe i (assertImmutable row capabilityCode) s
      fun answer t => Sound t ∧ A t ∧ Planned t key answer := by
  unfold assertImmutable
  refine Steps.require_bind hs fun hcode => ?_
  exact Steps.ends _ (stable.and stable_planned) hs
    ⟨hA, hcapability, row, hrow, of_decide_eq_true hcode⟩ fun t ht h => ⟨ht, h⟩

/-- The capability of a step is the server's, and the step is bound to it. -/
theorem resolveAndBind_safe (A : Store → Prop) (stable : steps.Stable i A) (hs : Sound s)
    (hA : A s) : steps.Safe i (resolveAndBind key) s
      fun capabilityCode t => Sound t ∧ A t ∧ Planned t key capabilityCode := by
  unfold resolveAndBind
  refine Steps.expect_bind hs fun capabilityCode hcapability => ?_
  refine Steps.query_bind A stable hs hA fun t ht hA => ?_
  split
  · rename_i row hrow
    exact planned_of_row stable ht hA hcapability hrow
  · refine Steps.change_bind A stable ht hA fun u c hu hA => ?_
    have hgrows := Store.bindPlan_grows (s := u) ⟨c.id, key, capabilityCode⟩
    refine ⟨hgrows, fun _ _ hv => ?_⟩
    have hA := stable _ _ hu hA (.inl hgrows)
    refine Steps.query_bind A stable hv hA fun w hw hA => ?_
    refine Steps.expect_bind hw fun row hrow => ?_
    exact planned_of_row stable hw hA hcapability hrow

/-! ## Agents -/

theorem given_eq_some {text : Option Str} {value : Str} (h : given text = some value) :
    text = some value := Option.eq_some_of_filter_eq_some h

theorem employee_eq_some {r : Records} {organizationId id : Str}
    {agent : Activation.DigitalEmployee} (h : r.employee organizationId id = some agent) :
    agent.id = id ∧ agent.organizationId = organizationId := by
  have hfound := List.find?_some h
  rw [decide_eq_true_eq] at hfound
  exact hfound

theorem task_eq_some {r : Records} {organizationId id : Str} {task : Tasks.Task}
    (h : r.task organizationId id = some task) :
    task.id = id ∧ task.organizationId = organizationId := by
  have hfound := List.find?_some h
  rw [decide_eq_true_eq] at hfound
  exact hfound

/-- The agent is that of the assignment, or of the task. -/
theorem resolveAgent_safe (hs : Sound s) (hplanned : Planned s key capabilityCode)
    (hnoted : Noted entries s) :
    steps.Safe i (resolveAgent i key taskId capabilityCode found) s fun answer t =>
      Sound t ∧ Planned t key capabilityCode ∧
        Noted (entries ++ [.taskRead i answer.1] ++ [.agentRead i answer.2]) t ∧
          Chosen key.organizationId taskId capabilityCode found answer.1 answer.2 := by
  unfold resolveAgent
  refine Steps.require_bind hs fun hmatches => ?_
  refine lookup_bind (fun t => Planned t key capabilityCode ∧ Noted entries t)
    (stable_planned.and stable_noted) hs ⟨hplanned, hnoted⟩ (fun _ _ => ⟨rfl, trivial⟩)
    (fun t ht _ => Steps.fails ht) fun task t ht hA hfound hu hB => ?_
  have htask := task_eq_some hfound
  refine Steps.expect_bind hu fun other hother => ?_
  obtain rfl := Option.some.inj hother
  refine Steps.expect_bind hu fun agentId hagentId => ?_
  have hagentId := given_eq_some hagentId
  refine lookup_bind
    (fun t => Planned t key capabilityCode ∧ Noted (entries ++ [.taskRead i task]) t)
    (stable_planned.and stable_noted) hu ⟨hB.1, hA.2.record⟩ (fun _ _ => ⟨rfl, trivial⟩)
    (fun t ht _ => Steps.fails ht) fun agent v hv hA hfound hw hB => ?_
  have hagent := employee_eq_some hfound
  refine Steps.require_bind hw fun hactive => ?_
  have hchosen : Chosen key.organizationId taskId capabilityCode found task agent := by
    refine ⟨htask, hagent.2, ?_, ?_⟩
    · rintro assignment rfl
      refine ⟨of_decide_eq_true hmatches, ?_, of_decide_eq_true hactive⟩
      exact (Option.some.inj hagentId).trans hagent.1.symm
    · rintro rfl
      exact hagentId.trans (congrArg some hagent.1.symm)
  refine Steps.ends _ (stable_planned.and stable_noted) hw ⟨hB.1, hA.2.record⟩ ?_
  exact fun x hx h => ⟨hx, h.1, h.2, hchosen⟩

/-! ## Identities -/

/-- What an answer of a journal says of the assignment of a step. -/
theorem stands_of_standing {before : List Entry} (hbefore : Recorded Entry.Justified before) :
    Stands before key (standing Entry.write before key) where
  approved assignment hassignment := by
    obtain ⟨earlier, entry, later, hsplit, hwrite, hlater⟩ := standing_eq_some hassignment
    cases entry with
    | approved session context written =>
        obtain ⟨hkey, hwritten⟩ := Prod.mk.inj (Option.some.inj hwrite)
        obtain rfl := Option.some.inj hwritten
        exact ⟨hkey, earlier, session, context, later, hsplit, hbefore _ _ _ hsplit, hlater⟩
    | revoked session context key =>
        obtain ⟨-, hnone⟩ := Prod.mk.inj (Option.some.inj hwrite)
        cases hnone
    | eligible | stepRead | assignmentRead | taskRead | agentRead => cases hwrite
  absent hnone := by
    rintro earlier session context assignment later rfl rfl
    obtain ⟨entry, hentry, hwrite⟩ := exists_clear (a := assignment) hnone rfl
    cases entry with
    | revoked session context key =>
        obtain ⟨rfl, -⟩ := Prod.mk.inj (Option.some.inj hwrite)
        exact ⟨session, context, hentry⟩
    | approved session context written =>
        obtain ⟨-, hnone⟩ := Prod.mk.inj (Option.some.inj hwrite)
        cases hnone
    | eligible | stepRead | assignmentRead | taskRead | agentRead => cases hwrite

theorem stepWithRun_eq_some {r : Records} {id : Str} {step : WorkflowStepRun} {run : WorkflowRun}
    (h : r.stepWithRun id = some (step, run)) : step.id = id ∧ run.id = step.workflowRunId := by
  obtain ⟨found, hstep, hrun⟩ := Option.bind_eq_some_iff.mp h
  obtain ⟨other, hother, heq⟩ := Option.map_eq_some_iff.mp hrun
  obtain ⟨rfl, rfl⟩ := Prod.mk.inj heq
  exact ⟨(Tables.find_some hstep).2, (Tables.find_some hother).2⟩

/-- A read of what is approved for a step, and what is done with it. -/
theorem resolveApproved_bind {k : Option WorkflowAgentAssignment → Program Store α}
    {post : α → Store → Prop} (hs : Sound s) (hplanned : Planned s key capabilityCode)
    (hnoted : Noted entries s)
    (next : ∀ found t, Sound t → Planned t key capabilityCode →
      Noted (entries ++ [.assignmentRead i key found]) t → steps.Safe i (k found) t post) :
    steps.Safe i (resolveApproved i key >>= k) s post := by
  refine Steps.change_bind (fun t => Planned t key capabilityCode ∧ Noted entries t)
    (stable_planned.and stable_noted) hs ⟨hplanned, hnoted⟩ fun t c ht hA => ?_
  have hgrows : Grows t (t.record (.assignmentRead i key (approvedAt t.assignments key))) :=
    .record rfl fun ht => ht.approved key
  refine ⟨hgrows, ?_⟩
  rintro found ⟨⟩ hu
  exact next _ _ hu (hA.1.grows hgrows) hA.2.record

/-- What a resolution has read authorizes its identity. -/
theorem Authorized.of_noted {identity : PersistedWorkflowExecutionIdentity}
    {step : WorkflowStepRun} {run : WorkflowRun} {task : Tasks.Task}
    {agent : Activation.DigitalEmployee} (ht : Sound t)
    (hplanned : Planned t identity.key identity.capabilityCode)
    (hnoted : Noted [.stepRead i step run, .assignmentRead i identity.key found, .taskRead i task,
      .agentRead i agent] t)
    (hreflects : Reflects identity step run) (hagent : agent.id = identity.agentId)
    (hchosen : Chosen identity.organizationId identity.taskId identity.capabilityCode found task
      agent) : Authorized t i identity := by
  obtain ⟨before, after, hjournal, hstep, hreads⟩ := exists_split hnoted
  have hfound : found = standing Entry.write before identity.key :=
    ht.recorded before _ after hjournal
  have hstands : Stands before identity.key found := by
    rw [hfound]
    exact stands_of_standing (Recorded.of_append (hjournal ▸ ht.recorded))
  exact ⟨hplanned, before, after, step, run, found, task, agent, hjournal, hstep, hreflects,
    hstands, hreads, hagent, hchosen⟩

/-- A step is resolved to no identity, or to one that is authorized. -/
theorem resolve_safe {organizationId workflowRunId workflowStepRunId : Str} (hs : Sound s) :
    steps.Safe i (resolve true i organizationId workflowRunId workflowStepRunId) s
      fun answer t => ∀ identity ∈ answer, Authorized t i identity := by
  unfold resolve
  refine lookup_bind (fun _ => True) stable_true hs trivial (fun _ _ => ⟨rfl, trivial⟩) ?_ ?_
  · intro t ht _
    refine Steps.returns fun u => ?_
    rintro identity ⟨⟩
  · rintro ⟨step, run⟩ t ht - hfound hu -
    obtain ⟨hid, hrun⟩ := stepWithRun_eq_some hfound
    have hnoted : Noted [.stepRead i step run] (t.record (.stepRead i step run)) := noted_nil.record
    refine Steps.require_bind hu fun horganization => ?_
    refine Steps.require_bind hu fun hworkflowRun => ?_
    refine Steps.expect_bind hu fun taskId htaskId => ?_
    refine Steps.part_bind (resolveAndBind_safe _ stable_noted hu hnoted) ?_
    rintro capabilityCode v ⟨hv, hnoted, hplanned⟩
    refine resolveApproved_bind hv hplanned hnoted fun found w hw hplanned hnoted => ?_
    refine Steps.part_bind (resolveAgent_safe hw hplanned hnoted) ?_
    rintro ⟨task, agent⟩ x ⟨hx, hplanned, hnoted, hchosen⟩
    refine Steps.ends _ (stable_planned.and stable_noted) hx ⟨hplanned, hnoted⟩ ?_
    rintro y hy ⟨hplanned, hnoted⟩ identity ⟨⟩
    rw [decide_eq_true_eq] at horganization hworkflowRun
    refine .of_noted hy hplanned hnoted ?_ rfl (hchosen.ofTask.1 ▸ hchosen)
    exact ⟨hid, horganization, hworkflowRun, rfl, rfl,
      (given_eq_some htaskId).trans (congrArg some hchosen.ofTask.1.symm), rfl, rfl⟩

/-! ## Runs -/

/-- No assignment stands, and nothing has been read or written. -/
structure Fresh (s : Store) : Prop where
  keys : (s.assignments.map WorkflowAgentAssignment.key).Nodup
  revoked : ∀ assignment ∈ s.assignments, assignment.status = .revoked
  journal : s.journal = []

theorem Fresh.sound (h : Fresh s) : Sound s where
  keys := h.keys
  approved key := by
    rw [h.journal]
    refine List.find?_eq_none.mpr fun assignment hassignment => ?_
    rw [decide_eq_true_eq]
    rintro ⟨-, happroved⟩
    rw [h.revoked assignment hassignment] at happroved
    cases happroved
  recorded := h.journal ▸ recorded_nil

/-- What a call has answered is in the journal, or is authorized by it. -/
def Call.Answers (i : Nat) : Call → Answer → Store → Prop
  | .approve context _, .assignment assignment, t => Noted [.approved i context assignment] t
  | .revoke context workflowRunId stepType, .assignment _, t =>
      Noted [.revoked i context ⟨context.organizationId, workflowRunId, stepType⟩] t
  | .resolve _ _ _, .identity answer, t => ∀ identity ∈ answer, Authorized t i identity
  | .other _, .other, _ => True
  | _, _, _ => False

theorem Call.program_safe (call : Call) (hs : Sound s) :
    steps.Safe i (call.program i) s (call.Answers i) := by
  cases call with
  | approve context input =>
      exact Steps.SafeTo.map (approve_safe input hs) fun _ _ h => h
  | revoke context workflowRunId stepType =>
      exact Steps.SafeTo.map (revoke_safe hs) fun _ _ h => h
  | resolve organizationId workflowRunId workflowStepRunId =>
      exact Steps.SafeTo.map (resolve_safe hs) fun _ _ h => h
  | other f =>
      rw [Call.program, ← Proc.bind_done (change _)]
      refine Steps.change_bind (fun _ => True) stable_true hs trivial fun t c ht _ => ?_
      refine ⟨Grows.records f, ?_⟩
      rintro answer ⟨⟩ _
      exact Steps.returns fun _ => trivial

variable {calls : List Call} {start : Store} {moves : List Move}
  {system : System Store Choice HttpError Answer}

/-- A call of a run has answered. -/
def Answered (calls : List Call) (system : System Store Choice HttpError Answer) (i : Nat)
    (call : Call) (answer : Answer) : Prop :=
  calls[i]? = some call ∧ system.procs[i]? = some (.done answer)

/-- Whatever the other services change, everything that has been approved has been so by a human,
for an employee that was eligible, and every identity of a step is authorized: by what has been
approved for the step and not been revoked when the call reads it, or else by its task. -/
theorem identities_are_authorized (h : Run calls start moves system) (hstart : Fresh start) :
    Recorded Entry.Justified system.store.journal ∧ ∀ i call answer,
      Answered calls system i call answer → call.Answers i answer system.store := by
  have hsafe : ∀ i p, (programs calls)[i]? = some p → steps.SafeTo i p start
      (fun answer t => ∀ call, calls[i]? = some call → call.Answers i answer t)
      fun _ t => Sound t := by
    intro i p hp
    rw [programs, List.getElem?_mapIdx] at hp
    obtain ⟨call, hcall, rfl⟩ := Option.map_eq_some_iff.mp hp
    refine (call.program_safe hstart.sound).mono ?_ fun _ _ h => h
    intro answer t hanswer other hother
    rw [hcall] at hother
    exact Option.some.inj hother ▸ hanswer
  obtain ⟨hsound, hends⟩ := Steps.run_answers h (fun _ _ _ _ _ hdoes => hdoes) hsafe hstart.sound
  exact ⟨hsound.recorded, fun i call answer hanswered => hends i _ hanswered.2 call hanswered.1⟩

/-! ## An approval and its revocation -/

section Examples

private def employee (id : String) : Activation.DigitalEmployee :=
  ⟨id.toList, "org".toList, id.toList, id.toList, none, .active, .specialist, "1".toList⟩

/-- A planner that is approved for the plan of a task of somebody else. -/
private def staffed : Store where
  records :=
    { runs := [⟨"run".toList, "org".toList, some "task".toList, "AL2".toList, .running,
        some .plan, 0, 3, "correlation".toList, none, none⟩]
      steps := [⟨"step".toList, "org".toList, "run".toList, .plan, .ready, 1, none, none, none,
        .null⟩]
      tasks := [⟨"task".toList, "org".toList, [], none, .opened, .normal,
        ⟨none, some "builder".toList⟩, none, none, none⟩]
      staff := ⟨[employee "planner", employee "builder"],
        [⟨"capability".toList, "org".toList, "CODE_PLAN".toList, [], none, .low, false⟩],
        [⟨"planner".toList, "capability".toList, true, .null⟩], [], []⟩ }
  planEntries := []
  assignments := []
  journal := []

private theorem staffed_fresh : Fresh staffed :=
  ⟨List.nodup_nil, List.forall_mem_nil _, rfl⟩

private def owner : TenantContext := ⟨"org".toList, some "owner".toList, .jwt⟩

private def resolveStep : Call := .resolve "org".toList "run".toList "step".toList

private def approvePlanner : Call :=
  .approve owner ⟨"run".toList, .plan, "planner".toList, " T-1 ".toList⟩

private def governed : List Call :=
  [approvePlanner, resolveStep, .revoke owner "run".toList .plan, resolveStep]

/-- The calls one after the other. -/
private def governedRun : List Move × System Store Choice HttpError Answer :=
  Machine.execute System.step ⟨staffed, programs governed⟩
    ((List.range 4).flatMap fun session =>
      List.replicate 7 (session, ⟨false, [Char.ofNat (48 + session)], 0⟩))

private theorem governedRun_run : Run governed staffed governedRun.1 governedRun.2 :=
  Machine.run_execute _ _ _

private def agentOf : Program Store Answer → Option Str
  | .done (.identity (some identity)) => some identity.agentId
  | _ => none

private theorem identity_of_agentOf {p : Program Store Answer} {agentId : Str}
    (h : agentOf p = some agentId) :
    ∃ identity, p = .done (.identity (some identity)) ∧ identity.agentId = agentId := by
  unfold agentOf at h
  split at h
  · exact ⟨_, rfl, Option.some.inj h⟩
  · cases h

/-- The approved agent, and that of the task after the revocation. -/
theorem identities_are_authorized_governed :
    (∃ identity, Authorized governedRun.2.store 1 identity ∧
      identity.agentId = "planner".toList) ∧
    ∃ identity, Authorized governedRun.2.store 3 identity ∧
      identity.agentId = "builder".toList := by
  obtain ⟨-, hanswers⟩ := identities_are_authorized governedRun_run staffed_fresh
  have hagents : (governedRun.2.procs[1]?.bind agentOf) = some "planner".toList ∧
      (governedRun.2.procs[3]?.bind agentOf) = some "builder".toList := by
    decide +kernel
  obtain ⟨first, hfirst, hplanner⟩ := Option.bind_eq_some_iff.mp hagents.1
  obtain ⟨last, hlast, hbuilder⟩ := Option.bind_eq_some_iff.mp hagents.2
  obtain ⟨planned, rfl, hplanned⟩ := identity_of_agentOf hplanner
  obtain ⟨built, rfl, hbuilt⟩ := identity_of_agentOf hbuilder
  exact ⟨⟨planned, hanswers 1 _ _ ⟨rfl, hfirst⟩ planned rfl, hplanned⟩,
    built, hanswers 3 _ _ ⟨rfl, hlast⟩ built rfl, hbuilt⟩

end Examples

end Workforce
