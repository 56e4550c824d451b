import VitoPlatform.Workflow.Changes
import VitoPlatform.Workflow.Lane

/-!
# The commits of the runtime

Every step of a run of the services leaves the committed rows alone or commits one of the
changes listed here (`Run.changes`). Each says which rows are published, over which committed
rows, and what the call had read before. Two general facts come first: rows evolve, and the
steps of a workflow run change only together with its run row, so whoever has locked the run
has locked its steps too.
-/

namespace Workflow

open Text Policy Persistence Invocation Database

variable {allowed : Choice Failure Ans → Prop} {rows : List Row} {operations : List Operation}
variable {s : System Row Ask Failure Ans Unit} {past future : List LogEntry} {en : LogEntry}

/-! ## Evolution -/

/-- A committed row stays, and evolves. -/
theorem Run.evolves_step (h : Run allowed rows operations s) (hkeyed : Keyed schema rows)
    (hs : s.history = past ++ en :: future) {k : RowKey} {r : Row}
    (hr : find schema en.before k = some r) :
    ∃ r', find schema en.after k = some r' ∧ Evolves r r' := by
  have hafter := (h.ledger.accounted past en future hs).after
  rw [hafter, find_apply]
  cases hfind : find schema en.published.reverse k with
  | none => exact ⟨r, by rw [Option.none_or, hr], .refl r⟩
  | some w =>
      refine ⟨w, rfl, ?_⟩
      have hmem : w ∈ en.published := List.mem_reverse.mp (mem_of_find hfind)
      obtain hnone | ⟨operation, pre, tx, -, c, -⟩ := h.commits hkeyed hs
      · rw [hnone] at hmem
        exact absurd hmem List.not_mem_nil
      · rw [c.published] at hmem
        have htrans : ∀ a b c, Evolves a b → Evolves b c → Evolves a c :=
          fun _ _ _ => Evolves.trans
        refine c.ledger.related c.keyed htrans c.events c.quiet ?_ w hmem r ?_
        · intro p f answer hevent u hu
          exact ⟨c.evolve p f answer hevent u hu, (c.evolve p f answer hevent u hu).key⟩
        · rwa [find_key hfind]

/-- A part of a run, from the rows before it to the rows after it. -/
theorem Run.between (h : Run allowed rows operations s) {A B : List LogEntry} {e : LogEntry}
    (hs : s.history = past ++ en :: future) (hpast : past = A ++ e :: B) :
    Chained e.before (e :: B) en.before := by
  have hchained := (h.ledger.take hs).chained
  rw [hpast, chained_append] at hchained
  obtain ⟨middle, -, hmiddle⟩ := hchained
  rwa [← hmiddle.1] at hmiddle

/-- What every step of a part of a run keeps holds at the end of it. -/
theorem Run.keeps (h : Run allowed rows operations s) {A B : List LogEntry} {e : LogEntry}
    (hs : s.history = past ++ en :: future) (hpast : past = A ++ e :: B) {P : List Row → Prop}
    (hstep : ∀ (M : List LogEntry) (b : LogEntry) (N : List LogEntry), e :: B = M ++ b :: N →
      P b.before → P b.after) (hstart : P e.before) : P en.before := by
  refine (h.between hs hpast).invariant (P := fun _ rows => P rows) hstart fun M b N hM hP => ?_
  exact hstep M b N hM hP

theorem Run.evolves (h : Run allowed rows operations s) (hkeyed : Keyed schema rows)
    {A B : List LogEntry} {e : LogEntry} (hs : s.history = past ++ en :: future)
    (hpast : past = A ++ e :: B) {k : RowKey} {r : Row} (hr : find schema e.before k = some r) :
    ∃ r', find schema en.before k = some r' ∧ Evolves r r' := by
  refine h.keeps hs hpast
    (P := fun rows => ∃ r', find schema rows k = some r' ∧ Evolves r r') ?_ ⟨r, hr, .refl r⟩
  rintro M b N hM ⟨r', hr', hevolves⟩
  have hb : s.history = (A ++ M) ++ b :: (N ++ en :: future) := by rw [hs, hpast, hM]; simp
  obtain ⟨r'', hr'', hevolves'⟩ := h.evolves_step hkeyed hb hr'
  exact ⟨r'', hr'', hevolves.trans hevolves'⟩

theorem Run.step_evolves (h : Run allowed rows operations s) (hkeyed : Keyed schema rows)
    {A B : List LogEntry} {e : LogEntry} (hs : s.history = past ++ en :: future)
    (hpast : past = A ++ e :: B) {k : Str} {step : WorkflowStepRun}
    (hstep : stepAt e.before k = some step) :
    ∃ step', stepAt en.before k = some step' ∧ SameStep step step' := by
  obtain ⟨r', hr', hevolves⟩ := h.evolves hkeyed hs hpast (stepAt_eq_some.mp hstep)
  cases r' with
  | step step' => exact ⟨step', stepAt_eq_some.mpr hr', hevolves⟩
  | run run | claim claim => exact hevolves.elim

/-- Two steps of a call, in the order of what the call had done before them. -/
theorem split_later {A A' B B' : List LogEntry} {e e' : LogEntry} {call : Nat}
    (h : A ++ e :: B = A' ++ e' :: B') (hlt : (own call A).length < (own call A').length) :
    ∃ M, A' = A ++ e :: M ∧ B = M ++ e' :: B' := by
  obtain ⟨M, hA', hB⟩ | ⟨M, hA, hB⟩ := List.append_eq_append_iff.mp h
  · cases M with
    | nil =>
        rw [List.append_nil] at hA'
        rw [hA'] at hlt
        exact absurd hlt (lt_irrefl _)
    | cons m M =>
        rw [List.cons_append] at hB
        obtain ⟨rfl, hrest⟩ := List.cons.inj hB
        exact ⟨M, hA', hrest⟩
  · rw [hA, own_append, List.length_append] at hlt
    omega

/-! ## Changes -/

/-- The lock on a run: since then nobody else has published it. -/
def RunLocked (since : List LogEntry) (workflowRunId : Str) : Prop :=
  ∀ b ∈ since, ∀ r, Row.run r ∈ b.published → r.id ≠ workflowRunId

/-- `createRun`. -/
structure Created (input : CreateWorkflowRunInput) (en : LogEntry) (id correlationId : Str) :
    Prop where
  published : en.published = [.run (input.row id correlationId)]
  fresh : runAt en.before id = none

/-- `startRun`, over whatever run row it finds. -/
structure Started (organizationId workflowRunId : Str) (past : List LogEntry) (en : LogEntry)
    (row : WorkflowRun) (now : Int) (id : Str) : Prop where
  published : en.published =
    [.run (startedRow row), .step ((firstStep organizationId workflowRunId now).row id)]
  run_now : runAt en.before workflowRunId = some row
  fresh : stepAt en.before id = none
  seen : ∃ A e B run, past = A ++ e :: B ∧ runAt e.before workflowRunId = some run ∧
    run.organizationId = organizationId ∧ run.status = .created

/-- The row of the successor of a completed step. -/
inductive Successor (input : CompleteStepInput) (step : WorkflowStepRun) (now : Int)
    (before : List Row) : TransitionOutcome → List Row → Prop
  | next (next : EngineeringStepType) (id : Str) : stepAt before id = none →
      Successor input step now before (.nextStep next)
        [.step ((successor input step now next).row id)]
  | none (outcome : TransitionOutcome) : (∀ next, outcome ≠ .nextStep next) →
      Successor input step now before outcome []

/-- A completion: of a READY step, on a run row the call has read before. -/
structure Completed (input : CompleteStepInput) (past : List LogEntry) (en : LogEntry)
    (step : WorkflowStepRun) (freshRun row : WorkflowRun) (now : Int) (created : List Row) :
    Prop where
  published : en.published = .step (completedRow input now step) ::
    (created ++ [.run (runUpdate (outcomeOf input freshRun step) freshRun step.stepType row)])
  step_now : stepAt en.before input.workflowStepRunId = some step
  ready : step.status = .ready
  organization : step.organizationId = input.organizationId
  of_run : step.workflowRunId = input.workflowRunId
  run_now : runAt en.before input.workflowRunId = some row
  successor : Successor input step now en.before (outcomeOf input freshRun step) created
  seen : ∃ A e₀ B e₁ C, past = A ++ e₀ :: (B ++ e₁ :: C) ∧ e₁.call = en.call ∧
    (∃ step₀, stepAt e₀.before input.workflowStepRunId = some step₀ ∧
      terminalStep step₀.status = false) ∧
    runAt e₁.before input.workflowRunId = some freshRun
  run_organization : freshRun.organizationId = input.organizationId
  open_run : terminalRun freshRun.status = false
  current : stale freshRun step = false

/-- `cancelRun`. -/
structure Cancelled (input : CancelRunInput) (past : List LogEntry) (en : LogEntry)
    (row : WorkflowRun) (now : Int) (steps : List Row) : Prop where
  published : en.published = .run (cancelledRun row) :: steps
  run_now : runAt en.before input.workflowRunId = some row
  organization : row.organizationId = input.organizationId
  cancellable : cancellableRun row = true
  images : ∀ w ∈ steps, ∃ step, w = .step (cancelledStep now step) ∧
    stepAt en.before step.id = some step ∧ step.organizationId = input.organizationId ∧
      step.workflowRunId = input.workflowRunId ∧ cancellableStep step = true
  found : ∃ A e B, past = A ++ e :: B ∧ RunLocked (e :: B) input.workflowRunId ∧
    ∀ step, stepAt e.before step.id = some step → step.organizationId = input.organizationId →
      step.workflowRunId = input.workflowRunId → cancellableStep step = true →
        Row.step (cancelledStep now step) ∈ steps

/-- `resumeRun` on a run read as BLOCKED. -/
structure Resumed (organizationId workflowRunId : Str) (past : List LogEntry) (en : LogEntry)
    (run row : WorkflowRun) (steps : List Row) : Prop where
  published : en.published = .run (resumedRow row) :: steps
  run_now : runAt en.before workflowRunId = some row
  seen : ∃ A e B, past = A ++ e :: B ∧ runAt e.before workflowRunId = some run
  organization : run.organizationId = organizationId
  blocked : run.status = .blocked
  undecided : run.blockReasonCode ≠ some .humanDecisionRequired
  images : ∀ w ∈ steps, ∃ step, w = .step (awakened step) ∧
    stepAt en.before step.id = some step ∧ step.organizationId = organizationId ∧
      step.workflowRunId = workflowRunId ∧ step.status = .waiting ∧
        awaitedStep run = some step.stepType
  found : ∃ A e B, past = A ++ e :: B ∧ RunLocked (e :: B) workflowRunId ∧
    ∀ step, stepAt e.before step.id = some step → step.organizationId = organizationId →
      step.workflowRunId = workflowRunId → step.status = .waiting →
        awaitedStep run = some step.stepType → Row.step (awakened step) ∈ steps

/-- `resumeRun` on a run read as WAITING_FOR_HUMAN. -/
structure Continued (organizationId workflowRunId : Str) (past : List LogEntry) (en : LogEntry)
    (run row : WorkflowRun) : Prop where
  published : en.published = [.run (continuedRow row)]
  run_now : runAt en.before workflowRunId = some row
  seen : ∃ A e B, past = A ++ e :: B ∧ runAt e.before workflowRunId = some run
  organization : run.organizationId = organizationId
  waiting : run.status = .waitingForHuman

/-- The newest SUCCEEDED step of a type, as a table has it. -/
def newestSucceeded (rows : List Row) (organizationId workflowRunId : Str)
    (stepType : EngineeringStepType) : Option WorkflowStepRun :=
  newest (·.finishedAt)
    (stepsIn (rows.filter (stepWhere organizationId workflowRunId (succeededOf stepType))))

/-- `requestCorrection`. -/
structure CorrectionRequested (input : RequestCorrectionInput) (past : List LogEntry)
    (en : LogEntry) (run row : WorkflowRun) (parseStep : WorkflowStepRun) (now : Int)
    (id : Str) : Prop where
  published : en.published =
    [.run (correctionRow row), .step ((requestedStep input parseStep.id now).row id)]
  run_now : runAt en.before input.workflowRunId = some row
  organization : row.organizationId = input.organizationId
  awaits : awaitsDecision row = true
  count : row.correctionLoopCount = run.correctionLoopCount
  bounded : run.correctionLoopCount < run.maxCorrectionLoops
  fresh : stepAt en.before id = none
  seen : ∃ A e₀ B e₁ C, past = A ++ e₀ :: (B ++ e₁ :: C) ∧
    runAt e₀.before input.workflowRunId = some run ∧ awaitsDecision run = true ∧
      newestSucceeded e₁.before input.organizationId input.workflowRunId .parseVerdict =
        some parseStep

/-- The loop-exhausted recovery. -/
structure Retested (input : RecoveryInput) (past : List LogEntry) (en : LogEntry)
    (run row : WorkflowRun) (correctionStep : WorkflowStepRun) (approvalRef : Str)
    (cancelledAt now : Int) (id : Str) (steps : List Row) : Prop where
  published : en.published = .run (retestedRow row) :: (steps ++
    [.step ((retestStep input approvalRef run.correctionLoopCount correctionStep.id now).row id)])
  run_now : runAt en.before input.workflowRunId = some row
  organization : row.organizationId = input.organizationId
  exhausted : exhausted row = true
  count : row.correctionLoopCount = run.correctionLoopCount
  fresh : stepAt en.before id = none
  images : ∀ w ∈ steps, ∃ step, w = .step (cancelledStep cancelledAt step) ∧
    stepAt en.before step.id = some step ∧ step.organizationId = input.organizationId ∧
      step.workflowRunId = input.workflowRunId ∧ cancellableStep step = true
  seen : ∃ A e₀ B e₁ C, past = A ++ e₀ :: (B ++ e₁ :: C) ∧
    runAt e₀.before input.workflowRunId = some run ∧ Workflow.exhausted run = true ∧
      newestSucceeded e₁.before input.organizationId input.workflowRunId .correction =
        some correctionStep

/-- The release-verification recovery. -/
structure Reverified (input : RecoveryInput) (en : LogEntry) (row : WorkflowRun)
    (gate verifyStep : WorkflowStepRun) (cancelledAt : Int) (step : StepData) (id : Str) :
    Prop where
  published : en.published =
    [.run (reverifiedRow row), .step (cancelledStep cancelledAt gate), .step (step.row id)]
  run_now : runAt en.before input.workflowRunId = some row
  organization : row.organizationId = input.organizationId
  at_gate : atReleaseGate row = true
  gate_now : stepAt en.before gate.id = some gate
  ready : readyGate gate = true
  gate_run : gate.workflowRunId = input.workflowRunId
  verify_now : stepAt en.before verifyStep.id = some verifyStep
  caused : gate.causationId = some verifyStep.id
  verified : verifyStep.stepType = .verify ∧ verifyStep.status = .succeeded ∧
    verifyStep.workflowRunId = input.workflowRunId
  of_run : step.workflowRunId = input.workflowRunId
  of_organization : step.organizationId = input.organizationId
  of_type : step.stepType = .verify
  cause : step.causationId = verifyStep.causationId
  fresh : stepAt en.before id = none

/-- What a commit of an operation has changed. -/
inductive Change (past : List LogEntry) (en : LogEntry) : Operation → Prop
  | createRun {input} (id correlationId : Str) : Created input en id correlationId →
      Change past en (.createRun input)
  | startRun {organizationId workflowRunId} (row : WorkflowRun) (now : Int) (id : Str) :
      Started organizationId workflowRunId past en row now id →
      Change past en (.startRun organizationId workflowRunId)
  | completeStep {input} (step : WorkflowStepRun) (freshRun row : WorkflowRun) (now : Int)
      (created : List Row) : Completed input past en step freshRun row now created →
      Change past en (.completeStep input)
  | cancelRun {input} (row : WorkflowRun) (now : Int) (steps : List Row) :
      Cancelled input past en row now steps → Change past en (.cancelRun input)
  | resumeBlocked {organizationId workflowRunId} (run row : WorkflowRun) (steps : List Row) :
      Resumed organizationId workflowRunId past en run row steps →
      Change past en (.resumeRun organizationId workflowRunId)
  | resumeWaiting {organizationId workflowRunId} (run row : WorkflowRun) :
      Continued organizationId workflowRunId past en run row →
      Change past en (.resumeRun organizationId workflowRunId)
  | requestCorrection {input} (run row : WorkflowRun) (parseStep : WorkflowStepRun) (now : Int)
      (id : Str) : CorrectionRequested input past en run row parseStep now id →
      Change past en (.requestCorrection input)
  | recoverLoop {input} (run row : WorkflowRun) (correctionStep : WorkflowStepRun)
      (approvalRef : Str) (cancelledAt now : Int) (id : Str) (steps : List Row) :
      Retested input past en run row correctionStep approvalRef cancelledAt now id steps →
      Change past en (.recoverLoop input)
  | recoverRelease {input} (row : WorkflowRun) (gate verifyStep : WorkflowStepRun)
      (cancelledAt : Int) (step : StepData) (id : Str) :
      Reverified input en row gate verifyStep cancelledAt step id →
      Change past en (.recoverRelease input)
  | approveRelease {input} (gateId : Str) (step : WorkflowStepRun) (freshRun row : WorkflowRun)
      (now : Int) (created : List Row) : input.isMachineIdentity = false →
      Completed (approval input gateId) past en step freshRun row now created →
      Change past en (.approveRelease input)

/-! ## From shapes to changes -/

section Shapes

variable {pre tx : List Happened}

theorem writes_after_select {t : List Happened} (p : Row → Bool) (answer : List Row) :
    (sessionAfter (t ++ [ran (.select p) answer])).writes = (sessionAfter t).writes := by
  rw [sessionAfter_snoc]
  change Session.writes (if _ then _ else _) = _
  split
  · simp [written]
  · rfl

theorem runById_id (workflowRunId : Str) (row : WorkflowRun)
    (h : (row.id == workflowRunId) = true) : row.id = workflowRunId := by simpa using h

theorem runWhere_id {organizationId workflowRunId : Str} {p : WorkflowRun → Bool}
    (row : WorkflowRun)
    (h : (row.id == workflowRunId && row.organizationId == organizationId && p row) = true) :
    row.id = workflowRunId := by
  simp only [Bool.and_eq_true, beq_iff_eq] at h
  exact h.1.1

theorem ne_nil_of_firstRun {rows : List Row} {run : WorkflowRun}
    (h : firstRun rows = some run) : rows ≠ [] := by
  rintro rfl
  cases h

theorem created_of_shape {input : CreateWorkflowRunInput} (c : Committing rows past en pre tx)
    (h : CreateShape input pre tx) :
    ∃ id correlationId, Created input en id correlationId := by
  cases h with
  | mk id correlationId inserted rest hrest =>
      obtain ⟨rfl, hfresh⟩ := c.insert [_] rfl
      refine ⟨id, correlationId, ?_, runAt_eq_none.mpr hfresh⟩
      rw [c.published]
      simp [hrest]

theorem started_of_shape {organizationId workflowRunId : Str}
    (c : Committing rows past en pre tx) (h : StartShape organizationId workflowRunId pre tx) :
    ∃ row now id, Started organizationId workflowRunId past en row now id := by
  cases h with
  | mk reads updated created run updatedRow now id rest hrun hstatus hrow hrest =>
      obtain ⟨A, e, B, hs, -, -, -, hkeyed, rfl⟩ := c.select [] rfl rfl
      obtain ⟨hfound, horganization, -⟩ := firstRun_filter hkeyed hrun
      obtain ⟨row, hnow, -, rfl, -⟩ := c.updateRun [_, _] rfl
        (runById_id workflowRunId) (by simp) (ne_nil_of_firstRun hrow)
      obtain ⟨rfl, hfresh⟩ := c.insert [_, _, _, _] rfl
      refine ⟨row, now, id, ?_, hnow, stepAt_eq_none.mpr hfresh, A, e, B, run, hs, hfound,
        horganization, hstatus⟩
      rw [c.published]
      simp [createdStep, hrest]

/-- What a call has read of the steps of a run. -/
theorem stepsIn_head {organizationId workflowRunId stepId : Str} {step : WorkflowStepRun}
    {table : List Row} (hkeyed : Keyed schema table)
    (h : (stepsIn (table.filter (stepWhere organizationId workflowRunId
      fun row => row.id == stepId))).head? = some step) :
    stepAt table stepId = some step ∧ step.organizationId = organizationId ∧
      step.workflowRunId = workflowRunId := by
  obtain ⟨hfound, horganization, hrun, hid⟩ :=
    (mem_stepsIn_filter hkeyed).mp (List.mem_of_mem_head? h)
  rw [beq_iff_eq] at hid
  rw [hid] at hfound
  exact ⟨hfound, horganization, hrun⟩

theorem successor_of_shape {input : CompleteStepInput} {step : WorkflowStepRun} {now : Int}
    {outcome : TransitionOutcome} (tx₁ : List Happened) {created rest : List Happened}
    (c : Committing rows past en pre tx) (htx : tx = tx₁ ++ (created ++ rest))
    (h : SuccessorShape input step now outcome created) :
    ∃ ws, created.flatMap written = ws ∧ Successor input step now en.before outcome ws := by
  cases h with
  | next next id inserted rest' hrest =>
      have hinsert : tx = (tx₁ ++ [answered .newId id]) ++
          ran (.insert (.step ((successor input step now next).row id))) inserted ::
            (rest' ++ rest) := by
        rw [htx]
        simp [createdStep]
      obtain ⟨rfl, hfresh⟩ := c.insert _ hinsert
      refine ⟨_, ?_, .next next id (stepAt_eq_none.mpr hfresh)⟩
      simp [createdStep, hrest]
  | none outcome hno => exact ⟨[], rfl, .none outcome hno⟩

theorem Successor.steps {input : CompleteStepInput} {step : WorkflowStepRun} {now : Int}
    {before ws : List Row} {outcome : TransitionOutcome}
    (h : Successor input step now before outcome ws) : ∀ w ∈ ws, ∃ step, w = .step step := by
  cases h with
  | next next id _ => exact fun w hw => ⟨_, List.mem_singleton.mp hw⟩
  | none outcome _ => exact fun w hw => absurd hw List.not_mem_nil

/-- The successor depends on the completed step by its id alone. -/
theorem Successor.congr {input : CompleteStepInput} {step step' : WorkflowStepRun} {now : Int}
    {before ws : List Row} {outcome : TransitionOutcome} (hid : step'.id = step.id)
    (h : Successor input step now before outcome ws) :
    Successor input step' now before outcome ws := by
  cases h with
  | next next id hfresh =>
      have hdata : successor input step now next = successor input step' now next := by
        rw [successor, ← hid]
        rfl
      rw [hdata]
      exact .next next id hfresh
  | none outcome hno => exact .none outcome hno

theorem completed_of_shape {input : CompleteStepInput} (h : Run allowed rows operations s)
    (hs : s.history = past ++ en :: future) (c : Committing rows past en pre tx)
    (hshape : CompletionShape input pre tx) :
    ∃ step freshRun row now created, Completed input past en step freshRun row now created := by
  cases hshape with
  | mk pre runs steps freshRuns freshSteps claimed updated run freshRun row stepRun freshStep now
      created rest hidle hrun hstep hopen hfreshRun hfreshStep hrunOpen hfreshOpen hstale hclaimed
      hsuccessor hupdated hrest =>
      -- What the call has read: the step before its transaction, run and step inside it.
      obtain ⟨A₀, e₀, B₀, hs₀, -, hA₀, -, hkeyed₀, rfl⟩ :=
        c.selectBefore (pre ++ [_]) (by rw [List.append_assoc]; rfl)
          ((writes_after_select _ _).trans hidle)
      obtain ⟨hread, -, -⟩ := stepsIn_head hkeyed₀ hstep
      obtain ⟨A₁, e₁, B₁, hs₁, hcall, hA₁, -, hkeyed₁, rfl⟩ := c.select [] rfl rfl
      obtain ⟨hseen, hrunOrganization, -⟩ := firstRun_filter hkeyed₁ hfreshRun
      obtain ⟨A₂, e₂, B₂, hs₂, -, -, -, hkeyed₂, rfl⟩ := c.select [_] rfl rfl
      obtain ⟨hfresh, horganization, hofRun⟩ := stepsIn_head hkeyed₂ hfreshStep
      -- The step it claims is the one it has read.
      have hid : ∀ row : WorkflowStepRun,
          (row.id == freshStep.id && row.status == .ready) = true →
            row.id = input.workflowStepRunId := by
        simp +contextual [stepAt_id hfresh]
      obtain ⟨step, hnow, hready, rfl⟩ := c.updateStep [_, _, _] rfl hid (by simp) hclaimed
      obtain ⟨step', hnow', hsame⟩ := h.step_evolves c.keyed hs hs₂ hfresh
      obtain rfl : step = step' := Option.some.inj (hnow.symm.trans hnow')
      simp only [Bool.and_eq_true, beq_iff_eq] at hready
      obtain ⟨ws, hws, hsuccessor⟩ := successor_of_shape [_, _, _, _] c rfl hsuccessor
      obtain ⟨row, hrow, -, rfl, -⟩ := c.updateRun (_ :: _ :: _ :: _ :: created)
        rfl (runById_id input.workflowRunId) (by simpa [hws] using hsuccessor.steps)
        (ne_nil_of_firstRun hupdated)
      have hinput : stateMachineInput input freshRun freshStep =
          stateMachineInput input freshRun step := by
        rw [stateMachineInput, ← hsame.stepType]
        rfl
      refine ⟨step, freshRun, row, now, ws, ?_, hnow, hready.2, ?_, ?_, hrow, ?_, ?_,
        hrunOrganization, hrunOpen, ?_⟩
      · rw [c.published, outcomeOf, ← hinput, hsame.stepType]
        simp [hws, hrest]
      · rw [hsame.organizationId, horganization]
      · rw [hsame.workflowRunId, hofRun]
      · rw [outcomeOf, ← hinput]
        exact hsuccessor.congr hsame.id
      · have hlt : (own en.call A₀).length < (own en.call A₁).length := by
          rw [hA₀, hA₁]
          simp [inTx]
        obtain ⟨B, rfl, rfl⟩ := split_later (hs₀.symm.trans hs₁) hlt
        exact ⟨A₀, e₀, B, e₁, B₁, hs₀, hcall, ⟨stepRun, hread, hopen⟩, hseen⟩
      · rw [stale, hsame.stepType]
        exact hstale

/-- The run stays locked after each later statement of the transaction. -/
theorem Committing.Locked.after {tx₁ tx₁' : List Happened} {run : WorkflowRun}
    (h : Committing.Locked past en pre tx₁ run) {A B : List LogEntry} {e : LogEntry}
    (hs : past = A ++ e :: B) (hA : own en.call A = inTx pre tx₁')
    (hlt : tx₁.length < tx₁'.length) : RunLocked (e :: B) run.id := by
  obtain ⟨A₀, e₀, B₀, hs₀, hA₀, -, hlocked⟩ := h.held
  have hlength : (own en.call A₀).length < (own en.call A).length := by
    rw [hA₀, hA]
    simpa [inTx] using hlt
  obtain ⟨M, -, rfl⟩ := split_later (hs₀.symm.trans hs) hlength
  exact fun b hb => hlocked b (List.mem_append_right _ hb)

theorem cancelled_of_shape {input : CancelRunInput} (c : Committing rows past en pre tx)
    (h : CancelShape input pre tx) : ∃ row now steps, Cancelled input past en row now steps := by
  cases h with
  | mk now claimed steps rest hclaimed hrest =>
      obtain ⟨row, hrow, hp, rfl, hlocked⟩ := c.updateRun [_] rfl runWhere_id (by simp) hclaimed
      obtain ⟨himages, A, e, B, hs, hA, -, hfound⟩ := c.updateSteps [_, _] rfl (by simp)
      simp only [Bool.and_eq_true, beq_iff_eq] at hp
      refine ⟨row, now, steps, ?_, hrow, hp.1.2, hp.2, himages, A, e, B, hs, ?_, hfound⟩
      · rw [c.published]
        simp [hrest]
      · rw [← hp.1.1]
        exact hlocked.after hs hA (by simp)

/-- The rows a resume has awakened, and those it has written besides. -/
theorem awakened_of_shape {organizationId workflowRunId : Str} {run row : WorkflowRun}
    {rest tx₁ : List Happened} (c : Committing rows past en pre tx)
    (hlocked : Committing.Locked past en pre tx₁ row) (hid : row.id = workflowRunId)
    (t : List Happened) (htx : tx = t ++ rest) (hlt : tx₁.length < t.length)
    (hruns : ∀ w ∈ t.flatMap written, ∃ run, w = .run run)
    (h : AwakenShape organizationId workflowRunId run rest) :
    ∃ steps, rest.flatMap written = steps ∧
      (∀ w ∈ steps, ∃ step, w = .step (awakened step) ∧
        stepAt en.before step.id = some step ∧ step.organizationId = organizationId ∧
          step.workflowRunId = workflowRunId ∧ step.status = .waiting ∧
            awaitedStep run = some step.stepType) ∧
      ∃ A e B, past = A ++ e :: B ∧ RunLocked (e :: B) workflowRunId ∧
        ∀ step, stepAt e.before step.id = some step → step.organizationId = organizationId →
          step.workflowRunId = workflowRunId → step.status = .waiting →
            awaitedStep run = some step.stepType → Row.step (awakened step) ∈ steps := by
  cases h with
  | awaken stepType steps rest hawaited hrest =>
      obtain ⟨himages, A, e, B, hs, hA, -, hfound⟩ := c.updateSteps t htx hruns
      refine ⟨steps, by simp [hrest], fun w hw => ?_, A, e, B, hs, ?_, ?_⟩
      · obtain ⟨step, rfl, hstep, horganization, hrun, hp⟩ := himages w hw
        simp only [waitingStep, Bool.and_eq_true, beq_iff_eq] at hp
        exact ⟨step, rfl, hstep, horganization, hrun, hp.2, by rw [hp.1, hawaited]⟩
      · rw [← hid]
        exact hlocked.after hs hA hlt
      · intro step hstep horganization hrun hwaiting htype
        refine hfound step hstep horganization hrun ?_
        rw [hawaited] at htype
        simp [waitingStep, hwaiting, Option.some.inj htype]
  | skip _ hawaited hrest =>
      obtain ⟨A, e, B, hs, -, hsilent, hheld⟩ := hlocked.held
      refine ⟨[], hrest, by simp, A, e, B, hs, List.forall_mem_cons.mpr ⟨?_, hid ▸ hheld⟩, ?_⟩
      · rw [hsilent]
        exact fun r hr => absurd hr List.not_mem_nil
      intro step _ _ _ _ htype
      rw [hawaited] at htype
      cases htype

/-- The run that a call has read first. -/
def firstRead : List Happened → Option WorkflowRun
  | ⟨.stmt (.select _), .ok rows⟩ :: _ => firstRun rows
  | _ => none

theorem resumed_of_shape {organizationId workflowRunId : Str} (c : Committing rows past en pre tx)
    (h : ResumeShape organizationId workflowRunId pre tx) :
    ∃ run row, firstRead (own en.call past) = some run ∧
      ((∃ steps, Resumed organizationId workflowRunId past en run row steps) ∨
        Continued organizationId workflowRunId past en run row) := by
  cases h with
  | blocked runs updated run written rest hrun hblocked hundecided hupdated hawaken =>
      obtain ⟨A, e, B, hs, -, -, -, hkeyed, rfl⟩ := c.selectBefore [] rfl rfl
      obtain ⟨hread, horganization, -⟩ := firstRun_filter hkeyed hrun
      obtain ⟨row, hrow, -, rfl, hlocked⟩ := c.updateRun [] rfl (runById_id workflowRunId)
        (by simp) (ne_nil_of_firstRun hupdated)
      obtain ⟨steps, hsteps, himages, hfound⟩ := awakened_of_shape c hlocked (runAt_id hrow)
        [_] rfl (by simp) (by simp) hawaken
      refine ⟨run, row, by rw [c.events]; exact hrun, .inl ⟨steps, ?_, hrow,
        ⟨A, e, B, hs, hread⟩, horganization, hblocked, hundecided, himages, hfound⟩⟩
      rw [c.published]
      simp [hsteps]
  | waiting runs updated run written rest hrun hwaiting hupdated hrest =>
      obtain ⟨A, e, B, hs, -, -, -, hkeyed, rfl⟩ := c.selectBefore [] rfl rfl
      obtain ⟨hread, horganization, -⟩ := firstRun_filter hkeyed hrun
      obtain ⟨row, hrow, -, rfl, -⟩ := c.updateRun [] rfl (runById_id workflowRunId)
        (by simp) (ne_nil_of_firstRun hupdated)
      refine ⟨run, row, by rw [c.events]; exact hrun, .inr ⟨?_, hrow, ⟨A, e, B, hs, hread⟩,
        horganization, hwaiting⟩⟩
      rw [c.published]
      simp [hrest]

theorem length_one_ne_nil {answer : List Row} (h : answer.length = 1) : answer ≠ [] := by
  rintro rfl
  cases h

theorem requested_of_shape {input : RequestCorrectionInput} (c : Committing rows past en pre tx)
    (h : CorrectionShape input pre tx) :
    ∃ run row parseStep now id, CorrectionRequested input past en run row parseStep now id := by
  cases h with
  | mk runs steps claimed created run parseStep now id rest hrun hawaits hparse hcount hclaimed
      hrest =>
      obtain ⟨A₀, e₀, B₀, hs₀, -, hA₀, -, hkeyed₀, rfl⟩ := c.select [] rfl rfl
      obtain ⟨A₁, e₁, B₁, hs₁, -, hA₁, -, hkeyed₁, rfl⟩ := c.select [_] rfl rfl
      obtain ⟨hread, -, -⟩ := firstRun_filter hkeyed₀ hrun
      obtain ⟨row, hrow, hp, rfl, -⟩ := c.updateRun [_, _] rfl runWhere_id (by simp)
        (length_one_ne_nil hclaimed)
      obtain ⟨rfl, hfresh⟩ := c.insert [_, _, _, _, _] rfl
      simp only [Bool.and_eq_true, beq_iff_eq] at hp
      refine ⟨run, row, parseStep, now, id, ?_, hrow, hp.1.2, hp.2.1, hp.2.2, hcount,
        stepAt_eq_none.mpr hfresh, ?_⟩
      · rw [c.published]
        simp [createdStep, hrest]
      · obtain ⟨B, rfl, rfl⟩ := split_later (hs₀.symm.trans hs₁)
          (by rw [hA₀, hA₁]; simp [inTx])
        exact ⟨A₀, e₀, B, e₁, B₁, hs₀, hread, hawaits, hparse⟩

theorem retested_of_shape {input : RecoveryInput} (c : Committing rows past en pre tx)
    (h : RetestShape input pre tx) :
    ∃ run row correctionStep approvalRef cancelledAt now id steps,
      Retested input past en run row correctionStep approvalRef cancelledAt now id steps := by
  cases h with
  | mk runs corrections stale claimed created run correctionStep approvalRef now id cancelled rest
      hrun hexhausted hexact hcorrection hclaimed hstale hrest =>
      obtain ⟨A₀, e₀, B₀, hs₀, -, hA₀, -, hkeyed₀, rfl⟩ := c.select [] rfl rfl
      obtain ⟨A₁, e₁, B₁, hs₁, -, hA₁, -, hkeyed₁, rfl⟩ := c.select [_] rfl rfl
      obtain ⟨hread, -, -⟩ := firstRun_filter hkeyed₀ hrun
      obtain ⟨row, hrow, hp, rfl, -⟩ := c.updateRun [_, _, _] rfl runWhere_id (by simp)
        (length_one_ne_nil hclaimed)
      simp only [Bool.and_eq_true, beq_iff_eq] at hp
      obtain ⟨cancelledAt, steps, hwritten, himages⟩ : ∃ cancelledAt steps,
          cancelled.flatMap written = steps ∧
          ∀ w ∈ steps, ∃ step, w = .step (cancelledStep cancelledAt step) ∧
            stepAt en.before step.id = some step ∧ step.organizationId = input.organizationId ∧
              step.workflowRunId = input.workflowRunId ∧ cancellableStep step = true := by
        cases hstale with
        | cancel cancelledAt cancelled =>
            obtain ⟨himages, -⟩ := c.updateSteps [_, _, _, _, _] rfl (by simp)
            refine ⟨cancelledAt, cancelled, by simp, fun w hw => ?_⟩
            obtain ⟨step, rfl, hstep, horganization, hrun, hp⟩ := himages w hw
            rw [Bool.and_eq_true] at hp
            exact ⟨step, rfl, hstep, horganization, hrun, hp.2⟩
        | none _ => exact ⟨0, [], rfl, by simp⟩
      rw [createdStep] at c
      obtain ⟨rfl, hfresh⟩ := c.insert (_ :: _ :: _ :: _ :: (cancelled ++ [_, _]))
        (by simp only [List.cons_append, List.append_assoc, List.nil_append]; rfl)
      refine ⟨run, row, correctionStep, approvalRef, cancelledAt, now, id, steps, ?_, hrow,
        hp.1.2, hp.2.1, hp.2.2, stepAt_eq_none.mpr hfresh, himages, ?_⟩
      · rw [c.published]
        simp [hwritten, hrest]
      · obtain ⟨B, rfl, rfl⟩ := split_later (hs₀.symm.trans hs₁)
          (by rw [hA₀, hA₁]; simp [inTx])
        exact ⟨A₀, e₀, B, e₁, B₁, hs₀, hread, hexhausted, hcorrection⟩

theorem reverified_of_shape {input : RecoveryInput} (h : Run allowed rows operations s)
    (hs : s.history = past ++ en :: future) (c : Committing rows past en pre tx)
    (hshape : ReverifyShape input pre tx) :
    ∃ row gate verifyStep cancelledAt step id,
      Reverified input en row gate verifyStep cancelledAt step id := by
  cases hshape with
  | mk runs gates verified nonterminal claimed cancelled created run readGate verifyStep record
      verifyId approvalRef upstream invocationId cancelledAt now id rest hrun hatGate hnewest
      hverify hcaused hupstream honly hrecord hclaimed hcancelled hrest =>
      obtain ⟨A₁, e₁, B₁, hs₁, -, -, -, hkeyed₁, rfl⟩ := c.select [_] rfl rfl
      obtain ⟨A₂, e₂, B₂, hs₂, -, -, -, hkeyed₂, rfl⟩ := c.select [_, _] rfl rfl
      obtain ⟨hgate, -, -, -⟩ := (mem_stepsIn_filter hkeyed₁).mp (List.argmax_mem hnewest)
      obtain ⟨hverified, -, hverifyRun, hp⟩ :=
        (mem_stepsIn_filter hkeyed₂).mp (List.mem_of_mem_head? hverify)
      simp only [Bool.and_eq_true, beq_iff_eq] at hp
      obtain ⟨⟨rfl, hverifyType⟩, hsucceeded⟩ := hp
      -- The VERIFY step is terminal, so it is still the row that was read.
      obtain ⟨verifyNow, hverifyNow, hsameVerify⟩ := h.step_evolves c.keyed hs hs₂ hverified
      obtain rfl : verifyNow = verifyStep := hsameVerify.terminal (by rw [hsucceeded]; rfl)
      obtain ⟨row, hrow, hp, rfl, -⟩ := c.updateRun [_, _, _, _, _] rfl runWhere_id
        (by simp [hrecord]) (length_one_ne_nil hclaimed)
      simp only [Bool.and_eq_true, beq_iff_eq] at hp
      obtain ⟨himages, -⟩ := c.updateSteps [_, _, _, _, _, _, _] rfl (by simp [hrecord])
      obtain ⟨w, rfl⟩ := List.length_eq_one_iff.mp hcancelled
      obtain ⟨gate, rfl, hgateNow, -, hgateRun, hgateReady⟩ := himages w (by simp)
      simp only [Bool.and_eq_true, beq_iff_eq] at hgateReady
      obtain ⟨gate', hgateNow', hsameGate⟩ := h.step_evolves c.keyed hs hs₁ hgate
      rw [← hgateReady.1, hgateNow] at hgateNow'
      obtain rfl := Option.some.inj hgateNow'
      obtain ⟨rfl, hfresh⟩ := c.insert [_, _, _, _, _, _, _, _, _, _] rfl
      refine ⟨row, gate, verifyNow, cancelledAt, reverifyStep input approvalRef run readGate verifyNow
        upstream invocationId now, id, ?_, hrow, hp.1.2, hp.2.1, hgateNow,
        hgateReady.2, hgateRun, hverifyNow, ?_, ⟨hverifyType, hsucceeded, hverifyRun⟩, rfl, rfl, rfl,
        hupstream.symm, stepAt_eq_none.mpr hfresh⟩
      · rw [c.published]
        simp [createdStep, hrecord, hrest]
      · rw [hsameGate.causationId, hcaused]

/-- A step of a run publishes nothing, or commits a change. -/
theorem Run.changes (h : Run allowed rows operations s) (hkeyed : Keyed schema rows)
    (hs : s.history = past ++ en :: future) :
    en.published = [] ∨
      ∃ operation, operations[en.call]? = some operation ∧ Change past en operation := by
  obtain hnone | ⟨operation, pre, tx, hoperation, c, hshape⟩ := h.commits hkeyed hs
  · exact .inl hnone
  refine .inr ⟨operation, hoperation, ?_⟩
  cases operation with
  | createRun input =>
      obtain ⟨id, correlationId, hchange⟩ := created_of_shape c hshape
      exact .createRun id correlationId hchange
  | startRun organizationId workflowRunId =>
      obtain ⟨row, now, id, hchange⟩ := started_of_shape c hshape
      exact .startRun row now id hchange
  | completeStep input =>
      obtain ⟨step, freshRun, row, now, created, hchange⟩ := completed_of_shape h hs c hshape
      exact .completeStep step freshRun row now created hchange
  | cancelRun input =>
      obtain ⟨row, now, steps, hchange⟩ := cancelled_of_shape c hshape
      exact .cancelRun row now steps hchange
  | resumeRun organizationId workflowRunId =>
      obtain ⟨run, row, -, ⟨steps, hchange⟩ | hchange⟩ := resumed_of_shape c hshape
      · exact .resumeBlocked run row steps hchange
      · exact .resumeWaiting run row hchange
  | requestCorrection input =>
      obtain ⟨run, row, parseStep, now, id, hchange⟩ := requested_of_shape c hshape
      exact .requestCorrection run row parseStep now id hchange
  | recoverLoop input =>
      obtain ⟨run, row, correctionStep, approvalRef, cancelledAt, now, id, steps, hchange⟩ :=
        retested_of_shape c hshape
      exact .recoverLoop run row correctionStep approvalRef cancelledAt now id steps hchange
  | recoverRelease input =>
      obtain ⟨row, gate, verifyStep, cancelledAt, step, id, hchange⟩ :=
        reverified_of_shape h hs c hshape
      exact .recoverRelease row gate verifyStep cancelledAt step id hchange
  | approveRelease input =>
      cases hshape with
      | mk runs gates run gate pre tx hhuman hrun hgate hnewest hcompletion =>
          obtain ⟨step, freshRun, row, now, created, hchange⟩ :=
            completed_of_shape h hs c hcompletion
          exact .approveRelease gate.id step freshRun row now created hhuman hchange

/-- A resume that commits, with the run it has read first. -/
theorem Run.resumed (h : Run allowed rows operations s) (hkeyed : Keyed schema rows)
    (hs : s.history = past ++ en :: future) {organizationId workflowRunId : Str}
    (hoperation : operations[en.call]? = some (.resumeRun organizationId workflowRunId))
    (hpublished : en.published ≠ []) :
    ∃ run row, firstRead (own en.call past) = some run ∧
      ((∃ steps, Resumed organizationId workflowRunId past en run row steps) ∨
        Continued organizationId workflowRunId past en run row) := by
  obtain hnone | ⟨operation, pre, tx, hoperation', c, hshape⟩ := h.commits hkeyed hs
  · exact absurd hnone hpublished
  obtain rfl := Option.some.inj (hoperation.symm.trans hoperation')
  exact resumed_of_shape c hshape

end Shapes

end Workflow
