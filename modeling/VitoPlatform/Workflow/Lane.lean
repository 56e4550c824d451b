import VitoPlatform.Workflow.Traces

/-!
# One workflow run, abstractly

A lane is a workflow run with the one step of it that is not terminal, if there is one. Each
operation of the runtime that changes a run turns its lane (`Move`): it leaves the open step in
some form and may create a new one. What a lane owes to its moves alone is proved here: it
stays sound (`Move.sound`), its open step stays the same step (`Move.left`), and its count
changes only when the open step is closed (`Move.count_kept`).
-/

namespace Workflow

open Text Policy Persistence Invocation Database

/-- What `completeStep` decides for a step, on the run it has read. -/
def outcomeOf (input : CompleteStepInput) (freshRun : WorkflowRun) (step : WorkflowStepRun) :
    TransitionOutcome :=
  nextEngineeringStep (stateMachineInput input freshRun step)

variable {operation : Operation} {reads : WorkflowRun → WorkflowRun → Prop}

/-! ## Lanes -/

/-- A workflow run and its step that is not terminal. -/
structure Lane where
  run : WorkflowRun
  step : Option WorkflowStepRun

/-- The run is at its open step, and neither new nor over while it has one. -/
structure Lane.Sound (lane : Lane) : Prop where
  current : ∀ k, lane.step = some k → lane.run.currentStepType = some k.stepType
  begun : ∀ k, lane.step = some k → lane.run.status ≠ .created
  active : ∀ k, lane.step = some k → terminalRun lane.run.status = false
  organization : ∀ k, lane.step = some k → k.organizationId = lane.run.organizationId

/-- What a change leaves of a lane: the run, its open step as it is by now, and a new step. -/
structure Turn where
  run : WorkflowRun
  left : Option WorkflowStepRun
  new : Option WorkflowStepRun

def Turn.lane (turn : Turn) : Lane :=
  ⟨turn.run, turn.new.or (turn.left.filter fun k => !terminalStep k.status)⟩

/-- A new step is READY, and the old one terminal. -/
structure Turn.Single (turn : Turn) : Prop where
  ready : ∀ n, turn.new = some n → n.status = .ready
  closed : ∀ n k, turn.new = some n → turn.left = some k → terminalStep k.status = true

/-! ## Moves -/

/-- The workflow run a call is about; `createRun` is about a new one. -/
def Operation.workflowRunId : Operation → Option Str
  | .createRun _ => none
  | .startRun _ workflowRunId => some workflowRunId
  | .completeStep input => some input.workflowRunId
  | .cancelRun input => some input.workflowRunId
  | .resumeRun _ workflowRunId => some workflowRunId
  | .requestCorrection input => some input.workflowRunId
  | .recoverLoop input => some input.workflowRunId
  | .recoverRelease input => some input.workflowRunId
  | .approveRelease input => some input.workflowRunId

@[simp] theorem StepData.row_id (data : StepData) (id : Str) : (data.row id).id = id := rfl

@[simp] theorem StepData.row_status (data : StepData) (id : Str) :
    (data.row id).status = .ready := rfl

@[simp] theorem StepData.row_workflowRunId (data : StepData) (id : Str) :
    (data.row id).workflowRunId = data.workflowRunId := rfl

@[simp] theorem StepData.row_stepType (data : StepData) (id : Str) :
    (data.row id).stepType = data.stepType := rfl

/-- An operation that completes a step. -/
inductive Operation.Completes : Operation → CompleteStepInput → Prop
  | completeStep (input : CompleteStepInput) : Completes (.completeStep input) input
  | approveRelease (input : ApproveInput) (gateId : Str) : input.isMachineIdentity = false →
      Completes (.approveRelease input) (approval input gateId)

/-- The completion of a step. -/
def completion (input : CompleteStepInput) (freshRun : WorkflowRun) (step : WorkflowStepRun)
    (now : Int) (id : Str) (row : WorkflowRun) : Turn where
  run := runUpdate (outcomeOf input freshRun step) freshRun step.stepType row
  left := some (completedRow input now step)
  new :=
    match outcomeOf input freshRun step with
    | .nextStep next => some ((successor input step now next).row id)
    | _ => none

/-- What a resume that has read `run` does to the open step. -/
def wake (run : WorkflowRun) (step : WorkflowStepRun) : WorkflowStepRun :=
  if step.status = .waiting ∧ awaitedStep run = some step.stepType then awakened step else step

/-- What an operation can make of a lane. A completion decides on a run row that it has read
before, which `reads` relates to the row by now. -/
inductive Move (reads : WorkflowRun → WorkflowRun → Prop) : Operation → Lane → Turn → Prop
  | start (row : WorkflowRun) (now : Int) (id : Str) : row.status = .created →
      Move reads (.startRun row.organizationId row.id) ⟨row, none⟩
        ⟨startedRow row, none, some ((firstStep row.organizationId row.id now).row id)⟩
  | complete {operation : Operation} (input : CompleteStepInput) (freshRun row : WorkflowRun)
      (step : WorkflowStepRun) (now : Int) (id : Str) : operation.Completes input →
      step.id = input.workflowStepRunId → step.status = .ready → SameRun freshRun row →
      reads freshRun row →
      row.organizationId = input.organizationId → row.id = input.workflowRunId →
      terminalRun freshRun.status = false → stale freshRun step = false →
      Move reads operation ⟨row, some step⟩ (completion input freshRun step now id row)
  | cancel (input : CancelRunInput) (row : WorkflowRun) (step : Option WorkflowStepRun)
      (now : Int) : cancellableRun row = true → row.id = input.workflowRunId →
      Move reads (.cancelRun input) ⟨row, step⟩ ⟨cancelledRun row, step.map (cancelledStep now), none⟩
  | resume (run row : WorkflowRun) (step : Option WorkflowStepRun) : SameRun run row →
      run.status = .blocked → run.blockReasonCode ≠ some .humanDecisionRequired →
      Move reads (.resumeRun row.organizationId row.id) ⟨row, step⟩
        ⟨resumedRow row, step.map (wake run), none⟩
  | resumeWaiting (run row : WorkflowRun) (step : Option WorkflowStepRun) : SameRun run row →
      run.status = .waitingForHuman →
      Move reads (.resumeRun row.organizationId row.id) ⟨row, step⟩ ⟨continuedRow row, step, none⟩
  | requestCorrection (input : RequestCorrectionInput) (row : WorkflowRun) (parseStepId : Str)
      (now : Int) (id : Str) : awaitsDecision row = true →
      row.correctionLoopCount < row.maxCorrectionLoops →
      row.organizationId = input.organizationId → row.id = input.workflowRunId →
      Move reads (.requestCorrection input) ⟨row, none⟩
        ⟨correctionRow row, none, some ((requestedStep input parseStepId now).row id)⟩
  | recoverLoop (input : RecoveryInput) (row : WorkflowRun) (approvalRef : Str)
      (correctionStepId : Str) (now : Int) (id : Str) : exhausted row = true →
      row.organizationId = input.organizationId → row.id = input.workflowRunId →
      Move reads (.recoverLoop input) ⟨row, none⟩
        ⟨retestedRow row, none, some ((retestStep input approvalRef row.correctionLoopCount
          correctionStepId now).row id)⟩
  | recoverRelease (input : RecoveryInput) (row : WorkflowRun) (gate : WorkflowStepRun)
      (cancelledAt : Int) (data : StepData) (id : Str) : atReleaseGate row = true →
      readyGate gate = true → data.stepType = .verify →
      data.organizationId = row.organizationId → data.workflowRunId = row.id →
      row.id = input.workflowRunId →
      Move reads (.recoverRelease input) ⟨row, some gate⟩
        ⟨reverifiedRow row, some (cancelledStep cancelledAt gate), some (data.row id)⟩

theorem Move.mono {reads' : WorkflowRun → WorkflowRun → Prop} {lane : Lane} {turn : Turn}
    (h : Move reads operation lane turn) (hreads : ∀ a b, reads a b → reads' a b) :
    Move reads' operation lane turn := by
  cases h with
  | start row now id h₁ => exact .start row now id h₁
  | complete input freshRun row step now id h₁ h₂ h₃ h₄ hread h₅ h₆ h₇ h₈ =>
      exact .complete input freshRun row step now id h₁ h₂ h₃ h₄ (hreads _ _ hread) h₅ h₆ h₇ h₈
  | cancel input row step now h₁ h₂ => exact .cancel input row step now h₁ h₂
  | resume run row step h₁ h₂ h₃ => exact .resume run row step h₁ h₂ h₃
  | resumeWaiting run row step h₁ h₂ => exact .resumeWaiting run row step h₁ h₂
  | requestCorrection input row parseStepId now id h₁ h₂ h₃ h₄ =>
      exact .requestCorrection input row parseStepId now id h₁ h₂ h₃ h₄
  | recoverLoop input row approvalRef correctionStepId now id h₁ h₂ h₃ =>
      exact .recoverLoop input row approvalRef correctionStepId now id h₁ h₂ h₃
  | recoverRelease input row gate cancelledAt data id h₁ h₂ h₃ h₄ h₅ h₆ =>
      exact .recoverRelease input row gate cancelledAt data id h₁ h₂ h₃ h₄ h₅ h₆

theorem Operation.Completes.workflowRunId {input : CompleteStepInput}
    (h : operation.Completes input) : operation.workflowRunId = some input.workflowRunId := by
  cases h with
  | completeStep => rfl
  | approveRelease input gateId _ => rfl

/-- A move is made by an operation on the run. -/
theorem Move.target {lane : Lane} {turn : Turn} (h : Move reads operation lane turn) :
    operation.workflowRunId = some lane.run.id := by
  cases h with
  | start | resume | resumeWaiting => rfl
  | complete input freshRun row step now id hcompletes _ _ _ _ _ hid =>
      exact hcompletes.workflowRunId.trans (congrArg some hid.symm)
  | cancel input row step now _ hid => exact congrArg some hid.symm
  | requestCorrection input row parseStepId now id _ _ _ hid => exact congrArg some hid.symm
  | recoverLoop input row approvalRef correctionStepId now id _ _ hid =>
      exact congrArg some hid.symm
  | recoverRelease input row gate cancelledAt data id _ _ _ _ _ hid =>
      exact congrArg some hid.symm

/-- A completion whose provider is blocked leads nowhere. -/
theorem nextEngineeringStep_of_providerBlocked {input : StateMachineInput}
    (h : isProviderBlocked input.providerStatus = true) :
    ∃ status, nextEngineeringStep input = .blocked (.providerBlocked status) := by
  cases hstatus : input.providerStatus with
  | none =>
      rw [hstatus] at h
      cases h
  | some status =>
      rw [hstatus] at h
      refine ⟨status, ?_⟩
      rw [nextEngineeringStep, hstatus, Option.filter_some, if_pos h]

theorem outcomeOf_of_providerBlocked {input : CompleteStepInput}
    (h : input.providerBlocked = true) (freshRun : WorkflowRun) (step : WorkflowStepRun) :
    ∃ status, outcomeOf input freshRun step = .blocked (.providerBlocked status) :=
  nextEngineeringStep_of_providerBlocked h

theorem completedRow_terminal (input : CompleteStepInput) (now : Int) (step : WorkflowStepRun) :
    terminalStep (completedRow input now step).status = !input.providerBlocked := by
  change terminalStep (targetStatus input) = _
  rw [targetStatus]
  cases input.providerBlocked with
  | true => rfl
  | false =>
      rw [if_neg nofun]
      cases input.stepStatus <;> rfl

theorem completedRow_terminal_of_next {input : CompleteStepInput} {freshRun : WorkflowRun}
    {step : WorkflowStepRun} {next : EngineeringStepType}
    (h : outcomeOf input freshRun step = .nextStep next) (now : Int) :
    terminalStep (completedRow input now step).status = true := by
  rw [completedRow_terminal]
  cases hblocked : input.providerBlocked with
  | false => rfl
  | true =>
      obtain ⟨status, hstatus⟩ := outcomeOf_of_providerBlocked hblocked freshRun step
      rw [hstatus] at h
      cases h

theorem cancelledStep_terminal (now : Int) (step : WorkflowStepRun) :
    terminalStep (cancelledStep now step).status = true := rfl

theorem completion_new {input : CompleteStepInput} {freshRun row : WorkflowRun}
    {step n : WorkflowStepRun} {now : Int} {id : Str}
    (h : (completion input freshRun step now id row).new = some n) :
    ∃ next, outcomeOf input freshRun step = .nextStep next ∧
      n = (successor input step now next).row id := by
  change (match outcomeOf input freshRun step with
    | .nextStep next => some ((successor input step now next).row id)
    | _ => none) = _ at h
  split at h
  · rename_i next hnext
    exact ⟨next, hnext, (Option.some.inj h).symm⟩
  · cases h

theorem Move.single {lane : Lane} {turn : Turn} (h : Move reads operation lane turn) : turn.Single := by
  cases h with
  | start row now id _ | requestCorrection input row parseStepId now id
  | recoverLoop input row approvalRef correctionStepId now id =>
      exact ⟨fun n hn => by cases hn; exact StepData.row_status _ _,
        fun _ _ _ hk => nomatch hk⟩
  | complete input freshRun row step now id =>
      constructor
      · intro n hn
        obtain ⟨next, -, rfl⟩ := completion_new hn
        rfl
      · intro n k hn hk
        obtain ⟨next, hnext, -⟩ := completion_new hn
        obtain rfl := Option.some.inj hk
        exact completedRow_terminal_of_next hnext now
  | cancel | resume | resumeWaiting =>
      exact ⟨fun _ hn => (nomatch hn), fun _ _ hn => (nomatch hn)⟩
  | recoverRelease input row gate cancelledAt data id =>
      refine ⟨fun n hn => by cases hn; exact StepData.row_status _ _, fun n k _ hk => ?_⟩
      cases hk
      exact cancelledStep_terminal cancelledAt gate

theorem Lane.Sound.none (run : WorkflowRun) : Lane.Sound ⟨run, .none⟩ :=
  ⟨fun _ h => (nomatch h), fun _ h => (nomatch h), fun _ h => (nomatch h), fun _ h => (nomatch h)⟩

theorem Lane.Sound.some {run : WorkflowRun} {k : WorkflowStepRun}
    (hcurrent : run.currentStepType = .some k.stepType) (hbegun : run.status ≠ .created)
    (hactive : terminalRun run.status = false) (horganization : k.organizationId = run.organizationId) :
    Lane.Sound ⟨run, .some k⟩ := by
  constructor
  · intro a ha
    rwa [← Option.some.inj ha]
  · exact fun _ _ => hbegun
  · exact fun _ _ => hactive
  · intro a ha
    rwa [← Option.some.inj ha]

theorem wake_stepType (run : WorkflowRun) (step : WorkflowStepRun) :
    (wake run step).stepType = step.stepType := by
  rw [wake]
  split <;> rfl

theorem wake_organizationId (run : WorkflowRun) (step : WorkflowStepRun) :
    (wake run step).organizationId = step.organizationId := by
  rw [wake]
  split <;> rfl

/-- The lane of a completion: the successor, the blocked step, or nothing. -/
theorem completion_lane (input : CompleteStepInput) (freshRun row : WorkflowRun)
    (step : WorkflowStepRun) (now : Int) (id : Str) :
    (completion input freshRun step now id row).lane =
      ⟨runUpdate (outcomeOf input freshRun step) freshRun step.stepType row,
        match outcomeOf input freshRun step with
        | .nextStep next => some ((successor input step now next).row id)
        | .blocked _ => if input.providerBlocked then some (completedRow input now step) else none
        | _ => none⟩ := by
  have hleft : ((some (completedRow input now step)).filter fun k => !terminalStep k.status) =
      if input.providerBlocked then some (completedRow input now step) else none := by
    rw [Option.filter_some, completedRow_terminal, Bool.not_not]
  have hopen : input.providerBlocked = true →
      ∃ reason, outcomeOf input freshRun step = .blocked reason := by
    intro hblocked
    obtain ⟨status, hstatus⟩ := outcomeOf_of_providerBlocked hblocked freshRun step
    exact ⟨_, hstatus⟩
  rw [completion, Turn.lane, hleft]
  cases houtcome : outcomeOf input freshRun step with
  | nextStep next => rfl
  | blocked reason => rfl
  | completed | failed reason =>
      cases hblocked : input.providerBlocked with
      | false => rfl
      | true =>
          obtain ⟨reason', hreason⟩ := hopen hblocked
          rw [houtcome] at hreason
          cases hreason

theorem Move.sound {lane : Lane} {turn : Turn} (h : Move reads operation lane turn)
    (hsound : lane.Sound) : turn.lane.Sound := by
  cases h with
  | start row now id _ => exact .some rfl nofun rfl rfl
  | complete input freshRun row step now id _ _ _ _ _ horganization =>
      rw [completion_lane]
      cases houtcome : outcomeOf input freshRun step with
      | nextStep next => exact .some rfl nofun rfl horganization.symm
      | completed | failed reason => exact .none _
      | blocked reason =>
          dsimp only
          split
          · rename_i hblocked
            obtain ⟨status, hstatus⟩ := outcomeOf_of_providerBlocked hblocked freshRun step
            obtain rfl : reason = .providerBlocked status := by
              rw [hstatus] at houtcome
              exact (TransitionOutcome.blocked.inj houtcome).symm
            exact .some rfl nofun rfl (hsound.organization step rfl)
          · exact .none _
  | cancel input row step now _ =>
      cases step with
      | none => exact .none _
      | some k => exact .none _
  | resume run row step _ _ _ =>
      cases step with
      | none => exact .none _
      | some k =>
          rw [Turn.lane, Option.none_or, Option.map_some, Option.filter_some]
          split
          · refine .some ?_ nofun rfl ?_
            · rw [wake_stepType]
              exact hsound.current k rfl
            · rw [wake_organizationId]
              exact hsound.organization k rfl
          · exact .none _
  | resumeWaiting run row step _ _ =>
      cases step with
      | none => exact .none _
      | some k =>
          rw [Turn.lane, Option.none_or, Option.filter_some]
          split
          · exact .some (hsound.current k rfl) nofun rfl (hsound.organization k rfl)
          · exact .none _
  | requestCorrection input row parseStepId now id _ _ horganization =>
      exact .some rfl nofun rfl horganization.symm
  | recoverLoop input row approvalRef correctionStepId now id _ horganization =>
      exact .some rfl nofun rfl horganization.symm
  | recoverRelease input row gate cancelledAt data id hgate _ htype horganization =>
      have hrunning : row.status = .running := by
        simp only [atReleaseGate, Bool.and_eq_true, beq_iff_eq] at hgate
        exact hgate.1
      refine .some ?_ ?_ ?_ horganization
      · rw [StepData.row_stepType, htype]
        rfl
      · change row.status ≠ _
        rw [hrunning]
        nofun
      · change terminalRun row.status = _
        rw [hrunning]
        rfl

/-- A move leaves the open step of a lane the same step. -/
theorem Move.left {lane : Lane} {turn : Turn} (h : Move reads operation lane turn)
    (hopen : ∀ k, lane.step = some k → terminalStep k.status = false) :
    ∃ f, turn.left = lane.step.map f ∧ ∀ k, lane.step = some k → SameStep k (f k) := by
  have same : ∀ {k w : WorkflowStepRun}, lane.step = some k → w.id = k.id →
      w.organizationId = k.organizationId → w.workflowRunId = k.workflowRunId →
      w.stepType = k.stepType → w.attemptNumber = k.attemptNumber →
      w.causationId = k.causationId → w.startedAt = k.startedAt → SameStep k w := by
    intro k w hk h₁ h₂ h₃ h₄ h₅ h₆ h₇
    refine ⟨h₁, h₂, h₃, h₄, h₅, h₆, h₇, fun hterminal => ?_⟩
    rw [hopen k hk] at hterminal
    cases hterminal
  cases h with
  | start row now id _ | requestCorrection input row parseStepId now id
  | recoverLoop input row approvalRef correctionStepId now id =>
      exact ⟨fun k => k, rfl, fun _ hk => (nomatch hk)⟩
  | complete input freshRun row step now id =>
      exact ⟨completedRow input now, rfl, fun k hk => same hk rfl rfl rfl rfl rfl rfl rfl⟩
  | cancel input row step now _ =>
      exact ⟨cancelledStep now, rfl, fun k hk => same hk rfl rfl rfl rfl rfl rfl rfl⟩
  | resume run row step _ _ _ =>
      refine ⟨wake run, rfl, fun k hk => ?_⟩
      rw [wake]
      split
      · exact same hk rfl rfl rfl rfl rfl rfl rfl
      · exact same hk rfl rfl rfl rfl rfl rfl rfl
  | resumeWaiting run row step _ _ =>
      exact ⟨fun k => k, Option.map_id'.symm, fun k hk => same hk rfl rfl rfl rfl rfl rfl rfl⟩
  | recoverRelease input row gate cancelledAt data id =>
      exact ⟨cancelledStep cancelledAt, rfl, fun k hk => same hk rfl rfl rfl rfl rfl rfl rfl⟩

/-- While its step stays open a run keeps its count. -/
theorem Move.count_kept {lane : Lane} {turn : Turn} (h : Move reads operation lane turn)
    {k : WorkflowStepRun} (hk : lane.step = some k) :
    turn.run.correctionLoopCount = lane.run.correctionLoopCount ∨
      ∃ w, turn.left = some w ∧ w.id = k.id ∧ terminalStep w.status = true := by
  cases h with
  | start row now id _ | requestCorrection input row parseStepId now id
  | recoverLoop input row approvalRef correctionStepId now id => cases hk
  | complete input freshRun row step now id =>
      cases hblocked : input.providerBlocked with
      | false =>
          obtain rfl := Option.some.inj hk
          refine .inr ⟨_, rfl, rfl, ?_⟩
          rw [completedRow_terminal, hblocked]
          rfl
      | true =>
          obtain ⟨status, hstatus⟩ := outcomeOf_of_providerBlocked hblocked freshRun step
          left
          change (runUpdate (outcomeOf input freshRun step) _ _ _).correctionLoopCount = _
          rw [hstatus]
          rfl
  | cancel | resume | resumeWaiting | recoverRelease => exact .inl rfl

end Workflow
