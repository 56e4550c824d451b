import Mathlib.Data.Fintype.EquivFin
import VitoPlatform.Library.Sequential
import VitoPlatform.Workflow.Absorption

/-!
# Runs and their steps agree

The run is RUNNING exactly at its one open step, which is READY, and it has no open step once it
is over (`CoherentAt`). Which commits keep it so is known exactly (`coherent_iff`): a `startRun`
has to find no open step, and a `resumeRun` has to find the run RUNNING or blocked by a provider
at the step at which it has read it blocked.
-/

namespace Workflow

open Text Policy Persistence Invocation Database

/-! ## Completing a step -/

section Alone

variable {rows writes : List Row} {ρ id : Str} {row : WorkflowRun} {k : WorkflowStepRun} {now : Int}

/-- A transaction whose body returns commits what it has written. -/
theorem returns_transaction {α : Type} {choice : Choice Failure Ans} (hfault : choice.fault = none)
    {body : Program α} {a : α}
    (h : Returns schema choice body ⟨.active, []⟩ rows a ⟨.active, writes⟩ rows) :
    Returns schema choice (transaction body) .idle rows a .idle (apply schema rows writes) :=
  (Returns.begin hfault).bind (h.tryCatch.bind ((Returns.commit hfault).bind (.pure _ _ _)))

theorem returns_audit {session : Session Row} {organizationId entityId : Str}
    {action entityType : String} :
    Returns schema (replies id now) (audit organizationId action entityType entityId) session rows
      () session rows :=
  .ask rfl

/-- Where a completion finds the READY step its run is at. -/
structure Aimed (rows : List Row) (input : CompleteStepInput) (row : WorkflowRun)
    (k : WorkflowStepRun) : Prop where
  keyed : Keyed schema rows
  run : runAt rows input.workflowRunId = some row
  run_organization : row.organizationId = input.organizationId
  open_run : terminalRun row.status = false
  step : stepAt rows input.workflowStepRunId = some k
  step_organization : k.organizationId = input.organizationId
  of_run : k.workflowRunId = input.workflowRunId
  ready : k.status = .ready
  current : row.currentStepType = some k.stepType

namespace Aimed

variable {input : CompleteStepInput} (aim : Aimed rows input row k)

include aim

theorem found_run : firstRun (rows.filter
    (runWhere input.organizationId input.workflowRunId fun _ => true)) = some row := by
  have hid : ∀ run : WorkflowRun, (run.id == input.workflowRunId &&
      run.organizationId == input.organizationId && true) = true →
        run.id = input.workflowRunId := runWhere_id
  rw [runWhere, Keyed.filter_run aim.keyed hid, aim.run]
  simp [runAt_id aim.run, aim.run_organization, firstRun, Row.run?]

theorem found_step : (stepsIn (rows.filter
    (stepWhere input.organizationId input.workflowRunId
      fun step => step.id == input.workflowStepRunId))).head? = some k := by
  have hid : ∀ step : WorkflowStepRun, (step.organizationId == input.organizationId &&
      step.workflowRunId == input.workflowRunId && step.id == input.workflowStepRunId) = true →
        step.id = input.workflowStepRunId := by
    simp
  rw [stepWhere, Keyed.filter_step aim.keyed hid, aim.step]
  simp [stepAt_id aim.step, aim.step_organization, aim.of_run, stepsIn, Row.step?]

theorem not_terminal : terminalStep k.status = false := by
  rw [aim.ready]
  rfl

theorem not_stale : stale row k = false := by
  rw [stale, aim.current]
  simp

theorem claims : eval schema rows (.update (claimable k.id) (onStep (completedRow input now))) =
    some ([.step (completedRow input now k)], [.step (completedRow input now k)]) := by
  have hnow : stepAt rows k.id = some k := by rw [stepAt_id aim.step, aim.step]
  have hid : ∀ step : WorkflowStepRun, (step.id == k.id && step.status == .ready) = true →
      step.id = k.id := by
    simp +contextual
  rw [eval, claimable, Keyed.filter_step aim.keyed hid, hnow]
  simp [aim.ready, onStep]

/-- The update of the run after steps have been written. -/
theorem updates {data : WorkflowRun → WorkflowRun} {steps : List Row}
    (hsteps : ∀ w ∈ steps, ∃ step, w = .step step) :
    eval schema (apply schema rows steps) (.update (runById input.workflowRunId) (onRun data)) =
      some ([.run (data row)], [.run (data row)]) := by
  have hid : ∀ run : WorkflowRun, (run.id == input.workflowRunId) = true →
      run.id = input.workflowRunId := runById_id _
  rw [eval, runById, Keyed.filter_run (aim.keyed.apply steps) hid, runAt_apply_steps hsteps, aim.run]
  simp [runAt_id aim.run, onRun]

/-- The insertion of the successor, under a new id. -/
theorem inserts (hfresh : stepAt rows id = none) (data : StepData) :
    eval schema (apply schema rows [.step (completedRow input now k)])
        (.insert (.step (data.row id))) =
      some ([.step (data.row id)], [.step (data.row id)]) := by
  have hnow : stepAt rows k.id = some k := by rw [stepAt_id aim.step, aim.step]
  have hmissing : stepAt (apply schema rows [.step (completedRow input now k)]) id = none := by
    rw [apply_cons, apply_nil, stepAt_put_step, Function.update_of_ne, hfresh]
    rintro rfl
    have hsome : stepAt rows k.id = none := hfresh
    rw [hnow] at hsome
    cases hsome
  rw [eval, if_neg]
  rw [List.any_eq_true]
  rintro ⟨u, hu, hclash⟩
  have hkey : RowKey.step id = u.key := by
    cases u with
    | step row => simpa [schema, Row.clash, Row.key] using hclash
    | run _ | claim _ => cases hclash
  rw [stepAt_eq_none] at hmissing
  have hsome : (find schema (apply schema rows [.step (completedRow input now k)])
      (.step id)).isSome = true := by
    rw [find_isSome_iff, hkey]
    exact List.mem_map_of_mem hu
  rw [hmissing] at hsome
  cases hsome

theorem createSuccessor_returns (now : Int) (hfresh : stepAt rows id = none)
    (outcome : TransitionOutcome) :
    ∃ newStep created, (∀ w ∈ created, ∃ step, w = .step step ∧ step.id = id) ∧
      Returns schema (replies id now) (createSuccessor input k now outcome)
        ⟨.active, [.step (completedRow input now k)]⟩ rows newStep
        ⟨.active, .step (completedRow input now k) :: created⟩ rows := by
  cases outcome with
  | nextStep next =>
      refine ⟨some ((successor input k now next).row id),
        [.step ((successor input k now next).row id)], by simp, ?_⟩
      have hcreate : Returns schema (replies id now) (createStep (successor input k now next))
          ⟨.active, [.step (completedRow input now k)]⟩ rows ((successor input k now next).row id)
          ⟨.active, [.step (completedRow input now k), .step ((successor input k now next).row id)]⟩
          rows :=
        (Returns.ask rfl).bind ((Returns.statement rfl (aim.inserts hfresh _)).bind (.pure _ _ _))
      exact hcreate.bind (returns_audit.bind (.pure _ _ _))
  | blocked reason | completed | failed reason => exact ⟨none, [], by simp, .pure _ _ _⟩

theorem updateRun_returns {data : WorkflowRun → WorkflowRun} {steps : List Row}
    (hsteps : ∀ w ∈ steps, ∃ step, w = .step step) :
    Returns schema (replies id now) (updateRun input.workflowRunId data) ⟨.active, steps⟩ rows
      (data row) ⟨.active, steps ++ [.run (data row)]⟩ rows :=
  (Returns.statement rfl (aim.updates hsteps)).bind (.expect rfl)

theorem applyOutcome_returns (now : Int) (hfresh : stepAt rows id = none) :
    ∃ transition created last, (∀ w ∈ created, ∃ step, w = .step step ∧ step.id = id) ∧
      Returns schema (replies id now) (applyOutcome input row k now)
        ⟨.active, [.step (completedRow input now k)]⟩ rows transition
        ⟨.active, .step (completedRow input now k) :: (created ++ [.run last])⟩ rows := by
  obtain ⟨newStep, created, hcreated, hsuccessor⟩ := aim.createSuccessor_returns now hfresh
    (nextEngineeringStep (stateMachineInput input row k))
  have hsteps : ∀ w ∈ Row.step (completedRow input now k) :: created, ∃ step, w = .step step := by
    intro w hw
    obtain rfl | hw := List.mem_cons.mp hw
    · exact ⟨_, rfl⟩
    · obtain ⟨step, rfl, -⟩ := hcreated w hw
      exact ⟨step, rfl⟩
  exact ⟨_, created, _, hcreated, hsuccessor.bind
    ((aim.updateRun_returns hsteps).bind (returns_audit.bind (.pure _ _ _)))⟩

theorem findRun_returns {session : Session Row} (hmode : session.mode ≠ .aborted)
    (hwrites : session.writes = []) :
    Returns schema (replies id now) (findRun input.organizationId input.workflowRunId) session rows
      (some row) session rows := by
  have hselect : Returns schema (replies id now) (statement (.select
      (runWhere input.organizationId input.workflowRunId fun _ => true))) session rows _ session
      rows := .select rfl hmode hwrites _
  refine hselect.bind ?_
  change Returns _ _ (Pure.pure (firstRun _)) _ _ _ _ _
  rw [aim.found_run]
  exact .pure _ _ _

theorem findStep_returns {session : Session Row} (hmode : session.mode ≠ .aborted)
    (hwrites : session.writes = []) :
    Returns schema (replies id now) (findStep input.organizationId input.workflowRunId
      fun step => step.id == input.workflowStepRunId) session rows (some k) session rows := by
  have hselect : Returns schema (replies id now) (statement (.select
      (stepWhere input.organizationId input.workflowRunId
        fun step => step.id == input.workflowStepRunId))) session rows _ session rows :=
    .select rfl hmode hwrites _
  have hsteps : Returns schema (replies id now)
      (findSteps input.organizationId input.workflowRunId
        fun step => step.id == input.workflowStepRunId) session rows (stepsIn _) session rows :=
    hselect.bind (.pure _ _ _)
  refine hsteps.bind ?_
  rw [aim.found_step]
  exact .pure _ _ _

theorem claim_returns :
    Returns schema (replies id now) (updateSteps (claimable k.id) (completedRow input now))
      ⟨.active, []⟩ rows 1 ⟨.active, [.step (completedRow input now k)]⟩ rows := by
  have hclaims : eval schema (apply schema rows [])
      (.update (claimable k.id) (onStep (completedRow input now))) = _ := aim.claims
  exact (Returns.statement rfl hclaims).bind (.pure _ _ _)

theorem completeFresh_returns (now : Int) (hfresh : stepAt rows id = none) :
    ∃ transition created last, (∀ w ∈ created, ∃ step, w = .step step ∧ step.id = id) ∧
      Returns schema (replies id now) (completeFresh input k) ⟨.active, []⟩ rows transition
        ⟨.active, .step (completedRow input now k) :: (created ++ [.run last])⟩ rows := by
  obtain ⟨transition, created, last, hcreated, houtcome⟩ := aim.applyOutcome_returns now hfresh
  refine ⟨transition, created, last, hcreated, ?_⟩
  refine (aim.findRun_returns (by decide) rfl).bind ((Returns.expect rfl).bind ?_)
  rw [if_neg (by rw [aim.open_run]; nofun)]
  refine (aim.findStep_returns (by decide) rfl).bind ((Returns.expect rfl).bind ?_)
  rw [if_neg (by rw [aim.not_terminal]; nofun), if_neg (by rw [aim.not_stale]; nofun)]
  have hnow : Returns schema (replies id now) (ask .now) ⟨.active, []⟩ rows now ⟨.active, []⟩ rows :=
    .ask rfl
  exact hnow.bind (aim.claim_returns.bind houtcome)

/-- Alone, the completion of the READY step of a RUNNING run goes through. -/
theorem completeStep_returns (now : Int) (hfresh : stepAt rows id = none) :
    ∃ transition rows', Returns schema (replies id now) (completeStep input) .idle rows transition
      .idle rows' ∧ stepAt rows' input.workflowStepRunId = some (completedRow input now k) := by
  obtain ⟨transition, created, last, hcreated, hfreshly⟩ := aim.completeFresh_returns now hfresh
  refine ⟨transition, apply schema rows (.step (completedRow input now k) ::
    (created ++ [.run last])), ?_, ?_⟩
  · refine (aim.findRun_returns (by decide) rfl).bind ((Returns.expect rfl).bind ?_)
    rw [if_neg (by rw [aim.open_run]; nofun)]
    refine (aim.findStep_returns (by decide) rfl).bind ((Returns.expect rfl).bind ?_)
    rw [if_neg (by rw [aim.not_terminal]; nofun), if_neg (by rw [aim.not_stale]; nofun)]
    exact returns_transaction rfl hfreshly
  · have hid : k.id = input.workflowStepRunId := stepAt_id aim.step
    have hne : input.workflowStepRunId ≠ id := by
      rintro rfl
      rw [aim.step] at hfresh
      cases hfresh
    rw [apply_cons, apply_append, apply_cons, apply_nil, stepAt_put_run]
    have hkept : ∀ (ws table : List Row), (∀ w ∈ ws, ∃ step, w = .step step ∧ step.id = id) →
        stepAt (apply schema table ws) input.workflowStepRunId =
          stepAt table input.workflowStepRunId := by
      intro ws
      induction ws with
      | nil => exact fun _ _ => rfl
      | cons w ws ih =>
          intro table hws
          obtain ⟨step, rfl, hstep⟩ := hws w (by simp)
          rw [apply_cons, ih _ fun u hu => hws u (List.mem_cons_of_mem _ hu), stepAt_put_step,
            Function.update_of_ne (by rwa [hstep])]
    rw [hkept _ _ hcreated, stepAt_put_step, ← hid]
    exact Function.update_self k.id _ _

end Aimed

end Alone

/-! ## Coherence -/

section Coherent

variable {allowed : Choice Failure Ans → Prop} {rows : List Row} {operations : List Operation}
variable {s : System Row Ask Failure Ans Unit} {past future : List LogEntry} {en : LogEntry}
variable {operation : Operation} {reads : WorkflowRun → WorkflowRun → Prop} {ρ : Str}

/-- A completion aimed at a step of a run, made by nobody else at the time, ends the step. -/
def Advances (rows : List Row) (run : WorkflowRun) (step : WorkflowStepRun) : Prop :=
  ∀ input : CompleteStepInput, input.organizationId = run.organizationId →
    input.workflowRunId = run.id → input.workflowStepRunId = step.id →
      ∃ schedule s, (System.start rows [Operation.program (.completeStep input)]).run schema
          schedule = some s ∧ statusAt s.rows step.id = some (targetStatus input)

/-- The run is RUNNING exactly at its one open step, and over without one. -/
structure CoherentAt (rows : List Row) (workflowRunId : Str) : Prop where
  running : ∀ run, runAt rows workflowRunId = some run → run.status = .running →
    ∃ k, (∀ a, StepOf rows workflowRunId a ∧ terminalStep a.status = false ↔ a = k) ∧
      k.status = .ready ∧ run.currentStepType = some k.stepType ∧ Advances rows run k
  ended : ∀ run, runAt rows workflowRunId = some run → terminalRun run.status = true →
    ∀ a, StepOf rows workflowRunId a → terminalStep a.status = true

/-- A lane whose open step is as its run says. -/
structure Lane.Coherent (lane : Lane) : Prop where
  running : lane.run.status = .running → ∃ k, lane.step = some k ∧ k.status = .ready
  parked : lane.run.status = .blocked → lane.run.blockReasonCode = some .providerBlocked →
    ∃ k, lane.step = some k ∧ k.status = .waiting
  idle : lane.run.status = .blocked → lane.run.blockReasonCode ≠ some .providerBlocked →
    lane.step = none
  decided : lane.run.status ≠ .waitingForHuman

theorem exists_fresh (rows : List Row) : ∃ id, stepAt rows id = none := by
  obtain ⟨id, hid⟩ := Infinite.exists_notMem_finset ((stepsIn rows).map (·.id)).toFinset
  refine ⟨id, ?_⟩
  cases hstep : stepAt rows id with
  | none => rfl
  | some step =>
      refine absurd ?_ hid
      rw [List.mem_toFinset, List.mem_map]
      exact ⟨step, mem_stepsIn.mpr (mem_of_find (stepAt_eq_some.mp hstep)), stepAt_id hstep⟩

theorem advances (hkeyed : Keyed schema rows) {lane : Lane} (hshown : lane.Shown rows)
    (hsound : lane.Sound) (hrunning : lane.run.status = .running) {k : WorkflowStepRun}
    (hk : lane.step = some k) (hready : k.status = .ready) : Advances rows lane.run k := by
  intro input horganization hrun hstep
  obtain ⟨id, hfresh⟩ := exists_fresh rows
  have hof := ((hshown.step k).mp hk).1
  have aim : Aimed rows input lane.run k := by
    refine ⟨hkeyed, ?_, horganization.symm, ?_, ?_, ?_, ?_, hready, hsound.current k hk⟩
    · rw [hrun, hshown.run]
    · rw [hrunning]
      rfl
    · rw [hstep, hof.found]
    · rw [hsound.organization k hk, horganization]
    · rw [hof.of_run, hrun]
  obtain ⟨transition, rows', hreturns, hnow⟩ := aim.completeStep_returns 0 hfresh
  have hprogram : Returns schema (replies id 0) (Operation.program (.completeStep input)) .idle rows
      () .idle rows' := hreturns.bind (.pure _ _ _)
  obtain ⟨n, s, hs, rfl⟩ := hprogram.run []
  refine ⟨_, s, hs, ?_⟩
  rw [statusAt, ← hstep, hnow]
  rfl

theorem Lane.Coherent.at (hkeyed : Keyed schema rows) {lane : Lane} (hshown : lane.Shown rows)
    (hsound : lane.Sound) (h : lane.Coherent) : CoherentAt rows lane.run.id := by
  constructor
  · intro run hrun hrunning
    obtain rfl := Option.some.inj (hshown.run.symm.trans hrun)
    obtain ⟨k, hk, hready⟩ := h.running hrunning
    refine ⟨k, fun a => ?_, hready, hsound.current k hk,
      advances hkeyed hshown hsound hrunning hk hready⟩
    rw [← hshown.step, hk, Option.some.injEq]
    exact eq_comm
  · intro run hrun hterminal a ha
    obtain rfl := Option.some.inj (hshown.run.symm.trans hrun)
    by_contra hopen
    have hk := (hshown.step a).mpr ⟨ha, Bool.eq_false_iff.mpr hopen⟩
    rw [hsound.active a hk] at hterminal
    cases hterminal

theorem Lane.Coherent.at_ready {lane : Lane} (hrunning : lane.run.status = .running)
    (hready : ∃ k, lane.step = some k ∧ k.status = .ready) : lane.Coherent := by
  have other : ∀ {status}, lane.run.status = status → status ≠ .running → False :=
    fun hstatus hne => hne (hstatus.symm.trans hrunning)
  constructor
  · exact fun _ => hready
  · exact fun hblocked _ => (other hblocked nofun).elim
  · exact fun hblocked _ => (other hblocked nofun).elim
  · exact fun hwaiting => other hwaiting nofun

theorem Lane.Coherent.at_step {run : WorkflowRun} {k : WorkflowStepRun}
    (hrunning : run.status = .running) (hready : k.status = .ready) :
    Lane.Coherent ⟨run, some k⟩ :=
  .at_ready hrunning ⟨k, rfl, hready⟩

theorem Lane.Coherent.ended {run : WorkflowRun} {o : Option WorkflowStepRun}
    (hrunning : run.status ≠ .running) (hblocked : run.status ≠ .blocked)
    (hdecided : run.status ≠ .waitingForHuman) : Lane.Coherent ⟨run, o⟩ :=
  ⟨fun h => absurd h hrunning, fun h => absurd h hblocked, fun h => absurd h hblocked, hdecided⟩

/-- Moves that are neither starts nor resumes keep a lane coherent. -/
theorem Move.coherent {lane : Lane} {turn : Turn} (h : Move reads operation lane turn)
    (hstart : ∀ organizationId ρ, operation ≠ .startRun organizationId ρ)
    (hresume : ∀ organizationId ρ, operation ≠ .resumeRun organizationId ρ) :
    turn.lane.Coherent := by
  cases h with
  | start row now id => exact absurd rfl (hstart _ _)
  | resume run row step => exact absurd rfl (hresume _ _)
  | resumeWaiting run row step => exact absurd rfl (hresume _ _)
  | complete input freshRun row step now id =>
      rw [completion_lane]
      cases houtcome : outcomeOf input freshRun step with
      | nextStep next => exact .at_step rfl rfl
      | completed | failed reason =>
          exact .ended (fun h => by cases h) (fun h => by cases h) (fun h => by cases h)
      | blocked reason =>
          have hcode := nextEngineeringStep_blocked houtcome
          refine ⟨(fun h => by cases h), fun _ hprovider => ?_, fun _ hother => ?_, fun h => by cases h⟩
          · have hblocked : input.providerBlocked = true :=
              hcode.mp (Option.some.inj hprovider)
            refine ⟨completedRow input now step, if_pos hblocked, ?_⟩
            change targetStatus input = _
            rw [targetStatus, if_pos hblocked]
          · refine if_neg fun hblocked => hother ?_
            exact congrArg some (hcode.mpr hblocked)
  | cancel input row step now =>
      exact .ended (fun h => by cases h) (fun h => by cases h) (fun h => by cases h)
  | requestCorrection input row parseStepId now id => exact .at_step rfl rfl
  | recoverLoop input row approvalRef correctionStepId now id => exact .at_step rfl rfl
  | recoverRelease input row gate cancelledAt data id hgate =>
      simp only [atReleaseGate, Bool.and_eq_true, beq_iff_eq] at hgate
      exact .at_step hgate.1 rfl

/-- A resume that has read `run` leaves `row` RUNNING at a READY step. -/
def Parked (run row : WorkflowRun) : Prop :=
  row.status = .running ∨ row.status = .blocked ∧
    row.blockReasonCode = some .providerBlocked ∧ row.currentStepType = awaitedStep run

theorem wake_ready {run : WorkflowRun} {k : WorkflowStepRun} (h : k.status = .ready) :
    wake run k = k := by
  rw [wake, if_neg]
  rintro ⟨hwaiting, -⟩
  rw [h] at hwaiting
  cases hwaiting

theorem Lane.Coherent.resume_iff {lane : Lane} (hsound : lane.Sound) (h : lane.Coherent)
    (run : WorkflowRun) :
    (∃ k, (Turn.lane ⟨resumedRow lane.run, lane.step.map (wake run), none⟩).step = some k ∧
      k.status = .ready) ↔ Parked run lane.run := by
  constructor
  · rintro ⟨k, hk, hready⟩
    rw [Turn.lane, Option.none_or] at hk
    obtain ⟨hmap, -⟩ := Option.filter_eq_some_iff.mp hk
    obtain ⟨k₀, hk₀, rfl⟩ := Option.map_eq_some_iff.mp hmap
    have hcurrent := hsound.current k₀ hk₀
    cases hstatus : lane.run.status with
    | created => exact absurd hstatus (hsound.begun k₀ hk₀)
    | running => exact .inl hstatus
    | waitingForHuman => exact absurd hstatus h.decided
    | completed | failed | cancelled =>
        have hactive := hsound.active k₀ hk₀
        rw [hstatus] at hactive
        cases hactive
    | blocked =>
        by_cases hprovider : lane.run.blockReasonCode = some .providerBlocked
        · refine .inr ⟨hstatus, hprovider, ?_⟩
          obtain ⟨k₁, hk₁, hwaiting⟩ := h.parked hstatus hprovider
          obtain rfl := Option.some.inj (hk₀.symm.trans hk₁)
          rw [hcurrent]
          by_contra hother
          rw [wake, if_neg fun hboth => hother hboth.2.symm, hwaiting] at hready
          cases hready
        · rw [h.idle hstatus hprovider] at hk₀
          cases hk₀
  · rw [Turn.lane, Option.none_or]
    rintro (hrunning | ⟨hblocked, hprovider, hawaited⟩)
    · obtain ⟨k, hk, hready⟩ := h.running hrunning
      refine ⟨k, ?_, hready⟩
      rw [hk, Option.map_some, wake_ready hready, Option.filter_some, hready]
      rfl
    · obtain ⟨k, hk, hwaiting⟩ := h.parked hblocked hprovider
      refine ⟨awakened k, ?_, rfl⟩
      have htype : awaitedStep run = some k.stepType := by rw [← hawaited, hsound.current k hk]
      rw [hk, Option.map_some, wake, if_pos ⟨hwaiting, htype⟩]
      rfl

/-! ## Runs -/

theorem eq_of_run_mem {steps : List Row} {r row : WorkflowRun}
    (hsteps : ∀ w ∈ steps, ∃ step, w = .step step) (hr : Row.run r ∈ .run row :: steps) :
    r = row := by
  obtain hrun | hmem := List.mem_cons.mp hr
  · exact Row.run.inj hrun
  · obtain ⟨step, hstep⟩ := hsteps _ hmem
    cases hstep

/-- No change makes a run wait for a human. -/
theorem Change.decided (h : Change past en operation) {r : WorkflowRun}
    (hr : .run r ∈ en.published) : r.status ≠ .waitingForHuman := by
  have completed : ∀ {input : CompleteStepInput} {step : WorkflowStepRun}
      {freshRun row : WorkflowRun} {now : Int} {created : List Row},
      Completed input past en step freshRun row now created → r.status ≠ .waitingForHuman := by
    intro input step freshRun row now created hc
    obtain ⟨-, hrows⟩ := hc.one_run
    obtain hrun | ⟨step', hstep, -⟩ := hrows _ hr
    · rw [Row.run.inj hrun]
      cases outcomeOf input freshRun step <;> (intro hwaits; cases hwaits)
    · cases hstep
  cases h with
  | completeStep step freshRun row now created hc => exact completed hc
  | approveRelease gateId step freshRun row now created _ hc => exact completed hc
  | createRun id correlationId hc =>
      rw [hc.published] at hr
      rw [eq_of_run_mem (by simp) hr]
      intro hwaits
      cases hwaits
  | startRun row now id hc =>
      rw [hc.published] at hr
      rw [eq_of_run_mem (by simp) hr]
      intro hwaits
      cases hwaits
  | cancelRun row now steps hc =>
      rw [hc.published] at hr
      rw [eq_of_run_mem (fun w hw => ?_) hr]
      · intro hwaits
        cases hwaits
      · obtain ⟨step, rfl, -⟩ := hc.images w hw
        exact ⟨_, rfl⟩
  | resumeBlocked run row steps hc =>
      rw [hc.published] at hr
      rw [eq_of_run_mem (fun w hw => ?_) hr]
      · intro hwaits
        cases hwaits
      · obtain ⟨step, rfl, -⟩ := hc.images w hw
        exact ⟨_, rfl⟩
  | resumeWaiting run row hc =>
      rw [hc.published] at hr
      rw [eq_of_run_mem (by simp) hr]
      intro hwaits
      cases hwaits
  | requestCorrection run row parseStep now id hc =>
      rw [hc.published] at hr
      rw [eq_of_run_mem (by simp) hr]
      intro hwaits
      cases hwaits
  | recoverLoop run row correctionStep approvalRef cancelledAt now id steps hc =>
      rw [hc.published] at hr
      rw [eq_of_run_mem (fun w hw => ?_) hr]
      · intro hwaits
        cases hwaits
      · obtain hw | hw := List.mem_append.mp hw
        · obtain ⟨step, rfl, -⟩ := hc.images w hw
          exact ⟨_, rfl⟩
        · exact ⟨_, List.mem_singleton.mp hw⟩
  | recoverRelease row gate verifyStep cancelledAt step id hc =>
      have hgate := hc.at_gate
      simp only [atReleaseGate, Bool.and_eq_true, beq_iff_eq] at hgate
      rw [hc.published] at hr
      rw [eq_of_run_mem (by simp) hr]
      change row.status ≠ _
      rw [hgate.1]
      intro hwaits
      cases hwaits

theorem Run.decided (h : Run allowed rows operations s) (hkeyed : Keyed schema rows)
    (hcreated : JustCreated rows ρ) (hs : s.history = past ++ en :: future) {run : WorkflowRun}
    (hrun : runAt en.before ρ = some run) : run.status ≠ .waitingForHuman := by
  refine (h.ledger.take hs).chained.invariant
    (P := fun _ rows => ∀ run, runAt rows ρ = some run → run.status ≠ .waitingForHuman) ?_ ?_ run
    hrun
  · intro run hrun hwaiting
    have hstatus := hcreated.run
    rw [hrun, Option.map_some, hwaiting] at hstatus
    cases hstatus
  · intro A b B hA hbefore run hrun
    have hb : s.history = A ++ b :: (B ++ en :: future) := by rw [hs, hA]; simp
    obtain hnone | ⟨operation, -, hchange⟩ := h.changes hkeyed hb
    · exact hbefore run (by rwa [h.idle hb hnone] at hrun)
    · rw [runAt_eq_some, (h.ledger.accounted A b (B ++ en :: future) hb).after, find_apply] at hrun
      obtain hpublished | ⟨-, hkept⟩ := Option.or_eq_some_iff.mp hrun
      · exact hchange.decided (List.mem_reverse.mp (mem_of_find hpublished))
      · exact hbefore run (runAt_eq_some.mpr hkept)

/-- A `startRun` that commits finds no open step. -/
def StartsIdle (operations : List Operation) (workflowRunId : Str) (en : LogEntry) : Prop :=
  ∀ organizationId, operations[en.call]? = some (.startRun organizationId workflowRunId) →
    en.published ≠ [] → ∀ a, StepOf en.before workflowRunId a → terminalStep a.status = true

/-- A `resumeRun` that commits finds the run RUNNING, or blocked by a provider at the step at
which it has read it blocked. -/
def ResumesParked (operations : List Operation) (workflowRunId : Str) (past : List LogEntry)
    (en : LogEntry) : Prop :=
  ∀ organizationId run row,
    operations[en.call]? = some (.resumeRun organizationId workflowRunId) → en.published ≠ [] →
      firstRead (own en.call past) = some run → runAt en.before workflowRunId = some row →
        Parked run row

/-- The table shows a coherent lane of a workflow run. -/
def InCoherentLane (workflowRunId : Str) (rows : List Row) : Prop :=
  ∃ lane : Lane, lane.run.id = workflowRunId ∧ lane.Shown rows ∧ lane.Sound ∧ lane.Coherent

/-- What a resume that commits leaves of the lane. -/
theorem Run.resume_turned (h : Run allowed rows operations s) (hkeyed : Keyed schema rows)
    (hs : s.history = past ++ en :: future) {lane : Lane} (hshown : lane.Shown en.before)
    (hsound : lane.Sound) {organizationId : Str} {run row : WorkflowRun} {steps : List Row}
    (hc : Resumed organizationId lane.run.id past en run row steps) :
    (Turn.lane ⟨resumedRow lane.run, lane.step.map (wake run), none⟩).Shown en.after ∧
      (Turn.lane ⟨resumedRow lane.run, lane.step.map (wake run), none⟩).Sound := by
  obtain rfl := Option.some.inj (hshown.run.symm.trans hc.run_now)
  obtain ⟨A, e, B, hpast, hrun⟩ := hc.seen
  have hsame := h.sameRun hkeyed hs hpast hrun hc.run_now
  have hmove : Move (fun _ _ => True) (.resumeRun lane.run.organizationId lane.run.id) lane
      ⟨resumedRow lane.run, lane.step.map (wake run), none⟩ :=
    .resume run lane.run lane.step hsame hc.blocked hc.undecided
  have hturned := hc.turns rfl hshown hsound (hsame.organizationId.trans hc.organization)
    fun hpast hlocked a => (h.locked_steps hkeyed hs hpast hlocked a).mp
  rw [← (h.ledger.accounted past en future hs).after] at hturned
  exact ⟨hturned.shown hshown hmove.single, hmove.sound hsound⟩

/-- A start of a run without an open step leaves it RUNNING at its first step. -/
theorem Run.start_coherent (h : Run allowed rows operations s) (hkeyed : Keyed schema rows)
    (hs : s.history = past ++ en :: future) {lane : Lane} (hshown : lane.Shown en.before)
    (hnone : lane.step = none) {organizationId : Str} {row : WorkflowRun} {now : Int} {id : Str}
    (hc : Started organizationId lane.run.id past en row now id) :
    InCoherentLane lane.run.id en.after := by
  obtain ⟨A, e, B, run, hpast, hrun, horganization, -⟩ := hc.seen
  have hsame := h.sameRun hkeyed hs hpast hrun hc.run_now
  have hturned := hc.turns hnone
  rw [← (h.ledger.accounted past en future hs).after] at hturned
  have hsingle : Turn.Single
      ⟨startedRow row, none, some ((firstStep organizationId lane.run.id now).row id)⟩ := by
    constructor
    · intro n hn
      rw [← Option.some.inj hn]
      exact StepData.row_status _ _
    · exact fun _ _ _ hk => nomatch hk
  exact ⟨_, hturned.id, hturned.shown hshown hsingle,
    .some rfl nofun rfl (hsame.organizationId.trans horganization).symm, .at_step rfl rfl⟩

/-- A resume that commits, as the run has it now and as the call has read it. -/
theorem Run.resume_read (h : Run allowed rows operations s) (hkeyed : Keyed schema rows)
    (hcreated : JustCreated rows ρ) (hs : s.history = past ++ en :: future) {organizationId : Str}
    (hoperation : operations[en.call]? = some (.resumeRun organizationId ρ))
    (hpublished : en.published ≠ []) :
    ∃ run row steps, firstRead (own en.call past) = some run ∧
      Resumed organizationId ρ past en run row steps := by
  obtain ⟨run, row, hread, ⟨steps, hc⟩ | hc⟩ := h.resumed hkeyed hs hoperation hpublished
  · exact ⟨run, row, steps, hread, hc⟩
  · obtain ⟨A, e, B, hpast, hrun⟩ := hc.seen
    have he : s.history = A ++ e :: (B ++ en :: future) := by rw [hs, hpast]; simp
    exact absurd hc.waiting (h.decided hkeyed hcreated he hrun)

/-- A change that meets the conditions keeps the run and its steps in agreement. -/
theorem Run.coherent_step (h : Run allowed rows operations s) (hkeyed : Keyed schema rows)
    (hcreated : JustCreated rows ρ) (hs : s.history = past ++ en :: future)
    (hlane : InCoherentLane ρ en.before) (hidle : StartsIdle operations ρ en)
    (hparked : ResumesParked operations ρ past en) : InCoherentLane ρ en.after := by
  obtain ⟨lane, rfl, hshown, hsound, hcoherent⟩ := hlane
  cases htouches : Touches lane.run.id en with
  | false => exact ⟨lane, rfl, (h.unchanged hkeyed hs htouches).shown hshown, hsound, hcoherent⟩
  | true =>
      obtain ⟨r, hr, -⟩ := touches_iff.mp htouches
      have hpublished := List.ne_nil_of_mem hr
      obtain ⟨operation, hoperation, hchange, hid⟩ := h.touched hkeyed hs hshown.run htouches
      by_cases hresume : ∃ organizationId, operation = .resumeRun organizationId lane.run.id
      · obtain ⟨organizationId, rfl⟩ := hresume
        obtain ⟨run, row, steps, hread, hc⟩ :=
          h.resume_read hkeyed hcreated hs hoperation hpublished
        obtain ⟨hshown', hsound'⟩ := h.resume_turned hkeyed hs hshown hsound hc
        have hparked := hparked organizationId run lane.run hoperation hpublished hread hshown.run
        exact ⟨Turn.lane ⟨resumedRow lane.run, lane.step.map (wake run), none⟩, rfl, hshown',
          hsound', .at_ready rfl ((hcoherent.resume_iff hsound run).mpr hparked)⟩
      by_cases hstart : ∃ organizationId, operation = .startRun organizationId lane.run.id
      · obtain ⟨organizationId, rfl⟩ := hstart
        cases hchange with
        | startRun row now id hc =>
            refine h.start_coherent hkeyed hs hshown ?_ hc
            cases hstep : lane.step with
            | none => rfl
            | some k =>
                obtain ⟨hof, hopen⟩ := (hshown.step k).mp hstep
                rw [hidle organizationId hoperation hpublished k hof] at hopen
                cases hopen
      · have hnever : StartsCreated operations lane.run.id en := by
          intro organizationId row hop _ _
          exact absurd ⟨organizationId, Option.some.inj (hoperation.symm.trans hop)⟩ hstart
        obtain ⟨operation', turn, hoperation', -, hmove, hturned⟩ :=
          h.moves hkeyed hs hnever hshown hsound htouches
        obtain rfl := Option.some.inj (hoperation.symm.trans hoperation')
        refine ⟨turn.lane, hturned.id, hturned.shown hshown hmove.single, hmove.sound hsound,
          hmove.coherent ?_ ?_⟩
        · rintro organizationId ρ rfl
          obtain rfl := Option.some.inj hid
          exact hstart ⟨organizationId, rfl⟩
        · rintro organizationId ρ rfl
          obtain rfl := Option.some.inj hid
          exact hresume ⟨organizationId, rfl⟩

/-- A start that leaves the run and its steps in agreement has found no open step. -/
theorem Run.idle_of_coherent (h : Run allowed rows operations s) (hkeyed : Keyed schema rows)
    (hs : s.history = past ++ en :: future) (hafter : CoherentAt en.after ρ) :
    StartsIdle operations ρ en := by
  intro organizationId hoperation hpublished a ha
  obtain hnone | ⟨operation, hoperation', hchange⟩ := h.changes hkeyed hs
  · exact absurd hnone hpublished
  obtain rfl := Option.some.inj (hoperation.symm.trans hoperation')
  cases hchange with
  | startRun row now id hc =>
      have hid := runAt_id hc.run_now
      have htable : en.after = put schema (put schema en.before (.run (startedRow row)))
          (.step ((firstStep organizationId ρ now).row id)) := by
        rw [(h.ledger.accounted past en future hs).after, hc.published]
        rfl
      have hrun : runAt en.after ρ = some (startedRow row) := by
        rw [htable, runAt_put_step, runAt_put_run, ← hid]
        exact Function.update_self row.id _ _
      obtain ⟨k, hk, -⟩ := hafter.running _ hrun rfl
      have hne := ha.ne_fresh (n := (firstStep organizationId ρ now).row id) hc.fresh
      by_contra hopen
      -- The step that was open and the first step would be the same.
      have hold : a = k := by
        refine (hk a).mp ⟨?_, Bool.eq_false_iff.mpr hopen⟩
        rw [htable, stepOf_put_step, stepOf_put_run]
        exact .inr ⟨hne, ha⟩
      have hnew : (firstStep organizationId ρ now).row id = k := by
        refine (hk _).mp ⟨?_, rfl⟩
        rw [htable, stepOf_put_step]
        exact .inl ⟨rfl, rfl⟩
      exact hne (by rw [hold, hnew])

/-- A resume that leaves the run and its steps in agreement has found the run as it should. -/
theorem Run.parked_of_coherent (h : Run allowed rows operations s) (hkeyed : Keyed schema rows)
    (hcreated : JustCreated rows ρ) (hs : s.history = past ++ en :: future)
    (hlane : InCoherentLane ρ en.before) (hafter : CoherentAt en.after ρ) :
    ResumesParked operations ρ past en := by
  intro organizationId run row hoperation hpublished hread hrow
  obtain ⟨lane, rfl, hshown, hsound, hcoherent⟩ := hlane
  obtain rfl := Option.some.inj (hshown.run.symm.trans hrow)
  obtain ⟨run', row, steps, hread', hc⟩ := h.resume_read hkeyed hcreated hs hoperation hpublished
  obtain rfl := Option.some.inj (hread.symm.trans hread')
  obtain ⟨hshown', hsound'⟩ := h.resume_turned hkeyed hs hshown hsound hc
  refine (hcoherent.resume_iff hsound run).mp ?_
  obtain ⟨k, hk, hready, -⟩ := hafter.running _ hshown'.run rfl
  exact ⟨k, (hshown'.step k).mpr ((hk k).mpr rfl), hready⟩

/-- The run and its steps agree throughout a run of the services exactly when the starts and
the resumes that commit find the run as they should. -/
theorem coherent_iff (hkeyed : Keyed schema rows) (hcreated : JustCreated rows ρ)
    (h : Run allowed rows operations s) :
    (∀ past en future, s.history = past ++ en :: future → CoherentAt en.after ρ) ↔
      ∀ past en future, s.history = past ++ en :: future →
        StartsIdle operations ρ en ∧ ResumesParked operations ρ past en := by
  have hfirst : InCoherentLane ρ rows := by
    obtain ⟨run, hid, hstatus, hshown⟩ := hcreated.lane
    refine ⟨⟨run, none⟩, hid, hshown, .none run, .ended ?_ ?_ ?_⟩
    · rw [hstatus]
      nofun
    · rw [hstatus]
      nofun
    · rw [hstatus]
      nofun
  constructor
  · intro hcoherent
    have hlane : ∀ past en future, s.history = past ++ en :: future →
        InCoherentLane ρ en.before := by
      intro past en future hs
      refine (h.ledger.take hs).chained.invariant (P := fun _ rows => InCoherentLane ρ rows)
        hfirst ?_
      intro A b B hA hbefore
      have hb : s.history = A ++ b :: (B ++ en :: future) := by rw [hs, hA]; simp
      have hafter := hcoherent A b _ hb
      exact h.coherent_step hkeyed hcreated hb hbefore (h.idle_of_coherent hkeyed hb hafter)
        (h.parked_of_coherent hkeyed hcreated hb hbefore hafter)
    intro past en future hs
    have hafter := hcoherent past en future hs
    exact ⟨h.idle_of_coherent hkeyed hs hafter,
      h.parked_of_coherent hkeyed hcreated hs (hlane past en future hs) hafter⟩
  · intro hconditions past en future hs
    have hbefore : InCoherentLane ρ en.before := by
      refine (h.ledger.take hs).chained.invariant (P := fun _ rows => InCoherentLane ρ rows)
        hfirst ?_
      intro A b B hA hbefore
      have hb : s.history = A ++ b :: (B ++ en :: future) := by rw [hs, hA]; simp
      obtain ⟨hidle, hparked⟩ := hconditions A b _ hb
      exact h.coherent_step hkeyed hcreated hb hbefore hidle hparked
    obtain ⟨hidle, hparked⟩ := hconditions past en future hs
    obtain ⟨lane, rfl, hshown, hsound, hcoherent⟩ :=
      h.coherent_step hkeyed hcreated hs hbefore hidle hparked
    have hkeyedAfter : Keyed schema en.after := by
      rw [(h.ledger.accounted past en future hs).after]
      exact ((h.ledger.take hs).keyed hkeyed).apply _
    exact hcoherent.at hkeyedAfter hshown hsound

end Coherent

/-- A run without correction loops is started, loses its TEST, and is resumed. -/
def exhaustedRun : List Operation :=
  [.startRun "org".toList "run".toList,
    .completeStep (sampleCompletion "plan".toList .succeeded),
    .completeStep (sampleCompletion "build".toList .succeeded),
    .completeStep (sampleCompletion "test".toList .failed),
    .resumeRun "org".toList "run".toList]

def exhaustedSchedule : List (Nat × Choice Failure Ans) :=
  List.replicate 9 (0, replies "plan".toList 1) ++ List.replicate 13 (1, replies "build".toList 2) ++
    List.replicate 13 (2, replies "test".toList 3) ++ List.replicate 10 (3, replies [] 4) ++
    List.replicate 5 (4, replies [] 5)

/-- The resumed run is RUNNING without an open step, so nothing can complete it. -/
theorem exhausted_run_stranded :
    ∃ s, (System.start [.run { createdRun with maxCorrectionLoops := 0 }]
        (exhaustedRun.map Operation.program)).run schema exhaustedSchedule = some s ∧
      ¬ CoherentAt s.rows "run".toList := by
  have hchecks : ((System.start [.run { createdRun with maxCorrectionLoops := 0 }]
      (exhaustedRun.map Operation.program)).run schema exhaustedSchedule).any (fun s =>
        ((runAt s.rows "run".toList).any fun run => run.status == .running) &&
        decide (Keyed schema s.rows) &&
        (stepsIn s.rows).all fun step => terminalStep step.status) = true := by
    decide +kernel
  obtain ⟨s, hs, hchecked⟩ := (Option.any_eq_true _ _).mp hchecks
  simp only [Bool.and_eq_true, decide_eq_true_eq, Option.any_eq_true, beq_iff_eq,
    List.all_eq_true] at hchecked
  obtain ⟨⟨⟨run, hrun, hrunning⟩, hkeyed⟩, hterminal⟩ := hchecked
  refine ⟨s, hs, fun hcoherent => ?_⟩
  obtain ⟨k, hk, -⟩ := hcoherent.running run hrun hrunning
  obtain ⟨hof, hopen⟩ := (hk k).mpr rfl
  rw [hterminal k (mem_stepsIn.mpr ((Keyed.step_mem hkeyed).mpr hof.found))] at hopen
  cases hopen

theorem coherent_iff_started :
    ∃ s, (System.start [.run createdRun]
        ([Operation.startRun "org".toList "run".toList].map Operation.program)).run schema
          (List.replicate 9 (0, replies "plan".toList 1)) = some s ∧
      ((∀ past en future, s.history = past ++ en :: future → CoherentAt en.after "run".toList) ↔
        ∀ past en future, s.history = past ++ en :: future →
          StartsIdle [.startRun "org".toList "run".toList] "run".toList en ∧
            ResumesParked [.startRun "org".toList "run".toList] "run".toList past en) := by
  have hsome : ((System.start [.run createdRun]
      ([Operation.startRun "org".toList "run".toList].map Operation.program)).run schema
        (List.replicate 9 (0, replies "plan".toList 1))).isSome = true := by decide +kernel
  obtain ⟨s, hs⟩ := Option.isSome_iff_exists.mp hsome
  have hrun : Run (fun _ => True) [.run createdRun] [.startRun "org".toList "run".toList] s :=
    System.run_reaches (fun _ _ => trivial) .refl hs
  exact ⟨s, hs, coherent_iff (by decide) (created_alone rfl rfl) hrun⟩

end Workflow
