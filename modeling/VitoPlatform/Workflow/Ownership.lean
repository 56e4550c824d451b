import VitoPlatform.Workflow.Commits

/-!
# Whose rows a change publishes

Every change is about one workflow run: it publishes the row of that run and steps of it
(`Change.one_run`). So the steps of a run change only together with its run row, and while
the row is locked they stay as they are (`Run.locked_steps`).
-/

namespace Workflow

open Text Policy Persistence Invocation Database

/-! ## Steps of a workflow run -/

/-- A step of a workflow run. -/
structure StepOf (rows : List Row) (workflowRunId : Str) (step : WorkflowStepRun) : Prop where
  found : stepAt rows step.id = some step
  of_run : step.workflowRunId = workflowRunId

section Steps

variable {rows : List Row} {ρ : Str} {a w : WorkflowStepRun}

theorem stepOf_put_run (r : WorkflowRun) :
    StepOf (put schema rows (.run r)) ρ a ↔ StepOf rows ρ a := by
  constructor
  · rintro ⟨hfound, hrun⟩
    exact ⟨by simpa using hfound, hrun⟩
  · rintro ⟨hfound, hrun⟩
    exact ⟨by simpa using hfound, hrun⟩

theorem stepOf_put_step :
    StepOf (put schema rows (.step w)) ρ a ↔
      a = w ∧ w.workflowRunId = ρ ∨ a.id ≠ w.id ∧ StepOf rows ρ a := by
  by_cases hid : a.id = w.id
  · constructor
    · rintro ⟨hfound, rfl⟩
      rw [stepAt_put_step, hid, Function.update_self] at hfound
      obtain rfl := Option.some.inj hfound
      exact .inl ⟨rfl, rfl⟩
    · rintro (⟨rfl, hrun⟩ | ⟨hne, -⟩)
      · exact ⟨by simp, hrun⟩
      · exact absurd hid hne
  · constructor
    · rintro ⟨hfound, hrun⟩
      rw [stepAt_put_step, Function.update_of_ne hid] at hfound
      exact .inr ⟨hid, hfound, hrun⟩
    · rintro (⟨rfl, -⟩ | ⟨-, hfound, hrun⟩)
      · exact absurd rfl hid
      · exact ⟨by rw [stepAt_put_step, Function.update_of_ne hid, hfound], hrun⟩

/-- Images of rows that are there replace them. -/
theorem stepOf_apply_images {ws : List Row} {data : WorkflowStepRun → WorkflowStepRun}
    (hid : ∀ step, (data step).id = step.id)
    (hrun : ∀ step, (data step).workflowRunId = step.workflowRunId)
    (hws : ∀ w ∈ ws, ∃ step, w = .step (data step) ∧ stepAt rows step.id = some step) :
    StepOf (apply schema rows ws) ρ a ↔
      ∃ b, StepOf rows ρ b ∧ a = if .step (data b) ∈ ws then data b else b := by
  have hkept : ∀ b : WorkflowStepRun, (if .step (data b) ∈ ws then data b else b).id = b.id := by
    intro b
    split
    · exact hid b
    · rfl
  constructor
  · rintro ⟨hfound, hof⟩
    rw [stepAt_apply_images hid hws, Option.map_eq_some_iff] at hfound
    obtain ⟨b, hb, ha⟩ := hfound
    have hbid : b.id = a.id := by rw [← ha, hkept]
    refine ⟨b, ⟨by rwa [hbid], ?_⟩, ha.symm⟩
    rw [← hof, ← ha]
    split
    · exact (hrun b).symm
    · rfl
  · rintro ⟨b, ⟨hfound, hof⟩, rfl⟩
    constructor
    · rw [stepAt_apply_images hid hws, hkept, hfound, Option.map_some]
    · rw [← hof]
      split
      · exact hrun b
      · rfl

end Steps

variable {allowed : Choice Failure Ans → Prop} {rows : List Row} {operations : List Operation}
variable {s : System Row Ask Failure Ans Unit} {past future : List LogEntry} {en : LogEntry}
variable {operation : Operation}

/-! ## Steps change with their run only -/

/-- The rows a change publishes: one run, and steps of it. -/
def OneRun (published : List Row) (run : WorkflowRun) : Prop :=
  .run run ∈ published ∧
    ∀ w ∈ published, w = .run run ∨ ∃ step, w = .step step ∧ step.workflowRunId = run.id

theorem OneRun.mk {steps : List Row} {run : WorkflowRun}
    (h : ∀ w ∈ steps, ∃ step, w = .step step ∧ step.workflowRunId = run.id) :
    OneRun (.run run :: steps) run := by
  refine ⟨List.mem_cons_self, fun w hw => ?_⟩
  obtain rfl | hw := List.mem_cons.mp hw
  · exact .inl rfl
  · exact .inr (h w hw)

theorem Successor.of_run {input : CompleteStepInput} {step : WorkflowStepRun} {now : Int}
    {before ws : List Row} {outcome : TransitionOutcome}
    (h : Successor input step now before outcome ws) :
    ∀ w ∈ ws, ∃ step, w = .step step ∧ step.workflowRunId = input.workflowRunId := by
  cases h with
  | next next id _ => exact fun w hw => ⟨_, List.mem_singleton.mp hw, rfl⟩
  | none outcome _ => exact fun w hw => absurd hw List.not_mem_nil

theorem runUpdate_id (outcome : TransitionOutcome) (freshRun : WorkflowRun)
    (completed : EngineeringStepType) (row : WorkflowRun) :
    (runUpdate outcome freshRun completed row).id = row.id := by
  cases outcome <;> rfl

theorem Completed.one_run {input : CompleteStepInput} {step : WorkflowStepRun}
    {freshRun row : WorkflowRun} {now : Int} {created : List Row}
    (h : Completed input past en step freshRun row now created) :
    OneRun en.published
      (runUpdate (outcomeOf input freshRun step) freshRun step.stepType row) := by
  have hid := runAt_id h.run_now
  rw [h.published]
  refine ⟨by simp, fun w hw => ?_⟩
  rw [runUpdate_id, hid]
  obtain rfl | hw := List.mem_cons.mp hw
  · exact .inr ⟨_, rfl, h.of_run⟩
  obtain hw | hw := List.mem_append.mp hw
  · exact .inr (h.successor.of_run w hw)
  · exact .inl (List.mem_singleton.mp hw)

/-- A change is about one workflow run: a new one, or the one of its operation. -/
theorem Change.one_run (h : Change past en operation) :
    ∃ run, OneRun en.published run ∧
      (runAt en.before run.id ≠ none → operation.workflowRunId = some run.id) := by
  cases h with
  | createRun id correlationId h =>
      rw [h.published]
      exact ⟨_, .mk (by simp), fun hrun => absurd h.fresh hrun⟩
  | startRun row now id h =>
      have hid := runAt_id h.run_now
      rw [h.published]
      refine ⟨_, .mk fun w hw => ⟨_, List.mem_singleton.mp hw, hid.symm⟩, fun _ => ?_⟩
      exact congrArg some hid.symm
  | completeStep step freshRun row now created h =>
      refine ⟨_, h.one_run, fun _ => ?_⟩
      rw [runUpdate_id, runAt_id h.run_now]
      rfl
  | cancelRun row now steps h =>
      have hid := runAt_id h.run_now
      rw [h.published]
      refine ⟨_, .mk fun w hw => ?_, fun _ => congrArg some hid.symm⟩
      obtain ⟨step, rfl, -, -, hrun, -⟩ := h.images w hw
      exact ⟨_, rfl, hrun.trans hid.symm⟩
  | resumeBlocked run row steps h =>
      have hid := runAt_id h.run_now
      rw [h.published]
      refine ⟨_, .mk fun w hw => ?_, fun _ => congrArg some hid.symm⟩
      obtain ⟨step, rfl, -, -, hrun, -⟩ := h.images w hw
      exact ⟨_, rfl, hrun.trans hid.symm⟩
  | resumeWaiting run row h =>
      rw [h.published]
      exact ⟨_, .mk (by simp), fun _ => congrArg some (runAt_id h.run_now).symm⟩
  | requestCorrection run row parseStep now id h =>
      have hid := runAt_id h.run_now
      rw [h.published]
      refine ⟨_, .mk fun w hw => ⟨_, List.mem_singleton.mp hw, hid.symm⟩, fun _ => ?_⟩
      exact congrArg some hid.symm
  | recoverLoop run row correctionStep approvalRef cancelledAt now id steps h =>
      have hid := runAt_id h.run_now
      rw [h.published]
      refine ⟨_, .mk fun w hw => ?_, fun _ => congrArg some hid.symm⟩
      obtain hw | hw := List.mem_append.mp hw
      · obtain ⟨step, rfl, -, -, hrun, -⟩ := h.images w hw
        exact ⟨_, rfl, hrun.trans hid.symm⟩
      · exact ⟨_, List.mem_singleton.mp hw, hid.symm⟩
  | recoverRelease row gate verifyStep cancelledAt step id h =>
      have hid := runAt_id h.run_now
      rw [h.published]
      refine ⟨_, .mk fun w hw => ?_, fun _ => congrArg some hid.symm⟩
      obtain rfl | hw := List.mem_cons.mp hw
      · exact ⟨_, rfl, h.gate_run.trans hid.symm⟩
      · exact ⟨_, List.mem_singleton.mp hw, h.of_run.trans hid.symm⟩
  | approveRelease gateId step freshRun row now created _ h =>
      refine ⟨_, h.one_run, fun _ => ?_⟩
      rw [runUpdate_id, runAt_id h.run_now]
      rfl

/-- A committed change of a run is made by an operation on it. -/
theorem Change.target (h : Change past en operation) {run : WorkflowRun} {r : WorkflowRun}
    (hrun : runAt en.before run.id = some run) (hr : .run r ∈ en.published)
    (hid : r.id = run.id) : operation.workflowRunId = some run.id := by
  obtain ⟨run', ⟨-, hrows⟩, htarget⟩ := h.one_run
  obtain hr' | ⟨step, hr', -⟩ := hrows _ hr
  · rw [← hid, Row.run.inj hr']
    apply htarget
    rw [← Row.run.inj hr', hid, hrun]
    nofun
  · cases hr'

/-- A step that does not publish a workflow run leaves the run and its steps as they are. -/
theorem Run.frozen (h : Run allowed rows operations s) (hkeyed : Keyed schema rows)
    (hs : s.history = past ++ en :: future) {ρ : Str}
    (hno : ∀ r, Row.run r ∈ en.published → r.id ≠ ρ) :
    runAt en.after ρ = runAt en.before ρ ∧
      ∀ a, StepOf en.after ρ a ↔ StepOf en.before ρ a := by
  have hafter := (h.ledger.accounted past en future hs).after
  obtain hnone | ⟨operation, -, hchange⟩ := h.changes hkeyed hs
  · rw [hafter, hnone]
    exact ⟨rfl, fun _ => Iff.rfl⟩
  obtain ⟨run, ⟨hmem, hrows⟩, -⟩ := hchange.one_run
  have hne := hno run hmem
  constructor
  · rw [runAt, runAt, h.ledger.find_after hs fun w hw hkey => ?_]
    obtain rfl | ⟨step, rfl, -⟩ := hrows w hw
    · exact hne (RowKey.run.inj hkey)
    · cases hkey
  · intro a
    cases hfind : find schema en.published.reverse (.step a.id) with
    | none =>
        have hsame : stepAt en.after a.id = stepAt en.before a.id := by
          rw [stepAt, stepAt, hafter, find_apply, hfind, Option.none_or]
        constructor
        · rintro ⟨hfound, hrun⟩
          exact ⟨hsame ▸ hfound, hrun⟩
        · rintro ⟨hfound, hrun⟩
          exact ⟨hsame.symm ▸ hfound, hrun⟩
    | some w =>
        -- The row under this id belongs to the other run, before and after.
        obtain ⟨step, rfl, hstep⟩ : ∃ step, w = .step step ∧ step.workflowRunId = run.id := by
          obtain rfl | hw := hrows w (List.mem_reverse.mp (mem_of_find hfind))
          · have hkey : RowKey.run run.id = .step a.id := find_key hfind
            cases hkey
          · exact hw
        have hnow : stepAt en.after a.id = some step := by
          rw [stepAt, hafter, find_apply, hfind]
          rfl
        constructor
        · rintro ⟨hfound, rfl⟩
          obtain rfl := Option.some.inj (hnow.symm.trans hfound)
          exact absurd hstep.symm hne
        · rintro ⟨hfound, rfl⟩
          obtain ⟨w', hw', hevolves⟩ := h.evolves_step hkeyed hs (stepAt_eq_some.mp hfound)
          rw [stepAt_eq_some.mp hnow] at hw'
          obtain rfl := Option.some.inj hw'
          have hsame : SameStep a step := hevolves
          exact absurd (hsame.workflowRunId.symm.trans hstep).symm hne

/-- While a run is locked its steps stay as they are. -/
theorem Run.locked_steps (h : Run allowed rows operations s) (hkeyed : Keyed schema rows)
    (hs : s.history = past ++ en :: future) {A B : List LogEntry} {e : LogEntry}
    (hpast : past = A ++ e :: B) {ρ : Str} (hlocked : RunLocked (e :: B) ρ) (a : WorkflowStepRun) :
    StepOf en.before ρ a ↔ StepOf e.before ρ a := by
  refine h.keeps hs hpast (P := fun rows => StepOf rows ρ a ↔ StepOf e.before ρ a) ?_ Iff.rfl
  intro M b N hM hP
  have hb : s.history = (A ++ M) ++ b :: (N ++ en :: future) := by rw [hs, hpast, hM]; simp
  have hfrozen := h.frozen hkeyed hb (hlocked b (by rw [hM]; simp))
  exact (hfrozen.2 a).trans hP

end Workflow
