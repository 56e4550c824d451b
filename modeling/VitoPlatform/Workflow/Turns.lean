import VitoPlatform.Workflow.Ownership

/-!
# Changes are moves

`Run.moves` connects the two levels. A committed table that shows a sound lane of a workflow
run shows one after every step of every run of the services, and the step is a stutter or a
move, as long as no `startRun` commits on a run that is not CREATED (`Run.in_lane`). A first use
of it is `Run.count_fresh`: the count that a completion has read is not stale.
-/

namespace Workflow

open Text Policy Persistence Invocation Database

variable {allowed : Choice Failure Ans → Prop} {rows : List Row} {operations : List Operation}
variable {s : System Row Ask Failure Ans Unit} {past future : List LogEntry} {en : LogEntry}
variable {operation : Operation}

/-! ## Tables that show a lane -/

/-- The table has the run, and no other open step of it. -/
structure Lane.Shown (rows : List Row) (lane : Lane) : Prop where
  run : runAt rows lane.run.id = some lane.run
  step : ∀ a, lane.step = some a ↔
    StepOf rows lane.run.id a ∧ terminalStep a.status = false

/-- The table after a turn: no other step of the run has changed. -/
structure Turned (before after : List Row) (lane : Lane) (turn : Turn) : Prop where
  run : runAt after lane.run.id = some turn.run
  id : turn.run.id = lane.run.id
  fresh : ∀ n, turn.new = some n → stepAt before n.id = none
  steps : ∀ a, StepOf after lane.run.id a ↔ turn.left = some a ∨ turn.new = some a ∨
    StepOf before lane.run.id a ∧ ∀ k, lane.step = some k → a.id ≠ k.id

theorem Turned.shown {before after : List Row} {lane : Lane} {turn : Turn}
    (h : Turned before after lane turn) (hshown : lane.Shown before) (hsingle : turn.Single) :
    turn.lane.Shown after := by
  have hid : turn.lane.run.id = lane.run.id := h.id
  constructor
  · rw [hid]
    exact h.run
  · intro a
    rw [hid, h.steps]
    constructor
    · intro ha
      obtain hnew | ⟨hnew, hleft⟩ := Option.or_eq_some_iff.mp ha
      · refine ⟨.inr (.inl hnew), ?_⟩
        rw [hsingle.ready a hnew]
        rfl
      · obtain ⟨hleft, hopen⟩ := Option.filter_eq_some_iff.mp hleft
        exact ⟨.inl hleft, by simpa using hopen⟩
    · rintro ⟨hleft | hnew | ⟨hbefore, hother⟩, hopen⟩
      · cases hnew : turn.new with
        | none =>
            change turn.new.or _ = _
            rw [hnew, Option.none_or, hleft]
            simp [hopen]
        | some n =>
            rw [hsingle.closed n a hnew hleft] at hopen
            cases hopen
      · change turn.new.or _ = _
        rw [hnew, Option.some_or]
      · exact absurd rfl (hother a ((hshown.step a).mpr ⟨hbefore, hopen⟩))

/-! ## Changes are moves -/

section Turns

variable {before after : List Row} {lane : Lane} {r : WorkflowRun} {n : WorkflowStepRun}

/-- A step with a new id is none of those that are there. -/
theorem StepOf.ne_fresh {ρ : Str} {a : WorkflowStepRun} (h : StepOf before ρ a)
    (hfresh : stepAt before n.id = none) : a.id ≠ n.id := by
  intro hid
  have hfound := h.found
  rw [hid, hfresh] at hfound
  cases hfound

/-- Images of open steps of a run are images of its one open step. -/
theorem stepOf_apply_open {ρ : Str} {o : Option WorkflowStepRun} {ws : List Row}
    {data : WorkflowStepRun → WorkflowStepRun}
    (h : ∀ a, o = some a ↔ StepOf before ρ a ∧ terminalStep a.status = false)
    (hid : ∀ step, (data step).id = step.id)
    (hrun : ∀ step, (data step).workflowRunId = step.workflowRunId)
    (hws : ∀ w ∈ ws, ∃ step, w = .step (data step) ∧ StepOf before ρ step ∧
      terminalStep step.status = false) (a : WorkflowStepRun) :
    StepOf (apply schema before ws) ρ a ↔
      (∃ k, o = some k ∧ a = if .step (data k) ∈ ws then data k else k) ∨
        StepOf before ρ a ∧ ∀ k, o = some k → a.id ≠ k.id := by
  rw [stepOf_apply_images hid hrun fun w hw => by
    obtain ⟨step, rfl, hstep, -⟩ := hws w hw
    exact ⟨step, rfl, hstep.found⟩]
  constructor
  · rintro ⟨b, hb, ha⟩
    by_cases hopen : o = some b
    · exact .inl ⟨b, hopen, ha⟩
    · have hsame : a = b := by
        rw [ha, if_neg]
        intro hmem
        obtain ⟨step, hstep, hof, hopen'⟩ := hws _ hmem
        have hb' := hb.found
        rw [← hid, Row.step.inj hstep, hid, hof.found] at hb'
        obtain rfl := Option.some.inj hb'
        exact hopen ((h step).mpr ⟨hof, hopen'⟩)
      refine .inr ⟨hsame ▸ hb, fun k hk hak => hopen ?_⟩
      have hfound := ((h k).mp hk).1.found
      rw [← hak, hsame, hb.found] at hfound
      rwa [Option.some.inj hfound]
  · rintro (⟨k, hk, ha⟩ | ⟨hb, hother⟩)
    · exact ⟨k, ((h k).mp hk).1, ha⟩
    · refine ⟨a, hb, ?_⟩
      rw [if_neg]
      intro hmem
      obtain ⟨step, hstep, hof, hopen⟩ := hws _ hmem
      refine hother step ((h step).mpr ⟨hof, hopen⟩) ?_
      rw [← hid, Row.step.inj hstep, hid]

/-- A run that gets its next step while it has no open one. -/
theorem Turned.of_new (hid : r.id = lane.run.id) (hstep : lane.step = none)
    (hfresh : stepAt before n.id = none) (hrun : n.workflowRunId = lane.run.id) :
    Turned before (apply schema before [.run r, .step n]) lane ⟨r, none, some n⟩ := by
  refine ⟨by simp [hid], hid, fun m hm => Option.some.inj hm ▸ hfresh, fun a => ?_⟩
  rw [apply_cons, apply_cons, apply_nil, stepOf_put_step, stepOf_put_run]
  constructor
  · rintro (⟨rfl, -⟩ | ⟨-, ha⟩)
    · exact .inr (.inl rfl)
    · exact .inr (.inr ⟨ha, fun k hk => by rw [hstep] at hk; cases hk⟩)
  · rintro (hleft | hnew | ⟨ha, -⟩)
    · cases hleft
    · exact .inl ⟨(Option.some.inj hnew).symm, hrun⟩
    · exact .inr ⟨ha.ne_fresh hfresh, ha⟩

theorem stepOf_put_own {ρ : Str} {w a : WorkflowStepRun} (hrun : w.workflowRunId = ρ) :
    StepOf (put schema before (.step w)) ρ a ↔ a = w ∨ a.id ≠ w.id ∧ StepOf before ρ a := by
  rw [stepOf_put_step, and_iff_left hrun]

/-- A run whose open step changes, with or without a new step. -/
theorem Turned.of_step {k w : WorkflowStepRun} {new : Option WorkflowStepRun}
    (hk : StepOf before lane.run.id k) (hstep : lane.step = some k) (hid : w.id = k.id)
    (hrun : w.workflowRunId = lane.run.id) (hr : r.id = lane.run.id)
    (hnew : ∀ n, new = some n → stepAt before n.id = none ∧ n.workflowRunId = lane.run.id)
    (hrunAfter : runAt after lane.run.id = some r)
    (hsteps : ∀ a, StepOf after lane.run.id a ↔
      StepOf (apply schema before (.step w :: (new.map Row.step).toList)) lane.run.id a) :
    Turned before after lane ⟨r, some w, new⟩ := by
  have hother : ∀ a : WorkflowStepRun,
      (∀ k, lane.step = some k → a.id ≠ k.id) ↔ a.id ≠ w.id := by
    intro a
    rw [hstep, hid]
    exact ⟨fun ha => ha k rfl, fun ha k' hk' => Option.some.inj hk' ▸ ha⟩
  refine ⟨hrunAfter, hr, fun n hn => (hnew n hn).1, fun a => ?_⟩
  rw [hsteps, hother]
  cases hn : new with
  | none =>
      rw [Option.map_none, Option.toList_none, apply_cons, apply_nil, stepOf_put_own hrun]
      constructor
      · rintro (rfl | ⟨hne, ha⟩)
        · exact .inl rfl
        · exact .inr (.inr ⟨ha, hne⟩)
      · rintro (ha | ha | ⟨ha, hne⟩)
        · exact .inl (Option.some.inj ha).symm
        · cases ha
        · exact .inr ⟨hne, ha⟩
  | some n =>
      obtain ⟨hfresh, hnrun⟩ := hnew n hn
      rw [Option.map_some, Option.toList_some, apply_cons, apply_cons, apply_nil,
        stepOf_put_own hnrun, stepOf_put_own hrun]
      constructor
      · rintro (rfl | ⟨-, rfl | ⟨hne, ha⟩⟩)
        · exact .inr (.inl rfl)
        · exact .inl rfl
        · exact .inr (.inr ⟨ha, hne⟩)
      · rintro (ha | ha | ⟨ha, hne⟩)
        · rw [← Option.some.inj ha]
          exact .inr ⟨hid ▸ hk.ne_fresh hfresh, .inl rfl⟩
        · exact .inl (Option.some.inj ha).symm
        · exact .inr ⟨ha.ne_fresh hfresh, .inr ⟨hne, ha⟩⟩

theorem Started.turns {organizationId : Str} {row : WorkflowRun} {now : Int} {id : Str}
    (h : Started organizationId lane.run.id past en row now id) (hstep : lane.step = none) :
    Turned en.before (apply schema en.before en.published) lane
      ⟨startedRow row, none, some ((firstStep organizationId lane.run.id now).row id)⟩ := by
  rw [h.published]
  have hid : row.id = lane.run.id := runAt_id h.run_now
  exact .of_new hid hstep h.fresh rfl

/-- A completion turns the lane of its run and its step, whatever other steps are open. -/
theorem Completed.turned {input : CompleteStepInput} {step : WorkflowStepRun}
    {freshRun row : WorkflowRun} {now : Int} {created : List Row}
    (h : Completed input past en step freshRun row now created) :
    ∃ id, Turned en.before (apply schema en.before en.published) ⟨row, some step⟩
      (completion input freshRun step now id row) := by
  have hrow : row.id = input.workflowRunId := runAt_id h.run_now
  have hof : StepOf en.before row.id step :=
    ⟨by rw [stepAt_id h.step_now, h.step_now], by rw [h.of_run, hrow]⟩
  obtain ⟨id, hcreated, hfresh⟩ : ∃ id,
      created = ((completion input freshRun step now id row).new.map Row.step).toList ∧
      ∀ n, (completion input freshRun step now id row).new = some n →
        stepAt en.before n.id = none ∧ n.workflowRunId = row.id := by
    have hsuccessor := h.successor
    unfold completion
    cases houtcome : outcomeOf input freshRun step with
    | nextStep next =>
        rw [houtcome] at hsuccessor
        cases hsuccessor with
        | none _ hno => exact absurd rfl (hno next)
        | next _ id hfresh =>
            refine ⟨id, rfl, fun n hn => ?_⟩
            rw [← Option.some.inj hn]
            exact ⟨hfresh, hrow.symm⟩
    | blocked reason | completed | failed reason =>
        rw [houtcome] at hsuccessor
        cases hsuccessor with
        | none _ _ => exact ⟨[], rfl, fun _ hn => (nomatch hn)⟩
  have hself : (completion input freshRun step now id row).run.id = row.id := runUpdate_id _ _ _ _
  refine ⟨id, .of_step hof rfl rfl hof.of_run hself hfresh ?_ fun a => ?_⟩
  · rw [h.published, ← List.cons_append, apply_append, apply_cons, apply_nil, runAt_put_run,
      runUpdate_id, Function.update_self]
  · rw [h.published, ← List.cons_append, apply_append, apply_cons, apply_nil, stepOf_put_run,
      hcreated]
    exact Iff.rfl

theorem Completed.turns {input : CompleteStepInput} {step : WorkflowStepRun}
    {freshRun row : WorkflowRun} {now : Int} {created : List Row}
    (h : Completed input past en step freshRun row now created) (hshown : lane.Shown en.before)
    (hrun : lane.run = row) :
    lane.step = some step ∧ ∃ id, Turned en.before (apply schema en.before en.published) lane
      (completion input freshRun step now id row) := by
  have hrow : row.id = input.workflowRunId := runAt_id h.run_now
  have hstep : lane.step = some step := by
    refine (hshown.step step).mpr ⟨⟨?_, ?_⟩, ?_⟩
    · rw [stepAt_id h.step_now, h.step_now]
    · rw [h.of_run, hrun, hrow]
    · rw [h.ready]
      rfl
  obtain ⟨row', o⟩ := lane
  obtain rfl : row' = row := hrun
  obtain rfl : o = some step := hstep
  exact ⟨rfl, h.turned⟩

/-- A change of the run and of images of its open step. -/
theorem Turned.of_images {ws : List Row} (data final : WorkflowStepRun → WorkflowStepRun)
    (hshown : lane.Shown before) (hr : r.id = lane.run.id)
    (hid : ∀ step, (data step).id = step.id)
    (hrun : ∀ step, (data step).workflowRunId = step.workflowRunId)
    (hws : ∀ w ∈ ws, ∃ step, w = .step (data step) ∧ StepOf before lane.run.id step ∧
      terminalStep step.status = false)
    (hfinal : ∀ k, lane.step = some k → final k = if .step (data k) ∈ ws then data k else k) :
    Turned before (apply schema before (.run r :: ws)) lane ⟨r, lane.step.map final, none⟩ := by
  refine ⟨?_, hr, fun _ hn => (nomatch hn), fun a => ?_⟩
  · rw [apply_cons, runAt_apply_steps fun w hw => ?_, runAt_put_run, hr, Function.update_self]
    obtain ⟨step, rfl, -⟩ := hws w hw
    exact ⟨_, rfl⟩
  · have hstep : ∀ a, lane.step = some a ↔
        StepOf (put schema before (.run r)) lane.run.id a ∧ terminalStep a.status = false :=
      fun a => by rw [stepOf_put_run, hshown.step]
    rw [apply_cons, stepOf_apply_open hstep hid hrun fun w hw => by
      obtain ⟨step, rfl, hstep, hopen⟩ := hws w hw
      exact ⟨step, rfl, (stepOf_put_run r).mpr hstep, hopen⟩]
    rw [stepOf_put_run]
    constructor
    · rintro (⟨k, hk, rfl⟩ | ha)
      · refine .inl ?_
        change lane.step.map final = _
        rw [hk, Option.map_some, hfinal k hk]
      · exact .inr (.inr ha)
    · rintro (ha | ha | ha)
      · obtain ⟨k, hk, rfl⟩ := Option.map_eq_some_iff.mp ha
        exact .inl ⟨k, hk, hfinal k hk⟩
      · cases ha
      · exact .inr ha

theorem cancellable_iff_open (step : WorkflowStepRun) :
    cancellableStep step = true ↔ terminalStep step.status = false := by
  rw [cancellableStep_eq, Bool.not_eq_true']

theorem Cancelled.turns {input : CancelRunInput} {row : WorkflowRun} {now : Int}
    {steps : List Row} (h : Cancelled input past en row now steps) (hrun : lane.run = row)
    (hshown : lane.Shown en.before) (hsound : lane.Sound)
    (hkept : ∀ {A B : List LogEntry} {e : LogEntry}, past = A ++ e :: B →
      RunLocked (e :: B) input.workflowRunId → ∀ a,
        StepOf en.before input.workflowRunId a → StepOf e.before input.workflowRunId a) :
    Turned en.before (apply schema en.before en.published) lane
      ⟨cancelledRun row, lane.step.map (cancelledStep now), none⟩ := by
  have hid : row.id = input.workflowRunId := runAt_id h.run_now
  obtain ⟨A, e, B, hs, hlocked, hfound⟩ := h.found
  rw [h.published]
  refine .of_images (cancelledStep now) _ hshown (by rw [hrun]; rfl) (fun _ => rfl)
    (fun _ => rfl) (fun w hw => ?_) fun k hk => ?_
  · obtain ⟨step, rfl, hstep, -, hof, hopen⟩ := h.images w hw
    exact ⟨step, rfl, ⟨hstep, by rw [hof, hrun, hid]⟩, (cancellable_iff_open step).mp hopen⟩
  · obtain ⟨hof, hopen⟩ := (hshown.step k).mp hk
    rw [hrun, hid] at hof
    have hthen := hkept hs hlocked k hof
    rw [if_pos (hfound k hthen.found ?_ hof.of_run ((cancellable_iff_open k).mpr hopen))]
    rw [hsound.organization k hk, hrun, h.organization]

theorem Resumed.turns {organizationId : Str} {run row : WorkflowRun} {steps : List Row}
    (h : Resumed organizationId lane.run.id past en run row steps) (hrun : lane.run = row)
    (hshown : lane.Shown en.before) (hsound : lane.Sound)
    (horganization : row.organizationId = organizationId)
    (hkept : ∀ {A B : List LogEntry} {e : LogEntry}, past = A ++ e :: B →
      RunLocked (e :: B) lane.run.id → ∀ a,
        StepOf en.before lane.run.id a → StepOf e.before lane.run.id a) :
    Turned en.before (apply schema en.before en.published) lane
      ⟨resumedRow row, lane.step.map (wake run), none⟩ := by
  obtain ⟨A, e, B, hs, hlocked, hfound⟩ := h.found
  rw [h.published]
  refine .of_images awakened _ hshown (by rw [hrun]; rfl) (fun _ => rfl)
    (fun _ => rfl) (fun w hw => ?_) fun k hk => ?_
  · obtain ⟨step, rfl, hstep, -, hof, hwaiting, -⟩ := h.images w hw
    exact ⟨step, rfl, ⟨hstep, hof⟩, by rw [hwaiting]; rfl⟩
  · obtain ⟨hof, hopen⟩ := (hshown.step k).mp hk
    rw [wake]
    congr 1
    apply propext
    constructor
    · rintro ⟨hwaiting, htype⟩
      refine hfound k (hkept hs hlocked k hof).found ?_ hof.of_run hwaiting htype
      rw [hsound.organization k hk, hrun, horganization]
    · intro hmem
      obtain ⟨step, hstep, hnow, -, -, hwaiting, htype⟩ := h.images _ hmem
      have hsame : awakened k = awakened step := Row.step.inj hstep
      have hid : (awakened k).id = (awakened step).id := congrArg WorkflowStepRun.id hsame
      change k.id = step.id at hid
      have hfound := hof.found
      rw [hid, hnow] at hfound
      obtain rfl := Option.some.inj hfound
      exact ⟨hwaiting, htype⟩

theorem Continued.turns {organizationId : Str} {run row : WorkflowRun}
    (h : Continued organizationId lane.run.id past en run row) (hrun : lane.run = row)
    (hshown : lane.Shown en.before) :
    Turned en.before (apply schema en.before en.published) lane
      ⟨continuedRow row, lane.step, none⟩ := by
  rw [h.published]
  have himages : Turned en.before (apply schema en.before [.run (continuedRow row)]) lane
      ⟨continuedRow row, lane.step.map id, none⟩ :=
    .of_images id id hshown (by rw [hrun]; rfl) (fun _ => rfl) (fun _ => rfl) (by simp) (by simp)
  rwa [Option.map_id, id_eq] at himages

theorem CorrectionRequested.turns {input : RequestCorrectionInput} {run row : WorkflowRun}
    {parseStep : WorkflowStepRun} {now : Int} {id : Str}
    (h : CorrectionRequested input past en run row parseStep now id) (hrun : lane.run = row)
    (hstep : lane.step = none) :
    Turned en.before (apply schema en.before en.published) lane
      ⟨correctionRow row, none, some ((requestedStep input parseStep.id now).row id)⟩ := by
  rw [h.published]
  refine .of_new (by rw [hrun]; rfl) hstep h.fresh ?_
  rw [hrun, runAt_id h.run_now]
  rfl

theorem Retested.turns {input : RecoveryInput} {run row : WorkflowRun}
    {correctionStep : WorkflowStepRun} {approvalRef : Str} {cancelledAt now : Int} {id : Str}
    {steps : List Row}
    (h : Retested input past en run row correctionStep approvalRef cancelledAt now id steps)
    (hrun : lane.run = row) (hshown : lane.Shown en.before) (hstep : lane.step = none) :
    Turned en.before (apply schema en.before en.published) lane
      ⟨retestedRow row, none, some ((retestStep input approvalRef row.correctionLoopCount
        correctionStep.id now).row id)⟩ := by
  have hid : row.id = input.workflowRunId := runAt_id h.run_now
  have hnone : steps = [] := by
    rw [List.eq_nil_iff_forall_not_mem]
    intro w hw
    obtain ⟨step, -, hnow, -, hof, hopen⟩ := h.images w hw
    have hlane : lane.step = some step :=
      (hshown.step step).mpr ⟨⟨hnow, by rw [hof, hrun, hid]⟩, (cancellable_iff_open step).mp hopen⟩
    rw [hstep] at hlane
    cases hlane
  rw [h.published, hnone, List.nil_append, h.count]
  refine .of_new (by rw [hrun]; rfl) hstep h.fresh ?_
  rw [hrun, hid]
  rfl

theorem Reverified.turns {input : RecoveryInput} {row : WorkflowRun}
    {gate verifyStep : WorkflowStepRun} {cancelledAt : Int} {step : StepData} {id : Str}
    (h : Reverified input en row gate verifyStep cancelledAt step id) (hrun : lane.run = row)
    (hshown : lane.Shown en.before) :
    lane.step = some gate ∧ Turned en.before (apply schema en.before en.published) lane
      ⟨reverifiedRow row, some (cancelledStep cancelledAt gate), some (step.row id)⟩ := by
  have hid : row.id = input.workflowRunId := runAt_id h.run_now
  have hof : StepOf en.before lane.run.id gate := ⟨h.gate_now, by rw [h.gate_run, hrun, hid]⟩
  have hready : gate.status = .ready := by
    have hgate := h.ready
    simp only [readyGate, Bool.and_eq_true, beq_iff_eq] at hgate
    exact hgate.2
  have hstep : lane.step = some gate :=
    (hshown.step gate).mpr ⟨hof, by rw [hready]; rfl⟩
  refine ⟨hstep, .of_step hof hstep rfl hof.of_run (by rw [hrun]; rfl) (fun n hn => ?_) ?_ ?_⟩
  · rw [← Option.some.inj hn]
    exact ⟨h.fresh, by rw [StepData.row_workflowRunId, h.of_run, hrun, hid]⟩
  · have hself : (reverifiedRow row).id = lane.run.id := by rw [hrun]; rfl
    rw [h.published]
    simp [hself]
  · intro a
    rw [h.published, Option.map_some, Option.toList_some]
    simp only [apply_cons, apply_nil, stepOf_put_step, stepOf_put_run]

end Turns

/-! ## Runs -/

/-- A `startRun` of the run that commits finds it CREATED. -/
def StartsCreated (operations : List Operation) (workflowRunId : Str) (en : LogEntry) : Prop :=
  ∀ organizationId row,
    operations[en.call]? = some (.startRun organizationId workflowRunId) → en.published ≠ [] →
      runAt en.before workflowRunId = some row → row.status = .created

/-- A table in which nothing of a run has changed. -/
structure Unchanged (before after : List Row) (workflowRunId : Str) : Prop where
  run : runAt after workflowRunId = runAt before workflowRunId
  steps : ∀ a, StepOf after workflowRunId a ↔ StepOf before workflowRunId a

theorem Unchanged.shown {before after : List Row} {lane : Lane}
    (h : Unchanged before after lane.run.id) (hshown : lane.Shown before) : lane.Shown after :=
  ⟨h.run.trans hshown.run, fun a => by rw [hshown.step, h.steps]⟩

/-- What was read of a run has evolved to the row that is committed by now. -/
theorem Run.sameRun (h : Run allowed rows operations s) (hkeyed : Keyed schema rows)
    (hs : s.history = past ++ en :: future) {A B : List LogEntry} {e : LogEntry}
    (hpast : past = A ++ e :: B) {k : Str} {run row : WorkflowRun}
    (hrun : runAt e.before k = some run) (hrow : runAt en.before k = some row) :
    SameRun run row := by
  obtain ⟨r', hr', hevolves⟩ := h.evolves hkeyed hs hpast (runAt_eq_some.mp hrun)
  rw [runAt_eq_some.mp hrow] at hr'
  obtain rfl := Option.some.inj hr'
  exact hevolves

/-- A step that publishes the row of a workflow run. -/
def Touches (workflowRunId : Str) (en : LogEntry) : Bool :=
  en.published.any (isRun fun r => r.id == workflowRunId)

theorem touches_iff {ρ : Str} :
    Touches ρ en = true ↔ ∃ r, Row.run r ∈ en.published ∧ r.id = ρ := by
  rw [Touches, List.any_eq_true]
  constructor
  · rintro ⟨w, hw, hrun⟩
    obtain ⟨r, rfl, hid⟩ := isRun_iff.mp hrun
    exact ⟨r, hw, by simpa using hid⟩
  · rintro ⟨r, hr, hid⟩
    exact ⟨_, hr, isRun_iff.mpr ⟨r, rfl, by simpa using hid⟩⟩

/-- Without the run, nothing of it changes. -/
theorem Run.unchanged (h : Run allowed rows operations s) (hkeyed : Keyed schema rows)
    (hs : s.history = past ++ en :: future) {ρ : Str} (hno : Touches ρ en = false) :
    Unchanged en.before en.after ρ := by
  obtain ⟨hrun, hsteps⟩ := h.frozen hkeyed hs (ρ := ρ) fun r hr hid => by
    rw [touches_iff.mpr ⟨r, hr, hid⟩] at hno
    cases hno
  exact ⟨hrun, hsteps⟩

/-- What the completion that commits here has read of its run, and the row by now. -/
def ReadBy (workflowRunId : Str) (past : List LogEntry) (en : LogEntry)
    (freshRun row : WorkflowRun) : Prop :=
  ∃ input step now created, input.workflowRunId = workflowRunId ∧
    Completed input past en step freshRun row now created

/-- With the run, each step of a run of the services is a move of its sound lane. -/
theorem Run.moves (h : Run allowed rows operations s) (hkeyed : Keyed schema rows)
    (hs : s.history = past ++ en :: future) {lane : Lane}
    (hstart : StartsCreated operations lane.run.id en) (hshown : lane.Shown en.before)
    (hsound : lane.Sound) (htouches : Touches lane.run.id en = true) :
    ∃ operation turn, operations[en.call]? = some operation ∧ Change past en operation ∧
      Move (ReadBy lane.run.id past en) operation lane turn ∧
        Turned en.before en.after lane turn := by
  obtain ⟨r, hr, hid⟩ := touches_iff.mp htouches
  obtain hnone | ⟨operation, hoperation, hchange⟩ := h.changes hkeyed hs
  · rw [hnone] at hr
    exact absurd hr List.not_mem_nil
  have htarget := hchange.target hshown.run hr hid
  have hafter := (h.ledger.accounted past en future hs).after
  have hnow : ∀ {row}, runAt en.before lane.run.id = some row → lane.run = row :=
    fun hrow => Option.some.inj (hshown.run.symm.trans hrow)
  have hkept : ∀ {A B : List LogEntry} {e : LogEntry}, past = A ++ e :: B →
      RunLocked (e :: B) lane.run.id → ∀ a,
        StepOf en.before lane.run.id a → StepOf e.before lane.run.id a :=
    fun hpast hlocked a => (h.locked_steps hkeyed hs hpast hlocked a).mp
  have completed : ∀ {operation : Operation} {input : CompleteStepInput} {step : WorkflowStepRun}
      {freshRun row : WorkflowRun} {now : Int} {created : List Row}, operation.Completes input →
      Completed input past en step freshRun row now created →
      some input.workflowRunId = some lane.run.id →
      ∃ turn, Move (ReadBy lane.run.id past en) operation lane turn ∧
        Turned en.before (apply schema en.before en.published) lane turn := by
    intro operation input step freshRun row now created hcompletes hc hid
    have hid := Option.some.inj hid
    have hrow := hnow (hid ▸ hc.run_now)
    obtain ⟨hstep, id, hturned⟩ := hc.turns hshown hrow
    obtain ⟨A, e₀, B, e₁, C, hpast, -, -, hseen⟩ := hc.seen
    have hsame := h.sameRun hkeyed hs (A := A ++ e₀ :: B) (e := e₁) (B := C)
      (by rw [hpast, List.append_assoc, List.cons_append]) hseen hc.run_now
    refine ⟨_, ?_, hturned⟩
    obtain ⟨row', o⟩ := lane
    obtain rfl : row' = row := hrow
    obtain rfl : o = some step := hstep
    refine .complete input freshRun row' step now id hcompletes (stepAt_id hc.step_now) hc.ready
      hsame ⟨input, step, now, created, hid, hc⟩ ?_ hid.symm hc.open_run hc.current
    rw [hsame.organizationId, hc.run_organization]
  rw [hafter]
  obtain ⟨row, o⟩ := lane
  have idle : row.currentStepType = none → o = none := by
    intro hcurrent
    cases o with
    | none => rfl
    | some k =>
        have hk : row.currentStepType = some k.stepType := hsound.current k rfl
        rw [hcurrent] at hk
        cases hk
  cases hchange with
  | createRun id correlationId hc => cases htarget
  | startRun row' now id hc =>
      obtain rfl := Option.some.inj htarget
      obtain rfl := hnow hc.run_now
      obtain ⟨A, e, B, run, hpast, hrun, horganization, -⟩ := hc.seen
      have hsame := h.sameRun hkeyed hs hpast hrun hc.run_now
      have hcreated : row.status = .created :=
        hstart _ row hoperation (List.ne_nil_of_mem hr) hc.run_now
      obtain rfl : o = none := by
        cases o with
        | none => rfl
        | some k => exact absurd hcreated (hsound.begun k rfl)
      obtain rfl := hsame.organizationId.trans horganization
      exact ⟨_, _, hoperation, .startRun row now id hc, .start row now id hcreated,
        hc.turns rfl⟩
  | completeStep step freshRun row' now created hc =>
      obtain ⟨move, hmove, hturned⟩ := completed (.completeStep _) hc htarget
      exact ⟨_, move, hoperation, .completeStep step freshRun row' now created hc, hmove, hturned⟩
  | approveRelease gateId step freshRun row' now created hhuman hc =>
      obtain ⟨move, hmove, hturned⟩ := completed (.approveRelease _ gateId hhuman) hc htarget
      exact ⟨_, move, hoperation,
        .approveRelease gateId step freshRun row' now created hhuman hc, hmove, hturned⟩
  | cancelRun row' now steps hc =>
      have hid := Option.some.inj htarget
      obtain rfl := hnow (hid ▸ hc.run_now)
      exact ⟨_, _, hoperation, .cancelRun row now steps hc, .cancel _ row o now hc.cancellable hid.symm,
        hc.turns rfl hshown hsound (hid ▸ hkept)⟩
  | resumeBlocked run row' steps hc =>
      obtain rfl := Option.some.inj htarget
      obtain rfl := hnow hc.run_now
      obtain ⟨A, e, B, hpast, hrun⟩ := hc.seen
      have hsame := h.sameRun hkeyed hs hpast hrun hc.run_now
      obtain rfl := hsame.organizationId.trans hc.organization
      exact ⟨_, _, hoperation, .resumeBlocked run row steps hc,
        .resume run row o hsame hc.blocked hc.undecided, hc.turns rfl hshown hsound rfl hkept⟩
  | resumeWaiting run row' hc =>
      obtain rfl := Option.some.inj htarget
      obtain rfl := hnow hc.run_now
      obtain ⟨A, e, B, hpast, hrun⟩ := hc.seen
      have hsame := h.sameRun hkeyed hs hpast hrun hc.run_now
      obtain rfl := hsame.organizationId.trans hc.organization
      exact ⟨_, _, hoperation, .resumeWaiting run row hc,
        .resumeWaiting run row o hsame hc.waiting, hc.turns rfl hshown⟩
  | requestCorrection run row' parseStep now id hc =>
      have hid := Option.some.inj htarget
      obtain rfl := hnow (hid ▸ hc.run_now)
      obtain rfl : o = none := idle (by
        have hawaits := hc.awaits
        simp only [awaitsDecision, Bool.and_eq_true, beq_iff_eq] at hawaits
        exact hawaits.2)
      obtain ⟨A, e₀, B, e₁, C, hpast, hrun, -⟩ := hc.seen
      have hsame := h.sameRun hkeyed hs hpast hrun hc.run_now
      refine ⟨_, _, hoperation, .requestCorrection run row parseStep now id hc,
        .requestCorrection _ row parseStep.id now id hc.awaits ?_ hc.organization hid.symm,
        hc.turns rfl rfl⟩
      rw [hc.count, hsame.maxCorrectionLoops]
      exact hc.bounded
  | recoverLoop run row' correctionStep approvalRef cancelledAt now id steps hc =>
      have hid := Option.some.inj htarget
      obtain rfl := hnow (hid ▸ hc.run_now)
      obtain rfl : o = none := idle (by
        have hexhausted := hc.exhausted
        simp only [exhausted, Bool.and_eq_true, beq_iff_eq] at hexhausted
        exact hexhausted.2)
      exact ⟨_, _, hoperation,
        .recoverLoop run row correctionStep approvalRef cancelledAt now id steps hc,
        .recoverLoop _ row approvalRef correctionStep.id now id hc.exhausted hc.organization hid.symm,
        hc.turns rfl hshown rfl⟩
  | recoverRelease row' gate verifyStep cancelledAt step id hc =>
      have hid := Option.some.inj htarget
      obtain rfl := hnow (hid ▸ hc.run_now)
      obtain ⟨rfl, hturned⟩ := hc.turns rfl hshown
      exact ⟨_, _, hoperation, .recoverRelease row gate verifyStep cancelledAt step id hc,
        .recoverRelease _ row gate cancelledAt step id hc.at_gate hc.ready hc.of_type
          (hc.of_organization.trans hc.organization.symm) (hc.of_run.trans hid) hid.symm,
        hturned⟩

/-- The table shows a sound lane of a workflow run. -/
def InLane (workflowRunId : Str) (rows : List Row) : Prop :=
  ∃ lane : Lane, lane.run.id = workflowRunId ∧ lane.Shown rows ∧ lane.Sound

theorem Run.in_lane_step (h : Run allowed rows operations s) (hkeyed : Keyed schema rows)
    (hs : s.history = past ++ en :: future) {ρ : Str} (hstart : StartsCreated operations ρ en)
    (hlane : InLane ρ en.before) : InLane ρ en.after := by
  obtain ⟨lane, rfl, hshown, hsound⟩ := hlane
  cases htouches : Touches lane.run.id en with
  | false => exact ⟨lane, rfl, (h.unchanged hkeyed hs htouches).shown hshown, hsound⟩
  | true =>
      obtain ⟨operation, turn, -, -, hmove, hturned⟩ :=
        h.moves hkeyed hs hstart hshown hsound htouches
      exact ⟨turn.lane, hturned.id, hturned.shown hshown hmove.single, hmove.sound hsound⟩

/-- The lane of a run is shown all along. -/
theorem Run.in_lane (h : Run allowed rows operations s) (hkeyed : Keyed schema rows) {ρ : Str}
    (hstart : ∀ en ∈ s.history, StartsCreated operations ρ en) (hlane : InLane ρ rows)
    (hs : s.history = past ++ en :: future) : InLane ρ en.before := by
  refine (h.ledger.take hs).chained.invariant (P := fun _ rows => InLane ρ rows) hlane ?_
  intro A b B hA
  have hb : s.history = A ++ b :: (B ++ en :: future) := by rw [hs, hA]; simp
  exact h.in_lane_step hkeyed hb (hstart b (by simp [hb]))

/-- A committed row evolves from after a step on. -/
theorem Run.evolves_after (h : Run allowed rows operations s) (hkeyed : Keyed schema rows)
    (hs : s.history = past ++ en :: future) {A B : List LogEntry} {e : LogEntry}
    (hpast : past = A ++ e :: B) {k : RowKey} {r : Row} (hr : find schema e.after k = some r) :
    ∃ r', find schema en.before k = some r' ∧ Evolves r r' := by
  obtain ⟨-, hchained⟩ := h.between hs hpast
  cases B with
  | nil =>
      have hsame : e.after = en.before := hchained
      exact ⟨r, hsame ▸ hr, .refl r⟩
  | cons b B =>
      rw [← hchained.1] at hr
      exact h.evolves hkeyed hs (A := A ++ [e]) (B := B) (by rw [hpast]; simp) hr

/-- The count a completion has read is still that of the run row when it commits: whatever
changes it closes or needs another step than the one that is completed. -/
theorem Run.count_fresh (h : Run allowed rows operations s) (hkeyed : Keyed schema rows)
    (hs : s.history = past ++ en :: future) {input : CompleteStepInput}
    (hstart : ∀ en ∈ s.history, StartsCreated operations input.workflowRunId en)
    (hlane : InLane input.workflowRunId rows) {step : WorkflowStepRun}
    {freshRun row : WorkflowRun} {now : Int} {created : List Row}
    (hc : Completed input past en step freshRun row now created) :
    freshRun.correctionLoopCount = row.correctionLoopCount := by
  obtain ⟨A, e₀, B, e₁, C, hpast, -, ⟨step₀, hstep₀, hopen₀⟩, hrun₁⟩ := hc.seen
  have hpast₁ : past = (A ++ e₀ :: B) ++ e₁ :: C := by
    rw [hpast, List.append_assoc, List.cons_append]
  -- A terminal step does not become READY again.
  have hready : ∀ w : WorkflowStepRun, terminalStep w.status = true → ∀ step',
      stepAt en.before input.workflowStepRunId = some step' → ¬ SameStep w step' := by
    intro w hw step' hstep' hsame
    obtain rfl := Option.some.inj (hc.step_now.symm.trans hstep')
    have hsteady := hsame.terminal hw
    rw [← hsteady, hc.ready] at hw
    cases hw
  have hkept := h.keeps hs hpast₁ (P := fun rows => ∃ r, runAt rows input.workflowRunId = some r ∧
    r.correctionLoopCount = freshRun.correctionLoopCount) ?_ ⟨freshRun, hrun₁, rfl⟩
  · obtain ⟨r, hr, hcount⟩ := hkept
    obtain rfl := Option.some.inj (hr.symm.trans hc.run_now)
    exact hcount.symm
  rintro M b N hM ⟨r, hr, hcount⟩
  have hb : s.history = (A ++ e₀ :: (B ++ M)) ++ b :: (N ++ en :: future) := by
    rw [hs, hpast₁, List.append_assoc _ (e₁ :: C), hM]
    simp
  have hpastb : past = (A ++ e₀ :: (B ++ M)) ++ b :: N := by
    rw [hpast₁, hM]
    simp
  obtain ⟨lane, hid, hshown, hsound⟩ := h.in_lane hkeyed hstart hlane hb
  obtain rfl : lane.run = r := by
    rw [← hid, hshown.run] at hr
    exact Option.some.inj hr
  cases htouches : Touches lane.run.id b with
  | false =>
      refine ⟨lane.run, ?_, hcount⟩
      rw [← hid, (h.unchanged hkeyed hb htouches).run, hshown.run]
  | true =>
      -- The step is the open one of the lane.
      obtain ⟨k, hk, hsame⟩ := h.step_evolves hkeyed hb rfl hstep₀
      obtain ⟨step', hstep', hsame'⟩ := h.step_evolves hkeyed hs hpastb hk
      have hopen : terminalStep k.status = false := by
        rw [Bool.eq_false_iff]
        exact fun hterminal => hready k hterminal step' hstep' hsame'
      have hkid := stepAt_id hk
      have hof : k.workflowRunId = lane.run.id := by
        obtain rfl := Option.some.inj (hc.step_now.symm.trans hstep')
        rw [← hsame'.workflowRunId, hc.of_run, hid]
      have hlanek : lane.step = some k := (hshown.step k).mpr ⟨⟨by rw [hkid, hk], hof⟩, hopen⟩
      obtain ⟨operation, turn, -, -, hmove, hturned⟩ := h.moves hkeyed hb
        (by rw [hid]; exact hstart b (by simp [hb])) hshown hsound htouches
      obtain hsameCount | ⟨w, hleft, hwid, hw⟩ := hmove.count_kept hlanek
      · refine ⟨turn.run, ?_, hsameCount.trans hcount⟩
        rw [← hid, hturned.run]
      · have hafter : stepAt b.after input.workflowStepRunId = some w := by
          rw [← hkid, ← hwid]
          exact ((hturned.steps w).mpr (.inl hleft)).found
        obtain ⟨r', hr', hevolves⟩ :=
          h.evolves_after hkeyed hs hpastb (stepAt_eq_some.mp hafter)
        cases r' with
        | step step'' => exact absurd hevolves (hready w hw step'' (stepAt_eq_some.mpr hr'))
        | run _ | claim _ => exact hevolves.elim

/-- Whether a run row that was read has the same count as the row by now. -/
def SameCount (freshRun row : WorkflowRun) : Prop :=
  freshRun.correctionLoopCount = row.correctionLoopCount

/-- A move of a sound lane whose completions decide on the count as it is. -/
theorem Run.fresh_moves (h : Run allowed rows operations s) (hkeyed : Keyed schema rows)
    (hs : s.history = past ++ en :: future) {lane : Lane}
    (hstart : ∀ en ∈ s.history, StartsCreated operations lane.run.id en)
    (hlane : InLane lane.run.id rows) (hshown : lane.Shown en.before) (hsound : lane.Sound)
    (htouches : Touches lane.run.id en = true) :
    ∃ operation turn, operations[en.call]? = some operation ∧ Change past en operation ∧
      Move SameCount operation lane turn ∧ Turned en.before en.after lane turn := by
  obtain ⟨operation, turn, hoperation, hchange, hmove, hturned⟩ :=
    h.moves hkeyed hs (hstart en (by simp [hs])) hshown hsound htouches
  refine ⟨operation, turn, hoperation, hchange, hmove.mono ?_, hturned⟩
  rintro freshRun row ⟨input, step, now, created, hid, hc⟩
  rw [← hid] at hstart hlane
  exact h.count_fresh hkeyed hs hstart hlane hc

/-! ## A small run -/

/-- A run that has just been started. -/
def sampleRun : WorkflowRun where
  id := "run".toList
  organizationId := "org".toList
  taskId := none
  assuranceLevel := "AL2".toList
  status := .running
  currentStepType := some .plan
  correctionLoopCount := 0
  maxCorrectionLoops := 3
  correlationId := "trace".toList
  blockReasonCode := none
  failureReasonCode := none

/-- Its step. -/
def sampleStep : WorkflowStepRun :=
  (firstStep "org".toList "run".toList 1).row "plan".toList

/-- A completion of a step of it. -/
def sampleCompletion (stepId : Str) (stepStatus : CompletionStatus) : CompleteStepInput where
  organizationId := "org".toList
  workflowRunId := "run".toList
  workflowStepRunId := stepId
  stepStatus := stepStatus
  providerStatus := none
  verdict := none
  reviewResults := none
  independenceContext := none
  humanApproved := false
  metadata := none

/-- A step of an environment without faults that gives out an id and a time. -/
def replies (id : Str) (now : Int) : Choice Failure Ans :=
  ⟨none, fun
    | .newId => .ok id
    | .now => .ok now
    | .recordAudit _ _ _ _ | .cancelExecutions _ _ => .ok ()
    | .findExecutionRecord _ _ _ _ => .ok (some ())
    | _ => .error (.outside [])⟩

end Workflow
