import VitoPlatform.Workflow.Turns

/-!
# A completion is applied once

A step that is SUCCEEDED or FAILED stays as it is, so it becomes so once at most. A call of
`completeStep` commits once at most, and when it does it has completed its step and created the
successor that `nextEngineeringStep` asks for. While a run is only completed, cancelled and
resumed, each step has one successor at most: a new successor is caused by a step that was
READY until then, and an older one by a step that was terminal before (`Causal`).
-/

namespace Workflow

open Text Policy Persistence Invocation Database

variable {allowed : Choice Failure Ans → Prop} {rows : List Row} {operations : List Operation}
variable {s : System Row Ask Failure Ans Unit} {past future : List LogEntry} {en : LogEntry}
variable {ρ : Str}

/-! ## To the end of a run -/

/-- A committed row evolves to the end of the run. -/
theorem Run.evolves_end (h : Run allowed rows operations s) (hkeyed : Keyed schema rows)
    (hs : s.history = past ++ en :: future) {k : RowKey} {r : Row}
    (hr : find schema en.after k = some r) :
    ∃ r', find schema s.rows k = some r' ∧ Evolves r r' := by
  have hchained := h.ledger.chained
  rw [hs, chained_append] at hchained
  obtain ⟨middle, -, -, hfuture⟩ := hchained
  refine hfuture.invariant (P := fun _ rows => ∃ r', find schema rows k = some r' ∧ Evolves r r')
    ⟨r, hr, .refl r⟩ ?_
  rintro A b B hB ⟨r', hr', hevolves⟩
  have hb : s.history = (past ++ en :: A) ++ b :: B := by rw [hs, hB]; simp
  obtain ⟨r'', hr'', hevolves'⟩ := h.evolves_step hkeyed hb hr'
  exact ⟨r'', hr'', hevolves.trans hevolves'⟩

/-- A run that is there stays there. -/
theorem Run.stays (h : Run allowed rows operations s) (hkeyed : Keyed schema rows)
    {run : WorkflowRun} (hrun : runAt rows ρ = some run) (hs : s.history = past ++ en :: future) :
    ∃ row, runAt en.before ρ = some row := by
  refine (h.ledger.take hs).chained.invariant (P := fun _ rows => ∃ row, runAt rows ρ = some row)
    ⟨run, hrun⟩ ?_
  rintro A b B hA ⟨row, hrow⟩
  have hb : s.history = A ++ b :: (B ++ en :: future) := by rw [hs, hA]; simp
  obtain ⟨r', hr', hevolves⟩ := h.evolves_step hkeyed hb (runAt_eq_some.mp hrow)
  cases r' with
  | run row' => exact ⟨row', runAt_eq_some.mpr hr'⟩
  | step _ | claim _ => exact hevolves.elim

/-- A step that publishes the run commits a change of an operation on it. -/
theorem Run.touched (h : Run allowed rows operations s) (hkeyed : Keyed schema rows)
    (hs : s.history = past ++ en :: future) {row : WorkflowRun}
    (hrow : runAt en.before ρ = some row) (htouches : Touches ρ en = true) :
    ∃ operation, operations[en.call]? = some operation ∧ Change past en operation ∧
      operation.workflowRunId = some ρ := by
  obtain ⟨r, hr, rfl⟩ := touches_iff.mp htouches
  obtain hnone | ⟨operation, hoperation, hchange⟩ := h.changes hkeyed hs
  · rw [hnone] at hr
    exact absurd hr List.not_mem_nil
  have hid := runAt_id hrow
  rw [← hid] at hrow
  exact ⟨operation, hoperation, hchange, hid ▸ hchange.target hrow hr hid.symm⟩

/-! ## A step ends once -/

/-- The status of a step, as a table has it. -/
def statusAt (rows : List Row) (stepId : Str) : Option WorkflowStepStatus :=
  (stepAt rows stepId).map (·.status)

/-- A step of a run of the services that makes a workflow step SUCCEEDED or FAILED. -/
def Finishes (stepId : Str) (en : LogEntry) : Bool :=
  (statusAt en.after stepId == some .succeeded || statusAt en.after stepId == some .failed) &&
    statusAt en.before stepId != statusAt en.after stepId

theorem Finishes.terminal {k : Str} (h : Finishes k en = true) :
    ∃ step, stepAt en.after k = some step ∧ terminalStep step.status = true := by
  simp only [Finishes, Bool.and_eq_true, Bool.or_eq_true, beq_iff_eq] at h
  obtain ⟨hstatus, -⟩ := h
  obtain hstatus | hstatus := hstatus
  · obtain ⟨step, hstep, hsucceeded⟩ := Option.map_eq_some_iff.mp hstatus
    exact ⟨step, hstep, by rw [hsucceeded]; rfl⟩
  · obtain ⟨step, hstep, hfailed⟩ := Option.map_eq_some_iff.mp hstatus
    exact ⟨step, hstep, by rw [hfailed]; rfl⟩

/-- A terminal step is still the same after the next step of the run. -/
theorem Run.steady (h : Run allowed rows operations s) (hkeyed : Keyed schema rows)
    (hs : s.history = past ++ en :: future) {k : Str} {step : WorkflowStepRun}
    (hstep : stepAt en.before k = some step) (hterminal : terminalStep step.status = true) :
    stepAt en.after k = some step := by
  obtain ⟨r', hr', hevolves⟩ := h.evolves_step hkeyed hs (stepAt_eq_some.mp hstep)
  cases r' with
  | step step' =>
      have hsame : SameStep step step' := hevolves
      rw [stepAt_eq_some, hr', hsame.terminal hterminal]
  | run _ | claim _ => exact hevolves.elim

theorem Run.finishes_once (h : Run allowed rows operations s) (hkeyed : Keyed schema rows)
    (k : Str) : (s.history.filter (Finishes k)).length ≤ 1 := by
  cases hfilter : s.history.filter (Finishes k) with
  | nil => exact Nat.zero_le 1
  | cons e es =>
      cases es with
      | nil => exact le_rfl
      | cons e' es =>
          exfalso
          obtain ⟨A, C, hs, -, hfirst, hrest⟩ := List.filter_eq_cons_iff.mp hfilter
          obtain ⟨B, D, rfl, -, hsecond, -⟩ := List.filter_eq_cons_iff.mp hrest
          obtain ⟨step, hstep, hterminal⟩ := Finishes.terminal hfirst
          have hs' : s.history = (A ++ e :: B) ++ e' :: D := by rw [hs]; simp
          -- The step that has ended is found again, and left as it is.
          obtain ⟨r', hr', hevolves⟩ :=
            h.evolves_after hkeyed hs' rfl (stepAt_eq_some.mp hstep)
          cases r' with
          | step step' =>
              have hsame : SameStep step step' := hevolves
              rw [hsame.terminal hterminal, ← stepAt_eq_some] at hr'
              have hafter := h.steady hkeyed hs' hr' hterminal
              rw [Finishes, statusAt, statusAt, hr', hafter] at hsecond
              simp at hsecond
          | run _ | claim _ => exact hevolves.elim

/-! ## Causation -/

/-- `completeStep`, directly or by an approval, `cancelRun` or `resumeRun`. -/
def Operation.settles : Operation → Bool
  | .completeStep _ | .approveRelease _ | .cancelRun _ | .resumeRun _ _ => true
  | _ => false

/-- The steps of a run whose causation does not branch, and whose causes have ended. -/
structure Causal (rows : List Row) (workflowRunId : Str) : Prop where
  apart : ∀ a b, StepOf rows workflowRunId a → StepOf rows workflowRunId b →
    a.causationId ≠ none → a.causationId = b.causationId → a = b
  closed : ∀ a c, StepOf rows workflowRunId a → a.causationId = some c →
    ∃ b, StepOf rows workflowRunId b ∧ b.id = c ∧ terminalStep b.status = true

theorem StepOf.eq_of_id {a b : WorkflowStepRun} (ha : StepOf rows ρ a) (hb : StepOf rows ρ b)
    (hid : a.id = b.id) : a = b := by
  have hfound := ha.found
  rw [hid, hb.found] at hfound
  exact (Option.some.inj hfound).symm

/-- A run may get a new step whose cause ends with it. -/
theorem Causal.grow {before after : List Row} (h : Causal before ρ)
    (born : Option WorkflowStepRun)
    (hold : ∀ b, StepOf before ρ b → ∃ a, StepOf after ρ a ∧ SameStep b a)
    (hafter : ∀ a, StepOf after ρ a → born = some a ∨ ∃ b, StepOf before ρ b ∧ SameStep b a)
    (hborn : ∀ n, born = some n → ∃ k k', StepOf before ρ k ∧ terminalStep k.status = false ∧
      n.causationId = some k.id ∧ StepOf after ρ k' ∧ k'.id = k.id ∧
        terminalStep k'.status = true) : Causal after ρ := by
  -- The cause of an older step had ended before, that of a new one had not.
  have hnew : ∀ n a b, born = some n → StepOf before ρ b → SameStep b a →
      n.causationId ≠ a.causationId := by
    intro n a b hn hb hsame hcause
    obtain ⟨k, -, hk, hopen, hnk, -⟩ := hborn n hn
    rw [hnk, hsame.causationId] at hcause
    obtain ⟨c, hc, hid, hterminal⟩ := h.closed b k.id hb hcause.symm
    rw [hc.eq_of_id hk hid, hopen] at hterminal
    cases hterminal
  constructor
  · intro a a' ha ha' hsome hcause
    obtain hn | ⟨b, hb, hsame⟩ := hafter a ha
    · obtain hn' | ⟨b', hb', hsame'⟩ := hafter a' ha'
      · exact Option.some.inj (hn.symm.trans hn')
      · exact absurd hcause (hnew a a' b' hn hb' hsame')
    · obtain hn' | ⟨b', hb', hsame'⟩ := hafter a' ha'
      · exact absurd hcause.symm (hnew a' a b hn' hb hsame)
      · refine ha.eq_of_id ha' ?_
        rw [hsame.causationId] at hsome hcause
        rw [hsame'.causationId] at hcause
        rw [hsame.id, hsame'.id, h.apart b b' hb hb' hsome hcause]
  · intro a c ha hcause
    obtain hn | ⟨b, hb, hsame⟩ := hafter a ha
    · obtain ⟨k, k', -, -, hk, hk', hid, hterminal⟩ := hborn a hn
      rw [hcause] at hk
      exact ⟨k', hk', hid.trans (Option.some.inj hk).symm, hterminal⟩
    · rw [hsame.causationId] at hcause
      obtain ⟨d, hd, hid, hterminal⟩ := h.closed b c hb hcause
      obtain ⟨d', hd', hsame'⟩ := hold d hd
      refine ⟨d', hd', hsame'.id.trans hid, ?_⟩
      rwa [hsame'.terminal hterminal]

/-- The steps of a run are there after each step of a run of the services. -/
theorem Run.step_kept (h : Run allowed rows operations s) (hkeyed : Keyed schema rows)
    (hs : s.history = past ++ en :: future) {b : WorkflowStepRun} (hb : StepOf en.before ρ b) :
    ∃ a, StepOf en.after ρ a ∧ SameStep b a := by
  obtain ⟨r', hr', hevolves⟩ := h.evolves_step hkeyed hs (stepAt_eq_some.mp hb.found)
  cases r' with
  | step a =>
      have hsame : SameStep b a := hevolves
      refine ⟨a, ⟨?_, hsame.workflowRunId.trans hb.of_run⟩, hsame⟩
      rw [hsame.id]
      exact stepAt_eq_some.mpr hr'
  | run _ | claim _ => exact hevolves.elim

/-- A step that was there under its id is one that has been kept. -/
theorem Run.step_was (h : Run allowed rows operations s) (hkeyed : Keyed schema rows)
    (hs : s.history = past ++ en :: future) {a b : WorkflowStepRun} (ha : StepOf en.after ρ a)
    (hb : StepOf en.before ρ b) (hid : a.id = b.id) : SameStep b a := by
  obtain ⟨a', ha', hsame⟩ := h.step_kept hkeyed hs hb
  rwa [ha.eq_of_id ha' (hid.trans hsame.id.symm)]

theorem Run.causal_completed (h : Run allowed rows operations s) (hkeyed : Keyed schema rows)
    (hs : s.history = past ++ en :: future) {input : CompleteStepInput} {step : WorkflowStepRun}
    {freshRun row : WorkflowRun} {now : Int} {created : List Row}
    (hc : Completed input past en step freshRun row now created)
    (hcausal : Causal en.before input.workflowRunId) : Causal en.after input.workflowRunId := by
  obtain ⟨id, hturned⟩ := hc.turned
  rw [← (h.ledger.accounted past en future hs).after] at hturned
  have hsteps := hturned.steps
  rw [← runAt_id hc.run_now] at hcausal ⊢
  have hof : StepOf en.before row.id step := by
    refine ⟨?_, ?_⟩
    · rw [stepAt_id hc.step_now, hc.step_now]
    · rw [hc.of_run, runAt_id hc.run_now]
  have hleft : StepOf en.after row.id (completedRow input now step) :=
    (hsteps _).mpr (.inl rfl)
  refine hcausal.grow (completion input freshRun step now id row).new
    (fun b => h.step_kept hkeyed hs) (fun a ha => ?_) fun n hn => ?_
  · obtain hstep | hnew | ⟨hold, -⟩ := (hsteps a).mp ha
    · obtain rfl : completedRow input now step = a := Option.some.inj hstep
      exact .inr ⟨step, hof, h.step_was hkeyed hs ha hof rfl⟩
    · exact .inl hnew
    · exact .inr ⟨a, hold, h.step_was hkeyed hs ha hold rfl⟩
  · obtain ⟨next, hnext, rfl⟩ := completion_new hn
    refine ⟨step, completedRow input now step, hof, ?_, rfl, hleft, rfl, ?_⟩
    · rw [hc.ready]
      rfl
    · exact completedRow_terminal_of_next hnext now

/-- A change of the run and of images of steps creates no step. -/
theorem Run.causal_images (h : Run allowed rows operations s) (hkeyed : Keyed schema rows)
    (hs : s.history = past ++ en :: future) {r : WorkflowRun} {steps : List Row}
    (data : WorkflowStepRun → WorkflowStepRun) (hid : ∀ step, (data step).id = step.id)
    (hrun : ∀ step, (data step).workflowRunId = step.workflowRunId)
    (hpublished : en.published = .run r :: steps)
    (himages : ∀ w ∈ steps, ∃ step, w = .step (data step) ∧ stepAt en.before step.id = some step)
    (hcausal : Causal en.before ρ) : Causal en.after ρ := by
  refine hcausal.grow none (fun b => h.step_kept hkeyed hs) (fun a ha => .inr ?_)
    fun n hn => nomatch hn
  have ha' := ha
  rw [(h.ledger.accounted past en future hs).after, hpublished, apply_cons,
    stepOf_apply_images hid hrun fun w hw => by
      obtain ⟨step, rfl, hstep⟩ := himages w hw
      exact ⟨step, rfl, by rwa [stepAt_put_run]⟩] at ha'
  obtain ⟨b, hb, hab⟩ := ha'
  rw [stepOf_put_run] at hb
  refine ⟨b, hb, h.step_was hkeyed hs ha hb ?_⟩
  rw [hab]
  split
  · exact hid b
  · rfl

theorem Run.causal_step (h : Run allowed rows operations s) (hkeyed : Keyed schema rows)
    (hs : s.history = past ++ en :: future) {run : WorkflowRun} (hrun : runAt rows ρ = some run)
    (hops : ∀ operation ∈ operations, operation.workflowRunId = some ρ →
      operation.settles = true)
    (hcausal : Causal en.before ρ) : Causal en.after ρ := by
  cases htouches : Touches ρ en with
  | false =>
      have hsame := (h.unchanged hkeyed hs htouches).steps
      refine hcausal.grow none (fun b => h.step_kept hkeyed hs) (fun a ha => .inr ?_)
        fun n hn => nomatch hn
      exact ⟨a, (hsame a).mp ha, h.step_was hkeyed hs ha ((hsame a).mp ha) rfl⟩
  | true =>
      obtain ⟨row, hrow⟩ := h.stays hkeyed hrun hs
      obtain ⟨operation, hoperation, hchange, hid⟩ := h.touched hkeyed hs hrow htouches
      have hsettles := hops operation (List.mem_of_getElem? hoperation) hid
      cases hchange with
      | createRun | startRun | requestCorrection | recoverLoop | recoverRelease => cases hsettles
      | completeStep step freshRun row now created hc =>
          obtain rfl := Option.some.inj hid
          exact h.causal_completed hkeyed hs hc hcausal
      | approveRelease gateId step freshRun row now created hhuman hc =>
          obtain rfl := Option.some.inj hid
          exact h.causal_completed hkeyed hs hc hcausal
      | cancelRun row now steps hc =>
          refine h.causal_images hkeyed hs (cancelledStep now) (fun _ => rfl) (fun _ => rfl)
            hc.published (fun w hw => ?_) hcausal
          obtain ⟨step, rfl, hstep, -⟩ := hc.images w hw
          exact ⟨step, rfl, hstep⟩
      | resumeBlocked run row steps hc =>
          refine h.causal_images hkeyed hs awakened (fun _ => rfl) (fun _ => rfl)
            hc.published (fun w hw => ?_) hcausal
          obtain ⟨step, rfl, hstep, -⟩ := hc.images w hw
          exact ⟨step, rfl, hstep⟩
      | resumeWaiting run row hc =>
          exact h.causal_images hkeyed hs id (fun _ => rfl) (fun _ => rfl) hc.published
            (fun w hw => absurd hw List.not_mem_nil) hcausal

theorem Run.causal (h : Run allowed rows operations s) (hkeyed : Keyed schema rows)
    {run : WorkflowRun} (hrun : runAt rows ρ = some run)
    (hops : ∀ operation ∈ operations, operation.workflowRunId = some ρ →
      operation.settles = true)
    (hcausal : Causal rows ρ) : Causal s.rows ρ := by
  refine h.ledger.chained.invariant (P := fun _ rows => Causal rows ρ) hcausal ?_
  intro A b B hs hb
  exact h.causal_step hkeyed hs hrun hops hb

/-! ## Calls -/

/-- What publishes nothing leaves the rows as they are. -/
theorem Run.idle (h : Run allowed rows operations s) (hs : s.history = past ++ en :: future)
    (hnone : en.published = []) : en.after = en.before := by
  rw [(h.ledger.accounted past en future hs).after, hnone, apply_nil]

/-- Besides what a call has published, it has changed nothing. -/
theorem Run.idle_besides (h : Run allowed rows operations s) (hkeyed : Keyed schema rows)
    (hs : s.history = past ++ en :: future) (hpublished : en.published ≠ []) :
    ∀ e ∈ past ++ future, e.call = en.call → e.after = e.before := by
  intro e he hcall
  obtain he | he := List.mem_append.mp he
  · obtain ⟨A, B, rfl⟩ := List.append_of_mem he
    rw [List.append_assoc, List.cons_append] at hs
    refine h.idle hs ?_
    by_contra hsome
    exact hpublished (h.publishes_once hkeyed hs hcall.symm hsome)
  · obtain ⟨B, C, rfl⟩ := List.append_of_mem he
    have hs' : s.history = (past ++ en :: B) ++ e :: C := by rw [hs]; simp
    exact h.idle hs' (h.publishes_once hkeyed hs hcall hpublished)

/-- The successor that a completion asks for is there after it. -/
theorem Completed.successor_now {input : CompleteStepInput} {step : WorkflowStepRun}
    {freshRun row : WorkflowRun} {now : Int} {created : List Row}
    (h : Completed input past en step freshRun row now created) {next : EngineeringStepType}
    (hnext : outcomeOf input freshRun step = .nextStep next) :
    ∃ n, StepOf (apply schema en.before en.published) input.workflowRunId n ∧
      n.causationId = some step.id ∧ n.stepType = next := by
  obtain ⟨id, hturned⟩ := h.turned
  refine ⟨(Workflow.successor input step now next).row id, ?_, rfl, rfl⟩
  rw [← runAt_id h.run_now]
  refine (hturned.steps _).mpr (.inr (.inl ?_))
  rw [completion, hnext]

/-- Completions while a run is completed, cancelled and resumed. No step ends twice; a call
completes its step and creates the one successor it asks for, or it changes nothing; and no
step has two successors. -/
theorem completions_applied_once (hkeyed : Keyed schema rows) {run : WorkflowRun}
    (hrun : runAt rows ρ = some run) (hcausal : Causal rows ρ)
    (hops : ∀ operation ∈ operations, operation.workflowRunId = some ρ →
      operation.settles = true)
    (h : Run allowed rows operations s) :
    (∀ k, (s.history.filter (Finishes k)).length ≤ 1) ∧
    (∀ call input, operations[call]? = some (.completeStep input) → input.workflowRunId = ρ →
      (∀ en ∈ s.history, en.call = call → en.after = en.before) ∨
      ∃ past en future step freshRun row now created,
        s.history = past ++ en :: future ∧ en.call = call ∧
        Completed input past en step freshRun row now created ∧
        (∀ e ∈ past ++ future, e.call = call → e.after = e.before) ∧
        ∀ next, outcomeOf input freshRun step = .nextStep next →
          ∃ n, n.stepType = next ∧
            ∀ a, (StepOf s.rows ρ a ∧ a.causationId = some step.id) ↔ a = n) ∧
    (∀ a b, StepOf s.rows ρ a → StepOf s.rows ρ b → a.causationId ≠ none →
      a.causationId = b.causationId → a = b) := by
  have hlast := h.causal hkeyed hrun hops hcausal
  refine ⟨h.finishes_once hkeyed, ?_, hlast.apart⟩
  rintro call input hcall rfl
  by_cases hsilent : ∀ en ∈ s.history, en.call = call → en.published = []
  · refine .inl fun en hen hencall => ?_
    obtain ⟨past, future, hs⟩ := List.append_of_mem hen
    exact h.idle hs (hsilent en hen hencall)
  · push Not at hsilent
    obtain ⟨en, hen, rfl, hpublished⟩ := hsilent
    obtain ⟨past, future, hs⟩ := List.append_of_mem hen
    obtain hnone | ⟨operation, hoperation, hchange⟩ := h.changes hkeyed hs
    · exact absurd hnone hpublished
    obtain rfl := Option.some.inj (hcall.symm.trans hoperation)
    cases hchange with
    | completeStep step freshRun row now created hc =>
        refine .inr ⟨past, en, future, step, freshRun, row, now, created, hs, rfl, hc,
          h.idle_besides hkeyed hs hpublished, fun next hnext => ?_⟩
        obtain ⟨n, hn, hcause, htype⟩ := hc.successor_now hnext
        rw [← (h.ledger.accounted past en future hs).after] at hn
        obtain ⟨r', hr', hevolves⟩ := h.evolves_end hkeyed hs (stepAt_eq_some.mp hn.found)
        cases r' with
        | step n' =>
            have hsame : SameStep n n' := hevolves
            have hn' : StepOf s.rows input.workflowRunId n' := by
              refine ⟨?_, hsame.workflowRunId.trans hn.of_run⟩
              rw [hsame.id]
              exact stepAt_eq_some.mpr hr'
            have hcause' : n'.causationId = some step.id := hsame.causationId.trans hcause
            refine ⟨n', hsame.stepType.trans htype, fun a => ⟨?_, ?_⟩⟩
            · rintro ⟨ha, hacause⟩
              refine hlast.apart a n' ha hn' ?_ (hacause.trans hcause'.symm)
              rw [hacause]
              nofun
            · rintro rfl
              exact ⟨hn', hcause'⟩
        | run _ | claim _ => exact hevolves.elim

/-- Two calls that complete one step, to contradictory ends. -/
def contradiction : List Operation :=
  [.completeStep (sampleCompletion "plan".toList .succeeded),
    .completeStep (sampleCompletion "plan".toList .failed)]

/-- Both read the READY step before the first one commits. -/
def contradictionSchedule : List (Nat × Choice Failure Ans) :=
  let choice := replies "build".toList 2
  List.replicate 3 (0, choice) ++ List.replicate 4 (1, choice) ++ List.replicate 10 (0, choice) ++
    List.replicate 2 (1, choice)

theorem completions_applied_once_contradiction :
    ∃ s, (System.start [.run sampleRun, .step sampleStep]
        (contradiction.map Operation.program)).run schema contradictionSchedule = some s ∧
      (s.history.filter (Finishes "plan".toList)).length ≤ 1 := by
  have hsome : ((System.start [.run sampleRun, .step sampleStep]
      (contradiction.map Operation.program)).run schema contradictionSchedule).isSome = true := by
    decide +kernel
  obtain ⟨s, hs⟩ := Option.isSome_iff_exists.mp hsome
  have hrun : Run (fun _ => True) [.run sampleRun, .step sampleStep] contradiction s :=
    System.run_reaches (fun _ _ => trivial) .refl hs
  have honly : ∀ a, StepOf [.run sampleRun, .step sampleStep] "run".toList a → a = sampleStep := by
    intro a ha
    have hmem := (Keyed.step_mem (by decide)).mpr ha.found
    simpa using hmem
  have hcausal : Causal [.run sampleRun, .step sampleStep] "run".toList := by
    constructor
    · intro a b ha hb _ _
      rw [honly a ha, honly b hb]
    · intro a c ha hcause
      rw [honly a ha] at hcause
      cases hcause
  have hfound : runAt [.run sampleRun, .step sampleStep] "run".toList = some sampleRun := rfl
  refine ⟨s, hs, (completions_applied_once (by decide) hfound hcausal ?_ hrun).1 _⟩
  intro operation hoperation _
  have hsettles : ∀ operation ∈ contradiction, operation.settles = true := by
    simp [contradiction, Operation.settles]
  exact hsettles operation hoperation

end Workflow
