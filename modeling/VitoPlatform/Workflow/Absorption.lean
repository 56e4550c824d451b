import VitoPlatform.Workflow.AppliedOnce

/-!
# Runs that are over

`startRun` and `resumeRun` decide on a status they have read and then update the run by its id
alone. As long as no `startRun` commits on a run that is not CREATED, and no `resumeRun` on a
run that is over, a run that is COMPLETED, FAILED or CANCELLED stays as it is
(`terminal_absorbs`).
-/

namespace Workflow

open Text Policy Persistence Invocation Database

variable {allowed : Choice Failure Ans → Prop} {rows : List Row} {operations : List Operation}
variable {s : System Row Ask Failure Ans Unit} {past future : List LogEntry} {en : LogEntry}
variable {operation : Operation} {reads : WorkflowRun → WorkflowRun → Prop} {ρ : Str}

/-- A run that has just been created. -/
structure JustCreated (rows : List Row) (workflowRunId : Str) : Prop where
  run : (runAt rows workflowRunId).map (·.status) = some .created
  steps : ∀ a, ¬ StepOf rows workflowRunId a

theorem JustCreated.lane (h : JustCreated rows ρ) :
    ∃ run, run.id = ρ ∧ run.status = .created ∧ Lane.Shown rows ⟨run, none⟩ := by
  obtain ⟨run, hrun, hcreated⟩ := Option.map_eq_some_iff.mp h.run
  obtain rfl := runAt_id hrun
  refine ⟨run, rfl, hcreated, hrun, fun a => ?_⟩
  constructor
  · exact fun ha => nomatch ha
  · exact fun ha => absurd ha.1 (h.steps a)

theorem JustCreated.in_lane (h : JustCreated rows ρ) : InLane ρ rows := by
  obtain ⟨run, hid, -, hshown⟩ := h.lane
  exact ⟨⟨run, none⟩, hid, hshown, .none run⟩

/-- A `resumeRun` of the run that commits does not find it over. -/
def ResumesOpen (operations : List Operation) (workflowRunId : Str) (en : LogEntry) : Prop :=
  ∀ organizationId row,
    operations[en.call]? = some (.resumeRun organizationId workflowRunId) → en.published ≠ [] →
      runAt en.before workflowRunId = some row → terminalRun row.status = false

/-! ## Checking a run -/

/-- A committing call of a kind finds the run as it should be. -/
def finds (kind : Operation → Bool) (p : WorkflowRun → Bool) (operations : List Operation)
    (workflowRunId : Str) (en : LogEntry) : Bool :=
  !(operations[en.call]?).any kind || en.published.isEmpty ||
    (runAt en.before workflowRunId).all p

theorem finds_iff {kind : Operation → Bool} {p : WorkflowRun → Bool} :
    finds kind p operations ρ en = true ↔
      ∀ operation row, operations[en.call]? = some operation → kind operation = true →
        en.published ≠ [] → runAt en.before ρ = some row → p row = true := by
  constructor
  · intro h operation row hoperation hkind hpublished hrow
    simpa [finds, hoperation, hrow, hkind, hpublished] using h
  · intro h
    rw [finds]
    cases hoperation : operations[en.call]? with
    | none => rfl
    | some operation =>
        cases hkind : kind operation with
        | false => simp [hkind]
        | true =>
            by_cases hpublished : en.published = []
            · simp [hpublished]
            · have hfound := fun row => h operation row hoperation hkind hpublished
              simpa [Option.all_eq_true] using Or.inr hfound

def startsRun (workflowRunId : Str) : Operation → Bool
  | .startRun _ id => id == workflowRunId
  | _ => false

def resumesRun (workflowRunId : Str) : Operation → Bool
  | .resumeRun _ id => id == workflowRunId
  | _ => false

theorem startsRun_iff : startsRun ρ operation = true ↔
    ∃ organizationId, operation = .startRun organizationId ρ := by
  cases operation <;> simp [startsRun]

theorem resumesRun_iff : resumesRun ρ operation = true ↔
    ∃ organizationId, operation = .resumeRun organizationId ρ := by
  cases operation <;> simp [resumesRun]

theorem startsCreated_iff : finds (startsRun ρ) (·.status == .created) operations ρ en = true ↔
    StartsCreated operations ρ en := by
  rw [finds_iff]
  constructor
  · intro h organizationId row hoperation hpublished hrow
    simpa using h _ row hoperation (startsRun_iff.mpr ⟨organizationId, rfl⟩) hpublished hrow
  · intro h operation row hoperation hstarts hpublished hrow
    obtain ⟨organizationId, rfl⟩ := startsRun_iff.mp hstarts
    simpa using h organizationId row hoperation hpublished hrow

theorem resumesOpen_iff :
    finds (resumesRun ρ) (fun row => !terminalRun row.status) operations ρ en = true ↔
      ResumesOpen operations ρ en := by
  rw [finds_iff]
  constructor
  · intro h organizationId row hoperation hpublished hrow
    simpa using h _ row hoperation (resumesRun_iff.mpr ⟨organizationId, rfl⟩) hpublished hrow
  · intro h operation row hoperation hresumes hpublished hrow
    obtain ⟨organizationId, rfl⟩ := resumesRun_iff.mp hresumes
    simpa using h organizationId row hoperation hpublished hrow

instance (workflowRunId : Str) (en : LogEntry) :
    Decidable (StartsCreated operations workflowRunId en) :=
  decidable_of_iff _ startsCreated_iff

instance (workflowRunId : Str) (en : LogEntry) :
    Decidable (ResumesOpen operations workflowRunId en) :=
  decidable_of_iff _ resumesOpen_iff

/-! ## Terminal runs -/

theorem cancellableRun_eq (row : WorkflowRun) : cancellableRun row = !terminalRun row.status := by
  rw [cancellableRun]
  cases row.status <;> rfl

/-- Only a resume moves a run that is over. -/
theorem Move.terminal {lane : Lane} {turn : Turn} (h : Move reads operation lane turn)
    (hsound : lane.Sound) (hterminal : terminalRun lane.run.status = true) :
    ∃ organizationId, operation = .resumeRun organizationId lane.run.id := by
  have closed : ∀ {status}, lane.run.status = status → terminalRun status = false → False := by
    rintro status rfl hopen
    rw [hterminal] at hopen
    cases hopen
  cases h with
  | start row now id hcreated => exact (closed hcreated rfl).elim
  | complete input freshRun row step now id =>
      exact (closed rfl (hsound.active step rfl)).elim
  | cancel input row step now hcancellable =>
      rw [cancellableRun_eq, Bool.not_eq_true'] at hcancellable
      exact (closed rfl hcancellable).elim
  | resume run row step => exact ⟨_, rfl⟩
  | resumeWaiting run row step => exact ⟨_, rfl⟩
  | requestCorrection input row parseStepId now id hawaits =>
      simp only [awaitsDecision, Bool.and_eq_true, beq_iff_eq] at hawaits
      exact (closed hawaits.1.1 rfl).elim
  | recoverLoop input row approvalRef correctionStepId now id hexhausted =>
      simp only [exhausted, Bool.and_eq_true, beq_iff_eq] at hexhausted
      exact (closed hexhausted.1.1 rfl).elim
  | recoverRelease input row gate cancelledAt data id hgate =>
      simp only [atReleaseGate, Bool.and_eq_true, beq_iff_eq] at hgate
      exact (closed hgate.1 rfl).elim

theorem Run.terminal_step (h : Run allowed rows operations s) (hkeyed : Keyed schema rows)
    (hs : s.history = past ++ en :: future)
    (hstart : ∀ en ∈ s.history, StartsCreated operations ρ en)
    (hresume : ResumesOpen operations ρ en) (hlane : InLane ρ rows) {row : WorkflowRun}
    (hrow : runAt en.before ρ = some row) (hterminal : terminalRun row.status = true) :
    Unchanged en.before en.after ρ := by
  cases htouches : Touches ρ en with
  | false => exact h.unchanged hkeyed hs htouches
  | true =>
      exfalso
      obtain ⟨lane, rfl, hshown, hsound⟩ := h.in_lane hkeyed hstart hlane hs
      obtain rfl := Option.some.inj (hshown.run.symm.trans hrow)
      obtain ⟨operation, turn, hoperation, -, hmove, -⟩ :=
        h.moves hkeyed hs (hstart en (by simp [hs])) hshown hsound htouches
      obtain ⟨organizationId, rfl⟩ := hmove.terminal hsound hterminal
      obtain ⟨r, hr, -⟩ := touches_iff.mp htouches
      have hopen := hresume _ _ hoperation (List.ne_nil_of_mem hr) hrow
      rw [hterminal] at hopen
      cases hopen

theorem Unchanged.trans {a b c : List Row} (h : Unchanged a b ρ) (h' : Unchanged b c ρ) :
    Unchanged a c ρ :=
  ⟨h'.run.trans h.run, fun k => (h'.steps k).trans (h.steps k)⟩

/-- A run that is over stays as it is, and so do its steps, in a run of the services whose
starts find it CREATED and whose resumes find it not over. -/
theorem terminal_absorbs (hkeyed : Keyed schema rows) (hcreated : JustCreated rows ρ)
    (h : Run allowed rows operations s)
    (hstart : ∀ en ∈ s.history, StartsCreated operations ρ en)
    (hresume : ∀ en ∈ s.history, ResumesOpen operations ρ en) :
    ∀ past en future row, s.history = past ++ en :: future → runAt en.after ρ = some row →
      terminalRun row.status = true →
        runAt s.rows ρ = some row ∧ ∀ a, StepOf s.rows ρ a ↔ StepOf en.after ρ a := by
  intro past en future row hs hrow hterminal
  have hchained := h.ledger.chained
  rw [hs, chained_append] at hchained
  obtain ⟨middle, -, -, hfuture⟩ := hchained
  have hsame := hfuture.invariant (P := fun _ rows => Unchanged en.after rows ρ)
    ⟨rfl, fun _ => Iff.rfl⟩ (by
      intro A b B hB hbefore
      have hb : s.history = (past ++ en :: A) ++ b :: B := by rw [hs, hB]; simp
      have hrow' : runAt b.before ρ = some row := hbefore.run.trans hrow
      exact hbefore.trans (h.terminal_step hkeyed hb hstart (hresume b (by simp [hb]))
        hcreated.in_lane hrow' hterminal))
  exact ⟨hsame.run.trans hrow, hsame.steps⟩

/-- Two calls on a run that has been created: its start and its cancellation. -/
def startAndCancel : List Operation :=
  [.startRun "org".toList "run".toList, .cancelRun ⟨"org".toList, "run".toList, false⟩]

def createdRun : WorkflowRun :=
  { sampleRun with status := .created, currentStepType := none }

theorem created_alone {run : WorkflowRun} (hid : run.id = ρ) (hcreated : run.status = .created) :
    JustCreated [.run run] ρ := by
  have hkeyed : Keyed schema [.run run] := by simp [Database.Keyed]
  constructor
  · rw [← hid, (Keyed.run_mem hkeyed).mp (by simp), Option.map_some, hcreated]
  · intro a ha
    have hmem := (Keyed.step_mem hkeyed).mpr ha.found
    simp at hmem

/-- The run once the calls have taken turns as the schedule says. -/
def statusAfter (operations : List Operation) (schedule : List (Nat × Choice Failure Ans)) :
    Option (Option WorkflowRunStatus × List (EngineeringStepType × WorkflowStepStatus)) :=
  ((System.start [.run createdRun] (operations.map Operation.program)).run schema schedule).map
    fun s => ((runAt s.rows "run".toList).map (·.status),
      (stepsIn s.rows).map fun step => (step.stepType, step.status))

/-- The start reads the CREATED run, then the cancellation goes through. -/
def cancelling : List (Nat × Choice Failure Ans) :=
  List.replicate 2 (0, replies "plan".toList 1) ++ List.replicate 8 (1, replies "plan".toList 1)

def starting : List (Nat × Choice Failure Ans) :=
  List.replicate 7 (0, replies "plan".toList 1)

/-- A cancelled run is RUNNING again, with a READY step. -/
theorem cancelled_run_restarts :
    statusAfter startAndCancel cancelling = some (some .cancelled, []) ∧
      statusAfter startAndCancel (cancelling ++ starting) =
        some (some .running, [(.plan, .ready)]) := by
  decide +kernel

/-- The start, the cancellation and a resume of a run, one after the other. -/
def startCancelResume : List Operation :=
  startAndCancel ++ [.resumeRun "org".toList "run".toList]

def oneByOne : List (Nat × Choice Failure Ans) :=
  let choice := replies "plan".toList 1
  List.replicate 9 (0, choice) ++ List.replicate 8 (1, choice) ++ List.replicate 1 (2, choice)

theorem terminal_absorbs_resume :
    ∃ s, (System.start [.run createdRun] (startCancelResume.map Operation.program)).run schema
        oneByOne = some s ∧
      ∃ en ∈ s.history, ∃ row, row.status = .cancelled ∧ runAt en.after "run".toList = some row ∧
        runAt s.rows "run".toList = some row := by
  have hchecks : ((System.start [.run createdRun] (startCancelResume.map Operation.program)).run
      schema oneByOne).any (fun s =>
        decide (∀ en ∈ s.history, StartsCreated startCancelResume "run".toList en) &&
        decide (∀ en ∈ s.history, ResumesOpen startCancelResume "run".toList en) &&
        s.history.any fun en =>
          (runAt en.after "run".toList).any fun row => row.status == .cancelled) = true := by
    decide +kernel
  obtain ⟨s, hs, hchecked⟩ := (Option.any_eq_true _ _).mp hchecks
  simp only [Bool.and_eq_true, decide_eq_true_eq, List.any_eq_true, Option.any_eq_true,
    beq_iff_eq] at hchecked
  obtain ⟨⟨hstart, hresume⟩, en, hen, row, hrow, hcancelled⟩ := hchecked
  have hrun : Run (fun _ => True) [.run createdRun] startCancelResume s :=
    System.run_reaches (fun _ _ => trivial) .refl hs
  obtain ⟨past, future, hsplit⟩ := List.append_of_mem hen
  have hend := (terminal_absorbs (by decide) (created_alone rfl rfl) hrun hstart hresume past en future row hsplit
    hrow (by rw [hcancelled]; rfl)).1
  exact ⟨s, hs, en, hen, row, hcancelled, hrow, hend⟩

end Workflow
