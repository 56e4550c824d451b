import VitoPlatform.Workflow.CorrectionBound
import VitoPlatform.Workflow.Coherence

/-!
# No release without a human

A RELEASE_EXECUTION step is the successor of a HUMAN_RELEASE_GATE step that a person has
approved, and the gate the successor of a SUCCEEDED VERIFY step. From that VERIFY step on the
run is at its verification, its gate or its release (`Lane.Late`), so nothing is built, tested or
corrected any more.
-/

namespace Workflow

open Text Policy Persistence Invocation Database

/-! ## The last steps of the graph -/

section Graph

variable {input : StateMachineInput} {reason : BlockReason}

theorem nextEngineeringStep_release (h : nextEngineeringStep input = .nextStep .releaseExecution) :
    input.completedStep = .humanReleaseGate ∧ input.humanApproved = true := by
  have hstep : input.completedStep = .humanReleaseGate := by
    have hmem := (nextEngineeringStep_next h).1
    cases hstep : input.completedStep <;> rw [hstep] at hmem <;> simp [successors] at hmem ⊢
  refine ⟨hstep, ?_⟩
  unfold nextEngineeringStep at h
  split at h
  · cases h
  · simp only [hstep] at h
    split at h
    · assumption
    · cases h

theorem nextEngineeringStep_gate (h : nextEngineeringStep input = .nextStep .humanReleaseGate) :
    input.completedStep = .verify ∧ input.stepStatus = .succeeded := by
  have hstep : input.completedStep = .verify := by
    have hmem := (nextEngineeringStep_next h).1
    cases hstep : input.completedStep <;> rw [hstep] at hmem <;> simp [successors] at hmem ⊢
  refine ⟨hstep, ?_⟩
  unfold nextEngineeringStep at h
  split at h
  · cases h
  · simp only [hstep, advance] at h
    split at h
    · assumption
    · cases h

/-- VERIFY, HUMAN_RELEASE_GATE, RELEASE_EXECUTION or REMOTE_VERIFY. -/
def lateStep : EngineeringStepType → Bool
  | .verify | .humanReleaseGate | .releaseExecution | .remoteVerify => true
  | _ => false

theorem nextEngineeringStep_late {next : EngineeringStepType}
    (h : nextEngineeringStep input = .nextStep next) (hlate : lateStep input.completedStep = true) :
    lateStep next = true := by
  have hmem := (nextEngineeringStep_next h).1
  cases hstep : input.completedStep <;> rw [hstep] at hmem hlate <;>
    simp [successors] at hmem <;> simp_all [lateStep]

/-- What blocks a run at its last steps. -/
theorem nextEngineeringStep_late_blocked (h : nextEngineeringStep input = .blocked reason)
    (hlate : lateStep input.completedStep = true) :
    reason.code = .providerBlocked ∨ reason.code = .humanApprovalMissing := by
  unfold nextEngineeringStep at h
  split at h
  · rw [← TransitionOutcome.blocked.inj h]
    exact .inl rfl
  have forward : ∀ {outcome : TransitionOutcome} {text : String},
      advance input outcome text = .blocked reason → outcome = .blocked reason := by
    intro outcome text hadvance
    rw [advance] at hadvance
    split at hadvance
    · exact hadvance
    · cases hadvance
  cases hstep : input.completedStep with
  | humanReleaseGate =>
      simp only [hstep] at h
      split at h
      · cases h
      · rw [← TransitionOutcome.blocked.inj h]
        exact .inr rfl
  | verify | releaseExecution | remoteVerify =>
      simp only [hstep] at h
      cases forward h
  | plan | build | test | package | redTeam | parseVerdict | correction =>
      rw [hstep] at hlate
      cases hlate

end Graph

/-! ## Late lanes -/

variable {allowed : Choice Failure Ans → Prop} {rows : List Row} {operations : List Operation}
variable {s : System Row Ask Failure Ans Unit} {past future : List LogEntry} {en : LogEntry}
variable {operation : Operation} {reads : WorkflowRun → WorkflowRun → Prop} {ρ : Str}

/-- A lane at the last steps of the graph, or stopped after them. -/
structure Lane.Late (lane : Lane) : Prop where
  step : ∀ k, lane.step = some k → lateStep k.stepType = true
  begun : lane.run.status ≠ .created
  decided : awaitsDecision lane.run = false
  spent : exhausted lane.run = false

theorem Lane.Late.of_running {lane : Lane} (hrunning : lane.run.status = .running)
    (hstep : ∀ k, lane.step = some k → lateStep k.stepType = true) : lane.Late := by
  refine ⟨hstep, ?_, ?_, ?_⟩
  · rw [hrunning]
    nofun
  · rw [awaitsDecision, hrunning]
    rfl
  · rw [exhausted, hrunning]
    rfl

theorem Lane.Late.of_other {lane : Lane} (hbegun : lane.run.status ≠ .created)
    (hblocked : lane.run.status ≠ .blocked)
    (hstep : ∀ k, lane.step = some k → lateStep k.stepType = true) : lane.Late := by
  refine ⟨hstep, hbegun, ?_, ?_⟩
  · simp [awaitsDecision, hblocked]
  · simp [exhausted, hblocked]

/-- The completion of a late step leads to a late step, or stops the run. -/
theorem completion_late {input : CompleteStepInput} {freshRun row : WorkflowRun}
    {step : WorkflowStepRun} {now : Int} {id : Str} (hstep : lateStep step.stepType = true) :
    (completion input freshRun step now id row).lane.Late := by
  rw [completion_lane]
  cases houtcome : outcomeOf input freshRun step with
  | nextStep next =>
      refine .of_running rfl fun k hk => ?_
      rw [← Option.some.inj hk]
      exact nextEngineeringStep_late houtcome hstep
  | completed | failed reason => exact .of_other nofun nofun fun k hk => nomatch hk
  | blocked reason =>
      have hcode := nextEngineeringStep_late_blocked houtcome hstep
      refine ⟨fun k hk => ?_, nofun, ?_, ?_⟩
      · dsimp only at hk
        split at hk
        · rw [← Option.some.inj hk]
          exact hstep
        · cases hk
      · change (_ && (some reason.code == some _) && _) = false
        obtain hcode | hcode := hcode <;> simp [hcode]
      · change (_ && (some reason.code == some _) && _) = false
        obtain hcode | hcode := hcode <;> simp [hcode]

theorem Move.late {lane : Lane} {turn : Turn} (h : Move reads operation lane turn)
    (hlate : lane.Late) : turn.lane.Late := by
  cases h with
  | start row now id hcreated => exact absurd hcreated hlate.begun
  | complete input freshRun row step now id => exact completion_late (hlate.step step rfl)
  | cancel input row step now =>
      refine .of_other nofun nofun fun k hk => ?_
      cases step with
      | none => cases hk
      | some k₀ =>
          rw [Turn.lane, Option.none_or, Option.map_some, Option.filter_some] at hk
          cases hk
  | resume run row step =>
      refine .of_running rfl fun k hk => ?_
      rw [Turn.lane, Option.none_or] at hk
      obtain ⟨k₀, hk₀, rfl⟩ := Option.map_eq_some_iff.mp (Option.filter_eq_some_iff.mp hk).1
      rw [wake_stepType]
      exact hlate.step k₀ hk₀
  | resumeWaiting run row step =>
      refine .of_running rfl fun k hk => ?_
      rw [Turn.lane, Option.none_or] at hk
      exact hlate.step k (Option.filter_eq_some_iff.mp hk).1
  | requestCorrection input row parseStepId now id hawaits =>
      have hdecided := hlate.decided
      rw [hawaits] at hdecided
      cases hdecided
  | recoverLoop input row approvalRef correctionStepId now id hexhausted =>
      have hspent := hlate.spent
      rw [hexhausted] at hspent
      cases hspent
  | recoverRelease input row gate cancelledAt data id hgate _ htype =>
      simp only [atReleaseGate, Bool.and_eq_true, beq_iff_eq] at hgate
      refine .of_running hgate.1 fun k hk => ?_
      rw [← Option.some.inj hk, StepData.row_stepType, htype]
      rfl

/-- A new gate or release is the successor of a completed step. -/
theorem Move.successor {lane : Lane} {turn : Turn} (h : Move reads operation lane turn)
    {n : WorkflowStepRun} (hn : turn.new = some n)
    (htype : n.stepType = .humanReleaseGate ∨ n.stepType = .releaseExecution) :
    ∃ input freshRun step now, operation.Completes input ∧ lane.step = some step ∧
      outcomeOf input freshRun step = .nextStep n.stepType ∧ n.causationId = some step.id ∧
        turn.left = some (completedRow input now step) := by
  cases h with
  | complete input freshRun row step now id hcompletes =>
      obtain ⟨next, hnext, rfl⟩ := completion_new hn
      exact ⟨input, freshRun, step, now, hcompletes, rfl, hnext, rfl, rfl⟩
  | cancel | resume | resumeWaiting => cases hn
  | start row now id | requestCorrection input row parseStepId now id
  | recoverLoop input row approvalRef correctionStepId now id =>
      rw [← Option.some.inj hn] at htype
      obtain htype | htype := htype <;> cases htype
  | recoverRelease input row gate cancelledAt data id _ _ hverify =>
      rw [← Option.some.inj hn, StepData.row_stepType, hverify] at htype
      obtain htype | htype := htype <;> cases htype

/-- Only a completion makes the open step SUCCEEDED. -/
theorem Move.succeeds {lane : Lane} {turn : Turn} (h : Move reads operation lane turn)
    {k w : WorkflowStepRun} (hk : lane.step = some k) (hopen : terminalStep k.status = false)
    (hw : turn.left = some w) (hsucceeded : w.status = .succeeded) :
    ∃ input freshRun row now id, turn = completion input freshRun k now id row := by
  have other : w.status = .cancelled ∨ w.status = .ready ∨ w.status = k.status → False := by
    rintro (hstatus | hstatus | hstatus)
    · rw [hsucceeded] at hstatus
      cases hstatus
    · rw [hsucceeded] at hstatus
      cases hstatus
    · rw [← hstatus, hsucceeded] at hopen
      cases hopen
  cases h with
  | complete input freshRun row step now id =>
      obtain rfl := Option.some.inj hk
      exact ⟨input, freshRun, row, now, id, rfl⟩
  | start | requestCorrection | recoverLoop => cases hk
  | cancel input row step now =>
      obtain rfl : step = some k := hk
      refine (other (.inl ?_)).elim
      rw [← Option.some.inj hw]
      rfl
  | resume run row step =>
      obtain rfl : step = some k := hk
      refine (other ?_).elim
      rw [← Option.some.inj hw, wake]
      split
      · exact .inr (.inl rfl)
      · exact .inr (.inr rfl)
  | resumeWaiting run row step =>
      obtain rfl : step = some k := hk
      refine (other (.inr (.inr ?_))).elim
      rw [Option.some.inj hw]
  | recoverRelease input row gate cancelledAt data id =>
      refine (other (.inl ?_)).elim
      rw [← Option.some.inj hw]
      rfl

theorem targetStatus_of_next {input : CompleteStepInput} {freshRun : WorkflowRun}
    {step : WorkflowStepRun} {next : EngineeringStepType}
    (h : outcomeOf input freshRun step = .nextStep next)
    (hsucceeded : input.stepStatus = .succeeded) : targetStatus input = .succeeded := by
  rw [targetStatus, hsucceeded, if_neg]
  intro hblocked
  obtain ⟨status, hstatus⟩ := outcomeOf_of_providerBlocked hblocked freshRun step
  rw [hstatus] at h
  cases h

/-! ## Gates and releases -/

/-- The cause of a gate is a VERIFY step of the run that has SUCCEEDED. -/
structure Verified (rows : List Row) (workflowRunId : Str) (gate verify : WorkflowStepRun) :
    Prop where
  found : StepOf rows workflowRunId verify
  cause : gate.causationId = some verify.id
  type : verify.stepType = .verify
  succeeded : verify.status = .succeeded

/-- A person has completed a gate, by `HumanReleaseApprovalService.approve`. -/
def Approved (operations : List Operation) (history : List LogEntry) (gateId : Str) : Prop :=
  ∃ past en future input step freshRun row now created, history = past ++ en :: future ∧
    operations[en.call]? = some (.approveRelease input) ∧ input.isMachineIdentity = false ∧
      Completed (approval input gateId) past en step freshRun row now created

/-- The cause of a release is a gate of the run that a person has approved. -/
structure Released (operations : List Operation) (history : List LogEntry) (rows : List Row)
    (workflowRunId : Str) (release gate : WorkflowStepRun) : Prop where
  found : StepOf rows workflowRunId gate
  cause : release.causationId = some gate.id
  type : gate.stepType = .humanReleaseGate
  succeeded : gate.status = .succeeded
  approved : Approved operations history gate.id

/-- What holds of the gates and releases of a run after the steps in `past`. -/
structure Releasing (operations : List Operation) (past : List LogEntry) (rows : List Row)
    (lane : Lane) : Prop where
  gates : ∀ g, StepOf rows lane.run.id g → g.stepType = .humanReleaseGate →
    ∃ v, Verified rows lane.run.id g v
  releases : ∀ r, StepOf rows lane.run.id r → r.stepType = .releaseExecution →
    ∃ g, Released operations past rows lane.run.id r g
  late : ∀ v, StepOf rows lane.run.id v → v.stepType = .verify → v.status = .succeeded → lane.Late

theorem Approved.snoc {gateId : Str} (h : Approved operations past gateId) :
    Approved operations (past ++ [en]) gateId := by
  obtain ⟨A, e, B, input, step, freshRun, row, now, created, rfl, hrest⟩ := h
  exact ⟨A, e, B ++ [en], input, step, freshRun, row, now, created, by simp, hrest⟩

/-- A terminal step of a run is still there after the next step of the run of the services. -/
theorem Run.terminal_kept (h : Run allowed rows operations s) (hkeyed : Keyed schema rows)
    (hs : s.history = past ++ en :: future) {b : WorkflowStepRun} (hb : StepOf en.before ρ b)
    (hterminal : terminalStep b.status = true) : StepOf en.after ρ b :=
  ⟨h.steady hkeyed hs hb.found hterminal, hb.of_run⟩

theorem Verified.kept (h : Run allowed rows operations s) (hkeyed : Keyed schema rows)
    (hs : s.history = past ++ en :: future) {g g' v : WorkflowStepRun}
    (hverified : Verified en.before ρ g v) (hcause : g'.causationId = g.causationId) :
    Verified en.after ρ g' v := by
  refine ⟨h.terminal_kept hkeyed hs hverified.found ?_, hcause.trans hverified.cause,
    hverified.type, hverified.succeeded⟩
  rw [hverified.succeeded]
  rfl

theorem Released.kept (h : Run allowed rows operations s) (hkeyed : Keyed schema rows)
    (hs : s.history = past ++ en :: future) {r r' g : WorkflowStepRun}
    (hreleased : Released operations past en.before ρ r g)
    (hcause : r'.causationId = r.causationId) :
    Released operations (past ++ [en]) en.after ρ r' g := by
  refine ⟨h.terminal_kept hkeyed hs hreleased.found ?_, hcause.trans hreleased.cause,
    hreleased.type, hreleased.succeeded, hreleased.approved.snoc⟩
  rw [hreleased.succeeded]
  rfl

/-- A new gate follows the VERIFY step that its completion has made SUCCEEDED. -/
theorem Turned.verified {before after : List Row} {lane : Lane} {turn : Turn}
    (hturned : Turned before after lane turn) (hmove : Move reads operation lane turn)
    {n : WorkflowStepRun} (hn : turn.new = some n) (htype : n.stepType = .humanReleaseGate) :
    ∃ v, Verified after lane.run.id n v := by
  obtain ⟨input, freshRun, step, now, -, hstep, houtcome, hcause, hleft⟩ :=
    hmove.successor hn (.inl htype)
  rw [htype] at houtcome
  obtain ⟨hverify, hsucceeded⟩ := nextEngineeringStep_gate houtcome
  have hfound : StepOf after lane.run.id (completedRow input now step) :=
    (hturned.steps _).mpr (.inl hleft)
  exact ⟨completedRow input now step, hfound, hcause, hverify,
    targetStatus_of_next houtcome hsucceeded⟩

/-- A new release follows the gate that a person has just approved. -/
theorem Turned.released {lane : Lane} {turn : Turn}
    (hturned : Turned en.before en.after lane turn) (hshown : lane.Shown en.before)
    (hmove : Move reads operation lane turn) (hchange : Change past en operation)
    (hoperation : operations[en.call]? = some operation)
    (hhuman : ∀ input, .completeStep input ∈ operations → input.humanApproved = false)
    {n : WorkflowStepRun} (hn : turn.new = some n) (htype : n.stepType = .releaseExecution) :
    ∃ g, Released operations (past ++ [en]) en.after lane.run.id n g := by
  have htarget := hmove.target
  obtain ⟨input, freshRun, step, now, hcompletes, hstep, houtcome, hcause, hleft⟩ :=
    hmove.successor hn (.inr htype)
  rw [htype] at houtcome
  obtain ⟨hgate, happroved⟩ := nextEngineeringStep_release houtcome
  have hfound : StepOf en.after lane.run.id (completedRow input now step) :=
    (hturned.steps _).mpr (.inl hleft)
  cases hcompletes with
  | completeStep =>
      have hnever := hhuman input (List.mem_of_getElem? hoperation)
      change input.humanApproved = true at happroved
      rw [hnever] at happroved
      cases happroved
  | approveRelease input gateId hperson =>
      refine ⟨completedRow (approval input gateId) now step, hfound, hcause, hgate, rfl, ?_⟩
      cases hchange with
      | approveRelease gateId' step' freshRun' row now' created hperson' hc =>
          have hid : lane.run.id = input.workflowRunId := (Option.some.inj htarget).symm
          have hown : lane.step = some step' := by
            refine (hshown.step step').mpr ⟨⟨?_, ?_⟩, ?_⟩
            · rw [stepAt_id hc.step_now, hc.step_now]
            · rw [hc.of_run, hid]
              rfl
            · rw [hc.ready]
              rfl
          obtain rfl := Option.some.inj (hstep.symm.trans hown)
          have hgateId : gateId' = step.id := (stepAt_id hc.step_now).symm
          rw [hgateId] at hc
          exact ⟨past, en, [], input, step, freshRun', row, now', created, rfl, hoperation,
            hperson, hc⟩

theorem Run.releasing_step (h : Run allowed rows operations s) (hkeyed : Keyed schema rows)
    (hs : s.history = past ++ en :: future)
    (hhuman : ∀ input, .completeStep input ∈ operations → input.humanApproved = false)
    {lane : Lane} (hstart : StartsCreated operations lane.run.id en)
    (hshown : lane.Shown en.before) (hsound : lane.Sound)
    (hreleasing : Releasing operations past en.before lane) :
    ∃ lane' : Lane, lane'.run.id = lane.run.id ∧ lane'.Shown en.after ∧ lane'.Sound ∧
      Releasing operations (past ++ [en]) en.after lane' := by
  cases htouches : Touches lane.run.id en with
  | false =>
      have hsame := h.unchanged hkeyed hs htouches
      refine ⟨lane, rfl, hsame.shown hshown, hsound, fun g hg htype => ?_, fun r hr htype => ?_,
        fun v hv htype hsucceeded => ?_⟩
      · obtain ⟨v, hv⟩ := hreleasing.gates g ((hsame.steps g).mp hg) htype
        exact ⟨v, hv.kept h hkeyed hs rfl⟩
      · obtain ⟨g, hg⟩ := hreleasing.releases r ((hsame.steps r).mp hr) htype
        exact ⟨g, hg.kept h hkeyed hs rfl⟩
      · exact hreleasing.late v ((hsame.steps v).mp hv) htype hsucceeded
  | true =>
      obtain ⟨operation, turn, hoperation, hchange, hmove, hturned⟩ :=
        h.moves hkeyed hs hstart hshown hsound htouches
      have hid : turn.lane.run.id = lane.run.id := hturned.id
      obtain ⟨f, hleft, hsameStep⟩ := hmove.left fun k hk => ((hshown.step k).mp hk).2
      -- A step of the run is new, or it was there.
      have hsteps : ∀ a, StepOf en.after lane.run.id a →
          turn.new = some a ∨ ∃ b, StepOf en.before lane.run.id b ∧ SameStep b a := by
        intro a ha
        obtain hold | hnew | ⟨hold, -⟩ := (hturned.steps a).mp ha
        · rw [hleft] at hold
          obtain ⟨k, hk, rfl⟩ := Option.map_eq_some_iff.mp hold
          exact .inr ⟨k, ((hshown.step k).mp hk).1, hsameStep k hk⟩
        · exact .inl hnew
        · exact .inr ⟨a, hold, h.step_was hkeyed hs ha hold rfl⟩
      refine ⟨turn.lane, hid, hturned.shown hshown hmove.single, hmove.sound hsound, ?_⟩
      constructor
      · rw [hid]
        intro g hg htype
        obtain hnew | ⟨b, hb, hsame⟩ := hsteps g hg
        · exact hturned.verified hmove hnew htype
        · obtain ⟨v, hv⟩ := hreleasing.gates b hb (hsame.stepType.symm.trans htype)
          exact ⟨v, hv.kept h hkeyed hs hsame.causationId⟩
      · rw [hid]
        intro r hr htype
        obtain hnew | ⟨b, hb, hsame⟩ := hsteps r hr
        · exact hturned.released hshown hmove hchange hoperation hhuman hnew htype
        · obtain ⟨g, hg⟩ := hreleasing.releases b hb (hsame.stepType.symm.trans htype)
          exact ⟨g, hg.kept h hkeyed hs hsame.causationId⟩
      · rw [hid]
        intro v hv htype hsucceeded
        obtain hold | hnew | ⟨hold, -⟩ := (hturned.steps v).mp hv
        · -- The VERIFY step has just been completed.
          have hold' := hold
          rw [hleft] at hold'
          obtain ⟨k, hk, hfk⟩ := Option.map_eq_some_iff.mp hold'
          obtain ⟨input, freshRun, row, now, id, rfl⟩ :=
            hmove.succeeds hk ((hshown.step k).mp hk).2 hold hsucceeded
          refine completion_late ?_
          rw [← (hsameStep k hk).stepType, hfk, htype]
          rfl
        · rw [hmove.single.ready v hnew] at hsucceeded
          cases hsucceeded
        · exact hmove.late (hreleasing.late v hold htype hsucceeded)

/-- The gates and releases of a run are in order after every step of a run of the services. -/
theorem Run.releasing (h : Run allowed rows operations s) (hkeyed : Keyed schema rows)
    (hcreated : JustCreated rows ρ)
    (hhuman : ∀ input, .completeStep input ∈ operations → input.humanApproved = false)
    (hstart : ∀ en ∈ s.history, StartsCreated operations ρ en) {last : List Row}
    (hchained : Chained rows past last) (hpast : ∃ future, s.history = past ++ future) :
    ∃ lane : Lane, lane.run.id = ρ ∧ lane.Shown last ∧ lane.Sound ∧
      Releasing operations past last lane := by
  refine hchained.invariant (P := fun past rows => ∃ lane : Lane, lane.run.id = ρ ∧
    lane.Shown rows ∧ lane.Sound ∧ Releasing operations past rows lane) ?_ ?_
  · obtain ⟨run, rfl, -, hshown⟩ := hcreated.lane
    exact ⟨⟨run, none⟩, rfl, hshown, .none run, fun g hg => absurd hg (hcreated.steps g),
      fun r hr => absurd hr (hcreated.steps r), fun v hv => absurd hv (hcreated.steps v)⟩
  · rintro A b B rfl ⟨lane, rfl, hshown, hsound, hreleasing⟩
    obtain ⟨future, hfuture⟩ := hpast
    have hb : s.history = A ++ b :: (B ++ future) := by rw [hfuture]; simp
    exact h.releasing_step hkeyed hb hhuman (hstart b (by simp [hb])) hshown hsound hreleasing

/-- A step of a late lane that ends is one of the last steps of the graph. -/
theorem Run.ends_late (h : Run allowed rows operations s) (hkeyed : Keyed schema rows)
    (hs : s.history = past ++ en :: future) {lane : Lane}
    (hstart : StartsCreated operations lane.run.id en) (hshown : lane.Shown en.before)
    (hsound : lane.Sound) (hlate : lane.Late) {w : WorkflowStepRun}
    (hw : StepOf en.after lane.run.id w) (hends : Finishes w.id en = true) :
    lateStep w.stepType = true := by
  have hmoved : StepOf en.before lane.run.id w → False := by
    intro hbefore
    rw [Finishes, statusAt, statusAt, hbefore.found, hw.found] at hends
    simp at hends
  obtain ⟨w', hw', hterminal⟩ := Finishes.terminal hends
  obtain rfl := Option.some.inj (hw.found.symm.trans hw')
  cases htouches : Touches lane.run.id en with
  | false => exact (hmoved (((h.unchanged hkeyed hs htouches).steps w).mp hw)).elim
  | true =>
      obtain ⟨operation, turn, -, -, hmove, hturned⟩ :=
        h.moves hkeyed hs hstart hshown hsound htouches
      obtain ⟨f, hleft, hsame⟩ := hmove.left fun k hk => ((hshown.step k).mp hk).2
      obtain hold | hnew | ⟨hold, -⟩ := (hturned.steps w).mp hw
      · rw [hleft] at hold
        obtain ⟨k, hk, rfl⟩ := Option.map_eq_some_iff.mp hold
        rw [(hsame k hk).stepType]
        exact hlate.step k hk
      · rw [hmove.single.ready w hnew] at hterminal
        cases hterminal
      · exact (hmoved hold).elim

/-- No release without a human after the verification, in a run of the services whose starts
find the run CREATED. -/
theorem release_approved (hkeyed : Keyed schema rows) (hcreated : JustCreated rows ρ)
    (hhuman : ∀ input, .completeStep input ∈ operations → input.humanApproved = false)
    (h : Run allowed rows operations s)
    (hstart : ∀ en ∈ s.history, StartsCreated operations ρ en) :
    ∀ release, StepOf s.rows ρ release → release.stepType = .releaseExecution →
      ∃ gate verify, Released operations s.history s.rows ρ release gate ∧
        Verified s.rows ρ gate verify ∧
        ∀ past en future, s.history = past ++ en :: future → Finishes verify.id en = true →
          ∀ e ∈ future, ∀ w, StepOf s.rows ρ w → Finishes w.id e = true →
            w.stepType ≠ .correction ∧ w.stepType ≠ .build ∧ w.stepType ≠ .test := by
  intro release hrelease htype
  obtain ⟨lane, rfl, -, -, hreleasing⟩ := h.releasing hkeyed hcreated hhuman hstart
    h.ledger.chained ⟨[], (List.append_nil _).symm⟩
  obtain ⟨gate, hgate⟩ := hreleasing.releases release hrelease htype
  obtain ⟨verify, hverify⟩ := hreleasing.gates gate hgate.found hgate.type
  refine ⟨gate, verify, hgate, hverify, fun past en future hs hverified e he w hw hends => ?_⟩
  -- The VERIFY step was already as it is now when `e` happened.
  obtain ⟨F, G, rfl⟩ := List.append_of_mem he
  have he : s.history = (past ++ en :: F) ++ e :: G := by rw [hs]; simp
  have settled : ∀ {A B : List LogEntry} {b : LogEntry} {k k' : WorkflowStepRun},
      s.history = A ++ b :: B → stepAt b.after k.id = some k' → terminalStep k'.status = true →
      StepOf s.rows lane.run.id k → k' = k := by
    intro A B b k k' hb hk' hterminal hk
    obtain ⟨r, hr, hevolves⟩ := h.evolves_end hkeyed hb (stepAt_eq_some.mp hk')
    rw [stepAt_eq_some.mp hk.found] at hr
    obtain rfl := Option.some.inj hr
    have hsame : SameStep k' k := hevolves
    exact (hsame.terminal hterminal).symm
  obtain ⟨v, hv, hvterminal⟩ := Finishes.terminal hverified
  obtain rfl := settled hs hv hvterminal hverify.found
  obtain ⟨r, hr, hevolves⟩ := h.evolves_after hkeyed he rfl (stepAt_eq_some.mp hv)
  have hthen : StepOf e.before lane.run.id v := by
    cases r with
    | step v' =>
        have hsame : SameStep v v' := hevolves
        rw [hsame.terminal hvterminal] at hr
        exact ⟨stepAt_eq_some.mpr hr, hverify.found.of_run⟩
    | run _ | claim _ => exact hevolves.elim
  obtain ⟨lane', hid, hshown, hsound, hreleasing'⟩ := h.releasing hkeyed hcreated hhuman hstart
    (h.ledger.take he).chained ⟨e :: G, he⟩
  rw [← hid] at hthen
  have hlate := hreleasing'.late v hthen hverify.type hverify.succeeded
  obtain ⟨w', hw', hwterminal⟩ := Finishes.terminal hends
  obtain rfl := settled he hw' hwterminal hw
  have hafter : StepOf e.after lane'.run.id w' := ⟨hw', by rw [hid]; exact hw.of_run⟩
  have hlast := h.ends_late hkeyed he (by rw [hid]; exact hstart e (by simp [he])) hshown hsound
    hlate hafter hends
  refine ⟨?_, ?_, ?_⟩
  · rintro heq
    rw [heq] at hlast
    cases hlast
  · rintro heq
    rw [heq] at hlast
    cases hlast
  · rintro heq
    rw [heq] at hlast
    cases hlast

/-! ## A release -/

def succeed (stepId : String) : Operation :=
  .completeStep (sampleCompletion stepId.toList .succeeded)

/-- The calls that take a run from its start to its release. -/
def releaseCalls : List Operation :=
  [.startRun "org".toList "run".toList, succeed "plan", succeed "build", succeed "test",
    succeed "package", succeed "review",
    .completeStep
      { sampleCompletion "verdict".toList .succeeded with verdict := some (.known .A) },
    succeed "verify", .approveRelease ⟨"org".toList, "run".toList, "user".toList, false⟩]

/-- Calls from `i` on, one after the other, each for its number of steps and with its id. -/
def turnsFrom (i : Nat) : List (Nat × String) → List (Nat × Choice Failure Ans)
  | [] => []
  | (steps, id) :: rest =>
      List.replicate steps (i, replies id.toList i) ++ turnsFrom (i + 1) rest

/-- The run up to its gate. -/
def toTheGate : List (Nat × Choice Failure Ans) :=
  turnsFrom 0 [(9, "plan"), (13, "build"), (13, "test"), (13, "package"), (13, "review"),
    (13, "verdict"), (13, "verify"), (13, "gate")]

theorem release_approved_user :
    ∃ s, (System.start [.run createdRun] (releaseCalls.map Operation.program)).run schema
        (toTheGate ++ turnsFrom 8 [(16, "release")]) = some s ∧
      ∃ release, StepOf s.rows "run".toList release ∧ release.stepType = .releaseExecution ∧
        ∃ gate, Released releaseCalls s.history s.rows "run".toList release gate := by
  have hchecks : ((System.start [.run createdRun] (releaseCalls.map Operation.program)).run
      schema (toTheGate ++ turnsFrom 8 [(16, "release")])).any (fun s =>
        decide (∀ en ∈ s.history, StartsCreated releaseCalls "run".toList en) &&
        (stepAt s.rows "release".toList).any fun release =>
          release.workflowRunId == "run".toList && release.stepType == .releaseExecution) =
      true := by
    decide +kernel
  obtain ⟨s, hs, hchecked⟩ := (Option.any_eq_true _ _).mp hchecks
  simp only [Bool.and_eq_true, decide_eq_true_eq, Option.any_eq_true, beq_iff_eq] at hchecked
  obtain ⟨hstart, release, hrelease, hof, htype⟩ := hchecked
  have hrun : Run (fun _ => True) [.run createdRun] releaseCalls s :=
    System.run_reaches (fun _ _ => trivial) .refl hs
  have hfound : StepOf s.rows "run".toList release := by
    refine ⟨?_, hof⟩
    rw [stepAt_id hrelease, hrelease]
  have hhuman : ∀ input, .completeStep input ∈ releaseCalls → input.humanApproved = false := by
    intro input hinput
    simp only [releaseCalls, succeed, List.mem_cons, Operation.completeStep.injEq, reduceCtorEq,
      List.not_mem_nil, or_false, false_or] at hinput
    obtain rfl | rfl | rfl | rfl | rfl | rfl | rfl := hinput <;> rfl
  obtain ⟨gate, _, hreleased, -⟩ := release_approved (by decide) (created_alone rfl rfl) hhuman
    hrun hstart release hfound htype
  exact ⟨s, hs, release, hfound, htype, gate, hreleased⟩

/-- The same calls, with a second start of the run and two more completions. -/
def rebuildCalls : List Operation :=
  releaseCalls ++ [.startRun "org".toList "run".toList, succeed "plan2", succeed "build2"]

/-- The second start reads the CREATED run and waits until a person approves the gate; the run
is at its TEST again when the approval goes on. -/
def rebuilding : List (Nat × Choice Failure Ans) :=
  turnsFrom 9 [(2, "")] ++ toTheGate ++ turnsFrom 8 [(7, "")] ++
    turnsFrom 9 [(7, "plan2"), (13, "build2"), (13, "test2")] ++ turnsFrom 8 [(9, "release")]

/-- A BUILD step of a run ends after another step has ended. -/
def rebuiltAfter (s : System Row Ask Failure Ans Unit) (workflowRunId stepId : Str) : Bool :=
  s.history.tails.any fun
    | [] => false
    | en :: future => Finishes stepId en && future.any fun e =>
        (stepsIn s.rows).any fun w =>
          w.workflowRunId == workflowRunId && w.stepType == .build && Finishes w.id e

theorem rebuiltAfter_split {s : System Row Ask Failure Ans Unit} {ρ stepId : Str}
    (hkeyed : Keyed schema s.rows) (h : rebuiltAfter s ρ stepId = true) :
    ∃ past en future, s.history = past ++ en :: future ∧ Finishes stepId en = true ∧
      ∃ e ∈ future, ∃ w, StepOf s.rows ρ w ∧ w.stepType = .build ∧ Finishes w.id e = true := by
  obtain ⟨tail, htail, hchecked⟩ := List.any_eq_true.mp h
  obtain ⟨past, hpast⟩ := (List.mem_tails _ _).mp htail
  cases tail with
  | nil => cases hchecked
  | cons en future =>
      simp only [Bool.and_eq_true, List.any_eq_true, beq_iff_eq] at hchecked
      obtain ⟨hends, e, he, w, hw, ⟨hof, htype⟩, hwends⟩ := hchecked
      exact ⟨past, en, future, hpast.symm, hends, e, he, w,
        ⟨(Keyed.step_mem hkeyed).mp (mem_stepsIn.mp hw), hof⟩, htype, hwends⟩

/-- A release whose gate follows a VERIFY step that a BUILD step has followed. -/
theorem release_after_rebuild :
    ∃ s, (System.start [.run createdRun] (rebuildCalls.map Operation.program)).run schema
        rebuilding = some s ∧
      ∃ release, StepOf s.rows "run".toList release ∧ release.stepType = .releaseExecution ∧
        ¬ ∃ gate verify, Released rebuildCalls s.history s.rows "run".toList release gate ∧
          Verified s.rows "run".toList gate verify ∧
          ∀ past en future, s.history = past ++ en :: future → Finishes verify.id en = true →
            ∀ e ∈ future, ∀ w, StepOf s.rows "run".toList w → Finishes w.id e = true →
              w.stepType ≠ .correction ∧ w.stepType ≠ .build ∧ w.stepType ≠ .test := by
  have hchecks : ((System.start [.run createdRun] (rebuildCalls.map Operation.program)).run
      schema rebuilding).any (fun s =>
        decide (Keyed schema s.rows) && rebuiltAfter s "run".toList "verify".toList &&
        ((stepAt s.rows "release".toList).any fun release =>
          release.workflowRunId == "run".toList && release.stepType == .releaseExecution &&
          release.causationId == some "gate".toList) &&
        (stepAt s.rows "gate".toList).any fun gate =>
          gate.causationId == some "verify".toList) = true := by
    decide +kernel
  obtain ⟨s, hs, hchecked⟩ := (Option.any_eq_true _ _).mp hchecks
  simp only [Bool.and_eq_true, decide_eq_true_eq, Option.any_eq_true, beq_iff_eq] at hchecked
  obtain ⟨⟨⟨hkeyed, hrebuilt⟩, release, hrelease, ⟨hof, htype⟩, hcause⟩, gate₀, hgate₀,
    hgateCause⟩ := hchecked
  refine ⟨s, hs, release, ⟨by rw [stepAt_id hrelease, hrelease], hof⟩, htype, ?_⟩
  rintro ⟨gate, verify, hreleased, hverified, hnever⟩
  -- The causes are the gate and the VERIFY step of the first chain.
  have hgateId : gate.id = "gate".toList :=
    Option.some.inj (hreleased.cause.symm.trans hcause)
  have hgate := hreleased.found.found
  rw [hgateId, hgate₀] at hgate
  obtain rfl := Option.some.inj hgate
  have hverifyId : verify.id = "verify".toList :=
    Option.some.inj (hverified.cause.symm.trans hgateCause)
  obtain ⟨past, en, future, hsplit, hends, e, he, w, hw, hbuild, hwends⟩ :=
    rebuiltAfter_split hkeyed hrebuilt
  rw [← hverifyId] at hends
  exact (hnever past en future hsplit hends e he w hw hwends).2.1 hbuild

end Workflow
