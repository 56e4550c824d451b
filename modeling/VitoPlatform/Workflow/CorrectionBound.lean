import VitoPlatform.Workflow.Turns
import Mathlib.Data.List.Nodup

/-!
# The correction bound

A workflow run has as many CORRECTION steps as its count says, and no more than its retry
policy allows. Without a recovery each step of the run has a place in a fixed order: `rank`
gives the place of a step type after so many corrections, every move goes to a later place,
and the last place of a run with at most `m` corrections bounds the number of its steps. What
is left to do, the energy of a lane, falls with every move.
-/

namespace Workflow

open Text Policy Persistence Invocation Database

/-! ## The step graph -/

/-- Where the state machine may go from a completed step. -/
def successors : EngineeringStepType → List EngineeringStepType
  | .plan => [.build]
  | .build => [.test]
  | .test => [.package, .correction]
  | .package => [.redTeam]
  | .redTeam => [.parseVerdict]
  | .parseVerdict => [.verify, .correction]
  | .correction => [.test]
  | .verify => [.humanReleaseGate]
  | .humanReleaseGate => [.releaseExecution]
  | .releaseExecution => [.remoteVerify]
  | .remoteVerify => []

section Graph

variable {input : StateMachineInput} {next : EngineeringStepType}

theorem advance_next {outcome : TransitionOutcome} {reason : String}
    (h : advance input outcome reason = .nextStep next) : outcome = .nextStep next := by
  rw [advance] at h
  split at h
  · exact h
  · cases h

theorem correctOrExhaust_next (h : correctOrExhaust input = .nextStep next) :
    next = .correction ∧ input.correctionLoopCount < input.retryPolicy.maxCorrectionLoops := by
  rw [correctOrExhaust] at h
  split at h
  · cases h
  · rename_i hlt
    exact ⟨(TransitionOutcome.nextStep.inj h).symm, by omega⟩

theorem parseVerdict_next (h : parseVerdict input = .nextStep next) :
    next = .verify ∨
      next = .correction ∧ input.correctionLoopCount < input.retryPolicy.maxCorrectionLoops := by
  rw [parseVerdict] at h
  split at h
  · cases h
  split at h
  · cases h
  split at h
  · cases h
  unfold followVerdict at h
  split at h
  · exact .inl (TransitionOutcome.nextStep.inj h).symm
  · exact .inl (TransitionOutcome.nextStep.inj h).symm
  · exact .inr (correctOrExhaust_next h)
  · cases h
  · cases h

/-- The state machine stays in the graph, and asks for a correction only below the bound. -/
theorem nextEngineeringStep_next (h : nextEngineeringStep input = .nextStep next) :
    next ∈ successors input.completedStep ∧
      (next = .correction →
        input.correctionLoopCount < input.retryPolicy.maxCorrectionLoops) := by
  unfold nextEngineeringStep at h
  split at h
  · cases h
  have forward : ∀ {reason : String} {target : EngineeringStepType},
      advance input (.nextStep target) reason = .nextStep next → target ≠ .correction →
        next = target ∧ next ≠ .correction := by
    intro reason target hadvance htarget
    obtain rfl := TransitionOutcome.nextStep.inj (advance_next hadvance)
    exact ⟨rfl, htarget⟩
  cases hstep : input.completedStep with
  | test =>
      simp only [hstep] at h
      split at h
      · obtain rfl := TransitionOutcome.nextStep.inj h
        exact ⟨by decide, nofun⟩
      · obtain ⟨rfl, hlt⟩ := correctOrExhaust_next h
        exact ⟨by decide, fun _ => hlt⟩
  | parseVerdict =>
      simp only [hstep] at h
      obtain rfl | ⟨rfl, hlt⟩ := parseVerdict_next h
      · exact ⟨by decide, nofun⟩
      · exact ⟨by decide, fun _ => hlt⟩
  | humanReleaseGate =>
      simp only [hstep] at h
      split at h
      · obtain rfl := TransitionOutcome.nextStep.inj h
        exact ⟨by decide, nofun⟩
      · cases h
  | remoteVerify =>
      simp only [hstep] at h
      cases advance_next h
  | plan | build | package | redTeam | correction | verify | releaseExecution =>
      simp only [hstep] at h
      obtain ⟨rfl, hne⟩ := forward h (by decide)
      exact ⟨by decide, fun heq => absurd heq hne⟩

/-- Only a verdict D makes a completion wait for a human decision. -/
theorem nextEngineeringStep_humanDecision {reason : BlockReason}
    (h : nextEngineeringStep input = .blocked reason) (hcode : reason.code = .humanDecisionRequired) :
    input.completedStep = .parseVerdict := by
  unfold nextEngineeringStep at h
  split at h
  · rw [← TransitionOutcome.blocked.inj h] at hcode
    cases hcode
  cases hstep : input.completedStep with
  | parseVerdict => rfl
  | test =>
      simp only [hstep] at h
      split at h
      · cases h
      · rw [correctOrExhaust_blocked h] at hcode
        cases hcode
  | humanReleaseGate =>
      simp only [hstep] at h
      split at h
      · cases h
      · rw [← TransitionOutcome.blocked.inj h] at hcode
        cases hcode
  | plan | build | package | redTeam | correction | verify | releaseExecution | remoteVerify =>
      simp only [hstep] at h
      exact absurd h (advance_blocked nofun)

end Graph

/-! ## The steps of a run, counted -/

/-- The steps of a workflow run. -/
def stepsOf (rows : List Row) (workflowRunId : Str) : List WorkflowStepRun :=
  (stepsIn rows).filter fun step => step.workflowRunId == workflowRunId

/-- What no operation changes of a step, and what is counted. -/
def kind (step : WorkflowStepRun) : Str × EngineeringStepType := (step.id, step.stepType)

def kinds (rows : List Row) (workflowRunId : Str) : List (Str × EngineeringStepType) :=
  (stepsOf rows workflowRunId).map kind

section Counting

variable {rows : List Row} {ρ : Str}

theorem mem_stepsOf (hkeyed : Keyed schema rows) {a : WorkflowStepRun} :
    a ∈ stepsOf rows ρ ↔ StepOf rows ρ a := by
  rw [stepsOf, List.mem_filter, mem_stepsIn, Keyed.step_mem hkeyed, beq_iff_eq]
  exact ⟨fun h => ⟨h.1, h.2⟩, fun h => ⟨h.found, h.of_run⟩⟩

theorem nodup_ids (hkeyed : Keyed schema rows) : ((stepsOf rows ρ).map (·.id)).Nodup := by
  have hsteps : (stepsIn rows).Pairwise fun a b => a.id ≠ b.id := by
    refine List.Pairwise.filterMap _ ?_ (List.pairwise_map.mp hkeyed)
    intro a b hab c hc d hd hid
    rw [Row.step?_eq_some.mp hc, Row.step?_eq_some.mp hd] at hab
    exact hab (congrArg RowKey.step hid)
  exact List.pairwise_map.mpr (hsteps.filter _)

theorem nodup_kinds (hkeyed : Keyed schema rows) : (kinds rows ρ).Nodup := by
  refine List.Nodup.of_map Prod.fst ?_
  rw [kinds, List.map_map]
  exact nodup_ids hkeyed

theorem mem_kinds (hkeyed : Keyed schema rows) {x : Str × EngineeringStepType} :
    x ∈ kinds rows ρ ↔ ∃ a, StepOf rows ρ a ∧ kind a = x := by
  simp only [kinds, List.mem_map, mem_stepsOf hkeyed]

/-- A table in which no step of a run changes counts the same steps. -/
theorem Unchanged.kinds {before after : List Row} (h : Unchanged before after ρ)
    (hbefore : Keyed schema before) (hafter : Keyed schema after) :
    (kinds after ρ).Perm (kinds before ρ) := by
  refine (List.perm_ext_iff_of_nodup (nodup_kinds hafter) (nodup_kinds hbefore)).mpr fun x => ?_
  simp only [mem_kinds hafter, mem_kinds hbefore, h.steps]

/-- A turn adds the new step, and no other. -/
theorem Turned.kinds {reads : WorkflowRun → WorkflowRun → Prop} {operation : Operation}
    {before after : List Row} {lane : Lane} {turn : Turn}
    (h : Turned before after lane turn) (hmove : Move reads operation lane turn)
    (hshown : lane.Shown before) (hbefore : Keyed schema before) (hafter : Keyed schema after) :
    (kinds after lane.run.id).Perm (turn.new.toList.map kind ++ kinds before lane.run.id) := by
  obtain ⟨f, hleft, hsame⟩ := hmove.left fun k hk => ((hshown.step k).mp hk).2
  have hkept : ∀ k, lane.step = some k → kind (f k) = kind k := by
    intro k hk
    rw [kind, (hsame k hk).id, (hsame k hk).stepType, kind]
  have hnew : ((turn.new.toList.map kind) ++ Workflow.kinds before lane.run.id).Nodup := by
    rw [List.nodup_append]
    refine ⟨?_, nodup_kinds hbefore, ?_⟩
    · cases turn.new with
      | none => exact List.nodup_nil
      | some n => exact List.nodup_singleton _
    · intro x hx y hy hxy
      obtain ⟨n, hn, rfl⟩ := List.mem_map.mp hx
      obtain ⟨a, ha, rfl⟩ := (mem_kinds hbefore).mp hy
      exact ha.ne_fresh (h.fresh n (Option.mem_toList.mp hn)) (congrArg Prod.fst hxy).symm
  refine (List.perm_ext_iff_of_nodup (nodup_kinds hafter) hnew).mpr fun x => ?_
  rw [mem_kinds hafter, List.mem_append, mem_kinds hbefore, List.mem_map]
  constructor
  · rintro ⟨a, ha, rfl⟩
    obtain ha | ha | ⟨ha, -⟩ := (h.steps a).mp ha
    · rw [hleft, Option.map_eq_some_iff] at ha
      obtain ⟨k, hk, rfl⟩ := ha
      exact .inr ⟨k, ((hshown.step k).mp hk).1, (hkept k hk).symm⟩
    · exact .inl ⟨a, Option.mem_toList.mpr ha, rfl⟩
    · exact .inr ⟨a, ha, rfl⟩
  · rintro (⟨a, ha, rfl⟩ | ⟨a, ha, rfl⟩)
    · exact ⟨a, (h.steps a).mpr (.inr (.inl (Option.mem_toList.mp ha))), rfl⟩
    · by_cases hlane : ∃ k, lane.step = some k ∧ a.id = k.id
      · obtain ⟨k, hk, hid⟩ := hlane
        have hfound := ((hshown.step k).mp hk).1.found
        rw [← hid, ha.found] at hfound
        obtain rfl := Option.some.inj hfound
        refine ⟨f a, (h.steps _).mpr (.inl ?_), hkept a hk⟩
        rw [hleft, hk, Option.map_some]
      · exact ⟨a, (h.steps a).mpr (.inr (.inr ⟨ha, fun k hk hid => hlane ⟨k, hk, hid⟩⟩)), rfl⟩

end Counting

/-! ## The count -/

section Count

variable {operation : Operation} {lane : Lane} {turn : Turn}

/-- A move raises the count by one when it creates a CORRECTION, which it does only below the
bound, and else leaves it alone. -/
theorem Move.correction (h : Move SameCount operation lane turn) :
    turn.run.maxCorrectionLoops = lane.run.maxCorrectionLoops ∧
      ((∃ n, turn.new = some n ∧ n.stepType = .correction ∧
          turn.run.correctionLoopCount = lane.run.correctionLoopCount + 1 ∧
          lane.run.correctionLoopCount < lane.run.maxCorrectionLoops) ∨
        (∀ n, turn.new = some n → n.stepType ≠ .correction) ∧
          turn.run.correctionLoopCount = lane.run.correctionLoopCount) := by
  cases h with
  | start row now id _ =>
      refine ⟨rfl, .inr ⟨fun n hn => ?_, rfl⟩⟩
      rw [← Option.some.inj hn]
      nofun
  | complete input freshRun row step now id _ _ _ hsame hcount =>
      unfold completion
      cases houtcome : outcomeOf input freshRun step with
      | nextStep next =>
          obtain ⟨-, hbound⟩ := nextEngineeringStep_next houtcome
          refine ⟨rfl, ?_⟩
          by_cases hnext : next = .correction
          · refine .inl ⟨_, rfl, hnext, ?_, ?_⟩
            · exact if_pos hnext
            · rw [← hcount, hsame.maxCorrectionLoops]
              exact hbound hnext
          · refine .inr ⟨fun n hn => ?_, ?_⟩
            · rw [← Option.some.inj hn]
              exact hnext
            · exact (if_neg hnext).trans hcount
      | blocked reason | failed reason | completed =>
          exact ⟨rfl, .inr ⟨fun n hn => (nomatch hn), rfl⟩⟩
  | cancel | resume | resumeWaiting =>
      exact ⟨rfl, .inr ⟨fun n hn => (nomatch hn), rfl⟩⟩
  | requestCorrection input row parseStepId now id _ hlt =>
      exact ⟨rfl, .inl ⟨_, rfl, rfl, rfl, hlt⟩⟩
  | recoverLoop input row approvalRef correctionStepId now id =>
      refine ⟨rfl, .inr ⟨fun n hn => ?_, rfl⟩⟩
      rw [← Option.some.inj hn]
      exact nofun
  | recoverRelease input row gate cancelledAt data id _ _ htype =>
      refine ⟨rfl, .inr ⟨fun n hn => ?_, rfl⟩⟩
      rw [← Option.some.inj hn, StepData.row_stepType, htype]
      nofun

def countOf (stepType : EngineeringStepType) (ks : List (Str × EngineeringStepType)) : Nat :=
  ks.countP fun k => k.2 == stepType

/-- The count of a run is the number of its corrections, and bounded by its policy. -/
structure Counted (m : Nat) (lane : Lane) (ks : List (Str × EngineeringStepType)) : Prop where
  limit : lane.run.maxCorrectionLoops = m
  count : lane.run.correctionLoopCount = countOf .correction ks
  bounded : countOf .correction ks ≤ m

theorem Counted.perm {m : Nat} {ks ks' : List (Str × EngineeringStepType)}
    (h : Counted m lane ks) (hperm : ks'.Perm ks) : Counted m lane ks' := by
  have hcount : countOf .correction ks' = countOf .correction ks := hperm.countP_eq _
  exact ⟨h.limit, by rw [hcount, h.count], by rw [hcount]; exact h.bounded⟩

theorem countOf_new (stepType : EngineeringStepType) (new : Option WorkflowStepRun)
    (ks : List (Str × EngineeringStepType)) :
    countOf stepType (new.toList.map kind ++ ks) =
      countOf stepType ks + if new.any (·.stepType == stepType) then 1 else 0 := by
  cases new with
  | none => rfl
  | some n =>
      rw [countOf, Option.toList_some, List.map_singleton, List.singleton_append,
        List.countP_cons]
      rfl

theorem Move.counted {m : Nat} {ks : List (Str × EngineeringStepType)}
    (h : Move SameCount operation lane turn) (hcounted : Counted m lane ks) :
    Counted m turn.lane (turn.new.toList.map kind ++ ks) := by
  obtain ⟨hlimit, hstep⟩ := h.correction
  have hlimit' : turn.run.maxCorrectionLoops = m := hlimit.trans hcounted.limit
  obtain ⟨n, hn, htype, hcount, hlt⟩ | ⟨hnone, hcount⟩ := hstep
  · have hnew : countOf .correction (turn.new.toList.map kind ++ ks) =
        countOf .correction ks + 1 := by
      rw [countOf_new, hn]
      simp [htype]
    rw [hcounted.count, hcounted.limit] at hlt
    refine ⟨hlimit', ?_, by rw [hnew]; omega⟩
    change turn.run.correctionLoopCount = _
    rw [hcount, hcounted.count, hnew]
    rfl
  · have hnew : countOf .correction (turn.new.toList.map kind ++ ks) = countOf .correction ks := by
      rw [countOf_new]
      cases hn : turn.new with
      | none => rfl
      | some n => simp [hnone n hn]
    refine ⟨hlimit', ?_, by rw [hnew]; exact hcounted.bounded⟩
    change turn.run.correctionLoopCount = _
    rw [hcount, hcounted.count, hnew]

end Count

/-! ## The order of the steps -/

/-- The place of a step in a run with `c` corrections so far. -/
def rank : EngineeringStepType → Nat → Nat
  | .plan, _ => 1
  | .build, _ => 2
  | .correction, c => 2 + 5 * c
  | .test, c => 3 + 5 * c
  | .package, c => 4 + 5 * c
  | .redTeam, c => 5 + 5 * c
  | .parseVerdict, c => 6 + 5 * c
  | .verify, c => 7 + 5 * c
  | .humanReleaseGate, c => 8 + 5 * c
  | .releaseExecution, c => 9 + 5 * c
  | .remoteVerify, c => 10 + 5 * c

theorem rank_le (stepType : EngineeringStepType) (c : Nat) : rank stepType c ≤ 10 + 5 * c := by
  cases stepType <;> simp only [rank] <;> omega

theorem rank_lt_next {stepType next : EngineeringStepType} (h : next ∈ successors stepType)
    (hne : next ≠ .correction) (c : Nat) : rank stepType c < rank next c := by
  cases stepType <;> simp only [successors, List.mem_cons, List.not_mem_nil, or_false] at h
  case test | parseVerdict =>
    obtain rfl | rfl := h
    · simp only [rank]
      omega
    · exact absurd rfl hne
  all_goals
    obtain rfl := h
    simp only [rank]
    omega

theorem rank_lt_correction {stepType : EngineeringStepType}
    (h : .correction ∈ successors stepType) (c : Nat) :
    rank stepType c < rank .correction (c + 1) := by
  cases stepType <;> simp [successors] at h
  all_goals
    simp only [rank]
    omega

/-- How many TEST steps there can be once a run is at a step. -/
def testsBy : EngineeringStepType → Nat → Nat
  | .plan, _ => 0
  | .build, _ => 0
  | .correction, c => c
  | _, c => c + 1

theorem testsBy_le (stepType : EngineeringStepType) (c : Nat) : testsBy stepType c ≤ c + 1 := by
  cases stepType <;> simp only [testsBy] <;> omega

theorem testsBy_next {stepType next : EngineeringStepType} (h : next ∈ successors stepType)
    (hne : next ≠ .correction) (c : Nat) :
    testsBy stepType c + (if next = .test then 1 else 0) ≤ testsBy next c := by
  cases stepType <;> simp only [successors, List.mem_cons, List.not_mem_nil, or_false] at h
  case test | parseVerdict =>
    obtain rfl | rfl := h
    · simp [testsBy]
    · exact absurd rfl hne
  all_goals
    obtain rfl := h
    simp [testsBy]

/-- The place a lane has reached. A run that awaits a human decision is at PARSE_VERDICT. -/
def Lane.place (lane : Lane) (c : Nat) : Nat :=
  match lane.step with
  | some k => rank k.stepType c
  | none => if awaitsDecision lane.run then rank .parseVerdict c else 10 + 5 * c

def Lane.tests (lane : Lane) (c : Nat) : Nat :=
  match lane.step with
  | some k => testsBy k.stepType c
  | none => c + 1

section Places

variable {lane : Lane} {k : WorkflowStepRun} {c : Nat}

theorem Lane.place_some (h : lane.step = some k) : lane.place c = rank k.stepType c := by
  rw [Lane.place, h]

theorem Lane.tests_some (h : lane.step = some k) : lane.tests c = testsBy k.stepType c := by
  rw [Lane.tests, h]

theorem Lane.place_none (h : lane.step = none) (hawaits : awaitsDecision lane.run = true) :
    lane.place c = rank .parseVerdict c := by
  rw [Lane.place, h]
  exact if_pos hawaits

theorem Lane.place_over (h : lane.step = none) (hawaits : awaitsDecision lane.run = false) :
    lane.place c = 10 + 5 * c := by
  rw [Lane.place, h]
  exact if_neg (by rw [hawaits]; nofun)

theorem Lane.tests_none (h : lane.step = none) : lane.tests c = c + 1 := by
  rw [Lane.tests, h]

theorem Lane.place_le (lane : Lane) (c : Nat) : lane.place c ≤ 10 + 5 * c := by
  rw [Lane.place]
  split
  · exact rank_le _ _
  · split
    · exact rank_le _ _
    · exact le_rfl

theorem Lane.tests_le (lane : Lane) (c : Nat) : lane.tests c ≤ c + 1 := by
  rw [Lane.tests]
  split
  · exact testsBy_le _ _
  · exact le_rfl

end Places

/-- What a lane has still to do when its corrections are bounded by `m`. -/
def Lane.energy (m : Nat) (lane : Lane) (c : Nat) : Nat :=
  match lane.step with
  | some k => 2 * (11 + 5 * m - rank k.stepType c) - if k.status = .ready then 0 else 1
  | none =>
      if terminalRun lane.run.status then 0
      else if lane.run.status = .created then 21 + 10 * m
      else if awaitsDecision lane.run then 2 * (11 + 5 * m - rank .parseVerdict c) - 1
      else 1

section Energy

variable {lane : Lane} {k : WorkflowStepRun} {m c : Nat}

theorem Lane.energy_ready (h : lane.step = some k) (hready : k.status = .ready) :
    lane.energy m c = 2 * (11 + 5 * m - rank k.stepType c) := by
  rw [Lane.energy, h]
  simp [hready]

theorem Lane.energy_waiting (h : lane.step = some k) (hwaiting : k.status ≠ .ready) :
    lane.energy m c = 2 * (11 + 5 * m - rank k.stepType c) - 1 := by
  rw [Lane.energy, h]
  simp [hwaiting]

theorem Lane.energy_awaiting (h : lane.step = none) (hawaits : awaitsDecision lane.run = true) :
    lane.energy m c = 2 * (11 + 5 * m - rank .parseVerdict c) - 1 := by
  have hblocked : lane.run.status = .blocked := by
    simp only [awaitsDecision, Bool.and_eq_true, beq_iff_eq] at hawaits
    exact hawaits.1.1
  rw [Lane.energy, h]
  simp [hawaits, hblocked, terminalRun]

theorem Lane.energy_over_le (h : lane.step = none) (hbegun : lane.run.status ≠ .created)
    (hawaits : awaitsDecision lane.run = false) : lane.energy m c ≤ 1 := by
  rw [Lane.energy, h]
  dsimp only
  simp only [hbegun, hawaits, Bool.false_eq_true, if_false]
  split <;> omega

theorem Lane.energy_cancelled (h : lane.step = none) (hstatus : lane.run.status = .cancelled) :
    lane.energy m c = 0 := by
  rw [Lane.energy, h]
  dsimp only
  rw [if_pos (by rw [hstatus]; rfl)]

/-- What can still be cancelled has something to do. -/
theorem Lane.energy_pos (h : cancellableRun lane.run = true) (hc : c ≤ m) :
    0 < lane.energy m c := by
  have hopen : terminalRun lane.run.status = false := by
    cases hstatus : lane.run.status <;> simp [cancellableRun, hstatus] at h ⊢ <;> rfl
  rw [Lane.energy]
  split
  · rename_i k _
    have hle := rank_le k.stepType c
    split <;> omega
  · rw [if_neg (by rw [hopen]; nofun)]
    split
    · omega
    · split
      · simp only [rank]
        omega
      · omega

end Energy

/-- The operations that reopen a run. -/
def Operation.reopens : Operation → Bool
  | .resumeRun _ _ | .recoverLoop _ | .recoverRelease _ => true
  | _ => false

/-- How a run that has begun goes on while nobody reopens it. -/
inductive Forward (lane : Lane) (turn : Turn) : Prop
  | next (k n : WorkflowStepRun) : lane.step = some k → k.status = .ready →
      turn.new = some n → n.status = .ready → n.stepType ∈ successors k.stepType →
      Forward lane turn
  | wait (k w : WorkflowStepRun) : lane.step = some k → k.status = .ready → turn.new = none →
      turn.lane.step = some w → w.stepType = k.stepType → w.status ≠ .ready →
      Forward lane turn
  | stop (k : WorkflowStepRun) : lane.step = some k → k.status = .ready → turn.new = none →
      turn.lane.step = none → turn.run.status ≠ .created →
      (awaitsDecision turn.run = true → k.stepType = .parseVerdict) → Forward lane turn
  | cancel : cancellableRun lane.run = true → turn.new = none → turn.lane.step = none →
      turn.run.status = .cancelled → Forward lane turn
  | decide (n : WorkflowStepRun) : lane.step = none → awaitsDecision lane.run = true →
      turn.new = some n → n.status = .ready → n.stepType = .correction → Forward lane turn

theorem Turn.lane_step_of_new {turn : Turn} {n : WorkflowStepRun} (h : turn.new = some n) :
    turn.lane.step = some n := by
  rw [Turn.lane, h, Option.some_or]

section Forward

variable {operation : Operation} {lane : Lane} {turn : Turn}

theorem Move.forward {reads : WorkflowRun → WorkflowRun → Prop}
    (h : Move reads operation lane turn) (hop : operation.reopens = false)
    (hbegun : lane.run.status ≠ .created) : Forward lane turn := by
  cases h with
  | start row now id hcreated => exact absurd hcreated hbegun
  | resume | resumeWaiting | recoverLoop | recoverRelease => cases hop
  | requestCorrection input row parseStepId now id hawaits =>
      exact .decide _ rfl hawaits rfl rfl rfl
  | cancel input row step now hcancellable =>
      refine .cancel hcancellable rfl ?_ rfl
      cases step with
      | none => rfl
      | some k => rfl
  | complete input freshRun row step now id _ _ hready =>
      have hlane := completion_lane input freshRun row step now id
      cases houtcome : outcomeOf input freshRun step with
      | nextStep next =>
          have hnew : (completion input freshRun step now id row).new =
              some ((successor input step now next).row id) := by
            rw [completion, houtcome]
          exact .next step _ rfl hready hnew rfl (nextEngineeringStep_next houtcome).1
      | blocked reason =>
          rw [houtcome] at hlane
          have hnew : (completion input freshRun step now id row).new = none := by
            rw [completion, houtcome]
          have hrun : (completion input freshRun step now id row).run =
              runUpdate (.blocked reason) freshRun step.stepType row := by
            rw [completion, houtcome]
          cases hblocked : input.providerBlocked with
          | true =>
              refine .wait step (completedRow input now step) rfl hready hnew ?_ rfl ?_
              · rw [hlane]
                exact if_pos hblocked
              · change targetStatus input ≠ _
                rw [targetStatus, if_pos hblocked]
                intro h
                cases h
          | false =>
              refine .stop step rfl hready hnew ?_ (by rw [hrun]; intro h; cases h)
                fun hawaits => ?_
              · rw [hlane]
                exact if_neg (by rw [hblocked]; intro h; cases h)
              · rw [hrun] at hawaits
                simp only [awaitsDecision, runUpdate, Bool.and_eq_true, beq_iff_eq,
                  Option.some.injEq] at hawaits
                exact nextEngineeringStep_humanDecision houtcome hawaits.1.2
      | completed | failed reason =>
          rw [houtcome] at hlane
          have hnew : (completion input freshRun step now id row).new = none := by
            rw [completion, houtcome]
          have hrun : (completion input freshRun step now id row).run =
              runUpdate (outcomeOf input freshRun step) freshRun step.stepType row := rfl
          rw [houtcome] at hrun
          refine .stop step rfl hready hnew (by rw [hlane]) ?_ fun hawaits => ?_
          · rw [hrun]
            intro h
            cases h
          · rw [hrun] at hawaits
            simp [awaitsDecision, runUpdate] at hawaits

/-- The count of corrections after a move that goes on. -/
theorem countOf_correction_next {n : WorkflowStepRun} (hn : turn.new = some n)
    (ks : List (Str × EngineeringStepType)) (stepType : EngineeringStepType) :
    countOf stepType (turn.new.toList.map kind ++ ks) =
      countOf stepType ks + if n.stepType = stepType then 1 else 0 := by
  rw [countOf_new, hn]
  simp

theorem countOf_none (hn : turn.new = none) (ks : List (Str × EngineeringStepType)) :
    turn.new.toList.map kind ++ ks = ks := by
  rw [hn]
  rfl

/-- The steps of a run are no more than the place it has reached. -/
structure Paced (lane : Lane) (ks : List (Str × EngineeringStepType)) : Prop where
  steps : ks.length ≤ lane.place (countOf .correction ks)
  tests : countOf .test ks ≤ lane.tests (countOf .correction ks)

theorem Forward.paced {ks : List (Str × EngineeringStepType)} (h : Forward lane turn)
    (hpaced : Paced lane ks) : Paced turn.lane (turn.new.toList.map kind ++ ks) := by
  obtain ⟨hsteps, htests⟩ := hpaced
  have hone : ∀ n, turn.new = some n →
      (turn.new.toList.map kind ++ ks).length = ks.length + 1 := by
    intro n hn
    simp [hn]
  cases h with
  | next k n hk _ hn _ hnext =>
      rw [Lane.place_some hk] at hsteps
      rw [Lane.tests_some hk] at htests
      have hplace := hone n hn
      constructor
      · rw [Lane.place_some (Turn.lane_step_of_new hn), countOf_correction_next hn]
        by_cases hc : n.stepType = .correction
        · have hlt := rank_lt_correction (hc ▸ hnext) (countOf .correction ks)
          simp only [hc, if_true]
          omega
        · have hlt := rank_lt_next hnext hc (countOf .correction ks)
          simp only [hc, if_false, Nat.add_zero]
          omega
      · rw [Lane.tests_some (Turn.lane_step_of_new hn), countOf_correction_next hn,
          countOf_correction_next hn]
        by_cases hc : n.stepType = .correction
        · have hle := testsBy_le k.stepType (countOf .correction ks)
          simp only [hc, if_true, testsBy, reduceCtorEq, if_false]
          omega
        · have hle := testsBy_next hnext hc (countOf .correction ks)
          simp only [hc, if_false, Nat.add_zero]
          omega
  | wait k w hk _ hn hw htype =>
      rw [countOf_none hn]
      constructor
      · rwa [Lane.place_some hw, htype, ← Lane.place_some hk]
      · rwa [Lane.tests_some hw, htype, ← Lane.tests_some hk]
  | stop k hk _ hn hnone _ hawaits =>
      rw [countOf_none hn]
      refine ⟨?_, htests.trans ?_⟩
      · cases hdecision : awaitsDecision turn.run with
        | true =>
            rw [Lane.place_none hnone hdecision, ← hawaits hdecision, ← Lane.place_some hk]
            exact hsteps
        | false =>
            rw [Lane.place_over hnone hdecision]
            exact hsteps.trans (lane.place_le _)
      · rw [Lane.tests_none hnone]
        exact lane.tests_le _
  | cancel _ hn hnone hcancelled =>
      rw [countOf_none hn]
      have hdecision : awaitsDecision turn.run = false := by
        simp [awaitsDecision, hcancelled]
      refine ⟨?_, htests.trans ?_⟩
      · rw [Lane.place_over hnone hdecision]
        exact hsteps.trans (lane.place_le _)
      · rw [Lane.tests_none hnone]
        exact lane.tests_le _
  | decide n hnone hawaits hn _ htype =>
      rw [Lane.place_none hnone hawaits] at hsteps
      rw [Lane.tests_none hnone] at htests
      have hplace := hone n hn
      constructor
      · rw [Lane.place_some (Turn.lane_step_of_new hn), countOf_correction_next hn]
        simp only [htype, if_true, rank] at hsteps ⊢
        omega
      · rw [Lane.tests_some (Turn.lane_step_of_new hn), countOf_correction_next hn,
          countOf_correction_next hn]
        simp only [htype, if_true, testsBy, reduceCtorEq, if_false]
        omega

theorem Forward.energy_lt {m : Nat} {ks : List (Str × EngineeringStepType)}
    (h : Forward lane turn)
    (hbound : countOf .correction (turn.new.toList.map kind ++ ks) ≤ m) :
    turn.lane.energy m (countOf .correction (turn.new.toList.map kind ++ ks)) <
      lane.energy m (countOf .correction ks) := by
  cases h with
  | next k n hk hready hn hnready hnext =>
      rw [Lane.energy_ready (Turn.lane_step_of_new hn) hnready, Lane.energy_ready hk hready]
      rw [countOf_correction_next hn] at hbound ⊢
      by_cases hc : n.stepType = .correction
      · have hlt := rank_lt_correction (hc ▸ hnext) (countOf .correction ks)
        have hle := rank_le .correction (countOf .correction ks + 1)
        simp only [hc, if_true] at hbound ⊢
        omega
      · have hlt := rank_lt_next hnext hc (countOf .correction ks)
        have hle := rank_le n.stepType (countOf .correction ks)
        simp only [hc, if_false, Nat.add_zero] at hbound ⊢
        omega
  | wait k w hk hready hn hw htype hwaiting =>
      rw [countOf_none hn] at hbound ⊢
      rw [Lane.energy_waiting hw hwaiting, Lane.energy_ready hk hready, htype]
      have hle := rank_le k.stepType (countOf .correction ks)
      omega
  | stop k hk hready hn hnone hbegun hawaits =>
      rw [countOf_none hn] at hbound ⊢
      rw [Lane.energy_ready hk hready]
      have hle := rank_le k.stepType (countOf .correction ks)
      cases hdecision : awaitsDecision turn.run with
      | true =>
          rw [Lane.energy_awaiting hnone hdecision, hawaits hdecision]
          rw [hawaits hdecision] at hle
          omega
      | false =>
          have := Lane.energy_over_le (m := m) (c := countOf .correction ks) hnone hbegun hdecision
          omega
  | cancel hcancellable hn hnone hcancelled =>
      rw [countOf_none hn] at hbound ⊢
      rw [Lane.energy_cancelled hnone hcancelled]
      exact Lane.energy_pos hcancellable hbound
  | decide n hnone hawaits hn hready htype =>
      rw [Lane.energy_ready (Turn.lane_step_of_new hn) hready, Lane.energy_awaiting hnone hawaits]
      rw [countOf_correction_next hn] at hbound ⊢
      simp only [htype, if_true, rank] at hbound ⊢
      omega

end Forward

/-! ## Runs -/

section Runs

variable {allowed : Choice Failure Ans → Prop} {rows : List Row} {operations : List Operation}
variable {s : System Row Ask Failure Ans Unit} {past future : List LogEntry} {en : LogEntry}
variable {ρ : Str} {m : Nat}

/-- A run that has been started just now, with a count of 0. -/
structure JustStarted (rows : List Row) (workflowRunId : Str) (m : Nat) : Prop where
  intro ::
  started : ∃ run step, runAt rows workflowRunId = some run ∧ run.status = .running ∧
    run.currentStepType = some .plan ∧ run.correctionLoopCount = 0 ∧ run.maxCorrectionLoops = m ∧
    stepsOf rows workflowRunId = [step] ∧ step.stepType = .plan ∧ step.status = .ready ∧
    step.organizationId = run.organizationId

/-- The lane of a run whose count is the number of its corrections. -/
def CountedLane (workflowRunId : Str) (m : Nat) (rows : List Row) (lane : Lane) : Prop :=
  lane.run.id = workflowRunId ∧ lane.Shown rows ∧ lane.Sound ∧
    Counted m lane (kinds rows workflowRunId)

theorem JustStarted.lane (h : JustStarted rows ρ m) (hkeyed : Keyed schema rows) :
    ∃ lane k, CountedLane ρ m rows lane ∧ lane.run.status ≠ .created ∧ lane.step = some k ∧
      k.stepType = .plan ∧ k.status = .ready ∧ kinds rows ρ = [kind k] := by
  obtain ⟨run, step, hrun, hstatus, hcurrent, hcount, hlimit, hsteps, htype, hready, horg⟩ :=
    h.started
  obtain rfl := runAt_id hrun
  have hmem : ∀ a, StepOf rows run.id a ↔ a = step := by
    intro a
    rw [← mem_stepsOf hkeyed, hsteps, List.mem_singleton]
  have hkinds : kinds rows run.id = [kind step] := by rw [kinds, hsteps, List.map_singleton]
  refine ⟨⟨run, some step⟩, step, ⟨rfl, ⟨hrun, fun a => ?_⟩, ?_, ?_⟩, ?_, rfl, htype, hready,
    hkinds⟩
  · rw [hmem, Option.some.injEq]
    constructor
    · rintro rfl
      exact ⟨rfl, by rw [hready]; rfl⟩
    · exact fun ⟨ha, _⟩ => ha.symm
  · refine .some (by rw [hcurrent, htype]) ?_ ?_ horg
    · rw [hstatus]
      nofun
    · rw [hstatus]
      rfl
  · have hnone : countOf .correction (kinds rows run.id) = 0 := by
      rw [hkinds, countOf, List.countP_singleton, kind, htype]
      rfl
    exact ⟨hlimit, by rw [hcount, hnone]; rfl, by rw [hnone]; exact Nat.zero_le m⟩
  · change run.status ≠ _
    rw [hstatus]
    nofun

/-- A run that is not CREATED never is again, so no `startRun` commits on it. -/
theorem Run.never_created (h : Run allowed rows operations s) (hkeyed : Keyed schema rows)
    {run : WorkflowRun} (hrun : runAt rows ρ = some run) (hbegun : run.status ≠ .created)
    (hs : s.history = past ++ en :: future) :
    ∃ row, runAt en.before ρ = some row ∧ row.status ≠ .created := by
  refine (h.ledger.take hs).chained.invariant
    (P := fun _ rows => ∃ row, runAt rows ρ = some row ∧ row.status ≠ .created)
    ⟨run, hrun, hbegun⟩ ?_
  rintro A b B hA ⟨row, hrow, hstatus⟩
  have hb : s.history = A ++ b :: (B ++ en :: future) := by rw [hs, hA]; simp
  obtain ⟨r', hr', hevolves⟩ := h.evolves_step hkeyed hb (runAt_eq_some.mp hrow)
  cases r' with
  | run row' =>
      have hsame : SameRun row row' := hevolves
      exact ⟨row', runAt_eq_some.mpr hr', fun hcreated => hstatus (hsame.created hcreated)⟩
  | step _ | claim _ => exact hevolves.elim

theorem Run.starts_never (h : Run allowed rows operations s) (hkeyed : Keyed schema rows)
    {run : WorkflowRun} (hrun : runAt rows ρ = some run) (hbegun : run.status ≠ .created) :
    ∀ en ∈ s.history, StartsCreated operations ρ en := by
  intro en hen organizationId row hoperation hpublished hrow
  obtain ⟨past, future, hs⟩ := List.append_of_mem hen
  obtain hnone | ⟨operation, hoperation', hchange⟩ := h.changes hkeyed hs
  · exact absurd hnone hpublished
  obtain rfl := Option.some.inj (hoperation.symm.trans hoperation')
  cases hchange with
  | startRun row now id hc =>
      obtain ⟨A, e, B, read, hpast, hread, -, hcreated⟩ := hc.seen
      have he : s.history = A ++ e :: (B ++ en :: future) := by rw [hs, hpast]; simp
      obtain ⟨row', hrow', hbegun'⟩ := h.never_created hkeyed hrun hbegun he
      obtain rfl := Option.some.inj (hread.symm.trans hrow')
      exact absurd hcreated hbegun'

theorem countOf_perm {ks ks' : List (Str × EngineeringStepType)} (h : ks'.Perm ks)
    (stepType : EngineeringStepType) : countOf stepType ks' = countOf stepType ks :=
  h.countP_eq _

theorem Paced.perm {lane : Lane} {ks ks' : List (Str × EngineeringStepType)}
    (h : Paced lane ks) (hperm : ks'.Perm ks) : Paced lane ks' := by
  constructor
  · rw [hperm.length_eq, countOf_perm hperm]
    exact h.steps
  · rw [countOf_perm hperm, countOf_perm hperm]
    exact h.tests

/-- One step of the services, on a lane whose count is the number of its corrections. -/
theorem Run.counted_step (h : Run allowed rows operations s) (hkeyed : Keyed schema rows)
    (hs : s.history = past ++ en :: future)
    (hstart : ∀ en ∈ s.history, StartsCreated operations ρ en) (hlane : InLane ρ rows)
    {lane : Lane} (hcounted : CountedLane ρ m en.before lane) :
    (Touches ρ en = false ∧ CountedLane ρ m en.after lane ∧
        (kinds en.after ρ).Perm (kinds en.before ρ)) ∨
      Touches ρ en = true ∧ ∃ operation turn, operations[en.call]? = some operation ∧
        Move SameCount operation lane turn ∧ CountedLane ρ m en.after turn.lane ∧
        (kinds en.after ρ).Perm (turn.new.toList.map kind ++ kinds en.before ρ) := by
  obtain ⟨rfl, hshown, hsound, hcount⟩ := hcounted
  have hbefore : Keyed schema en.before := (h.ledger.take hs).keyed hkeyed
  have hafter : Keyed schema en.after := by
    rw [(h.ledger.accounted past en future hs).after]
    exact hbefore.apply _
  cases htouches : Touches lane.run.id en with
  | false =>
      have hunchanged := h.unchanged hkeyed hs htouches
      have hperm := hunchanged.kinds hbefore hafter
      exact .inl ⟨rfl, ⟨rfl, hunchanged.shown hshown, hsound, hcount.perm hperm⟩, hperm⟩
  | true =>
      obtain ⟨operation, turn, hoperation, -, hmove, hturned⟩ :=
        h.fresh_moves hkeyed hs hstart hlane hshown hsound htouches
      have hperm := hturned.kinds hmove hshown hbefore hafter
      exact .inr ⟨rfl, operation, turn, hoperation, hmove, ⟨hturned.id,
        hturned.shown hshown hmove.single, hmove.sound hsound,
        (hmove.counted hcount).perm hperm⟩, hperm⟩

/-- What a run has done, and has still to do, while nobody reopens it. -/
structure Progress (ρ : Str) (m : Nat) (past : List LogEntry) (rows : List Row) (lane : Lane) :
    Prop where
  counted : CountedLane ρ m rows lane
  paced : Paced lane (kinds rows ρ)
  energy : (past.filter (Touches ρ)).length + lane.energy m (countOf .correction (kinds rows ρ)) ≤
    20 + 10 * m

theorem Run.progress_step (h : Run allowed rows operations s) (hkeyed : Keyed schema rows)
    (hs : s.history = past ++ en :: future)
    (hstart : ∀ en ∈ s.history, StartsCreated operations ρ en) (hlane : InLane ρ rows)
    (hops : ∀ operation ∈ operations, operation.workflowRunId = some ρ →
      operation.reopens = false)
    {lane : Lane} (hbegun : lane.run.status ≠ .created) (hprogress : Progress ρ m past en.before lane) :
    ∃ lane', Progress ρ m (past ++ [en]) en.after lane' := by
  obtain ⟨hcounted, hpaced, henergy⟩ := hprogress
  obtain ⟨htouches, hafter, hperm⟩ | ⟨htouches, operation, turn, hoperation, hmove, hafter, hperm⟩ :=
    h.counted_step hkeyed hs hstart hlane hcounted
  · refine ⟨lane, hafter, hpaced.perm hperm, ?_⟩
    rw [List.filter_append, countOf_perm hperm]
    simpa [htouches] using henergy
  · have htarget : operation.workflowRunId = some ρ := by
      rw [hmove.target, hcounted.1]
    have hforward := hmove.forward (hops operation (List.mem_of_getElem? hoperation) htarget) hbegun
    have hbound := hafter.2.2.2.bounded
    rw [countOf_perm hperm] at hbound
    have hlt := hforward.energy_lt hbound
    refine ⟨turn.lane, hafter, (hforward.paced hpaced).perm hperm, ?_⟩
    rw [List.filter_append, countOf_perm hperm]
    simp only [List.length_append, htouches, List.filter_singleton, cond_true, List.length_singleton]
    omega

theorem countOf_kinds (rows : List Row) (ρ : Str) (stepType : EngineeringStepType) :
    countOf stepType (kinds rows ρ) = (stepsOf rows ρ).countP (·.stepType == stepType) := by
  rw [countOf, kinds, List.countP_map]
  rfl

/-- A resume of the run, or a completion whose provider is blocked. -/
def Suspends (operations : List Operation) (workflowRunId : Str) (en : LogEntry) : Prop :=
  (∃ organizationId, operations[en.call]? = some (.resumeRun organizationId workflowRunId)) ∨
    ∃ input, operations[en.call]? = some (.completeStep input) ∧ input.providerBlocked = true

/-- A suspension moves a lane without its count. -/
theorem Move.suspended {reads : WorkflowRun → WorkflowRun → Prop} {operation : Operation}
    {lane : Lane} {turn : Turn} (h : Move reads operation lane turn)
    (hsuspends : (∃ organizationId ρ, operation = .resumeRun organizationId ρ) ∨
      ∃ input, operation = .completeStep input ∧ input.providerBlocked = true) :
    turn.run.correctionLoopCount = lane.run.correctionLoopCount := by
  obtain ⟨organizationId, ρ, rfl⟩ | ⟨input, rfl, hblocked⟩ := hsuspends
  · cases h with
    | resume | resumeWaiting => rfl
    | complete input freshRun row step now id hcompletes => cases hcompletes
  · cases h with
    | complete input' freshRun row step now id hcompletes =>
        cases hcompletes with
        | completeStep =>
            obtain ⟨status, hstatus⟩ := outcomeOf_of_providerBlocked hblocked freshRun step
            change (runUpdate (outcomeOf input freshRun step) _ _ _).correctionLoopCount = _
            rw [hstatus]
            rfl

theorem Run.suspended (h : Run allowed rows operations s) (hkeyed : Keyed schema rows)
    (hs : s.history = past ++ en :: future)
    (hstart : ∀ en ∈ s.history, StartsCreated operations ρ en) (hlane : InLane ρ rows)
    (hsuspends : Suspends operations ρ en) :
    (runAt en.after ρ).map (·.correctionLoopCount) =
      (runAt en.before ρ).map (·.correctionLoopCount) := by
  obtain ⟨lane, rfl, hshown, hsound⟩ := h.in_lane hkeyed hstart hlane hs
  cases htouches : Touches lane.run.id en with
  | false => rw [(h.unchanged hkeyed hs htouches).run]
  | true =>
      obtain ⟨operation, turn, hoperation, -, hmove, hturned⟩ :=
        h.moves hkeyed hs (hstart en (by simp [hs])) hshown hsound htouches
      have hsuspended := hmove.suspended (by
        obtain ⟨organizationId, hresume⟩ | ⟨input, hcomplete, hblocked⟩ := hsuspends
        · rw [hresume] at hoperation
          exact .inl ⟨organizationId, _, (Option.some.inj hoperation).symm⟩
        · rw [hcomplete] at hoperation
          exact .inr ⟨input, (Option.some.inj hoperation).symm, hblocked⟩)
      rw [hturned.run, hshown.run, Option.map_some, Option.map_some, hsuspended]

/-- The correction bound of a run that has been started: as many corrections as its count says,
and no more than its policy allows. While nobody reopens the run it has few steps, and it comes
to rest. -/
theorem corrections_bounded (hkeyed : Keyed schema rows) (hstarted : JustStarted rows ρ m)
    (h : Run allowed rows operations s) :
    (∃ run, runAt s.rows ρ = some run ∧
      run.correctionLoopCount = (stepsOf s.rows ρ).countP (·.stepType == .correction) ∧
      run.correctionLoopCount ≤ m) ∧
    (∀ en ∈ s.history, Suspends operations ρ en →
      (runAt en.after ρ).map (·.correctionLoopCount) =
        (runAt en.before ρ).map (·.correctionLoopCount)) ∧
    ((∀ operation ∈ operations, operation.workflowRunId = some ρ →
        operation.reopens = false) →
      (stepsOf s.rows ρ).length ≤ 5 + 6 * (m + 1) + 5 ∧
        (stepsOf s.rows ρ).countP (·.stepType == .test) ≤ m + 1 ∧
        (s.history.filter (Touches ρ)).length ≤ 20 + 10 * m) := by
  obtain ⟨lane, k, hcounted, hbegun, hstep, htype, hready, hkinds⟩ := hstarted.lane hkeyed
  obtain ⟨hid, hshown, hsound, hcount⟩ := hcounted
  have hrun : runAt rows ρ = some lane.run := by rw [← hid, hshown.run]
  have hlane : InLane ρ rows := ⟨lane, hid, hshown, hsound⟩
  have hstart := h.starts_never hkeyed hrun hbegun
  refine ⟨?_, fun en hen hsuspends => ?_, fun hops => ?_⟩
  · obtain ⟨last, hlast, hlastShown, -, hlastCount⟩ :=
      h.ledger.chained.invariant (P := fun _ rows => ∃ lane, CountedLane ρ m rows lane)
        ⟨lane, hid, hshown, hsound, hcount⟩ (by
          rintro past en future hs ⟨lane, hbefore⟩
          obtain ⟨-, hafter, -⟩ | ⟨-, _, turn, -, -, hafter, -⟩ :=
            h.counted_step hkeyed hs hstart hlane hbefore
          · exact ⟨lane, hafter⟩
          · exact ⟨turn.lane, hafter⟩)
    refine ⟨last.run, by rw [← hlast, hlastShown.run], ?_, ?_⟩
    · rw [hlastCount.count, countOf_kinds]
    · rw [hlastCount.count]
      exact_mod_cast hlastCount.bounded
  · obtain ⟨past, future, hs⟩ := List.append_of_mem hen
    exact h.suspended hkeyed hs hstart hlane hsuspends
  · have hnone : ∀ stepType ≠ EngineeringStepType.plan, countOf stepType (kinds rows ρ) = 0 := by
      intro stepType hne
      rw [hkinds, countOf, List.countP_singleton, kind, htype]
      simp [hne.symm]
    have hfirst : Progress ρ m [] rows lane := by
      refine ⟨⟨hid, hshown, hsound, hcount⟩, ⟨?_, ?_⟩, ?_⟩
      · rw [Lane.place_some hstep, htype, hkinds]
        exact le_rfl
      · rw [Lane.tests_some hstep, htype, hnone .test nofun]
        exact le_rfl
      · rw [Lane.energy_ready hstep hready, htype]
        simp only [List.filter_nil, List.length_nil, rank]
        omega
    obtain ⟨last, hlast⟩ := h.ledger.chained.invariant
      (P := fun past rows => ∃ lane, Progress ρ m past rows lane) ⟨lane, hfirst⟩ (by
        rintro past en future hs ⟨lane, hprogress⟩
        obtain ⟨row, hrow, hbegun⟩ := h.never_created hkeyed hrun hbegun hs
        obtain ⟨hid, hshown, -, -⟩ := hprogress.counted
        rw [← hid, hshown.run] at hrow
        obtain rfl := Option.some.inj hrow
        exact h.progress_step hkeyed hs hstart hlane hops hbegun hprogress)
    obtain ⟨⟨-, -, -, hlastCount⟩, ⟨hsteps, htests⟩, henergy⟩ := hlast
    have hbound := hlastCount.bounded
    have hplace := last.place_le (countOf .correction (kinds s.rows ρ))
    have htestsBound := last.tests_le (countOf .correction (kinds s.rows ρ))
    refine ⟨?_, ?_, by omega⟩
    · have hlength : (stepsOf s.rows ρ).length = (kinds s.rows ρ).length := by
        rw [kinds, List.length_map]
      omega
    · rw [← countOf_kinds]
      omega

end Runs

theorem corrections_bounded_sample :
    ∃ s, (System.start [.run sampleRun, .step sampleStep]
        ([Operation.completeStep (sampleCompletion "plan".toList .succeeded)].map
          Operation.program)).run schema
          (List.replicate 13 (0, replies "build".toList 2)) = some s ∧
      (stepsOf s.rows "run".toList).length ≤ 5 + 6 * (3 + 1) + 5 := by
  have hsome : ((System.start [.run sampleRun, .step sampleStep]
      ([Operation.completeStep (sampleCompletion "plan".toList .succeeded)].map
        Operation.program)).run schema
        (List.replicate 13 (0, replies "build".toList 2))).isSome = true := by decide +kernel
  obtain ⟨s, hs⟩ := Option.isSome_iff_exists.mp hsome
  have hstarted : JustStarted [.run sampleRun, .step sampleStep] "run".toList 3 :=
    ⟨sampleRun, sampleStep, by decide, rfl, rfl, rfl, rfl, by decide, rfl, rfl, rfl⟩
  have hrun : Run (fun _ => True) [.run sampleRun, .step sampleStep]
      [.completeStep (sampleCompletion "plan".toList .succeeded)] s :=
    System.run_reaches (fun _ _ => trivial) .refl hs
  refine ⟨s, hs, ((corrections_bounded (by decide) hstarted hrun).2.2 ?_).1⟩
  intro operation hoperation _
  rw [List.mem_singleton.mp hoperation]
  rfl

end Workflow
