import VitoPlatform.Library.Commits
import VitoPlatform.Workflow.Recovery

/-!
# What a call has done when it commits

One shape for each operation of the runtime: the events of its transaction, up to the audit
records at the end. Whatever the other calls do, an operation commits a transaction that has
written nothing or one of its shape (`Operation.wp`), it writes inside a transaction only, and
each of its updates lets a row evolve: the identity of a row stays, a terminal step stays as it
is, and a run that has been started is never CREATED again.
-/

namespace Workflow

open Text Policy Persistence Invocation Database Prog

/-- A statement that has been executed. -/
def ran (s : Stmt Row) (rows : List Row) : Happened := ⟨.stmt s, .ok rows⟩

def began : Happened := ⟨.begin, .ok ()⟩

/-- What no operation changes in a run. -/
structure SameRun (a b : WorkflowRun) : Prop where
  id : b.id = a.id
  organizationId : b.organizationId = a.organizationId
  taskId : b.taskId = a.taskId
  assuranceLevel : b.assuranceLevel = a.assuranceLevel
  maxCorrectionLoops : b.maxCorrectionLoops = a.maxCorrectionLoops
  correlationId : b.correlationId = a.correlationId
  created : b.status = .created → a.status = .created

/-- What no operation changes in a step. -/
structure SameStep (a b : WorkflowStepRun) : Prop where
  id : b.id = a.id
  organizationId : b.organizationId = a.organizationId
  workflowRunId : b.workflowRunId = a.workflowRunId
  stepType : b.stepType = a.stepType
  attemptNumber : b.attemptNumber = a.attemptNumber
  causationId : b.causationId = a.causationId
  startedAt : b.startedAt = a.startedAt
  terminal : terminalStep a.status = true → b = a

/-- How a row may change. -/
def Evolves : Row → Row → Prop
  | .run a, .run b => SameRun a b
  | .step a, .step b => SameStep a b
  | .claim a, .claim b => a = b
  | _, _ => False

theorem Evolves.refl (r : Row) : Evolves r r := by
  cases r with
  | run a => exact ⟨rfl, rfl, rfl, rfl, rfl, rfl, id⟩
  | step a => exact ⟨rfl, rfl, rfl, rfl, rfl, rfl, rfl, fun _ => rfl⟩
  | claim a => exact rfl

theorem SameStep.trans {a b c : WorkflowStepRun} (hab : SameStep a b) (hbc : SameStep b c) :
    SameStep a c where
  id := hbc.id.trans hab.id
  organizationId := hbc.organizationId.trans hab.organizationId
  workflowRunId := hbc.workflowRunId.trans hab.workflowRunId
  stepType := hbc.stepType.trans hab.stepType
  attemptNumber := hbc.attemptNumber.trans hab.attemptNumber
  causationId := hbc.causationId.trans hab.causationId
  startedAt := hbc.startedAt.trans hab.startedAt
  terminal := fun h => by
    have hb := hab.terminal h
    rw [hbc.terminal (by rwa [hb]), hb]

theorem Evolves.trans {r u w : Row} (hru : Evolves r u) (huw : Evolves u w) : Evolves r w := by
  cases r <;> cases u <;> cases w <;> try exact absurd huw id
  all_goals try exact absurd hru id
  · exact ⟨huw.id.trans hru.id, huw.organizationId.trans hru.organizationId,
      huw.taskId.trans hru.taskId, huw.assuranceLevel.trans hru.assuranceLevel,
      huw.maxCorrectionLoops.trans hru.maxCorrectionLoops,
      huw.correlationId.trans hru.correlationId, fun h => hru.created (huw.created h)⟩
  · exact SameStep.trans hru huw
  · exact Eq.trans hru huw

theorem Evolves.key {r w : Row} (h : Evolves r w) : w.key = r.key := by
  cases r <;> cases w <;> try exact absurd h id
  · exact congrArg RowKey.run h.id
  · exact congrArg RowKey.step h.id
  · exact congrArg (fun c => Row.key (.claim c)) (Eq.symm h)

/-! ## Traces of transactions -/

/-- The events of a call in its transaction. -/
def inTx (pre tx : List Happened) : List Happened := pre ++ began :: tx

theorem inTx_snoc (pre tx : List Happened) (event : Happened) :
    inTx pre tx ++ [event] = inTx pre (tx ++ [event]) := by
  rw [inTx, List.append_assoc, List.cons_append, inTx]

/-- No transaction has been begun. -/
def Unbegun (t : List Happened) : Prop := ∀ event ∈ t, event.1 ≠ .begin

/-- What a call may do at each effect. It begins one transaction at most. -/
def Admits (shape : List Happened → List Happened → Prop) (t : List Happened) :
    Effect Row Ask → Prop
  | .begin => Unbegun t
  | .commit => ∃ pre tx, t = inTx pre tx ∧ (∀ event ∈ tx, Quiet event) ∧
      (tx.flatMap written = [] ∨ shape pre tx)
  | .stmt (.update p f) => (∃ pre tx, t = inTx pre tx ∧ ∀ event ∈ tx, Quiet event) ∧
      ∀ r, p r = true → Evolves r (f r)
  | .stmt (.insert _) => ∃ pre tx, t = inTx pre tx ∧ ∀ event ∈ tx, Quiet event
  | _ => True

section Rules

variable {α : Type} {shape : List Happened → List Happened → Prop}
variable {pre tx t : List Happened}

@[simp] theorem quiet_ran (s : Stmt Row) (rows : List Row) : Quiet (ran s rows) := trivial

@[simp] theorem quiet_answered (x : Ask) (a : Ans x) : Quiet (answered x a) := trivial

theorem quiet_append {tx' : List Happened} (h : ∀ event ∈ tx, Quiet event)
    (h' : ∀ event ∈ tx', Quiet event) : ∀ event ∈ tx ++ tx', Quiet event :=
  List.forall_mem_append.mpr ⟨h, h'⟩

theorem unbegun_nil : Unbegun [] := List.forall_mem_nil _

theorem Unbegun.snoc {event : Happened} (h : Unbegun t) (hevent : event.1 ≠ .begin) :
    Unbegun (t ++ [event]) :=
  List.forall_mem_append.mpr ⟨h, List.forall_mem_singleton.mpr hevent⟩

/-- A call whose failures do not matter. -/
abbrev Holds (shape : List Happened → List Happened → Prop) (p : Program α)
    (post : α → List Happened → Prop) (t : List Happened) : Prop :=
  wp (Admits shape) p post (fun _ _ => True) t

theorem Holds.expect {value : Option α} {error : Failure} {post : α → List Happened → Prop}
    (h : ∀ a, value = some a → post a t) : Holds shape (Prog.expect value error) post t :=
  wp_expect.mpr ⟨h, fun _ => trivial⟩

theorem Holds.require {condition : Bool} {error : Failure} {post : Unit → List Happened → Prop}
    (h : condition = true → post () t) : Holds shape (Prog.require condition error) post t :=
  wp_require.mpr ⟨h, fun _ => trivial⟩

theorem Holds.ask {x : Ask} {post : Ans x → List Happened → Prop}
    (h : ∀ a, post a (t ++ [answered x a])) : Holds shape (Invocation.ask x) post t :=
  wp_perform.mpr ⟨trivial, h, fun _ => trivial⟩

theorem Holds.findRun {organizationId workflowRunId : Str}
    {post : Option WorkflowRun → List Happened → Prop}
    (h : ∀ rows, post (rows.filterMap Row.run?).head?
      (t ++ [ran (.select (runWhere organizationId workflowRunId fun _ => true)) rows])) :
    Holds shape (Workflow.findRun organizationId workflowRunId) post t :=
  wp_bind.mpr (wp_perform.mpr ⟨trivial, h, fun _ => trivial⟩)

theorem Holds.findSteps {organizationId workflowRunId : Str} {p : WorkflowStepRun → Bool}
    {post : List WorkflowStepRun → List Happened → Prop}
    (h : ∀ rows, post (rows.filterMap Row.step?)
      (t ++ [ran (.select (stepWhere organizationId workflowRunId p)) rows])) :
    Holds shape (Workflow.findSteps organizationId workflowRunId p) post t :=
  wp_bind.mpr (wp_perform.mpr ⟨trivial, h, fun _ => trivial⟩)

theorem Holds.findStep {organizationId workflowRunId : Str} {p : WorkflowStepRun → Bool}
    {post : Option WorkflowStepRun → List Happened → Prop}
    (h : ∀ rows, post (rows.filterMap Row.step?).head?
      (t ++ [ran (.select (stepWhere organizationId workflowRunId p)) rows])) :
    Holds shape (Workflow.findStep organizationId workflowRunId p) post t :=
  wp_bind.mpr (Holds.findSteps h)

theorem Holds.findNewestStep {organizationId workflowRunId : Str} {p : WorkflowStepRun → Bool}
    {time : WorkflowStepRun → Option Int} {post : Option WorkflowStepRun → List Happened → Prop}
    (h : ∀ rows, post (newest time (rows.filterMap Row.step?))
      (t ++ [ran (.select (stepWhere organizationId workflowRunId p)) rows])) :
    Holds shape (Workflow.findNewestStep organizationId workflowRunId p time) post t :=
  wp_bind.mpr (Holds.findSteps h)

/-- A statement of a transaction that writes. -/
theorem holds_update {p : Row → Bool} {f : Row → Row} {post : List Row → List Happened → Prop}
    (hquiet : ∀ event ∈ tx, Quiet event) (hf : ∀ r, p r = true → Evolves r (f r))
    (h : ∀ rows, post rows (inTx pre (tx ++ [ran (.update p f) rows]))) :
    Holds shape (statement (.update p f)) post (inTx pre tx) := by
  refine wp_perform.mpr ⟨⟨⟨pre, tx, rfl, hquiet⟩, hf⟩, fun rows => ?_, fun _ => trivial⟩
  rw [inTx_snoc]
  exact h rows

theorem holds_insert {v : Row} {post : List Row → List Happened → Prop}
    (hquiet : ∀ event ∈ tx, Quiet event)
    (h : ∀ rows, post rows (inTx pre (tx ++ [ran (.insert v) rows]))) :
    Holds shape (statement (.insert v)) post (inTx pre tx) := by
  refine wp_perform.mpr ⟨⟨pre, tx, rfl, hquiet⟩, fun rows => ?_, fun _ => trivial⟩
  rw [inTx_snoc]
  exact h rows

theorem Holds.updateRun {workflowRunId : Str} {data : WorkflowRun → WorkflowRun}
    {post : WorkflowRun → List Happened → Prop} (hquiet : ∀ event ∈ tx, Quiet event)
    (hdata : ∀ row, SameRun row (data row))
    (h : ∀ rows row, (rows.filterMap Row.run?).head? = some row →
      post row (inTx pre (tx ++ [ran (.update (runById workflowRunId) (onRun data)) rows]))) :
    Holds shape (Workflow.updateRun workflowRunId data) post (inTx pre tx) := by
  refine wp_bind.mpr (holds_update hquiet ?_ fun rows => Holds.expect fun row hrow => h rows row hrow)
  intro r hr
  obtain ⟨row, rfl, -⟩ := isRun_iff.mp hr
  exact hdata row

theorem Holds.updateRuns {organizationId workflowRunId : Str} {p : WorkflowRun → Bool}
    {data : WorkflowRun → WorkflowRun} {post : Nat → List Happened → Prop}
    (hquiet : ∀ event ∈ tx, Quiet event) (hdata : ∀ row, SameRun row (data row))
    (h : ∀ rows, post rows.length
      (inTx pre (tx ++ [ran (.update (runWhere organizationId workflowRunId p) (onRun data)) rows]))) :
    Holds shape (Workflow.updateRuns organizationId workflowRunId p data) post (inTx pre tx) := by
  refine wp_bind.mpr (holds_update hquiet ?_ h)
  intro r hr
  obtain ⟨row, rfl, -⟩ := isRun_iff.mp hr
  exact hdata row

theorem Holds.updateSteps {p : WorkflowStepRun → Bool} {data : WorkflowStepRun → WorkflowStepRun}
    {post : Nat → List Happened → Prop} (hquiet : ∀ event ∈ tx, Quiet event)
    (hdata : ∀ row, p row = true → SameStep row (data row))
    (h : ∀ rows, post rows.length (inTx pre (tx ++ [ran (.update (isStep p) (onStep data)) rows]))) :
    Holds shape (Workflow.updateSteps (isStep p) data) post (inTx pre tx) := by
  refine wp_bind.mpr (holds_update hquiet ?_ h)
  intro r hr
  obtain ⟨row, rfl, hrow⟩ := isStep_iff.mp hr
  exact hdata row hrow

theorem Holds.createStep {data : StepData} {post : WorkflowStepRun → List Happened → Prop}
    (hquiet : ∀ event ∈ tx, Quiet event)
    (h : ∀ id rows, post (data.row id)
      (inTx pre (tx ++ [answered .newId id] ++ [ran (.insert (.step (data.row id))) rows]))) :
    Holds shape (Workflow.createStep data) post (inTx pre tx) := by
  refine wp_bind.mpr (Holds.ask fun id => ?_)
  rw [inTx_snoc]
  exact wp_bind.mpr (holds_insert (quiet_append hquiet (by simp)) fun rows => h id rows)

theorem Holds.transaction {body : Program α} {post : α → List Happened → Prop}
    (hfirst : Unbegun t) (h : Holds shape body (fun a t' => Admits shape t' .commit ∧
      post a (t' ++ [⟨.commit, .ok ()⟩])) (inTx t [])) :
    Holds shape (Workflow.transaction body) post t := by
  refine wp_bind.mpr (wp_perform.mpr ⟨hfirst, fun _ => ?_, fun _ => trivial⟩)
  refine wp_bind.mpr (wp_tryCatch.mpr (wp_mono h ?_ ?_))
  · intro a t' ha
    exact wp_bind.mpr (wp_perform.mpr ⟨ha.1, fun _ => ha.2, fun _ => trivial⟩)
  · intro error t' _
    exact wp_bind.mpr (wp_perform.mpr ⟨trivial, fun _ => trivial, fun _ => trivial⟩)

/-- A transaction that has written nothing may commit. -/
theorem admits_nothing (hquiet : ∀ event ∈ tx, Quiet event) (h : tx.flatMap written = []) :
    Admits shape (inTx pre tx) .commit :=
  ⟨pre, tx, rfl, hquiet, .inl h⟩

theorem admits_shape (hquiet : ∀ event ∈ tx, Quiet event) (h : shape pre tx) :
    Admits shape (inTx pre tx) .commit :=
  ⟨pre, tx, rfl, hquiet, .inr h⟩

end Rules

/-! ## Shapes -/

section Shapes

def readRun (organizationId workflowRunId : Str) (rows : List Row) : Happened :=
  ran (.select (runWhere organizationId workflowRunId fun _ => true)) rows

def readSteps (organizationId workflowRunId : Str) (p : WorkflowStepRun → Bool)
    (rows : List Row) : Happened :=
  ran (.select (stepWhere organizationId workflowRunId p)) rows

def wroteRun (workflowRunId : Str) (data : WorkflowRun → WorkflowRun) (rows : List Row) :
    Happened :=
  ran (.update (runById workflowRunId) (onRun data)) rows

def claimedRun (organizationId workflowRunId : Str) (p : WorkflowRun → Bool)
    (data : WorkflowRun → WorkflowRun) (rows : List Row) : Happened :=
  ran (.update (runWhere organizationId workflowRunId p) (onRun data)) rows

def wroteSteps (p : WorkflowStepRun → Bool) (data : WorkflowStepRun → WorkflowStepRun)
    (rows : List Row) : Happened :=
  ran (.update (isStep p) (onStep data)) rows

/-- A step created under a generated id. -/
def createdStep (data : StepData) (id : Str) (rows : List Row) : List Happened :=
  [answered .newId id, ran (.insert (.step (data.row id))) rows]

/-- The first run among the rows of an answer. -/
def firstRun (rows : List Row) : Option WorkflowRun := (rows.filterMap Row.run?).head?

def stepsIn (rows : List Row) : List WorkflowStepRun := rows.filterMap Row.step?

inductive CreateShape (input : CreateWorkflowRunInput) :
    List Happened → List Happened → Prop
  | mk (pre : List Happened) (id correlationId : Str) (rows : List Row) (rest : List Happened) :
      rest.flatMap written = [] →
      CreateShape input pre
        (answered .newId id :: ran (.insert (.run (input.row id correlationId))) rows :: rest)

inductive StartShape (organizationId workflowRunId : Str) :
    List Happened → List Happened → Prop
  | mk (pre : List Happened) (reads updated created : List Row) (run row : WorkflowRun)
      (now : Int) (id : Str) (rest : List Happened) :
      firstRun reads = some run → run.status = .created → firstRun updated = some row →
      rest.flatMap written = [] →
      StartShape organizationId workflowRunId pre
        (readRun organizationId workflowRunId reads :: answered .now now ::
          wroteRun workflowRunId startedRow updated ::
            (createdStep (firstStep organizationId workflowRunId now) id created ++ rest))

/-- The successor an outcome creates. -/
inductive SuccessorShape (input : CompleteStepInput) (freshStep : WorkflowStepRun) (now : Int) :
    TransitionOutcome → List Happened → Prop
  | next (next : EngineeringStepType) (id : Str) (rows : List Row) (rest : List Happened) :
      rest.flatMap written = [] →
      SuccessorShape input freshStep now (.nextStep next)
        (createdStep (successor input freshStep now next) id rows ++ rest)
  | none (outcome : TransitionOutcome) : (∀ next, outcome ≠ .nextStep next) →
      SuccessorShape input freshStep now outcome []

inductive CompletionShape (input : CompleteStepInput) : List Happened → List Happened → Prop
  | mk (pre : List Happened) (runs steps freshRuns freshSteps claimed updated : List Row)
      (run freshRun row : WorkflowRun) (stepRun freshStep : WorkflowStepRun) (now : Int)
      (created rest : List Happened) :
      (sessionAfter pre).writes = [] →
      firstRun runs = some run → (stepsIn steps).head? = some stepRun →
      terminalStep stepRun.status = false →
      firstRun freshRuns = some freshRun → (stepsIn freshSteps).head? = some freshStep →
      terminalRun freshRun.status = false → terminalStep freshStep.status = false →
      stale freshRun freshStep = false → claimed ≠ [] →
      SuccessorShape input freshStep now
        (nextEngineeringStep (stateMachineInput input freshRun freshStep)) created →
      firstRun updated = some row → rest.flatMap written = [] →
      CompletionShape input
        (pre ++ [readRun input.organizationId input.workflowRunId runs,
          readSteps input.organizationId input.workflowRunId
            (fun row => row.id == input.workflowStepRunId) steps])
        (readRun input.organizationId input.workflowRunId freshRuns ::
          readSteps input.organizationId input.workflowRunId
            (fun row => row.id == input.workflowStepRunId) freshSteps ::
          answered .now now ::
          wroteSteps (fun row => row.id == freshStep.id && row.status == .ready)
            (completedRow input now) claimed ::
          (created ++
            wroteRun input.workflowRunId
              (runUpdate (nextEngineeringStep (stateMachineInput input freshRun freshStep))
                freshRun freshStep.stepType) updated :: rest))

inductive CancelShape (input : CancelRunInput) : List Happened → List Happened → Prop
  | mk (pre : List Happened) (now : Int) (claimed steps : List Row) (rest : List Happened) :
      claimed ≠ [] → rest.flatMap written = [] →
      CancelShape input pre
        (answered .now now ::
          claimedRun input.organizationId input.workflowRunId cancellableRun cancelledRun
            claimed ::
          ran (.update (stepWhere input.organizationId input.workflowRunId cancellableStep)
            (onStep (cancelledStep now))) steps :: rest)

/-- What a resume that has read `run` does to the waiting steps. -/
inductive AwakenShape (organizationId workflowRunId : Str) (run : WorkflowRun) :
    List Happened → Prop
  | awaken (stepType : EngineeringStepType) (steps : List Row) (rest : List Happened) :
      awaitedStep run = some stepType → rest.flatMap written = [] →
      AwakenShape organizationId workflowRunId run
        (ran (.update (stepWhere organizationId workflowRunId (waitingStep stepType))
          (onStep awakened)) steps :: rest)
  | skip (rest : List Happened) : awaitedStep run = none → rest.flatMap written = [] →
      AwakenShape organizationId workflowRunId run rest

inductive ResumeShape (organizationId workflowRunId : Str) :
    List Happened → List Happened → Prop
  | blocked (runs updated : List Row) (run row : WorkflowRun) (rest : List Happened) :
      firstRun runs = some run → run.status = .blocked →
      run.blockReasonCode ≠ some .humanDecisionRequired → firstRun updated = some row →
      AwakenShape organizationId workflowRunId run rest →
      ResumeShape organizationId workflowRunId [readRun organizationId workflowRunId runs]
        (wroteRun workflowRunId resumedRow updated :: rest)
  | waiting (runs updated : List Row) (run row : WorkflowRun) (rest : List Happened) :
      firstRun runs = some run → run.status = .waitingForHuman → firstRun updated = some row →
      rest.flatMap written = [] →
      ResumeShape organizationId workflowRunId [readRun organizationId workflowRunId runs]
        (wroteRun workflowRunId continuedRow updated :: rest)

def succeededOf (stepType : EngineeringStepType) (row : WorkflowStepRun) : Bool :=
  row.stepType == stepType && row.status == .succeeded

inductive CorrectionShape (input : RequestCorrectionInput) :
    List Happened → List Happened → Prop
  | mk (pre : List Happened) (runs steps claimed created : List Row) (run : WorkflowRun)
      (parseStep : WorkflowStepRun) (now : Int) (id : Str) (rest : List Happened) :
      firstRun runs = some run → awaitsDecision run = true →
      newest (·.finishedAt) (stepsIn steps) = some parseStep →
      run.correctionLoopCount < run.maxCorrectionLoops →
      claimed.length = 1 → rest.flatMap written = [] →
      CorrectionShape input pre
        (readRun input.organizationId input.workflowRunId runs ::
          readSteps input.organizationId input.workflowRunId (succeededOf .parseVerdict) steps ::
          claimedRun input.organizationId input.workflowRunId
            (fun row => awaitsDecision row &&
              row.correctionLoopCount == run.correctionLoopCount) correctionRow claimed ::
          answered .now now ::
          (createdStep (requestedStep input parseStep.id now) id created ++ rest))

/-- The stale steps a recovery cancels. -/
inductive StaleShape (input : RecoveryInput) (staleSteps : List WorkflowStepRun) :
    List Happened → Prop
  | cancel (now : Int) (cancelled : List Row) :
      StaleShape input staleSteps
        [answered .now now,
          ran (.update (stepWhere input.organizationId input.workflowRunId fun row =>
            (staleSteps.map (·.id)).contains row.id && cancellableStep row)
              (onStep (cancelledStep now))) cancelled]
  | none : staleSteps = [] → StaleShape input staleSteps []

inductive RetestShape (input : RecoveryInput) : List Happened → List Happened → Prop
  | mk (pre : List Happened) (runs corrections stale claimed created : List Row)
      (run : WorkflowRun) (correctionStep : WorkflowStepRun) (approvalRef : Str) (now : Int)
      (id : Str) (cancelled rest : List Happened) :
      firstRun runs = some run → exhausted run = true →
      run.correctionLoopCount = run.maxCorrectionLoops →
      newest (·.finishedAt) (stepsIn corrections) = some correctionStep →
      claimed.length = 1 → StaleShape input (stepsIn stale) cancelled →
      rest.flatMap written = [] →
      RetestShape input pre
        (readRun input.organizationId input.workflowRunId runs ::
          readSteps input.organizationId input.workflowRunId (succeededOf .correction)
            corrections ::
          readSteps input.organizationId input.workflowRunId cancellableStep stale ::
          claimedRun input.organizationId input.workflowRunId
            (fun row => exhausted row && row.correctionLoopCount == run.correctionLoopCount)
            retestedRow claimed ::
          (cancelled ++ answered .now now ::
            (createdStep
              (retestStep input approvalRef run.correctionLoopCount correctionStep.id now) id
              created ++ rest)))

inductive ReverifyShape (input : RecoveryInput) : List Happened → List Happened → Prop
  | mk (pre : List Happened) (runs gates verified nonterminal claimed cancelled created : List Row)
      (run : WorkflowRun) (gate verifyStep : WorkflowStepRun) (record : Happened)
      (verifyId approvalRef upstream invocationId : Str) (cancelledAt now : Int) (id : Str)
      (rest : List Happened) :
      firstRun runs = some run → atReleaseGate run = true →
      newest (·.startedAt) (stepsIn gates) = some gate →
      (stepsIn verified).head? = some verifyStep →
      gate.causationId = some verifyId → verifyStep.causationId = some upstream →
      onlyGate (stepsIn nonterminal) gate.id = true → written record = [] →
      claimed.length = 1 → cancelled.length = 1 → rest.flatMap written = [] →
      ReverifyShape input pre
        (readRun input.organizationId input.workflowRunId runs ::
          readSteps input.organizationId input.workflowRunId readyGate gates ::
          readSteps input.organizationId input.workflowRunId
            (fun row => row.id == verifyId && row.stepType == .verify &&
              row.status == .succeeded) verified ::
          record ::
          readSteps input.organizationId input.workflowRunId cancellableStep nonterminal ::
          claimedRun input.organizationId input.workflowRunId
            (fun row => atReleaseGate row && row.correctionLoopCount == run.correctionLoopCount)
            reverifiedRow claimed ::
          answered .now cancelledAt ::
          ran (.update (stepWhere input.organizationId input.workflowRunId fun row =>
            row.id == gate.id && readyGate row) (onStep (cancelledStep cancelledAt)))
            cancelled ::
          answered .now now ::
          (createdStep (reverifyStep input approvalRef run gate verifyStep upstream
            invocationId now) id created ++ rest))

/-- The completion of a gate that the approval has read READY. -/
inductive ApprovalShape (input : ApproveInput) : List Happened → List Happened → Prop
  | mk (runs gates : List Row) (run : WorkflowRun) (gate : WorkflowStepRun)
      (pre tx : List Happened) :
      input.isMachineIdentity = false → firstRun runs = some run → atReleaseGate run = true →
      newest (·.startedAt) (stepsIn gates) = some gate →
      CompletionShape (approval input gate.id)
        ([readRun input.organizationId input.workflowRunId runs,
          readSteps input.organizationId input.workflowRunId readyGate gates] ++ pre) tx →
      ApprovalShape input
        ([readRun input.organizationId input.workflowRunId runs,
          readSteps input.organizationId input.workflowRunId readyGate gates] ++ pre) tx

/-- The shape of the transactions an operation commits after writing. -/
def Operation.shape : Operation → List Happened → List Happened → Prop
  | .createRun input => CreateShape input
  | .startRun organizationId workflowRunId => StartShape organizationId workflowRunId
  | .completeStep input => CompletionShape input
  | .cancelRun input => CancelShape input
  | .resumeRun organizationId workflowRunId => ResumeShape organizationId workflowRunId
  | .requestCorrection input => CorrectionShape input
  | .recoverLoop input => RetestShape input
  | .recoverRelease input => ReverifyShape input
  | .approveRelease input => ApprovalShape input

end Shapes

/-! ## One operation after the other -/

section Operations

variable {t pre : List Happened}

@[simp] theorem written_answered (x : Ask) (a : Ans x) : written (answered x a) = [] := rfl

@[simp] theorem written_select (p : Row → Bool) (rows : List Row) :
    written (ran (.select p) rows) = [] := rfl

@[simp] theorem written_update (p : Row → Bool) (f : Row → Row) (rows : List Row) :
    written (ran (.update p f) rows) = rows := rfl

@[simp] theorem written_insert (v : Row) (rows : List Row) :
    written (ran (.insert v) rows) = rows := rfl

@[simp] theorem written_wroteRun (workflowRunId : Str) (data : WorkflowRun → WorkflowRun)
    (rows : List Row) : written (wroteRun workflowRunId data rows) = rows := rfl

@[simp] theorem written_readRun (organizationId workflowRunId : Str) (rows : List Row) :
    written (readRun organizationId workflowRunId rows) = [] := rfl

@[simp] theorem written_readSteps (organizationId workflowRunId : Str)
    (p : WorkflowStepRun → Bool) (rows : List Row) :
    written (readSteps organizationId workflowRunId p rows) = [] := rfl

@[simp] theorem written_wroteSteps (p : WorkflowStepRun → Bool)
    (data : WorkflowStepRun → WorkflowStepRun) (rows : List Row) :
    written (wroteSteps p data rows) = rows := rfl

@[simp] theorem written_claimedRun (organizationId workflowRunId : Str)
    (p : WorkflowRun → Bool) (data : WorkflowRun → WorkflowRun) (rows : List Row) :
    written (claimedRun organizationId workflowRunId p data rows) = rows := rfl

@[simp] theorem quiet_readRun (organizationId workflowRunId : Str) (rows : List Row) :
    Quiet (readRun organizationId workflowRunId rows) := trivial

@[simp] theorem quiet_readSteps (organizationId workflowRunId : Str)
    (p : WorkflowStepRun → Bool) (rows : List Row) :
    Quiet (readSteps organizationId workflowRunId p rows) := trivial

@[simp] theorem quiet_wroteRun (workflowRunId : Str) (data : WorkflowRun → WorkflowRun)
    (rows : List Row) : Quiet (wroteRun workflowRunId data rows) := trivial

@[simp] theorem quiet_claimedRun (organizationId workflowRunId : Str)
    (p : WorkflowRun → Bool) (data : WorkflowRun → WorkflowRun) (rows : List Row) :
    Quiet (claimedRun organizationId workflowRunId p data rows) := trivial

@[simp] theorem quiet_wroteSteps (p : WorkflowStepRun → Bool)
    (data : WorkflowStepRun → WorkflowStepRun) (rows : List Row) :
    Quiet (wroteSteps p data rows) := trivial

/-- One more audit record of a transaction. -/
theorem Holds.audit {shape : List Happened → List Happened → Prop} {tx : List Happened}
    {organizationId entityId : Str} {action entityType : String}
    {post : Unit → List Happened → Prop}
    (h : post () (inTx pre (tx ++
      [answered (.recordAudit organizationId action entityType entityId) ()]))) :
    Holds shape (Workflow.audit organizationId action entityType entityId) post (inTx pre tx) := by
  refine Holds.ask fun a => ?_
  rw [inTx_snoc]
  exact h

/-- What a transaction that returns has done. -/
abbrev Ready (shape : List Happened → List Happened → Prop) {α : Type} :
    α → List Happened → Prop :=
  fun _ t => Admits shape t .commit ∧ True

theorem createFresh_holds (input : CreateWorkflowRunInput) (correlationId : Str) :
    Holds (CreateShape input) (createFresh input correlationId) (Ready (CreateShape input))
      (inTx t []) := by
  refine wp_bind.mpr (Holds.ask fun id => ?_)
  rw [inTx_snoc]
  refine wp_bind.mpr (holds_insert (by simp) fun rows => ?_)
  refine wp_bind.mpr (Holds.audit (wp_pure'.mpr ⟨admits_shape (by simp) ?_, trivial⟩))
  simp only [List.nil_append, List.cons_append]
  exact .mk t id correlationId rows _ rfl

theorem createRun_holds (input : CreateWorkflowRunInput) :
    Holds (CreateShape input) (createRun input) (fun _ _ => True) [] := by
  refine wp_bind.mpr ?_
  unfold correlation
  split
  · exact Holds.transaction unbegun_nil (createFresh_holds input _)
  · exact Holds.ask fun _ => Holds.transaction (unbegun_nil.snoc nofun) (createFresh_holds input _)

theorem startFresh_holds (organizationId workflowRunId : Str) :
    Holds (StartShape organizationId workflowRunId) (startFresh organizationId workflowRunId)
      (Ready (StartShape organizationId workflowRunId)) (inTx t []) := by
  refine wp_bind.mpr (Holds.findRun fun reads => ?_)
  rw [inTx_snoc]
  refine wp_bind.mpr (Holds.expect fun run hrun => wp_bind.mpr (Holds.require fun hstatus => ?_))
  refine wp_bind.mpr (Holds.ask fun now => ?_)
  rw [inTx_snoc]
  refine wp_bind.mpr (Holds.updateRun (by simp) ?_ fun updated row hrow => ?_)
  · exact fun row => ⟨rfl, rfl, rfl, rfl, rfl, rfl, nofun⟩
  refine wp_bind.mpr (Holds.createStep (by simp) fun id created => ?_)
  refine wp_bind.mpr (Holds.audit (wp_bind.mpr (Holds.audit
    (wp_pure'.mpr ⟨admits_shape (by simp) ?_, trivial⟩))))
  simp only [List.nil_append, List.cons_append]
  exact .mk t reads updated created run row now id _ hrun (by simpa using hstatus) hrow rfl

theorem startRun_holds (organizationId workflowRunId : Str) :
    Holds (StartShape organizationId workflowRunId) (startRun organizationId workflowRunId)
      (fun _ _ => True) [] :=
  Holds.transaction unbegun_nil (startFresh_holds organizationId workflowRunId)

theorem sameStep_of_open {row row' : WorkflowStepRun} (h : terminalStep row.status = false)
    (hid : row'.id = row.id) (horganization : row'.organizationId = row.organizationId)
    (hrun : row'.workflowRunId = row.workflowRunId) (htype : row'.stepType = row.stepType)
    (hattempt : row'.attemptNumber = row.attemptNumber)
    (hcause : row'.causationId = row.causationId) (hstart : row'.startedAt = row.startedAt) :
    SameStep row row' :=
  ⟨hid, horganization, hrun, htype, hattempt, hcause, hstart, fun hterminal => by
    rw [h] at hterminal
    cases hterminal⟩

/-- A completed step evolves: it was READY. -/
theorem completedRow_evolves (input : CompleteStepInput) (now : Int) (stepId : Str)
    (row : WorkflowStepRun) (h : (row.id == stepId && row.status == .ready) = true) :
    SameStep row (completedRow input now row) := by
  refine sameStep_of_open ?_ rfl rfl rfl rfl rfl rfl rfl
  obtain ⟨-, hready⟩ : row.id = stepId ∧ row.status = .ready := by simpa using h
  rw [hready]
  rfl

/-- The steps that can be cancelled are those that are not terminal. -/
theorem cancellableStep_eq (row : WorkflowStepRun) :
    cancellableStep row = !terminalStep row.status := by
  rw [cancellableStep]
  cases row.status <;> rfl

theorem cancelledStep_evolves (now : Int) (row : WorkflowStepRun)
    (h : cancellableStep row = true) : SameStep row (cancelledStep now row) := by
  refine sameStep_of_open ?_ rfl rfl rfl rfl rfl rfl rfl
  rw [cancellableStep_eq] at h
  simpa using h

theorem runUpdate_evolves (outcome : TransitionOutcome) (freshRun : WorkflowRun)
    (completedStep : EngineeringStepType) (row : WorkflowRun) :
    SameRun row (runUpdate outcome freshRun completedStep row) := by
  cases outcome <;> exact ⟨rfl, rfl, rfl, rfl, rfl, rfl, nofun⟩

theorem createSuccessor_holds {shape : List Happened → List Happened → Prop}
    {tx : List Happened} {post : Option WorkflowStepRun → List Happened → Prop}
    {input : CompleteStepInput} {freshStep : WorkflowStepRun} {now : Int}
    {outcome : TransitionOutcome} (hquiet : ∀ event ∈ tx, Quiet event)
    (h : ∀ newStep created, SuccessorShape input freshStep now outcome created →
      (∀ event ∈ created, Quiet event) → post newStep (inTx pre (tx ++ created))) :
    Holds shape (createSuccessor input freshStep now outcome) post (inTx pre tx) := by
  unfold createSuccessor
  split
  · rename_i next
    refine wp_bind.mpr (Holds.createStep hquiet fun id rows => ?_)
    refine wp_bind.mpr (Holds.audit (wp_pure'.mpr ?_))
    have hnext := h (some ((successor input freshStep now next).row id)) _
      (.next next id rows [answered (.recordAudit input.organizationId
        "WORKFLOW_STEP_ACTIVATED" "WorkflowStepRun"
        ((successor input freshStep now next).row id).id) ()] rfl) (by simp [createdStep])
    simpa [createdStep] using hnext
  · rename_i hnext
    have hnone := h none [] (.none outcome fun next he => hnext next he) (by simp)
    simpa using hnone

variable (pre) in
theorem completeFresh_holds {shape : List Happened → List Happened → Prop}
    (input : CompleteStepInput) (runs steps : List Row) (run : WorkflowRun)
    (stepRun : WorkflowStepRun) (hrun : firstRun runs = some run)
    (hstep : (stepsIn steps).head? = some stepRun) (hterminal : terminalStep stepRun.status = false)
    (hidle : (sessionAfter pre).writes = []) (hshape : ∀ tx, CompletionShape input
      (pre ++ [readRun input.organizationId input.workflowRunId runs,
        readSteps input.organizationId input.workflowRunId
          (fun row => row.id == input.workflowStepRunId) steps]) tx →
      shape t tx) :
    Holds shape (completeFresh input stepRun) (Ready shape) (inTx t []) := by
  refine wp_bind.mpr (Holds.findRun fun freshRuns => ?_)
  rw [inTx_snoc]
  refine wp_bind.mpr (Holds.expect fun freshRun hfreshRun => ?_)
  split
  · exact wp_pure'.mpr ⟨admits_nothing (by simp) rfl, trivial⟩
  rename_i hrunning
  refine wp_bind.mpr (Holds.findStep fun freshSteps => ?_)
  rw [inTx_snoc]
  refine wp_bind.mpr (Holds.expect fun freshStep hfreshStep => ?_)
  split
  · exact wp_pure'.mpr ⟨admits_nothing (by simp) rfl, trivial⟩
  rename_i hopen
  split
  · exact wp_pure'.mpr ⟨admits_nothing (by simp) rfl, trivial⟩
  rename_i hcurrent
  refine wp_bind.mpr (Holds.ask fun now => ?_)
  rw [inTx_snoc]
  refine wp_bind.mpr (Holds.updateSteps (by simp)
    (completedRow_evolves input now freshStep.id) fun claimed => ?_)
  split
  · rename_i hcount
    obtain rfl : claimed = [] := by simpa using hcount
    exact wp_pure'.mpr ⟨admits_nothing (by simp) rfl, trivial⟩
  rename_i hcount
  refine wp_bind.mpr (createSuccessor_holds (by simp) fun newStep created hcreated hquiet => ?_)
  refine wp_bind.mpr (Holds.updateRun (quiet_append (by simp) hquiet)
    (runUpdate_evolves _ freshRun freshStep.stepType) fun updated row hrow => ?_)
  refine wp_bind.mpr (Holds.audit (wp_pure'.mpr ⟨admits_shape ?_ ?_, trivial⟩))
  · simpa [or_imp, forall_and] using hquiet
  · refine hshape _ ?_
    simp only [List.nil_append, List.cons_append, List.append_assoc]
    exact .mk pre runs steps freshRuns freshSteps claimed updated run freshRun row stepRun
      freshStep now created _ hidle hrun hstep hterminal hfreshRun hfreshStep (by simpa using hrunning)
      (by simpa using hopen) (by simpa using hcurrent) (by simpa using hcount) hcreated hrow rfl

/-- `completeStep`, as a whole call or at the end of one. -/
theorem completeStep_holds {shape : List Happened → List Happened → Prop}
    (input : CompleteStepInput) (hfirst : Unbegun pre) (hidle : (sessionAfter pre).writes = [])
    (hshape : ∀ reads tx, CompletionShape input (pre ++ reads) tx → shape (pre ++ reads) tx) :
    Holds shape (completeStep input) (fun _ _ => True) pre := by
  have hrejected : ∀ message t, Holds shape (rejected input message) (fun _ _ => True) t :=
    fun message t => wp_bind.mpr (Holds.ask fun _ => trivial)
  refine wp_bind.mpr (Holds.findRun fun runs => wp_bind.mpr (Holds.expect fun run hrun => ?_))
  split
  · exact hrejected _ _
  refine wp_bind.mpr (Holds.findStep fun steps => wp_bind.mpr (Holds.expect fun step hstep => ?_))
  split
  · trivial
  rename_i hterminal
  split
  · exact hrejected _ _
  refine Holds.transaction ?_ (completeFresh_holds pre input runs steps run step hrun hstep
    (by simpa using hterminal) hidle fun tx htx => ?_)
  · have hread : Unbegun (pre ++ [readRun input.organizationId input.workflowRunId runs]) :=
      hfirst.snoc nofun
    exact hread.snoc nofun
  · rw [List.append_assoc]
    exact hshape _ tx htx

theorem cancelFresh_holds (input : CancelRunInput) :
    Holds (CancelShape input) (cancelFresh input) (Ready (CancelShape input)) (inTx t []) := by
  refine wp_bind.mpr (Holds.ask fun now => ?_)
  rw [inTx_snoc]
  refine wp_bind.mpr (Holds.updateRuns (by simp) ?_ fun claimed => ?_)
  · exact fun row => ⟨rfl, rfl, rfl, rfl, rfl, rfl, nofun⟩
  split
  · rename_i hcount
    obtain rfl : claimed = [] := by simpa using hcount
    refine wp_bind.mpr (Holds.findRun fun fresh => Holds.expect fun run _ => ?_)
    rw [inTx_snoc]
    exact ⟨admits_nothing (by simp) rfl, trivial⟩
  rename_i hcount
  refine wp_bind.mpr (Holds.updateSteps (by simp) ?_ fun steps => ?_)
  · intro row hrow
    simp only [Bool.and_eq_true] at hrow
    exact cancelledStep_evolves now row hrow.2
  refine wp_bind.mpr (Holds.findRun fun cancelled => wp_bind.mpr (Holds.expect fun run _ => ?_))
  rw [inTx_snoc]
  refine wp_bind.mpr (Holds.audit (wp_pure'.mpr ⟨admits_shape (by simp) ?_, trivial⟩))
  simp only [List.nil_append, List.cons_append]
  exact .mk t now claimed steps _ (by simpa using hcount) rfl

theorem cancelRun_holds (input : CancelRunInput) :
    Holds (CancelShape input) (cancelRun input) (fun _ _ => True) [] := by
  refine wp_bind.mpr (Holds.require fun _ => wp_bind.mpr (Holds.findRun fun runs =>
    wp_bind.mpr (Holds.expect fun run _ => ?_)))
  split
  · exact wp_bind.mpr (Holds.ask fun _ => trivial)
  have htransaction : ∀ t, Unbegun t → Holds (CancelShape input) (transaction (cancelFresh input))
      (fun _ _ => True) t := fun t ht => Holds.transaction ht (cancelFresh_holds input)
  refine wp_bind.mpr (Holds.require fun _ => wp_bind.mpr
    (wp_mono (htransaction _ (unbegun_nil.snoc nofun)) (fun _ _ _ => ?_) fun _ _ _ => trivial))
  exact wp_bind.mpr (Holds.ask fun _ => wp_bind.mpr (Holds.ask fun _ => trivial))

theorem resumeBlocked_holds (organizationId workflowRunId : Str) (runs : List Row)
    (run : WorkflowRun) (hrun : firstRun runs = some run) (hstatus : run.status = .blocked)
    (hreason : run.blockReasonCode ≠ some .humanDecisionRequired) :
    Holds (ResumeShape organizationId workflowRunId)
      (resumeBlocked organizationId workflowRunId run)
      (Ready (ResumeShape organizationId workflowRunId))
      (inTx [readRun organizationId workflowRunId runs] []) := by
  refine wp_bind.mpr (Holds.updateRun (by simp) ?_ fun updated row hrow => ?_)
  · exact fun row => ⟨rfl, rfl, rfl, rfl, rfl, rfl, nofun⟩
  split
  · rename_i stepType hawaited
    refine wp_bind.mpr (Holds.updateSteps (by simp) ?_ fun steps => ?_)
    · intro row hrow
      refine sameStep_of_open ?_ rfl rfl rfl rfl rfl rfl rfl
      have hwaiting : row.status = .waiting := by
        simp only [waitingStep, Bool.and_eq_true, beq_iff_eq] at hrow
        exact hrow.2.2
      rw [hwaiting]
      rfl
    refine wp_bind.mpr (Holds.audit (wp_pure'.mpr ⟨admits_shape (by simp) ?_, trivial⟩))
    simp only [List.nil_append, List.cons_append]
    exact .blocked runs updated run row _ hrun hstatus hreason hrow
      (.awaken stepType steps _ hawaited rfl)
  · rename_i hawaited
    refine wp_bind.mpr (Holds.audit (wp_pure'.mpr ⟨admits_shape (by simp) ?_, trivial⟩))
    simp only [List.nil_append, List.cons_append]
    exact .blocked runs updated run row _ hrun hstatus hreason hrow (.skip _ hawaited rfl)

theorem resumeWaiting_holds (organizationId workflowRunId : Str) (runs : List Row)
    (run : WorkflowRun) (hrun : firstRun runs = some run)
    (hstatus : run.status = .waitingForHuman) :
    Holds (ResumeShape organizationId workflowRunId) (resumeWaiting organizationId workflowRunId)
      (Ready (ResumeShape organizationId workflowRunId))
      (inTx [readRun organizationId workflowRunId runs] []) := by
  refine wp_bind.mpr (Holds.updateRun (by simp) ?_ fun updated row hrow => ?_)
  · exact fun row => ⟨rfl, rfl, rfl, rfl, rfl, rfl, nofun⟩
  refine wp_bind.mpr (Holds.audit (wp_pure'.mpr ⟨admits_shape (by simp) ?_, trivial⟩))
  simp only [List.nil_append, List.cons_append]
  exact .waiting runs updated run row _ hrun hstatus hrow rfl

theorem resumeRun_holds (organizationId workflowRunId : Str) :
    Holds (ResumeShape organizationId workflowRunId) (resumeRun organizationId workflowRunId)
      (fun _ _ => True) [] := by
  refine wp_bind.mpr (Holds.findRun fun runs => wp_bind.mpr (Holds.expect fun run hrun => ?_))
  cases hstatus : run.status with
  | completed | failed | cancelled | created => trivial
  | running =>
      have hnoop : ∀ t, Unbegun t → Holds (ResumeShape organizationId workflowRunId)
          (transaction (auditResumed organizationId workflowRunId)) (fun _ _ => True) t :=
        fun t ht => Holds.transaction ht (Holds.audit ⟨admits_nothing (by simp) rfl, trivial⟩)
      exact wp_bind.mpr (wp_mono (hnoop _ (unbegun_nil.snoc nofun)) (fun _ _ _ => trivial) fun _ _ _ => trivial)
  | blocked =>
      change Holds _ (if _ then _ else _) _ _
      split
      · trivial
      · rename_i hreason
        exact Holds.transaction (unbegun_nil.snoc nofun)
          (resumeBlocked_holds organizationId workflowRunId runs run hrun hstatus hreason)
  | waitingForHuman =>
      exact Holds.transaction (unbegun_nil.snoc nofun)
        (resumeWaiting_holds organizationId workflowRunId runs run hrun hstatus)

theorem humanDecision_next {count : Int} {policy : RetryPolicy}
    (h : nextEngineeringHumanDecision (.humanDecisionRequired .D) count policy =
      .nextStep .correction) : count < policy.maxCorrectionLoops := by
  rw [nextEngineeringHumanDecision] at h
  split at h
  · cases h
  · omega

theorem requestCorrectionFresh_holds (input : RequestCorrectionInput) :
    Holds (CorrectionShape input) (requestCorrectionFresh input) (Ready (CorrectionShape input))
      (inTx t []) := by
  refine wp_bind.mpr (Holds.findRun fun runs => ?_)
  rw [inTx_snoc]
  refine wp_bind.mpr (Holds.expect fun run hrun => wp_bind.mpr (Holds.require fun hawaits => ?_))
  refine wp_bind.mpr (Holds.findNewestStep fun steps => ?_)
  rw [inTx_snoc]
  refine wp_bind.mpr (Holds.expect fun parseStep hparse => ?_)
  refine wp_bind.mpr (Holds.require fun hsource => wp_bind.mpr (Holds.require fun hverdict => ?_))
  split
  · rename_i hdecision
    refine wp_bind.mpr (Holds.updateRuns (by simp) ?_ fun claimed => ?_)
    · exact fun row => ⟨rfl, rfl, rfl, rfl, rfl, rfl, nofun⟩
    refine wp_bind.mpr (Holds.require fun hcount => wp_bind.mpr (Holds.ask fun now => ?_))
    rw [inTx_snoc]
    refine wp_bind.mpr (Holds.createStep (by simp) fun id created => ?_)
    refine wp_bind.mpr (Holds.audit (wp_bind.mpr (Holds.audit
      (wp_pure'.mpr ⟨admits_shape (by simp) ?_, trivial⟩))))
    simp only [List.nil_append, List.cons_append]
    exact .mk t runs steps claimed created run parseStep now id _ hrun hawaits hparse
      (humanDecision_next hdecision) (by simpa using hcount) rfl
  · trivial
  · trivial
  · trivial
  · trivial

theorem requestCorrection_holds (input : RequestCorrectionInput) :
    Holds (CorrectionShape input) (requestCorrection input) (fun _ _ => True) [] :=
  wp_bind.mpr (Holds.require fun _ => Holds.transaction unbegun_nil (requestCorrectionFresh_holds input))

theorem checkedApproval_holds {shape : List Happened → List Happened → Prop}
    {input : RecoveryInput} {message : String} {post : Str → List Happened → Prop}
    (h : ∀ approvalRef, post approvalRef t) :
    Holds shape (checkedApproval input message) post t :=
  wp_bind.mpr (Holds.require fun _ => wp_bind.mpr (Holds.require fun _ => h _))

theorem cancelStale_holds {shape : List Happened → List Happened → Prop} {tx : List Happened}
    {input : RecoveryInput} {staleSteps : List WorkflowStepRun}
    {post : Unit → List Happened → Prop} (hquiet : ∀ event ∈ tx, Quiet event)
    (h : ∀ cancelled, StaleShape input staleSteps cancelled →
      (∀ event ∈ cancelled, Quiet event) → post () (inTx pre (tx ++ cancelled))) :
    Holds shape (cancelStale input staleSteps) post (inTx pre tx) := by
  unfold cancelStale
  split
  · refine wp_bind.mpr (Holds.ask fun now => ?_)
    rw [inTx_snoc]
    refine wp_bind.mpr (Holds.updateSteps (quiet_append hquiet (by simp)) ?_
      fun cancelled => Holds.require fun _ => ?_)
    · intro row hrow
      simp only [Bool.and_eq_true] at hrow
      exact cancelledStep_evolves now row hrow.2.2
    · rw [List.append_assoc]
      exact h _ (.cancel now cancelled) (by simp)
  · rename_i hlength
    have hnone := h [] (.none (by simpa using hlength)) (by simp)
    rwa [List.append_nil] at hnone

theorem recoverLoopFresh_holds (input : RecoveryInput) (approvalRef : Str) :
    Holds (RetestShape input) (recoverLoopFresh input approvalRef) (Ready (RetestShape input))
      (inTx t []) := by
  refine wp_bind.mpr (Holds.findRun fun runs => ?_)
  rw [inTx_snoc]
  refine wp_bind.mpr (Holds.expect fun run hrun => wp_bind.mpr (Holds.require fun hexhausted => ?_))
  refine wp_bind.mpr (Holds.findNewestStep fun corrections => ?_)
  rw [inTx_snoc]
  refine wp_bind.mpr (Holds.expect fun correctionStep hcorrection => ?_)
  refine wp_bind.mpr (Holds.findSteps fun stale => ?_)
  rw [inTx_snoc]
  refine wp_bind.mpr (Holds.updateRuns (by simp) ?_ fun claimed => ?_)
  · exact fun row => ⟨rfl, rfl, rfl, rfl, rfl, rfl, nofun⟩
  refine wp_bind.mpr (Holds.require fun hcount => ?_)
  refine wp_bind.mpr (cancelStale_holds (by simp) fun cancelled hcancelled hquiet => ?_)
  refine wp_bind.mpr (Holds.ask fun now => ?_)
  rw [inTx_snoc]
  refine wp_bind.mpr (Holds.createStep (quiet_append (quiet_append (by simp) hquiet) (by simp))
    fun id created => ?_)
  refine wp_bind.mpr (Holds.audit (wp_bind.mpr (Holds.audit
    (wp_pure'.mpr ⟨admits_shape ?_ ?_, trivial⟩))))
  · simpa [or_imp, forall_and] using hquiet
  · obtain ⟨hblocked, hexact⟩ : exhausted run = true ∧
        run.correctionLoopCount = run.maxCorrectionLoops := by simpa using hexhausted
    simp only [List.nil_append, List.cons_append, List.append_assoc]
    exact .mk t runs corrections stale claimed created run correctionStep approvalRef now id
      cancelled _ hrun hblocked hexact hcorrection (by simpa using hcount) hcancelled rfl

theorem recoverLoop_holds (input : RecoveryInput) :
    Holds (RetestShape input) (recoverLoop input) (fun _ _ => True) [] :=
  wp_bind.mpr (checkedApproval_holds fun approvalRef =>
    Holds.transaction unbegun_nil (recoverLoopFresh_holds input approvalRef))

theorem reopenable_holds {shape : List Happened → List Happened → Prop} {metadata : Json}
    {post : Str → List Happened → Prop} (h : ∀ invocationId, post invocationId t) :
    Holds shape (reopenable metadata) post t :=
  wp_bind.mpr (Holds.require fun _ => wp_bind.mpr (Holds.require fun _ =>
    Holds.expect fun invocationId _ => h invocationId))

theorem recoverReleaseFresh_holds (input : RecoveryInput) (approvalRef : Str) :
    Holds (ReverifyShape input) (recoverReleaseFresh input approvalRef)
      (Ready (ReverifyShape input)) (inTx t []) := by
  refine wp_bind.mpr (Holds.findRun fun runs => ?_)
  rw [inTx_snoc]
  refine wp_bind.mpr (Holds.expect fun run hrun => wp_bind.mpr (Holds.require fun hgate => ?_))
  refine wp_bind.mpr (Holds.findNewestStep fun gates => ?_)
  rw [inTx_snoc]
  refine wp_bind.mpr (Holds.expect fun gate hnewest => wp_bind.mpr (Holds.expect fun verifyId hid => ?_))
  refine wp_bind.mpr (Holds.findStep fun verified => ?_)
  rw [inTx_snoc]
  refine wp_bind.mpr (Holds.expect fun verifyStep hverify =>
    wp_bind.mpr (Holds.expect fun upstream hupstream => ?_))
  refine wp_bind.mpr (reopenable_holds fun invocationId => wp_bind.mpr (Holds.ask fun record => ?_))
  rw [inTx_snoc]
  refine wp_bind.mpr (Holds.expect fun _ _ => wp_bind.mpr (Holds.findSteps fun nonterminal => ?_))
  rw [inTx_snoc]
  refine wp_bind.mpr (Holds.require fun honly => ?_)
  refine wp_bind.mpr (Holds.updateRuns (by simp) ?_ fun claimed => ?_)
  · refine fun row => ⟨rfl, rfl, rfl, rfl, rfl, rfl, id⟩
  refine wp_bind.mpr (Holds.require fun hcount => wp_bind.mpr (Holds.ask fun cancelledAt => ?_))
  rw [inTx_snoc]
  refine wp_bind.mpr (Holds.updateSteps (by simp) ?_ fun cancelled => ?_)
  · intro row hrow
    simp only [readyGate, Bool.and_eq_true, beq_iff_eq] at hrow
    refine cancelledStep_evolves cancelledAt row ?_
    rw [cancellableStep_eq, hrow.2.2.2]
    rfl
  refine wp_bind.mpr (Holds.require fun hcancelled => wp_bind.mpr (Holds.ask fun now => ?_))
  rw [inTx_snoc]
  refine wp_bind.mpr (Holds.createStep (by simp) fun id created => ?_)
  refine wp_bind.mpr (Holds.audit (wp_bind.mpr (Holds.audit
    (wp_pure'.mpr ⟨admits_shape (by simp) ?_, trivial⟩))))
  simp only [List.nil_append, List.cons_append]
  exact .mk t runs gates verified nonterminal claimed cancelled created run gate verifyStep _
    verifyId approvalRef upstream invocationId cancelledAt now id _ hrun hgate hnewest hverify
    (truthy_eq_some.mp hid).1 (truthy_eq_some.mp hupstream).1 honly rfl
    (by simpa using hcount) (by simpa using hcancelled) rfl

theorem recoverRelease_holds (input : RecoveryInput) :
    Holds (ReverifyShape input) (recoverRelease input) (fun _ _ => True) [] :=
  wp_bind.mpr (checkedApproval_holds fun approvalRef =>
    Holds.transaction unbegun_nil (recoverReleaseFresh_holds input approvalRef))

theorem approveRelease_holds (input : ApproveInput) :
    Holds (ApprovalShape input) (approveRelease input) (fun _ _ => True) [] := by
  refine wp_bind.mpr (Holds.require fun hhuman => wp_bind.mpr (Holds.findRun fun runs => ?_))
  refine wp_bind.mpr (Holds.expect fun run hrun => wp_bind.mpr (Holds.require fun hgate => ?_))
  refine wp_bind.mpr (Holds.findNewestStep fun gates => ?_)
  refine wp_bind.mpr (Holds.expect fun gate hnewest => ?_)
  have hreads : Unbegun [readRun input.organizationId input.workflowRunId runs,
      readSteps input.organizationId input.workflowRunId readyGate gates] := by
    simp [Unbegun, readRun, readSteps, ran]
  have hcomplete : Holds (ApprovalShape input) (completeStep (approval input gate.id))
      (fun _ _ => True) [readRun input.organizationId input.workflowRunId runs,
        readSteps input.organizationId input.workflowRunId readyGate gates] :=
    completeStep_holds (approval input gate.id) hreads rfl fun reads tx htx =>
      .mk runs gates run gate reads tx (by simpa using hhuman) hrun hgate hnewest htx
  refine wp_bind.mpr (wp_mono hcomplete (fun _ _ _ => ?_) fun _ _ _ => trivial)
  exact wp_bind.mpr (Holds.require fun _ => wp_bind.mpr (Holds.ask fun _ => trivial))

/-- Every operation writes in transactions only, and commits none but those of its shape. -/
theorem Operation.holds (operation : Operation) :
    Holds operation.shape operation.program (fun _ _ => True) [] := by
  have ignore : ∀ {α : Type} {shape : List Happened → List Happened → Prop} {p : Program α},
      Holds shape p (fun _ _ => True) [] →
        Holds shape (p >>= fun _ => Prog.pure ()) (fun _ _ => True) [] :=
    fun h => wp_bind.mpr (wp_mono h (fun _ _ _ => trivial) fun _ _ _ => trivial)
  cases operation with
  | createRun input => exact ignore (createRun_holds input)
  | startRun organizationId workflowRunId =>
      exact ignore (startRun_holds organizationId workflowRunId)
  | completeStep input => exact ignore (completeStep_holds input unbegun_nil rfl fun _ _ h => h)
  | cancelRun input => exact ignore (cancelRun_holds input)
  | resumeRun organizationId workflowRunId =>
      exact ignore (resumeRun_holds organizationId workflowRunId)
  | requestCorrection input => exact ignore (requestCorrection_holds input)
  | recoverLoop input => exact ignore (recoverLoop_holds input)
  | recoverRelease input => exact ignore (recoverRelease_holds input)
  | approveRelease input => exact ignore (approveRelease_holds input)

end Operations

end Workflow
