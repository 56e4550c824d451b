import VitoPlatform.Workflow.Traces
import Mathlib.Logic.Function.Basic

/-!
# What a committed operation has changed

From the shape of a transaction to the rows before and after its commit. The rows a commit
publishes are computed from rows that are still the committed ones, since they have been
locked; what was read without a lock may be older, and the facts about it name the step of the
run at which it was true.
-/

namespace Workflow

open Text Policy Persistence Invocation Database

/-! ## Tables -/

def runAt (rows : List Row) (id : Str) : Option WorkflowRun :=
  (find schema rows (.run id)).bind Row.run?

def stepAt (rows : List Row) (id : Str) : Option WorkflowStepRun :=
  (find schema rows (.step id)).bind Row.step?

section Tables

variable {rows : List Row} {id : Str} {run : WorkflowRun} {step : WorkflowStepRun}

theorem runAt_eq_some : runAt rows id = some run ↔ find schema rows (.run id) = some (.run run) := by
  simp [runAt, Option.bind_eq_some_iff]

theorem stepAt_eq_some :
    stepAt rows id = some step ↔ find schema rows (.step id) = some (.step step) := by
  simp [stepAt, Option.bind_eq_some_iff]

theorem runAt_id (h : runAt rows id = some run) : run.id = id := by
  have := find_key (runAt_eq_some.mp h)
  exact RowKey.run.inj this

theorem stepAt_id (h : stepAt rows id = some step) : step.id = id := by
  have := find_key (stepAt_eq_some.mp h)
  exact RowKey.step.inj this

theorem stepAt_eq_none : stepAt rows id = none ↔ find schema rows (.step id) = none := by
  cases hfind : find schema rows (.step id) with
  | none => simp [stepAt, hfind]
  | some r =>
      have hkey : r.key = .step id := find_key hfind
      cases r with
      | step row => simp [stepAt, hfind, Row.step?]
      | run row => cases hkey
      | claim row => cases hkey

theorem runAt_eq_none : runAt rows id = none ↔ find schema rows (.run id) = none := by
  cases hfind : find schema rows (.run id) with
  | none => simp [runAt, hfind]
  | some r =>
      have hkey : r.key = .run id := find_key hfind
      cases r with
      | run row => simp [runAt, hfind, Row.run?]
      | step row => cases hkey
      | claim row => cases hkey

theorem Keyed.run_mem (h : Keyed schema rows) :
    Row.run run ∈ rows ↔ runAt rows run.id = some run := by
  rw [runAt_eq_some]
  exact h.mem_iff

theorem Keyed.step_mem (h : Keyed schema rows) :
    Row.step step ∈ rows ↔ stepAt rows step.id = some step := by
  rw [stepAt_eq_some]
  exact h.mem_iff

@[simp] theorem runAt_put_run (rows : List Row) (run : WorkflowRun) :
    runAt (put schema rows (.run run)) = Function.update (runAt rows) run.id (some run) := by
  funext id
  rw [runAt, find_put, Function.update_apply]
  change Option.bind (if RowKey.run run.id = RowKey.run id then _ else _) _ = _
  by_cases hid : id = run.id
  · simp [hid, Row.run?]
  · rw [if_neg fun h => hid (RowKey.run.inj h).symm, if_neg hid, runAt]

@[simp] theorem stepAt_put_step (rows : List Row) (step : WorkflowStepRun) :
    stepAt (put schema rows (.step step)) = Function.update (stepAt rows) step.id (some step) := by
  funext id
  rw [stepAt, find_put, Function.update_apply]
  change Option.bind (if RowKey.step step.id = RowKey.step id then _ else _) _ = _
  by_cases hid : id = step.id
  · simp [hid, Row.step?]
  · rw [if_neg fun h => hid (RowKey.step.inj h).symm, if_neg hid, stepAt]

@[simp] theorem runAt_put_step (rows : List Row) (step : WorkflowStepRun) :
    runAt (put schema rows (.step step)) = runAt rows := by
  funext id
  rw [runAt, find_put]
  rfl

@[simp] theorem stepAt_put_run (rows : List Row) (run : WorkflowRun) :
    stepAt (put schema rows (.run run)) = stepAt rows := by
  funext id
  rw [stepAt, find_put]
  rfl

@[simp] theorem apply_nil (rows : List Row) : apply schema rows [] = rows := rfl

@[simp] theorem apply_cons (rows : List Row) (r : Row) (ws : List Row) :
    apply schema rows (r :: ws) = apply schema (put schema rows r) ws := rfl

theorem apply_append (rows ws ws' : List Row) :
    apply schema rows (ws ++ ws') = apply schema (apply schema rows ws) ws' := List.foldl_append

/-- Writing steps leaves the runs as they are. -/
theorem runAt_apply_steps {ws : List Row} (h : ∀ w ∈ ws, ∃ step, w = .step step) :
    runAt (apply schema rows ws) = runAt rows := by
  induction ws generalizing rows with
  | nil => rfl
  | cons w ws ih =>
      obtain ⟨step, rfl⟩ := h w (by simp)
      rw [apply_cons, ih fun w hw => h w (List.mem_cons_of_mem _ hw), runAt_put_step]

theorem stepAt_apply_runs {ws : List Row} (h : ∀ w ∈ ws, ∃ run, w = .run run) :
    stepAt (apply schema rows ws) = stepAt rows := by
  induction ws generalizing rows with
  | nil => rfl
  | cons w ws ih =>
      obtain ⟨run, rfl⟩ := h w (by simp)
      rw [apply_cons, ih fun w hw => h w (List.mem_cons_of_mem _ hw), stepAt_put_run]

/-- The row that a condition on its id selects. -/
theorem Keyed.filter_run {p : WorkflowRun → Bool} (h : Keyed schema rows)
    (hp : ∀ row, p row = true → row.id = id) :
    rows.filter (isRun p) = ((runAt rows id).toList.filter p).map .run := by
  have hkey : ∀ r, isRun p r = true → Row.key r = .run id := by
    intro r hr
    obtain ⟨row, rfl, hrow⟩ := isRun_iff.mp hr
    exact congrArg RowKey.run (hp row hrow)
  rw [h.filter_eq hkey]
  cases hrun : runAt rows id with
  | none => rw [runAt_eq_none.mp hrun]; rfl
  | some run =>
      rw [runAt_eq_some.mp hrun]
      by_cases hpr : p run = true
      · simp [isRun, hpr]
      · simp [isRun, hpr]

theorem Keyed.filter_step {p : WorkflowStepRun → Bool} (h : Keyed schema rows)
    (hp : ∀ row, p row = true → row.id = id) :
    rows.filter (isStep p) = ((stepAt rows id).toList.filter p).map .step := by
  have hkey : ∀ r, isStep p r = true → Row.key r = .step id := by
    intro r hr
    obtain ⟨row, rfl, hrow⟩ := isStep_iff.mp hr
    exact congrArg RowKey.step (hp row hrow)
  rw [h.filter_eq hkey]
  cases hstep : stepAt rows id with
  | none => rw [stepAt_eq_none.mp hstep]; rfl
  | some step =>
      rw [stepAt_eq_some.mp hstep]
      by_cases hps : p step = true
      · simp [isStep, hps]
      · simp [isStep, hps]

end Tables

/-! ## Commits -/

/-- A step of a run of the services. -/
abbrev LogEntry := Entry Row Ask Failure Ans

/-- A call that commits a transaction in which it has written. -/
structure Committing (rows : List Row) (past : List LogEntry) (en : LogEntry)
    (pre tx : List Happened) : Prop where
  event : en.event = ⟨.commit, .ok ()⟩
  keyed : Keyed schema rows
  ledger : Ledger schema rows past en.before
  events : own en.call past = inTx pre tx
  quiet : ∀ event ∈ tx, Quiet event
  evolve : ∀ p f answer, ran (.update p f) answer ∈ tx → ∀ r, p r = true → Evolves r (f r)
  published : en.published = tx.flatMap written
  after : en.after = apply schema en.before (tx.flatMap written)

section Runs

variable {allowed : Choice Failure Ans → Prop} {rows : List Row} {operations : List Operation}
variable {s : System Row Ask Failure Ans Unit} {past future : List LogEntry} {en : LogEntry}

/-- A run of any number of calls. -/
abbrev Run (allowed : Choice Failure Ans → Prop) (rows : List Row) (operations : List Operation)
    (s : System Row Ask Failure Ans Unit) : Prop :=
  System.Reaches schema allowed (System.start rows (operations.map Operation.program)) s

/-- Each step respects what its operation admits. -/
theorem Run.admits (h : Run allowed rows operations s) (hs : s.history = past ++ en :: future) :
    ∃ operation, operations[en.call]? = some operation ∧
      Admits operation.shape (own en.call past) en.event.1 := by
  have hrecorded := h.recorded
  have hlt : en.call < operations.length := by
    simpa using hrecorded.call_lt.2 en (by simp [hs])
  refine ⟨operations[en.call], List.getElem?_eq_getElem hlt, ?_⟩
  refine hrecorded.guarded hs ?_ (operations[en.call]).holds
  rw [List.getElem?_map, List.getElem?_eq_getElem hlt, Option.map_some]

/-- A step publishes nothing, or it commits a transaction of the shape of its operation. -/
theorem Run.commits (h : Run allowed rows operations s) (hkeyed : Keyed schema rows)
    (hs : s.history = past ++ en :: future) :
    en.published = [] ∨ ∃ operation pre tx, operations[en.call]? = some operation ∧
      Committing rows past en pre tx ∧ operation.shape pre tx := by
  obtain ⟨operation, hoperation, hadmits⟩ := h.admits hs
  have haccounted := h.ledger.accounted past en future hs
  have silent : written en.event = [] → (∀ u, en.event ≠ ⟨.commit, .ok u⟩) →
      en.published = [] := by
    intro hwritten hcommit
    rw [Entry.published, Session.publishes.eq_def]
    split
    · rename_i u heq
      exact absurd heq (hcommit u)
    · rw [hwritten, ite_self]
  have inside : (∃ pre tx, own en.call past = inTx pre tx ∧ ∀ event ∈ tx, Quiet event) →
      Quiet en.event → en.published = [] := by
    rintro ⟨pre, tx, hown, hquiet⟩ hevent
    refine publishes_nil ?_ hevent
    rw [haccounted.session, hown]
    exact congrArg Session.mode (sessionAfter_begin hquiet)
  obtain ⟨call, ⟨e, answer⟩, session, tableBefore, tableAfter⟩ := en
  cases e with
  | ask x | begin | rollback => exact .inl (silent rfl fun _ h => by cases h)
  | stmt st =>
      cases answer with
      | error error => exact .inl (silent (by cases st <;> rfl) fun _ h => by cases h)
      | ok answer =>
          cases st with
          | select p => exact .inl (silent rfl fun _ h => by cases h)
          | update p f => exact .inl (inside hadmits.1 trivial)
          | insert v => exact .inl (inside hadmits trivial)
  | commit =>
      cases answer with
      | error error => exact .inl (silent rfl fun _ h => by cases h)
      | ok u =>
          obtain ⟨pre, tx, hown, hquiet, hshape⟩ := hadmits
          have hpublished := h.ledger.published hs rfl hown hquiet
          obtain hnothing | hshape := hshape
          · exact .inl (hpublished.trans hnothing)
          refine .inr ⟨operation, pre, tx, hoperation, ?_, hshape⟩
          refine ⟨rfl, hkeyed, h.ledger.take hs, hown, hquiet, ?_, hpublished, ?_⟩
          · intro p f answer hmem
            obtain ⟨a, b, rfl⟩ := List.append_of_mem hmem
            have hsplit : own call past = (pre ++ began :: a) ++ ran (.update p f) answer :: b := by
              rw [hown, inTx, List.append_assoc, List.cons_append]
            obtain ⟨A, e, B, rfl, hcall, hevent, -, -⟩ := own_split hsplit
            rw [List.append_assoc, List.cons_append] at hs
            obtain ⟨operation', -, hadmits'⟩ := h.admits hs
            rw [hevent] at hadmits'
            exact hadmits'.2
          · rw [haccounted.after, hpublished]

/-- A call publishes something once at most. -/
theorem Run.publishes_once (h : Run allowed rows operations s) (hkeyed : Keyed schema rows)
    {A B C : List LogEntry} {e e' : LogEntry} (hs : s.history = A ++ e :: (B ++ e' :: C))
    (hcall : e'.call = e.call) (hpublished : e.published ≠ []) : e'.published = [] := by
  have hs' : s.history = (A ++ e :: B) ++ e' :: C := by rw [hs]; simp
  obtain hnone | ⟨-, pre, tx, -, c, -⟩ := h.commits hkeyed hs
  · exact absurd hnone hpublished
  obtain hnone | ⟨-, pre', tx', -, c', -⟩ := h.commits hkeyed hs'
  · exact hnone
  exfalso
  have hown := c'.events
  rw [hcall, own_append, c.events, own_cons_self, c.event, inTx, inTx, List.append_assoc,
    List.cons_append] at hown
  have hcommit : ⟨.commit, .ok ()⟩ ∉ tx' := fun hmem => c'.quiet _ hmem
  -- The second transaction would have been begun after the first.
  have hbegan : began ∈ pre' := by
    obtain ⟨as, rfl, has⟩ | ⟨bs, rfl, hbs⟩ := List.append_eq_append_iff.mp hown
    · cases as with
      | nil =>
          rw [List.nil_append] at has
          refine absurd ?_ hcommit
          rw [← (List.cons.inj has).2]
          simp
      | cons a as =>
          obtain rfl := (List.cons.inj has).1
          simp
    · cases bs with
      | nil =>
          rw [List.nil_append] at hbs
          refine absurd ?_ hcommit
          rw [(List.cons.inj hbs).2]
          simp
      | cons b bs =>
          refine absurd ?_ hcommit
          rw [(List.cons.inj hbs).2]
          simp
  obtain ⟨A', b, B', hb, hbcall, hbevent, hbown, -⟩ := own_split c'.events
  rw [hb, List.append_assoc, List.cons_append] at hs'
  obtain ⟨_, -, hadmits⟩ := h.admits hs'
  rw [hbevent, hbcall, hbown] at hadmits
  exact hadmits began hbegan rfl

end Runs

/-! ## Answers -/

section Answers

variable {rows : List Row} {organizationId id : Str}

theorem firstRun_map_run (runs : List WorkflowRun) : firstRun (runs.map .run) = runs.head? := by
  cases runs <;> rfl

theorem firstRun_filter {p : WorkflowRun → Bool} {run : WorkflowRun} (hkeyed : Keyed schema rows)
    (h : firstRun (rows.filter (runWhere organizationId id p)) = some run) :
    runAt rows id = some run ∧ run.organizationId = organizationId ∧ p run = true := by
  have hid : ∀ row : WorkflowRun,
      (row.id == id && row.organizationId == organizationId && p row) = true → row.id = id := by
    intro row hrow
    simp only [Bool.and_eq_true, beq_iff_eq] at hrow
    exact hrow.1.1
  rw [runWhere, Keyed.filter_run hkeyed hid, firstRun_map_run] at h
  have hmem := List.mem_of_head? h
  obtain ⟨hrun, hp⟩ := List.mem_filter.mp hmem
  simp only [Bool.and_eq_true, beq_iff_eq] at hp
  exact ⟨Option.mem_toList.mp hrun, hp.1.2, hp.2⟩

theorem mem_stepsIn {step : WorkflowStepRun} : step ∈ stepsIn rows ↔ Row.step step ∈ rows := by
  simp [stepsIn]

theorem mem_stepsIn_filter {p : WorkflowStepRun → Bool} {step : WorkflowStepRun}
    (hkeyed : Keyed schema rows) :
    step ∈ stepsIn (rows.filter (stepWhere organizationId id p)) ↔
      stepAt rows step.id = some step ∧ step.organizationId = organizationId ∧
        step.workflowRunId = id ∧ p step = true := by
  rw [mem_stepsIn, List.mem_filter, Keyed.step_mem hkeyed]
  simp [stepWhere, isStep, and_assoc]

/-- Writing images of rows that are there changes these rows and no others. -/
theorem stepAt_apply_images {ws : List Row} {data : WorkflowStepRun → WorkflowStepRun}
    (hid : ∀ step, (data step).id = step.id)
    (hws : ∀ w ∈ ws, ∃ step, w = .step (data step) ∧ stepAt rows step.id = some step)
    (k : Str) :
    stepAt (apply schema rows ws) k =
      (stepAt rows k).map fun step => if .step (data step) ∈ ws then data step else step := by
  rw [stepAt, find_apply]
  cases hfind : find schema ws.reverse (.step k) with
  | some w =>
      have hmem : w ∈ ws := List.mem_reverse.mp (mem_of_find hfind)
      obtain ⟨step, rfl, hstep⟩ := hws w hmem
      have hkey : RowKey.step (data step).id = .step k := find_key hfind
      rw [← RowKey.step.inj hkey, hid, hstep]
      simp [Row.step?, hmem]
  | none =>
      rw [Option.none_or]
      change stepAt rows k = _
      cases hk : stepAt rows k with
      | none => rfl
      | some step =>
          rw [Option.map_some, if_neg]
          intro hmem
          have hsome : (find schema ws.reverse (.step k)).isSome = true := by
            rw [find_isSome_iff, List.mem_map]
            refine ⟨_, List.mem_reverse.mpr hmem, ?_⟩
            change RowKey.step (data step).id = _
            rw [hid, stepAt_id hk]
          rw [hfind] at hsome
          cases hsome

end Answers

/-! ## Statements of a transaction that commits -/

namespace Committing

variable {rows answer : List Row} {past : List LogEntry} {en : LogEntry}
variable {pre tx tx₁ tx₂ : List Happened}

theorem executed (c : Committing rows past en pre tx) (tx₁ : List Happened) {st : Stmt Row}
    (htx : tx = tx₁ ++ ran st answer :: tx₂) :
    ∃ A e B, Executed schema past en.before en.call pre tx₁ st answer A e B ∧
      own en.call B = tx₂ ∧ Keyed schema e.before := by
  have hown := c.events
  have hquiet := c.quiet
  rw [htx] at hown hquiet
  obtain ⟨A, e, B, hexec, hB⟩ := c.ledger.executed hown hquiet
  exact ⟨A, e, B, hexec, hB, (c.ledger.take hexec.split).keyed c.keyed⟩

theorem keyed_now (c : Committing rows past en pre tx) : Keyed schema en.before :=
  c.ledger.keyed c.keyed

/-- A read before anything is written finds the committed rows. -/
theorem select (c : Committing rows past en pre tx) (tx₁ : List Happened) {p : Row → Bool}
    (htx : tx = tx₁ ++ ran (.select p) answer :: tx₂) (hpure : tx₁.flatMap written = []) :
    ∃ A e B, past = A ++ e :: B ∧ e.call = en.call ∧ own en.call A = inTx pre tx₁ ∧
      own en.call B = tx₂ ∧ Keyed schema e.before ∧ answer = e.before.filter p := by
  obtain ⟨A, e, B, hexec, hB, hkeyed⟩ := c.executed tx₁ htx
  have hfound := hexec.found
  rw [hpure, eval] at hfound
  exact ⟨A, e, B, hexec.split, hexec.same, hexec.own_past, hB, hkeyed,
    (Prod.mk.inj (Option.some.inj hfound)).1.symm⟩

/-- A read of the call before its transaction. -/
theorem selectBefore (c : Committing rows past en pre tx) (pre₁ : List Happened)
    {pre₂ : List Happened} {p : Row → Bool} (hpre : pre = pre₁ ++ ran (.select p) answer :: pre₂)
    (hidle : (sessionAfter pre₁).writes = []) :
    ∃ A e B, past = A ++ e :: B ∧ e.call = en.call ∧ own en.call A = pre₁ ∧
      own en.call B = pre₂ ++ began :: tx ∧ Keyed schema e.before ∧
        answer = e.before.filter p := by
  have hown := c.events
  rw [hpre, inTx, List.append_assoc, List.cons_append] at hown
  obtain ⟨A, e, B, hs, hcall, -, hA, hB, hfound⟩ := c.ledger.found hown hidle
  rw [eval] at hfound
  exact ⟨A, e, B, hs, hcall, hA, hB, (c.ledger.take hs).keyed c.keyed,
    (Prod.mk.inj (Option.some.inj hfound)).1.symm⟩

/-- The lock a call holds on a run from its update on. -/
structure Locked (past : List LogEntry) (en : LogEntry) (pre tx₁ : List Happened)
    (run : WorkflowRun) : Prop where
  intro ::
  held : ∃ A e B, past = A ++ e :: B ∧ own en.call A = inTx pre tx₁ ∧ e.published = [] ∧
    ∀ b ∈ B, ∀ r, Row.run r ∈ b.published → r.id ≠ run.id

/-- The update of one run finds the row that is still committed, and locks it. -/
theorem updateRun (c : Committing rows past en pre tx) (tx₁ : List Happened) {p : WorkflowRun → Bool}
    {data : WorkflowRun → WorkflowRun} {id : Str}
    (htx : tx = tx₁ ++ ran (.update (isRun p) (onRun data)) answer :: tx₂)
    (hp : ∀ row, p row = true → row.id = id)
    (hsteps : ∀ w ∈ tx₁.flatMap written, ∃ step, w = .step step) (hanswer : answer ≠ []) :
    ∃ row, runAt en.before id = some row ∧ p row = true ∧ answer = [.run (data row)] ∧
      Locked past en pre tx₁ row := by
  obtain ⟨A, e, B, hexec, hB, hkeyed⟩ := c.executed tx₁ htx
  have hfound := hexec.found
  rw [eval] at hfound
  obtain ⟨hvalue, hwritten⟩ := Prod.mk.inj (Option.some.inj hfound)
  rw [Keyed.filter_run (hkeyed.apply _) hp, runAt_apply_steps hsteps] at hvalue hwritten
  cases hrow : runAt e.before id with
  | none =>
      rw [hrow] at hvalue
      exact absurd hvalue.symm hanswer
  | some row =>
      rw [hrow] at hvalue hwritten
      by_cases hpr : p row = true
      · have hfilter : (some row).toList.filter p = [row] := by simp [hpr]
        rw [hfilter] at hvalue hwritten
        have hdata : SameRun row (data row) :=
          c.evolve (isRun p) (onRun data) answer (by rw [htx]; simp) (.run row) hpr
        have hmem : Row.run (data row) ∈ written e.event := by
          rw [← hwritten]
          exact List.mem_singleton.mpr rfl
        have hkey : schema.key (.run (data row)) = .run id := by
          change RowKey.run (data row).id = _
          rw [hdata.id, runAt_id hrow]
        have hkept := hexec.kept _ hmem
        rw [hkey, runAt_eq_some.mp hrow] at hkept
        refine ⟨row, runAt_eq_some.mpr hkept, hpr, hvalue.symm, ⟨A, e, B, hexec.split,
          hexec.own_past, hexec.silent, ?_⟩⟩
        intro b hb r hr hid
        have hclash := hexec.locked _ hmem b hb _ hr
        rw [schema.clash_of_key] at hclash
        · cases hclash
        · change RowKey.run r.id = RowKey.run (data row).id
          rw [hid, hdata.id]
      · have hfilter : (some row).toList.filter p = [] := by simp [hpr]
        rw [hfilter] at hvalue
        exact absurd hvalue.symm hanswer

/-- The update of one step, likewise. -/
theorem updateStep (c : Committing rows past en pre tx) (tx₁ : List Happened) {p : WorkflowStepRun → Bool}
    {data : WorkflowStepRun → WorkflowStepRun} {id : Str}
    (htx : tx = tx₁ ++ ran (.update (isStep p) (onStep data)) answer :: tx₂)
    (hp : ∀ row, p row = true → row.id = id)
    (hruns : ∀ w ∈ tx₁.flatMap written, ∃ run, w = .run run) (hanswer : answer ≠ []) :
    ∃ row, stepAt en.before id = some row ∧ p row = true ∧ answer = [.step (data row)] := by
  obtain ⟨A, e, B, hexec, hB, hkeyed⟩ := c.executed tx₁ htx
  have hfound := hexec.found
  rw [eval] at hfound
  obtain ⟨hvalue, hwritten⟩ := Prod.mk.inj (Option.some.inj hfound)
  rw [Keyed.filter_step (hkeyed.apply _) hp, stepAt_apply_runs hruns] at hvalue hwritten
  cases hrow : stepAt e.before id with
  | none =>
      rw [hrow] at hvalue
      exact absurd hvalue.symm hanswer
  | some row =>
      rw [hrow] at hvalue hwritten
      by_cases hpr : p row = true
      · have hfilter : (some row).toList.filter p = [row] := by simp [hpr]
        rw [hfilter] at hvalue hwritten
        have hdata : SameStep row (data row) :=
          c.evolve (isStep p) (onStep data) answer (by rw [htx]; simp) (.step row) hpr
        have hkept := hexec.kept (.step (data row)) (by
          rw [← hwritten]
          exact List.mem_singleton.mpr rfl)
        have hkey : schema.key (.step (data row)) = .step id := by
          change RowKey.step (data row).id = _
          rw [hdata.id, stepAt_id hrow]
        rw [hkey, stepAt_eq_some.mp hrow] at hkept
        exact ⟨row, stepAt_eq_some.mpr hkept, hpr, hvalue.symm⟩
      · have hfilter : (some row).toList.filter p = [] := by simp [hpr]
        rw [hfilter] at hvalue
        exact absurd hvalue.symm hanswer

/-- The update of steps of a run: the rows it has found are still committed. -/
theorem updateSteps (c : Committing rows past en pre tx) (tx₁ : List Happened) {organizationId id : Str}
    {p : WorkflowStepRun → Bool} {data : WorkflowStepRun → WorkflowStepRun}
    (htx : tx = tx₁ ++ ran (.update (stepWhere organizationId id p) (onStep data)) answer :: tx₂)
    (hruns : ∀ w ∈ tx₁.flatMap written, ∃ run, w = .run run) :
    (∀ w ∈ answer, ∃ step, w = .step (data step) ∧ stepAt en.before step.id = some step ∧
      step.organizationId = organizationId ∧ step.workflowRunId = id ∧ p step = true) ∧
    ∃ A e B, past = A ++ e :: B ∧ own en.call A = inTx pre tx₁ ∧ e.published = [] ∧
      ∀ step, stepAt e.before step.id = some step → step.organizationId = organizationId →
        step.workflowRunId = id → p step = true → Row.step (data step) ∈ answer := by
  obtain ⟨A, e, B, hexec, hB, hkeyed⟩ := c.executed tx₁ htx
  have hfound := hexec.found
  rw [eval] at hfound
  obtain ⟨hvalue, hwritten⟩ := Prod.mk.inj (Option.some.inj hfound)
  have hmem : ∀ step, Row.step step ∈
      (apply schema e.before (tx₁.flatMap written)).filter (stepWhere organizationId id p) ↔
        stepAt e.before step.id = some step ∧ step.organizationId = organizationId ∧
          step.workflowRunId = id ∧ p step = true := by
    intro step
    rw [← mem_stepsIn, mem_stepsIn_filter (hkeyed.apply _), stepAt_apply_runs hruns]
  refine ⟨fun w hw => ?_, A, e, B, hexec.split, hexec.own_past, hexec.silent, ?_⟩
  · have hw' : w ∈ written e.event := by rwa [← hwritten, hvalue]
    rw [← hvalue] at hw
    obtain ⟨r, hr, rfl⟩ := List.mem_map.mp hw
    obtain ⟨step, rfl, -⟩ := isStep_iff.mp (List.mem_filter.mp hr).2
    obtain ⟨hstep, horganization, hid, hp⟩ := (hmem step).mp hr
    have hdata : SameStep step (data step) :=
      c.evolve _ (onStep data) answer (by rw [htx]; simp) (.step step) (List.mem_filter.mp hr).2
    have hkept := hexec.kept _ hw'
    have hkey : schema.key (onStep data (.step step)) = .step step.id :=
      congrArg RowKey.step hdata.id
    rw [hkey, stepAt_eq_some.mp hstep] at hkept
    exact ⟨step, rfl, stepAt_eq_some.mpr hkept, horganization, hid, hp⟩
  · intro step hstep horganization hid hp
    rw [← hvalue]
    exact List.mem_map.mpr ⟨.step step, (hmem step).mpr ⟨hstep, horganization, hid, hp⟩, rfl⟩

/-- An inserted row is new. -/
theorem insert (c : Committing rows past en pre tx) (tx₁ : List Happened) {v : Row}
    (htx : tx = tx₁ ++ ran (.insert v) answer :: tx₂) :
    answer = [v] ∧ find schema en.before v.key = none := by
  obtain ⟨A, e, B, hexec, hB, hkeyed⟩ := c.executed tx₁ htx
  have hfound := hexec.found
  rw [eval] at hfound
  split at hfound
  · cases hfound
  rename_i hclash
  obtain ⟨hvalue, hwritten⟩ := Prod.mk.inj (Option.some.inj hfound)
  refine ⟨hvalue.symm, ?_⟩
  have hkept := hexec.kept v (by
    rw [← hwritten]
    exact List.mem_singleton.mpr rfl)
  have hapart : ∀ u ∈ apply schema e.before (tx₁.flatMap written), schema.clash v u = false := by
    simpa using hclash
  have hmissing := not_mem_key_of_clash hapart
  rw [← find_isSome_iff, find_apply] at hmissing
  change find schema en.before (schema.key v) = none
  rw [hkept]
  cases hfind : find schema e.before (schema.key v) with
  | none => rfl
  | some u =>
      rw [hfind] at hmissing
      simp at hmissing

end Committing

end Workflow
