import VitoPlatform.Cancellation.Registry
import Mathlib.Data.List.Dedup

/-!
# What a call does to the registry

`Changes` says what a call can do to the active executions, `Buries` what it can do to the
tombstones. Everything about sequences of calls is derived from these two.
-/

namespace Cancellation

open Text Machine

/-- The call has registered the execution. -/
structure Registers (m : Move) (input : ExecutionCancellationRegistration) (token : Nat) :
    Prop where
  input : m.input = .register input
  reply : m.output.reply = .registered token

/-- The workflow a call has cancelled. -/
def cancelledWorkflow (m : Move) : Option (Str × Str) :=
  match m.input, m.output.reply with
  | .cancelWorkflow organizationId workflowRunId, .cancelled _ => some (organizationId, workflowRunId)
  | _, _ => none

/-- The workflow has a tombstone that has not expired. -/
def Buried (registry : Registry) (key : Str) : Prop :=
  ∃ expiresAt, (key, expiresAt) ∈ registry.cancelledWorkflows.entries ∧ registry.now < expiresAt

/-- The executions of a workflow that have not been signalled, as they come. -/
def unsignalled (registry : Registry) (organizationId workflowRunId : Str) : List ActiveExecution :=
  (registry.active.values.filter (ofWorkflow organizationId workflowRunId)).filter
    fun entry => !entry.cancelRequested

/-- What a call does to the active executions. -/
inductive Changes (m : Move) : Prop
  | nothing : m.after.active = m.before.active → m.after.closures = m.before.closures →
      m.output.called = [] → (∀ token, m.output.reply ≠ .registered token) →
        (∀ token key, m.input = .close token → m.before.closures[token]? ≠ some ⟨key, false⟩) →
          cancelledWorkflow m = none → Changes m
  | registered (input : ExecutionCancellationRegistration) (cancelled : Bool) :
      m.input = .register input → m.output.reply = .registered m.before.closures.length →
        executionKey input ∉ m.before.active.keys →
          (cancelled = true ↔ Buried m.before (workflowKey input.organizationId input.workflowRunId)) →
            m.after.active.entries = m.before.active.entries ++
              [(executionKey input, ⟨input, cancelled, m.before.closures.length⟩)] →
                m.after.closures = m.before.closures ++ [⟨executionKey input, false⟩] →
                  m.output.called = (if cancelled then [m.before.closures.length] else []) →
                    Changes m
  | closed (token : Nat) (key : Str) : m.input = .close token → m.output.reply = .done →
      m.before.closures[token]? = some ⟨key, false⟩ →
        (∀ k entry, (k, entry) ∈ m.after.active.entries ↔ (k, entry) ∈ m.before.active.entries ∧
          ¬ (k = key ∧ entry.token = token)) →
          m.after.closures = m.before.closures.set token ⟨key, true⟩ → m.output.called = [] →
            Changes m
  | cancelled (organizationId workflowRunId : Str) :
      cancelledWorkflow m = some (organizationId, workflowRunId) →
        (∀ token, m.output.reply ≠ .registered token) → (∀ token, m.input ≠ .close token) →
          m.after.active = (m.before.active.mapValues fun entry =>
            if ofWorkflow organizationId workflowRunId entry then entry.requested else entry) →
              m.after.closures = m.before.closures →
                m.output.called =
                  (unsignalled m.before organizationId workflowRunId).map ActiveExecution.token →
                    Changes m

section Steps

variable {m : Move} {registry : Registry} {key : Str}

theorem called_add (signals : Signals) (entry : ActiveExecution) :
    (signals.add entry).called =
      signals.called ++ (if entry.cancelRequested then [] else [entry.token]) := by
  unfold Signals.add ActiveExecution.signal
  cases entry.cancelRequested with
  | true => simp
  | false => cases entry.cancel <;> simp

/-- The loop calls those of its executions that have not been signalled. -/
theorem called_foldl (entries : List ActiveExecution) (signals : Signals) :
    (entries.foldl Signals.add signals).called =
      signals.called ++
        (entries.filter fun entry => !entry.cancelRequested).map ActiveExecution.token := by
  induction entries generalizing signals with
  | nil => simp
  | cons entry entries ih =>
      rw [List.foldl_cons, ih, called_add, List.filter_cons]
      cases entry.cancelRequested <;> simp

theorem buried_iff (registry : Registry) (organizationId workflowRunId : Str) :
    (isWorkflowCancelled registry organizationId workflowRunId).1 = true ↔
      Buried registry (workflowKey organizationId workflowRunId) := by
  simp only [isWorkflowCancelled, pruneExpiredTombstones, Option.any_eq_true, Buried,
    InsertionMap.get_eq_some_iff, InsertionMap.mem_filter]
  exact ⟨fun ⟨e, h, hlt⟩ => ⟨e, h.1, of_decide_eq_true hlt⟩,
    fun ⟨e, h, hlt⟩ => ⟨e, ⟨h, decide_eq_true hlt⟩, decide_eq_true hlt⟩⟩

/-- A tombstone that has not expired survives pruning. -/
theorem buried_prune : Buried (pruneExpiredTombstones registry) key ↔ Buried registry key := by
  simp only [Buried, pruneExpiredTombstones, InsertionMap.mem_filter]
  exact ⟨fun ⟨e, h, hlt⟩ => ⟨e, h.1, hlt⟩, fun ⟨e, h, hlt⟩ => ⟨e, ⟨h, decide_eq_true hlt⟩, hlt⟩⟩

theorem prune_prune :
    pruneExpiredTombstones (pruneExpiredTombstones registry) = pruneExpiredTombstones registry := by
  unfold pruneExpiredTombstones
  dsimp only
  rw [InsertionMap.filter_filter]

theorem signal_fresh (input : ExecutionCancellationRegistration) (token : Nat) :
    (ActiveExecution.signal ⟨input, false, token⟩).2 = true := by
  cases h : input.cancel <;> simp [ActiveExecution.signal, h]

theorem register_changes (before : Registry) (input : ExecutionCancellationRegistration) :
    Changes ⟨before, .register input, (register before input).1, (register before input).2⟩ := by
  unfold register
  split
  · exact .nothing rfl rfl rfl nofun nofun rfl
  · dsimp only
    split
    · exact .nothing rfl rfl rfl nofun nofun rfl
    · rename_i hfree
      rw [InsertionMap.has_iff] at hfree
      have hburied := (buried_iff (pruneExpiredTombstones before) input.organizationId
        input.workflowRunId).trans buried_prune
      refine .registered input _ rfl rfl hfree hburied ?_ rfl ?_
      · refine (InsertionMap.set_of_not_mem hfree).trans ?_
        generalize (isWorkflowCancelled (pruneExpiredTombstones before) input.organizationId
          input.workflowRunId).1 = cancelled
        cases cancelled <;> rfl
      · show (if _ && (ActiveExecution.signal ⟨input, false, _⟩).2 then _ else _) = _
        rw [signal_fresh, Bool.and_true]
        rfl

/-- What a valid registration is answered. -/
theorem register_reply {before : Registry} {input : ExecutionCancellationRegistration}
    (hvalid : assertRegistration input = .ok ()) :
    (register before input).1.reply =
      if executionKey input ∈ before.active.keys then
        .error "EXECUTION_CANCELLATION_DUPLICATE_REGISTRATION"
      else .registered before.closures.length := by
  unfold register
  rw [hvalid]
  dsimp only
  by_cases hkey : executionKey input ∈ before.active.keys
  · rw [if_pos hkey, pruneExpiredTombstones_active, if_pos (InsertionMap.has_iff.mpr hkey)]
  · rw [if_neg hkey, pruneExpiredTombstones_active, if_neg fun h => hkey (InsertionMap.has_iff.mp h)]
    rfl

theorem register_output {input : ExecutionCancellationRegistration} (h : Follows step m)
    (hinput : m.input = .register input) : m.output = (register m.before input).1 := by
  have hstep := congrArg Prod.fst h
  rw [hinput] at hstep
  exact hstep.symm

/-- Only a valid registration succeeds. -/
theorem valid_of_registered {before : Registry} {input : ExecutionCancellationRegistration}
    {token : Nat} (h : (register before input).1.reply = .registered token) :
    assertRegistration input = .ok () := by
  unfold register at h
  split at h
  · cases h
  · assumption

theorem close_changes (before : Registry) (token : Nat) :
    Changes ⟨before, .close token, ⟨.done, []⟩, close before token⟩ := by
  -- Nothing happens to a token that is not open.
  have closed : ∀ {after : Registry}, after = before →
      (∀ key, before.closures[token]? ≠ some ⟨key, false⟩) →
        Changes ⟨before, .close token, ⟨.done, []⟩, after⟩ := by
    rintro _ rfl hclosed
    refine .nothing rfl rfl rfl nofun ?_ rfl
    rintro token' key hinput
    cases hinput
    exact hclosed key
  unfold close
  split
  · rename_i hnone
    exact closed rfl fun key => by simp [hnone]
  · rename_i closure hclosure
    obtain ⟨key, flag⟩ := closure
    cases flag with
    | true => exact closed rfl fun key => by simp [hclosure]
    | false =>
        refine .closed token key rfl rfl hclosure ?_ rfl rfl
        intro k entry
        simp only [Bool.false_eq_true, if_false]
        split
        · rename_i hcurrent
          obtain ⟨current, hget, htoken⟩ := (Option.any_eq_true _ _).mp hcurrent
          rw [InsertionMap.get_eq_some_iff] at hget
          rw [InsertionMap.mem_delete]
          refine and_congr_right fun hmem => not_congr ⟨fun hk => ⟨hk, ?_⟩, fun h => h.1⟩
          subst hk
          rw [InsertionMap.eq_of_mem hmem hget]
          exact of_decide_eq_true htoken
        · rename_i hcurrent
          refine ⟨fun hmem => ⟨hmem, ?_⟩, fun h => h.1⟩
          rintro ⟨rfl, htoken⟩
          rw [InsertionMap.get_eq_some_iff.mpr hmem] at hcurrent
          simp [htoken] at hcurrent

theorem cancelWorkflow_changes (before : Registry) (organizationId workflowRunId : Str) :
    Changes ⟨before, .cancelWorkflow organizationId workflowRunId,
      (cancelWorkflow before organizationId workflowRunId).1,
      (cancelWorkflow before organizationId workflowRunId).2⟩ := by
  unfold cancelWorkflow
  split
  · exact .nothing rfl rfl rfl nofun nofun rfl
  · refine .cancelled organizationId workflowRunId ?_ ?_ ?_ ?_ ?_ ?_
    · rfl
    · nofun
    · nofun
    · simp only [enforceTombstoneBound_active, pruneExpiredTombstones_active]
    · simp only [enforceTombstoneBound_closures, pruneExpiredTombstones_closures]
    · simp only [enforceTombstoneBound_active, pruneExpiredTombstones_active]
      exact called_foldl _ _

/-- Every call of a run is one of these. -/
theorem changes (h : Follows step m) : Changes m := by
  refine h.of_forall fun before input => ?_
  cases input with
  | register input => exact register_changes before input
  | close token => exact close_changes before token
  | cancelWorkflow organizationId workflowRunId =>
      exact cancelWorkflow_changes before organizationId workflowRunId
  | isWorkflowCancelled | advance => exact .nothing rfl rfl rfl nofun nofun rfl

/-! ## Tombstones -/

/-- What a call does to the tombstones. -/
inductive Buries (m : Move) : Prop
  | kept : cancelledWorkflow m = none → m.before.now ≤ m.after.now →
      m.after.cancelledWorkflows = m.before.cancelledWorkflows → Buries m
  | pruned : cancelledWorkflow m = none → m.after.now = m.before.now →
      m.after.cancelledWorkflows = (pruneExpiredTombstones m.before).cancelledWorkflows → Buries m
  | buried (organizationId workflowRunId : Str) :
      cancelledWorkflow m = some (organizationId, workflowRunId) → m.after.now = m.before.now →
        m.after.cancelledWorkflows.entries =
          (((pruneExpiredTombstones m.before).cancelledWorkflows.delete
            (workflowKey organizationId workflowRunId)).entries ++
              [(workflowKey organizationId workflowRunId,
                m.before.now + CANCELLATION_TOMBSTONE_TTL_MS)]).drop
            (((pruneExpiredTombstones m.before).cancelledWorkflows.delete
              (workflowKey organizationId workflowRunId)).size + 1 - MAX_CANCELLATION_TOMBSTONES) →
          Buries m

theorem close_tombstones (registry : Registry) (token : Nat) :
    (close registry token).cancelledWorkflows = registry.cancelledWorkflows ∧
      (close registry token).now = registry.now := by
  unfold close
  split
  · exact ⟨rfl, rfl⟩
  · split <;> exact ⟨rfl, rfl⟩

theorem cancelWorkflow_buries (before : Registry) (organizationId workflowRunId : Str) :
    Buries ⟨before, .cancelWorkflow organizationId workflowRunId,
      (cancelWorkflow before organizationId workflowRunId).1,
      (cancelWorkflow before organizationId workflowRunId).2⟩ := by
  unfold cancelWorkflow
  split
  · exact .kept rfl (Int.le_refl _) rfl
  · refine .buried organizationId workflowRunId ?_ ?_ ?_
    · rfl
    · simp only [enforceTombstoneBound_now, pruneExpiredTombstones_now]
    have hset := InsertionMap.set_of_not_mem
      (m := (pruneExpiredTombstones before).cancelledWorkflows.delete
        (workflowKey organizationId workflowRunId))
      (v := before.now + CANCELLATION_TOMBSTONE_TTL_MS) InsertionMap.not_mem_keys_delete
    show (enforceTombstoneBound _).cancelledWorkflows.entries = _
    simp only [enforceTombstoneBound, InsertionMap.drop, InsertionMap.size]
    refine (congrArg₂ List.drop ?_ hset)
    exact congrArg (· - MAX_CANCELLATION_TOMBSTONES) ((congrArg List.length hset).trans
      (List.length_append ..))

theorem buries (h : Follows step m) : Buries m := by
  refine h.of_forall fun before input => ?_
  cases input with
  | register input =>
      show Buries ⟨before, .register input, (register before input).1, (register before input).2⟩
      unfold register
      split
      · exact .kept rfl (Int.le_refl _) rfl
      · dsimp only
        split
        · exact .pruned rfl rfl rfl
        · refine .pruned rfl rfl ?_
          show (pruneExpiredTombstones (pruneExpiredTombstones before)).cancelledWorkflows = _
          rw [prune_prune]
  | close token =>
      obtain ⟨htombstones, hnow⟩ := close_tombstones before token
      exact .kept rfl (Int.le_of_eq hnow.symm) htombstones
  | cancelWorkflow organizationId workflowRunId =>
      exact cancelWorkflow_buries before organizationId workflowRunId
  | isWorkflowCancelled => exact .pruned rfl rfl rfl
  | advance ms => exact .kept rfl (Int.le_add_of_nonneg_right (Int.natCast_nonneg ms)) rfl

end Steps

end Cancellation
