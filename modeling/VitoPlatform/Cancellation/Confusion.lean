import VitoPlatform.Cancellation.Lawful

/-!
# Sequences without confusion

A registry is lawful in exactly the sequences of calls without a confused registration; among
them are all those whose identifiers contain no colon.
-/

namespace Cancellation

open Text Machine

section Runs

variable {moves A B : List Move} {m : Move} {registry : Registry} {now : Int}

/-- A confused registration breaks the law: what it registers is called although its workflow has
not been cancelled, or it is rejected because of another execution. -/
theorem Run.not_confused (h : Run now (A ++ m :: B) registry) (hlawful : Lawful (A ++ m :: B)) :
    ¬ Confused A m := by
  have htracks := h.tracks_before
  have hm := h.cut.2.1
  rintro (⟨input, entry, hinput, hvalid, hentry, hother⟩ |
    ⟨input, hinput, hvalid, hfree, hburied, hnever⟩)
  · -- The registration is rejected, and only `entry` could be the cause.
    have hreply : m.output.reply = .error "EXECUTION_CANCELLATION_DUPLICATE_REGISTRATION" := by
      rw [register_output hm hinput, register_reply hvalid,
        if_pos (InsertionMap.mem_keys_of_mem hentry)]
    obtain ⟨other, token, hactive, hsame⟩ := hlawful.rejected A m B input _ rfl hinput hvalid hreply
    obtain ⟨k, found, hfound, rfl, -⟩ := (htracks.active other token).mp hactive
    obtain rfl : k = executionKey input :=
      (htracks.keyed k found hfound).1.trans hsame.executionKey_eq
    obtain rfl := InsertionMap.eq_of_mem hfound hentry
    exact hother hsame
  · have hreply : m.output.reply = .registered m.before.closures.length := by
      rw [register_output hm hinput, register_reply hvalid, if_neg hfree]
    have hcalled : m.before.closures.length ∈ m.output.called := by
      cases h.changes with
      | nothing _ _ _ hunregistered | cancelled _ _ _ hunregistered =>
          exact absurd hreply (hunregistered _)
      | closed _ _ hclose =>
          rw [hinput] at hclose
          cases hclose
      | registered input' cancelled hinput' _ _ hcancelled _ _ hcalled =>
          rw [hinput] at hinput'
          cases hinput'
          rw [hcalled, hcancelled.mpr hburied]
          exact List.mem_singleton_self _
    obtain ⟨other, ⟨r, hr, hregisters⟩, c, hc, hcancelled⟩ :=
      hlawful.attributed A m B _ rfl hcalled
    -- The token is new, so the callback belongs to this registration.
    rcases List.mem_append.mp hr with hr | hr
    · exact absurd (htracks.issued r hr _ hregisters.reply) (Nat.lt_irrefl _)
    · obtain rfl := List.mem_singleton.mp hr
      obtain rfl : input = other := Call.register.inj (hinput.symm.trans hregisters.input)
      rcases List.mem_append.mp hc with hc | hc
      · exact hnever c hc hcancelled
      · rw [List.mem_singleton.mp hc, cancelledWorkflow, hinput] at hcancelled
        cases hcancelled

theorem Run.lawful (h : Run now moves registry)
    (hclear : ∀ A m B, moves = A ++ m :: B → ¬ Confused A m) : Lawful moves where
  once := h.tracks.once
  closed := by
    rintro A m B token rfl hinput hissued
    exact h.closed_silent hinput hissued
  attributed := by
    rintro A m B token rfl hcalled
    exact h.attributed (hclear A m B rfl) hcalled
  signalled := by
    rintro A m B input token rfl hworkflow hactive
    exact h.signalled hworkflow hactive
  deferred := by
    rintro A c B r C input token rfl hworkflow hregisters hsoon hfew
    exact h.deferred hworkflow hregisters hsoon hfew
  bounded := by
    intro m hm
    obtain ⟨A, B, rfl⟩ := List.append_of_mem hm
    exact Run.bounded (.snoc h.cut.1 h.cut.2.1)
  youngest := by
    intro m hm organizationId workflowRunId hworkflow
    obtain ⟨A, B, rfl⟩ := List.append_of_mem hm
    exact ((buries h.cut.2.1).standing hworkflow).2
  rejected := by
    rintro A m B input message rfl hinput hvalid hreply
    exact h.rejected (hclear A m B rfl) hinput hvalid hreply

/-! ## Identifiers without colons -/

/-- The identifiers that are joined to keys, but for the last of each key. -/
def leadingIdentifiers : Call → List Str
  | .register input => [input.organizationId, input.workflowRunId, input.workflowStepRunId]
  | .cancelWorkflow organizationId _ => [organizationId]
  | .close _ | .isWorkflowCancelled _ _ | .advance _ => []

def Separated (call : Call) : Prop := ∀ identifier ∈ leadingIdentifiers call, ':' ∉ identifier

instance : DecidablePred Separated := fun call => by
  unfold Separated
  infer_instance

theorem workflowKey_injective {a b c d : Str} (ha : ':' ∉ a) (hc : ':' ∉ c)
    (h : workflowKey a b = workflowKey c d) : (a, b) = (c, d) := by
  obtain ⟨rfl, rfl⟩ := separated_injective ha hc h
  rfl

theorem executionKey_injective {a b : ExecutionCancellationRegistration}
    (ha : Separated (.register a)) (hb : Separated (.register b))
    (h : executionKey a = executionKey b) : SameIdentifiers a b := by
  simp only [Separated, leadingIdentifiers, List.forall_mem_cons] at ha hb
  obtain ⟨haOrganization, haRun, haStep, -⟩ := ha
  obtain ⟨hbOrganization, hbRun, hbStep, -⟩ := hb
  simp only [executionKey, workflowKey, List.append_assoc, List.cons_append] at h
  obtain ⟨horganization, h⟩ := separated_injective haOrganization hbOrganization h
  obtain ⟨hrun, h⟩ := separated_injective haRun hbRun h
  obtain ⟨hstep, hexecution⟩ := separated_injective haStep hbStep h
  exact ⟨horganization, hrun, hstep, hexecution⟩

/-- A tombstone comes from a cancellation. -/
theorem Run.tombstones (h : Run now moves registry) {key : Str} {expiresAt : Int}
    (hmem : (key, expiresAt) ∈ registry.cancelledWorkflows.entries) :
    ∃ c ∈ moves, ∃ workflow, cancelledWorkflow c = some workflow ∧
      workflowKey workflow.1 workflow.2 = key := by
  let cancelled (moves : List Move) (key : Str) : Prop := ∃ c ∈ moves, ∃ workflow,
    cancelledWorkflow c = some workflow ∧ workflowKey workflow.1 workflow.2 = key
  have hcancelled : ∀ entry ∈ registry.cancelledWorkflows.entries, cancelled moves entry.1 := by
    refine h.invariant (P := fun past r => ∀ entry ∈ r.cancelledWorkflows.entries,
      cancelled past entry.1) nofun fun past m ih hm => ?_
    have hkept : ∀ entry ∈ m.before.cancelledWorkflows.entries,
        cancelled (past ++ [m]) entry.1 := by
      intro entry hentry
      obtain ⟨c, hc, hof⟩ := ih entry hentry
      exact ⟨c, List.mem_append_left _ hc, hof⟩
    have hpruned : ∀ entry ∈ (pruneExpiredTombstones m.before).cancelledWorkflows.entries,
        cancelled (past ++ [m]) entry.1 := fun entry hentry =>
      hkept entry (List.mem_filter.mp hentry).1
    cases buries hm with
    | kept _ _ hsame => rwa [hsame]
    | pruned _ _ hsame => rwa [hsame]
    | buried organizationId workflowRunId hworkflow _ hburied =>
        rw [hburied]
        intro entry hentry
        rcases List.mem_append.mp (List.mem_of_mem_drop hentry) with hentry | hentry
        · exact hpruned entry (List.mem_filter.mp hentry).1
        · rw [List.mem_singleton.mp hentry]
          exact ⟨m, by simp, _, hworkflow, rfl⟩
  exact hcancelled _ hmem

theorem Separated.organization {organizationId workflowRunId : Str}
    (h : Separated m.input)
    (hworkflow : cancelledWorkflow m = some (organizationId, workflowRunId)) :
    ':' ∉ organizationId := by
  unfold cancelledWorkflow at hworkflow
  split at hworkflow
  · rename_i hinput _
    cases hworkflow
    rw [hinput] at h
    exact h _ List.mem_cons_self
  · cases hworkflow

/-- Identifiers without colons are never confused. -/
theorem Run.clear (h : Run now (A ++ m :: B) registry)
    (hseparated : ∀ move ∈ A ++ [m], Separated move.input) : ¬ Confused A m := by
  rintro (⟨input, entry, hinput, -, hentry, hother⟩ | ⟨input, hinput, -, -, hburied, hnever⟩)
  all_goals
    have hof : Separated (.register input) := hinput ▸ hseparated m (by simp)
  · have htracks := h.tracks_before
    obtain ⟨A', r, B', rfl, hregisters, -⟩ :=
      (htracks.active entry.toExecutionCancellationRegistration entry.token).mpr
        ⟨_, entry, hentry, rfl, rfl⟩
    have hentryOf : Separated (.register entry.toExecutionCancellationRegistration) :=
      hregisters.input ▸ hseparated r (by simp)
    exact hother (executionKey_injective hentryOf hof (htracks.keyed _ entry hentry).1.symm)
  · obtain ⟨expiresAt, hmem, -⟩ := hburied
    obtain ⟨c, hc, ⟨organizationId, workflowRunId⟩, hworkflow, hkey⟩ :=
      Run.tombstones h.cut.1 hmem
    have horganization : ':' ∉ organizationId :=
      (hseparated c (List.mem_append_left _ hc)).organization hworkflow
    have hsame := workflowKey_injective horganization (hof _ List.mem_cons_self) hkey
    exact hnever c hc (hworkflow.trans (congrArg some hsame))

theorem Run.clear_of_separated (h : Run now moves registry)
    (hseparated : ∀ move ∈ moves, Separated move.input) (hsplit : moves = A ++ m :: B) :
    ¬ Confused A m := by
  subst hsplit
  refine h.clear fun move hmove => hseparated move ?_
  rw [← List.singleton_append, ← List.append_assoc]
  exact List.mem_append_left _ hmove

/-- Without colons the registry keeps the law. -/
theorem Run.lawful_of_separated (h : Run now moves registry)
    (hseparated : ∀ move ∈ moves, Separated move.input) : Lawful moves :=
  h.lawful fun _ _ _ => h.clear_of_separated hseparated

/-- The registry keeps the law as long as no registration meets a key of something else, and no
longer. -/
theorem lawful_iff (h : Run now moves registry) :
    Lawful moves ↔ ∀ A m B, moves = A ++ m :: B → ¬ Confused A m := by
  refine ⟨?_, h.lawful⟩
  rintro hlawful A m B rfl
  exact h.not_confused hlawful

theorem lawful_iff_ordinary : Lawful (execute step (Registry.initial 0)
    [.register ⟨"org".toList, "run".toList, "step".toList, "exec".toList, .returns⟩,
      .cancelWorkflow "org".toList "run".toList, .close 0]).1 := by
  have hrun := run_execute step (Registry.initial 0)
    [.register ⟨"org".toList, "run".toList, "step".toList, "exec".toList, .returns⟩,
      .cancelWorkflow "org".toList "run".toList, .close 0]
  refine (lawful_iff hrun).mpr fun _ _ _ => Run.clear_of_separated hrun fun move hmove => ?_
  have hseparated : ∀ call ∈ [.register ⟨"org".toList, "run".toList, "step".toList, "exec".toList,
      .returns⟩, .cancelWorkflow "org".toList "run".toList, .close 0], Separated call := by
    decide
  exact hseparated _ (mem_execute_input hmove)

/-- The workflow `c` of `a:b` is cancelled, and an execution of the workflow `b:c` of `a` comes. -/
def confusedCalls : List Call :=
  [.cancelWorkflow "a:b".toList "c".toList,
    .register ⟨"a".toList, "b:c".toList, "step".toList, "exec".toList, .returns⟩]

/-- The execution is called although its workflow has not been cancelled. -/
theorem not_lawful_confusedCalls :
    ¬ Lawful (execute step (Registry.initial 0) confusedCalls).1 := by
  intro h
  obtain ⟨input, ⟨r, hr, hregisters⟩, c, hc, hcancelled⟩ :=
    h.attributed [_] _ [] 0 rfl (by decide +kernel)
  have hregistered : ∀ r ∈ (execute step (Registry.initial 0) confusedCalls).1,
      r.output.reply = .registered 0 → r.input = confusedCalls.getLast (by decide) := by
    decide +kernel
  have hnever : ∀ c ∈ (execute step (Registry.initial 0) confusedCalls).1,
      cancelledWorkflow c ≠ some ("a".toList, "b:c".toList) := by
    decide +kernel
  have hinput := hregistered r hr hregisters.reply
  rw [hregisters.input] at hinput
  cases hinput
  exact hnever c hc hcancelled

end Runs

end Cancellation
