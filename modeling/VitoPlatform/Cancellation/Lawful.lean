import VitoPlatform.Cancellation.Calls

/-!
# The law of the cancellation registry

Which callbacks a sequence of calls makes: each once at most and never after its execution is
closed, all those of a workflow that is cancelled and of executions that come late, and a bound
on the tombstones. The maps are keyed by identifiers joined with colons, so two workflows can
share a tombstone and two executions a place: a registration that meets such a key is
`Confused`, and in exactly the sequences without one the registry is `Lawful`.
-/

namespace Cancellation

open Text Machine

/-! ## Sequences of calls -/

/-- The callbacks called, in order. -/
def called (moves : List Move) : List Nat := moves.flatMap fun m => m.output.called

/-- The execution was registered and has not been closed. -/
def Active (past : List Move) (input : ExecutionCancellationRegistration) (token : Nat) : Prop :=
  ∃ A r B, past = A ++ r :: B ∧ Registers r input token ∧ ∀ m ∈ B, m.input ≠ .close token

/-- The four identifiers are the same. -/
def SameIdentifiers (a b : ExecutionCancellationRegistration) : Prop :=
  a.organizationId = b.organizationId ∧ a.workflowRunId = b.workflowRunId ∧
    a.workflowStepRunId = b.workflowStepRunId ∧ a.executionId = b.executionId

/-- The other workflows that have been cancelled. -/
def otherWorkflows (moves : List Move) (workflow : Str × Str) : List (Str × Str) :=
  ((moves.filterMap cancelledWorkflow).filter fun other => other ≠ workflow).dedup

/-- The workflow of an execution. -/
def workflowOf (input : ExecutionCancellationRegistration) : Str × Str :=
  (input.organizationId, input.workflowRunId)

structure Lawful (moves : List Move) : Prop where
  /-- No callback is called twice. -/
  once : (called moves).Nodup
  /-- Nor after its close function has run. -/
  closed : ∀ A m B token, moves = A ++ m :: B → m.input = .close token →
    token < m.before.closures.length → token ∉ called B
  /-- A callback is called for an execution whose workflow has been cancelled. -/
  attributed : ∀ A m B token, moves = A ++ m :: B → token ∈ m.output.called →
    ∃ input, (∃ r ∈ A ++ [m], Registers r input token) ∧
      ∃ c ∈ A ++ [m], cancelledWorkflow c = some (workflowOf input)
  /-- When a workflow is cancelled, its active executions are called, if they have not been. -/
  signalled : ∀ A m B input token, moves = A ++ m :: B →
    cancelledWorkflow m = some (workflowOf input) → Active A input token →
      token ∈ called (A ++ [m])
  /-- An execution that is registered within the hour is called, unless a thousand other
  workflows have been cancelled in between. -/
  deferred : ∀ A c B r C input token, moves = A ++ c :: (B ++ r :: C) →
    cancelledWorkflow c = some (workflowOf input) → Registers r input token →
      r.before.now < c.before.now + CANCELLATION_TOMBSTONE_TTL_MS →
        (otherWorkflows B (workflowOf input)).length < MAX_CANCELLATION_TOMBSTONES →
          token ∈ r.output.called
  bounded : ∀ m ∈ moves, m.after.cancelledWorkflows.size ≤ MAX_CANCELLATION_TOMBSTONES
  /-- A workflow that is cancelled is the youngest. -/
  youngest : ∀ m ∈ moves, ∀ organizationId workflowRunId,
    cancelledWorkflow m = some (organizationId, workflowRunId) →
      m.after.cancelledWorkflows.entries.getLast? = some (workflowKey organizationId workflowRunId,
        m.before.now + CANCELLATION_TOMBSTONE_TTL_MS)
  /-- A valid registration is rejected only if the same execution is active. -/
  rejected : ∀ A m B input message, moves = A ++ m :: B → m.input = .register input →
    assertRegistration input = .ok () → m.output.reply = .error message →
      ∃ other token, Active A other token ∧ SameIdentifiers other input

/-- A registration that meets a key of something else: an active execution with other
identifiers under its execution key, or, where that is free, a tombstone under its workflow key
although its workflow has never been cancelled. -/
inductive Confused (past : List Move) (m : Move) : Prop
  | execution (input : ExecutionCancellationRegistration) (entry : ActiveExecution) :
      m.input = .register input → assertRegistration input = .ok () →
        (executionKey input, entry) ∈ m.before.active.entries →
          ¬ SameIdentifiers entry.toExecutionCancellationRegistration input → Confused past m
  | workflow (input : ExecutionCancellationRegistration) :
      m.input = .register input → assertRegistration input = .ok () →
        executionKey input ∉ m.before.active.keys →
          Buried m.before (workflowKey input.organizationId input.workflowRunId) →
            (∀ c ∈ past, cancelledWorkflow c ≠ some (workflowOf input)) → Confused past m

section Sequences

variable {past moves A B : List Move} {m : Move} {input : ExecutionCancellationRegistration}
variable {token : Nat}

theorem called_append (A B : List Move) : called (A ++ B) = called A ++ called B :=
  List.flatMap_append

@[simp] theorem called_singleton (m : Move) : called [m] = m.output.called :=
  List.flatMap_singleton ..

theorem active_snoc : Active (past ++ [m]) input token ↔
    Registers m input token ∨ (Active past input token ∧ m.input ≠ .close token) := by
  constructor
  · rintro ⟨A, r, B, hsplit, hregisters, hopen⟩
    induction B using List.reverseRecOn with
    | nil =>
        obtain ⟨rfl, hr⟩ := List.append_inj' hsplit rfl
        obtain rfl := List.singleton_inj.mp hr
        exact .inl hregisters
    | append_singleton B last _ =>
        rw [← List.cons_append, ← List.append_assoc] at hsplit
        obtain ⟨rfl, hlast⟩ := List.append_inj' hsplit rfl
        obtain rfl := List.singleton_inj.mp hlast
        exact .inr ⟨⟨A, r, B, rfl, hregisters, fun m hm => hopen m (List.mem_append_left _ hm)⟩,
          hopen m (by simp)⟩
  · rintro (hregisters | ⟨⟨A, r, B, rfl, hregisters, hopen⟩, hm⟩)
    · exact ⟨past, m, [], rfl, hregisters, fun _ h => absurd h List.not_mem_nil⟩
    · refine ⟨A, r, B ++ [m], by simp, hregisters, ?_⟩
      exact List.forall_mem_append.mpr ⟨hopen, List.forall_mem_singleton.mpr hm⟩

theorem otherWorkflows_append {workflow : Str × Str} :
    (otherWorkflows A workflow).length ≤ (otherWorkflows (A ++ B) workflow).length := by
  unfold otherWorkflows
  refine (List.nodup_dedup _).length_le_of_subset fun other hother => ?_
  rw [List.mem_dedup, List.mem_filter] at hother ⊢
  rw [List.filterMap_append]
  exact ⟨List.mem_append_left _ hother.1, hother.2⟩

theorem mem_otherWorkflows {workflow other : Str × Str} :
    other ∈ otherWorkflows moves workflow ↔
      (∃ m ∈ moves, cancelledWorkflow m = some other) ∧ other ≠ workflow := by
  simp [otherWorkflows]

end Sequences

/-! ## Active executions -/

/-- How the maps of the registry relate to the calls so far. -/
structure Tracks (past : List Move) (registry : Registry) : Prop where
  keyed : ∀ k entry, (k, entry) ∈ registry.active.entries →
    k = executionKey entry.toExecutionCancellationRegistration ∧
      registry.closures[entry.token]? = some ⟨k, false⟩
  active : ∀ input token, Active past input token ↔
    ∃ k entry, (k, entry) ∈ registry.active.entries ∧
      entry.toExecutionCancellationRegistration = input ∧ entry.token = token
  issued : ∀ r ∈ past, ∀ token, r.output.reply = .registered token →
    token < registry.closures.length
  requested : ∀ k entry, (k, entry) ∈ registry.active.entries →
    (entry.cancelRequested = true ↔ entry.token ∈ called past)
  known : ∀ token ∈ called past, token < registry.closures.length
  once : (called past).Nodup

section Runs

variable {past moves : List Move} {m : Move} {registry : Registry} {now : Int}

theorem tracks_initial : Tracks [] (Registry.initial now) where
  keyed := nofun
  active input token := by
    constructor
    · rintro ⟨A, r, B, h, -⟩
      simp at h
    · rintro ⟨k, entry, h, -⟩
      cases h
  issued := nofun
  requested := nofun
  known := nofun
  once := List.nodup_nil

/-- Two entries of one token are the same entry. -/
theorem Tracks.eq_of_token (h : Tracks past registry) {k k' : Str} {e e' : ActiveExecution}
    (he : (k, e) ∈ registry.active.entries) (he' : (k', e') ∈ registry.active.entries)
    (htoken : e.token = e'.token) : k = k' ∧ e = e' := by
  have hk := (h.keyed k e he).2
  rw [htoken, (h.keyed k' e' he').2] at hk
  obtain rfl : k' = k := (Closure.mk.inj (Option.some.inj hk)).1
  exact ⟨rfl, InsertionMap.eq_of_mem he he'⟩

theorem Tracks.nothing (h : Tracks past m.before) (hactive : m.after.active = m.before.active)
    (hclosures : m.after.closures = m.before.closures) (hcalled : m.output.called = [])
    (hreply : ∀ token, m.output.reply ≠ .registered token)
    (hopen : ∀ token key, m.input = .close token → m.before.closures[token]? ≠ some ⟨key, false⟩) :
    Tracks (past ++ [m]) m.after := by
  have hsame : called (past ++ [m]) = called past := by
    rw [called_append, called_singleton, hcalled, List.append_nil]
  refine ⟨?_, ?_, ?_, ?_, ?_, ?_⟩
  · rw [hactive, hclosures]
    exact h.keyed
  · intro input token
    rw [active_snoc, hactive, ← h.active]
    refine ⟨?_, fun hpast => .inr ⟨hpast, fun hclose => ?_⟩⟩
    · rintro (hregisters | ⟨hpast, -⟩)
      · exact absurd hregisters.reply (hreply token)
      · exact hpast
    · obtain ⟨k, entry, hmem, -, rfl⟩ := (h.active input token).mp hpast
      exact hopen _ k hclose (h.keyed k entry hmem).2
  · rw [hclosures]
    intro r hr token hregistered
    rcases List.mem_append.mp hr with hr | hr
    · exact h.issued r hr token hregistered
    · rw [List.mem_singleton.mp hr] at hregistered
      exact absurd hregistered (hreply token)
  · rw [hactive, hsame]
    exact h.requested
  · rw [hclosures, hsame]
    exact h.known
  · rw [hsame]
    exact h.once

theorem Tracks.registered (h : Tracks past m.before) {input : ExecutionCancellationRegistration}
    {cancelled : Bool} (hinput : m.input = .register input)
    (hreply : m.output.reply = .registered m.before.closures.length)
    (hactive : m.after.active.entries = m.before.active.entries ++
      [(executionKey input, ⟨input, cancelled, m.before.closures.length⟩)])
    (hclosures : m.after.closures = m.before.closures ++ [⟨executionKey input, false⟩])
    (hcalled : m.output.called = if cancelled then [m.before.closures.length] else []) :
    Tracks (past ++ [m]) m.after := by
  -- The token is new.
  have hfresh : m.before.closures.length ∉ called past := fun hmem =>
    absurd (h.known _ hmem) (Nat.lt_irrefl _)
  have hnew : ∀ token, token ∈ m.output.called ↔
      cancelled = true ∧ token = m.before.closures.length := by
    intro token
    rw [hcalled]
    cases cancelled <;> simp
  have hentries : ∀ k entry, (k, entry) ∈ m.after.active.entries ↔
      (k, entry) ∈ m.before.active.entries ∨
        (k = executionKey input ∧ entry = ⟨input, cancelled, m.before.closures.length⟩) := by
    intro k entry
    rw [hactive, List.mem_append, List.mem_singleton, Prod.mk.injEq]
  have hissued : ∀ k entry, (k, entry) ∈ m.before.active.entries →
      entry.token < m.before.closures.length := by
    intro k entry hmem
    exact (List.getElem?_eq_some_iff.mp (h.keyed k entry hmem).2).1
  refine ⟨?_, ?_, ?_, ?_, ?_, ?_⟩
  · intro k entry hmem
    rw [hclosures]
    rcases (hentries k entry).mp hmem with hmem | ⟨rfl, rfl⟩
    · obtain ⟨hk, hclosure⟩ := h.keyed k entry hmem
      refine ⟨hk, ?_⟩
      rwa [List.getElem?_append_left (hissued k entry hmem)]
    · exact ⟨rfl, by simp⟩
  · intro other token
    rw [active_snoc]
    constructor
    · rintro (⟨hother, htoken⟩ | ⟨hpast, -⟩)
      · rw [hinput] at hother
        rw [hreply] at htoken
        cases hother
        cases htoken
        exact ⟨_, _, (hentries _ _).mpr (.inr ⟨rfl, rfl⟩), rfl, rfl⟩
      · obtain ⟨k, entry, hmem, hof, htoken⟩ := (h.active other token).mp hpast
        exact ⟨k, entry, (hentries k entry).mpr (.inl hmem), hof, htoken⟩
    · rintro ⟨k, entry, hmem, hof, htoken⟩
      rcases (hentries k entry).mp hmem with hmem | ⟨rfl, rfl⟩
      · refine .inr ⟨(h.active other token).mpr ⟨k, entry, hmem, hof, htoken⟩, ?_⟩
        rw [hinput]
        nofun
      · subst hof htoken
        exact .inl ⟨hinput, hreply⟩
  · rw [hclosures, List.length_append, List.length_singleton]
    intro r hr token hregistered
    rcases List.mem_append.mp hr with hr | hr
    · exact Nat.lt_succ_of_lt (h.issued r hr token hregistered)
    · rw [List.mem_singleton.mp hr, hreply] at hregistered
      cases hregistered
      exact Nat.lt_succ_self _
  · intro k entry hmem
    rw [called_append, called_singleton, List.mem_append, hnew]
    rcases (hentries k entry).mp hmem with hmem | ⟨rfl, rfl⟩
    · rw [h.requested k entry hmem]
      refine ⟨.inl, ?_⟩
      rintro (hpast | ⟨-, htoken⟩)
      · exact hpast
      · exact absurd (hissued k entry hmem) (by omega)
    · simp [hfresh]
  · rw [hclosures, List.length_append, List.length_singleton, called_append, called_singleton]
    intro token hmem
    rcases List.mem_append.mp hmem with hmem | hmem
    · exact Nat.lt_succ_of_lt (h.known token hmem)
    · obtain ⟨-, rfl⟩ := (hnew token).mp hmem
      exact Nat.lt_succ_self _
  · rw [called_append, called_singleton, hcalled, List.nodup_append]
    refine ⟨h.once, by cases cancelled <;> simp, ?_⟩
    rintro a ha b hb rfl
    cases cancelled with
    | false => cases hb
    | true =>
        obtain rfl := List.mem_singleton.mp hb
        exact hfresh ha

theorem Tracks.closed (h : Tracks past m.before) {token : Nat} {key : Str}
    (hinput : m.input = .close token) (hreply : m.output.reply = .done)
    (hclosure : m.before.closures[token]? = some ⟨key, false⟩)
    (hactive : ∀ k entry, (k, entry) ∈ m.after.active.entries ↔
      (k, entry) ∈ m.before.active.entries ∧ ¬ (k = key ∧ entry.token = token))
    (hclosures : m.after.closures = m.before.closures.set token ⟨key, true⟩)
    (hcalled : m.output.called = []) : Tracks (past ++ [m]) m.after := by
  have hsame : called (past ++ [m]) = called past := by
    rw [called_append, called_singleton, hcalled, List.append_nil]
  -- What is left are the entries of other tokens.
  have hentries : ∀ k entry, (k, entry) ∈ m.after.active.entries ↔
      (k, entry) ∈ m.before.active.entries ∧ entry.token ≠ token := by
    intro k entry
    rw [hactive]
    refine and_congr_right fun hmem => ⟨fun hne htoken => hne ⟨?_, htoken⟩, fun hne h => hne h.2⟩
    have hof := (h.keyed k entry hmem).2
    rw [htoken, hclosure] at hof
    exact (Closure.mk.inj (Option.some.inj hof)).1.symm
  have hunregistered : ∀ token', m.output.reply ≠ .registered token' := by
    rw [hreply]
    nofun
  refine ⟨?_, ?_, ?_, ?_, ?_, ?_⟩
  · intro k entry hmem
    obtain ⟨hmem, hne⟩ := (hentries k entry).mp hmem
    obtain ⟨hk, hof⟩ := h.keyed k entry hmem
    refine ⟨hk, ?_⟩
    rwa [hclosures, List.getElem?_set_ne (Ne.symm hne)]
  · intro input token'
    rw [active_snoc]
    constructor
    · rintro (hregisters | ⟨hpast, hne⟩)
      · exact absurd hregisters.reply (hunregistered token')
      · obtain ⟨k, entry, hmem, hof, rfl⟩ := (h.active input token').mp hpast
        refine ⟨k, entry, (hentries k entry).mpr ⟨hmem, ?_⟩, hof, rfl⟩
        rintro rfl
        exact hne hinput
    · rintro ⟨k, entry, hmem, hof, rfl⟩
      obtain ⟨hmem, hne⟩ := (hentries k entry).mp hmem
      refine .inr ⟨(h.active _ _).mpr ⟨k, entry, hmem, hof, rfl⟩, fun hclose => ?_⟩
      rw [hinput] at hclose
      cases hclose
      exact hne rfl
  · rw [hclosures, List.length_set]
    intro r hr token' hregistered
    rcases List.mem_append.mp hr with hr | hr
    · exact h.issued r hr token' hregistered
    · rw [List.mem_singleton.mp hr] at hregistered
      exact absurd hregistered (hunregistered token')
  · rw [hsame]
    exact fun k entry hmem => h.requested k entry ((hentries k entry).mp hmem).1
  · rw [hclosures, List.length_set, hsame]
    exact h.known
  · rw [hsame]
    exact h.once

theorem mem_unsignalled {organizationId workflowRunId : Str} {entry : ActiveExecution} :
    entry ∈ unsignalled registry organizationId workflowRunId ↔
      (∃ k, (k, entry) ∈ registry.active.entries) ∧
        ofWorkflow organizationId workflowRunId entry = true ∧ entry.cancelRequested = false := by
  rw [unsignalled, List.mem_filter, List.mem_filter, InsertionMap.mem_values,
    Bool.not_eq_true', and_assoc]

theorem Tracks.tokens_nodup (h : Tracks past registry) :
    (registry.active.values.map ActiveExecution.token).Nodup := by
  rw [InsertionMap.values, List.map_map]
  refine registry.active.nodup.of_map.map_on ?_
  rintro ⟨k, e⟩ he ⟨k', e'⟩ he' htoken
  obtain ⟨rfl, rfl⟩ := h.eq_of_token he he' htoken
  rfl

theorem Tracks.cancelled (h : Tracks past m.before) {organizationId workflowRunId : Str}
    (hreply : ∀ token, m.output.reply ≠ .registered token)
    (hinput : ∀ token, m.input ≠ .close token)
    (hactive : m.after.active = m.before.active.mapValues fun entry =>
      if ofWorkflow organizationId workflowRunId entry then entry.requested else entry)
    (hclosures : m.after.closures = m.before.closures)
    (hcalled : m.output.called =
      (unsignalled m.before organizationId workflowRunId).map ActiveExecution.token) :
    Tracks (past ++ [m]) m.after := by
  -- Neither identifiers nor tokens change.
  have hentries : ∀ k entry, (k, entry) ∈ m.after.active.entries →
      ∃ before, (k, before) ∈ m.before.active.entries ∧
        entry.toExecutionCancellationRegistration = before.toExecutionCancellationRegistration ∧
          entry.token = before.token ∧ (entry.cancelRequested = true ↔
            before.cancelRequested = true ∨
              ofWorkflow organizationId workflowRunId before = true) := by
    intro k entry hmem
    rw [hactive, InsertionMap.mem_mapValues] at hmem
    obtain ⟨before, hbefore, rfl⟩ := hmem
    refine ⟨before, hbefore, ?_⟩
    split
    · rename_i hof
      exact ⟨rfl, rfl, iff_of_true rfl (.inr hof)⟩
    · rename_i hof
      exact ⟨rfl, rfl, by simp [hof]⟩
  have hnew : ∀ k entry, (k, entry) ∈ m.before.active.entries →
      (entry.token ∈ m.output.called ↔
        ofWorkflow organizationId workflowRunId entry = true ∧ entry.cancelRequested = false) := by
    intro k entry hmem
    rw [hcalled, List.mem_map]
    constructor
    · rintro ⟨other, hother, htoken⟩
      obtain ⟨⟨k', hmem'⟩, hof⟩ := mem_unsignalled.mp hother
      obtain ⟨-, rfl⟩ := h.eq_of_token hmem' hmem htoken
      exact hof
    · exact fun hof => ⟨entry, mem_unsignalled.mpr ⟨⟨k, hmem⟩, hof⟩, rfl⟩
  have hcalledActive : ∀ token ∈ m.output.called, ∃ k entry,
      (k, entry) ∈ m.before.active.entries ∧ entry.token = token ∧
        entry.cancelRequested = false := by
    rw [hcalled]
    intro token hmem
    obtain ⟨entry, hentry, htoken⟩ := List.mem_map.mp hmem
    obtain ⟨⟨k, hk⟩, -, hunrequested⟩ := mem_unsignalled.mp hentry
    exact ⟨k, entry, hk, htoken, hunrequested⟩
  refine ⟨?_, ?_, ?_, ?_, ?_, ?_⟩
  · intro k entry hmem
    obtain ⟨before, hbefore, hof, htoken, -⟩ := hentries k entry hmem
    rw [hof, htoken, hclosures]
    exact h.keyed k before hbefore
  · intro input token
    rw [active_snoc]
    constructor
    · rintro (hregisters | ⟨hpast, -⟩)
      · exact absurd hregisters.reply (hreply token)
      · obtain ⟨k, entry, hmem, hof, htoken⟩ := (h.active input token).mp hpast
        refine ⟨k, if ofWorkflow organizationId workflowRunId entry then entry.requested else entry,
          ?_, ?_, ?_⟩
        · rw [hactive, InsertionMap.mem_mapValues]
          exact ⟨entry, hmem, rfl⟩
        · split <;> exact hof
        · split <;> exact htoken
    · rintro ⟨k, entry, hmem, hof, htoken⟩
      obtain ⟨before, hbefore, hsame, htoken', -⟩ := hentries k entry hmem
      exact .inr ⟨(h.active input token).mpr
        ⟨k, before, hbefore, hsame.symm.trans hof, htoken'.symm.trans htoken⟩, hinput token⟩
  · rw [hclosures]
    intro r hr token hregistered
    rcases List.mem_append.mp hr with hr | hr
    · exact h.issued r hr token hregistered
    · rw [List.mem_singleton.mp hr] at hregistered
      exact absurd hregistered (hreply token)
  · intro k entry hmem
    obtain ⟨before, hbefore, -, htoken, hrequested⟩ := hentries k entry hmem
    rw [called_append, called_singleton, List.mem_append, htoken, hnew k before hbefore,
      ← h.requested k before hbefore, hrequested]
    cases before.cancelRequested <;> simp
  · rw [hclosures, called_append, called_singleton]
    intro token hmem
    rcases List.mem_append.mp hmem with hmem | hmem
    · exact h.known token hmem
    · obtain ⟨k, entry, hentry, rfl, -⟩ := hcalledActive token hmem
      exact (List.getElem?_eq_some_iff.mp (h.keyed k entry hentry).2).1
  · rw [called_append, called_singleton, List.nodup_append]
    refine ⟨h.once, ?_, ?_⟩
    · rw [hcalled]
      exact h.tokens_nodup.sublist
        ((List.filter_sublist.trans List.filter_sublist).map ActiveExecution.token)
    · rintro token hpast _ hmem rfl
      obtain ⟨k, entry, hentry, rfl, hunrequested⟩ := hcalledActive token hmem
      rw [← h.requested k entry hentry, hunrequested] at hpast
      cases hpast

/-- Every call keeps the maps in step with the calls. -/
theorem Tracks.step (h : Tracks past m.before) (hm : Follows step m) :
    Tracks (past ++ [m]) m.after := by
  cases changes hm with
  | nothing hactive hclosures hcalled hreply hopen _ =>
      exact h.nothing hactive hclosures hcalled hreply hopen
  | registered input cancelled hinput hreply _ _ hactive hclosures hcalled =>
      exact h.registered hinput hreply hactive hclosures hcalled
  | closed token key hinput hreply hclosure hactive hclosures hcalled =>
      exact h.closed hinput hreply hclosure hactive hclosures hcalled
  | cancelled organizationId workflowRunId _ hreply hinput hactive hclosures hcalled =>
      exact h.cancelled hreply hinput hactive hclosures hcalled

variable {A B C : List Move} {input : ExecutionCancellationRegistration} {token : Nat}

theorem Run.tracks (h : Run now moves registry) : Tracks moves registry :=
  h.invariant tracks_initial fun _ _ => Tracks.step

theorem Run.tracks_before (h : Run now (A ++ m :: B) registry) : Tracks A m.before :=
  Run.tracks h.cut.1

theorem Run.changes (h : Run now (A ++ m :: B) registry) : Changes m :=
  Cancellation.changes h.cut.2.1

/-- A closed token stays closed. -/
theorem closed_step {key : Str} (hm : Follows step m)
    (hclosed : m.before.closures[token]? = some ⟨key, true⟩) :
    m.after.closures[token]? = some ⟨key, true⟩ := by
  have hlt := (List.getElem?_eq_some_iff.mp hclosed).1
  cases Cancellation.changes hm with
  | nothing _ hclosures =>
      rwa [hclosures]
  | registered _ _ _ _ _ _ _ hclosures =>
      rwa [hclosures, List.getElem?_append_left hlt]
  | closed token' key' _ _ hclosure _ hclosures =>
      rw [hclosures, List.getElem?_set_ne]
      · exact hclosed
      · rintro rfl
        rw [hclosed] at hclosure
        cases hclosure
  | cancelled _ _ _ _ _ _ hclosures =>
      rwa [hclosures]

/-- What is called is new, or active. -/
theorem Changes.called (h : Changes m) (hcalled : token ∈ m.output.called) :
    (∃ input, Registers m input token ∧ token = m.before.closures.length ∧
        Buried m.before (workflowKey input.organizationId input.workflowRunId) ∧
          executionKey input ∉ m.before.active.keys) ∨
      ∃ organizationId workflowRunId entry k,
        cancelledWorkflow m = some (organizationId, workflowRunId) ∧
          (k, entry) ∈ m.before.active.entries ∧ entry.token = token ∧
            ofWorkflow organizationId workflowRunId entry = true := by
  cases h with
  | nothing _ _ hnone | closed _ _ _ _ _ _ _ hnone =>
      rw [hnone] at hcalled
      cases hcalled
  | registered input cancelled hinput hreply hfree hburied _ _ hmade =>
      rw [hmade] at hcalled
      cases cancelled with
      | false => cases hcalled
      | true =>
          obtain rfl := List.mem_singleton.mp hcalled
          exact .inl ⟨input, ⟨hinput, hreply⟩, rfl, hburied.mp rfl, hfree⟩
  | cancelled organizationId workflowRunId hworkflow _ _ _ _ hmade =>
      rw [hmade] at hcalled
      obtain ⟨entry, hentry, htoken⟩ := List.mem_map.mp hcalled
      obtain ⟨⟨k, hk⟩, hof, -⟩ := mem_unsignalled.mp hentry
      exact .inr ⟨organizationId, workflowRunId, entry, k, hworkflow, hk, htoken, hof⟩

theorem Run.closed_after (h : Run now (A ++ m :: B) registry) (hinput : m.input = .close token)
    (hissued : token < m.before.closures.length) :
    ∃ key, m.after.closures[token]? = some ⟨key, true⟩ := by
  cases h.changes with
  | nothing _ hclosures _ _ hopen _ =>
      rw [hclosures]
      have hclosure := List.getElem?_eq_getElem hissued
      generalize m.before.closures[token] = closure at hclosure
      obtain ⟨key, flag⟩ := closure
      cases flag with
      | false => exact absurd hclosure (hopen token key hinput)
      | true => exact ⟨key, hclosure⟩
  | registered input _ hregister =>
      rw [hinput] at hregister
      cases hregister
  | closed token' key hclose _ _ _ hclosures _ =>
      rw [hinput] at hclose
      cases hclose
      exact ⟨key, by rw [hclosures, List.getElem?_set_self hissued]⟩
  | cancelled _ _ _ _ hclose => exact absurd hinput (hclose token)

/-- A closed token is not called. -/
theorem Run.not_called_closed (h : Run now (A ++ m :: B) registry) {key : Str}
    (hclosed : m.before.closures[token]? = some ⟨key, true⟩) : token ∉ m.output.called := by
  intro hcalled
  rcases h.changes.called hcalled with ⟨input, -, rfl, -⟩ | ⟨_, _, entry, k, -, hentry, rfl, -⟩
  · simp at hclosed
  · rw [(h.tracks_before.keyed k entry hentry).2] at hclosed
    cases hclosed

theorem Run.closed_silent (h : Run now (A ++ m :: B) registry) (hinput : m.input = .close token)
    (hissued : token < m.before.closures.length) : token ∉ called B := by
  obtain ⟨key, hclosed⟩ := h.closed_after hinput hissued
  intro hcalled
  obtain ⟨m', hm', hsilent⟩ := List.mem_flatMap.mp hcalled
  obtain ⟨B₁, B₂, rfl⟩ := List.append_of_mem hm'
  have hbefore : m'.before.closures[token]? = some ⟨key, true⟩ := by
    refine h.cut.2.2.cut.1.invariant (P := fun _ r => r.closures[token]? = some ⟨key, true⟩)
      hclosed ?_
    exact fun _ _ hclosed hm => closed_step hm hclosed
  rw [← List.cons_append, ← List.append_assoc] at h
  exact h.not_called_closed hbefore hsilent

theorem ofWorkflow_iff {organizationId workflowRunId : Str} {entry : ActiveExecution} :
    ofWorkflow organizationId workflowRunId entry = true ↔
      workflowOf entry.toExecutionCancellationRegistration = (organizationId, workflowRunId) := by
  simp [ofWorkflow, workflowOf]

theorem Run.signalled (h : Run now (A ++ m :: B) registry)
    (hworkflow : cancelledWorkflow m = some (workflowOf input)) (hactive : Active A input token) :
    token ∈ called (A ++ [m]) := by
  have htracks := h.tracks_before
  obtain ⟨k, entry, hentry, rfl, rfl⟩ := (htracks.active input token).mp hactive
  rw [called_append, called_singleton, List.mem_append]
  cases h.changes with
  | nothing _ _ _ _ _ hnone =>
      rw [hworkflow] at hnone
      cases hnone
  | registered _ _ hinput | closed _ _ hinput =>
      rw [cancelledWorkflow, hinput] at hworkflow
      cases hworkflow
  | cancelled organizationId workflowRunId hof _ _ _ _ hcalled =>
      rw [hworkflow] at hof
      rw [hcalled, ← htracks.requested k entry hentry]
      cases hrequested : entry.cancelRequested with
      | true => exact .inl rfl
      | false =>
          refine .inr (List.mem_map_of_mem (mem_unsignalled.mpr ⟨⟨k, hentry⟩, ?_, hrequested⟩))
          exact ofWorkflow_iff.mpr (Option.some.inj hof)

/-! ## Tombstones -/

theorem Buries.now_le (h : Buries m) : m.before.now ≤ m.after.now := by
  cases h with
  | kept _ hnow => exact hnow
  | pruned _ hnow | buried _ _ _ hnow => omega

/-- The tombstone of a workflow, with what came after it: tombstones of other workflows that
have been cancelled since. -/
structure Standing (workflow : Str × Str) (expiry : Int) (since : List Move) (registry : Registry) :
    Prop where
  clock : expiry ≤ registry.now + CANCELLATION_TOMBSTONE_TTL_MS
  entries : ∃ older expiresAt younger, registry.cancelledWorkflows.entries =
    older ++ (workflowKey workflow.1 workflow.2, expiresAt) :: younger ∧ expiry ≤ expiresAt ∧
      ∀ tombstone ∈ younger, ∃ other ∈ otherWorkflows since workflow,
        workflowKey other.1 other.2 = tombstone.1

theorem otherWorkflows_mono {workflow other : Str × Str} (h : other ∈ otherWorkflows A workflow) :
    other ∈ otherWorkflows (A ++ B) workflow := by
  obtain ⟨⟨m, hm, hother⟩, hne⟩ := mem_otherWorkflows.mp h
  exact mem_otherWorkflows.mpr ⟨⟨m, List.mem_append_left _ hm, hother⟩, hne⟩

/-- Pruning leaves what has not expired. -/
theorem prune_entries {older younger : List (Str × Int)} {key : Str} {expiresAt : Int}
    (hentries : registry.cancelledWorkflows.entries = older ++ (key, expiresAt) :: younger)
    (halive : registry.now < expiresAt) :
    (pruneExpiredTombstones registry).cancelledWorkflows.entries =
      older.filter (fun entry => registry.now < entry.2) ++
        (key, expiresAt) :: younger.filter fun entry => registry.now < entry.2 := by
  show registry.cancelledWorkflows.entries.filter _ = _
  rw [hentries, List.filter_append, List.filter_cons, if_pos (decide_eq_true halive)]

variable {workflow : Str × Str} {expiry : Int} {since : List Move}

theorem Standing.younger_length {others : List (Str × Str)} {younger : List (Str × Int)}
    (hnodup : (younger.map Prod.fst).Nodup)
    (hyounger : ∀ tombstone ∈ younger, ∃ other ∈ others,
      workflowKey other.1 other.2 = tombstone.1) : younger.length ≤ others.length := by
  have hsubset : younger.map Prod.fst ⊆ others.map fun other => workflowKey other.1 other.2 := by
    intro key hkey
    obtain ⟨tombstone, htombstone, rfl⟩ := List.mem_map.mp hkey
    obtain ⟨other, hother, hkey⟩ := hyounger tombstone htombstone
    exact List.mem_map.mpr ⟨other, hother, hkey⟩
  simpa using hnodup.length_le_of_subset hsubset

/-- A tombstone stands until it expires, unless too many other workflows are cancelled. -/
theorem Standing.step (h : Standing workflow expiry since m.before) (hm : Follows step m)
    (halive : m.before.now < expiry)
    (hfew : (otherWorkflows (since ++ [m]) workflow).length < MAX_CANCELLATION_TOMBSTONES) :
    Standing workflow expiry (since ++ [m]) m.after := by
  obtain ⟨hclock, older, expiresAt, younger, hentries, hexpiry, hyounger⟩ := h
  have hnow := (buries hm).now_le
  have hpruned := prune_entries hentries (Int.lt_of_lt_of_le halive hexpiry)
  have hfiltered : ∀ tombstone ∈ younger.filter (fun entry => m.before.now < entry.2),
      ∃ other ∈ otherWorkflows (since ++ [m]) workflow,
        workflowKey other.1 other.2 = tombstone.1 := by
    intro tombstone hmem
    obtain ⟨other, hother, hkey⟩ := hyounger tombstone (List.mem_filter.mp hmem).1
    exact ⟨other, otherWorkflows_mono hother, hkey⟩
  refine ⟨by omega, ?_⟩
  cases buries hm with
  | kept _ _ hsame =>
      refine ⟨older, expiresAt, younger, by rw [hsame, hentries], hexpiry, ?_⟩
      intro tombstone hmem
      obtain ⟨other, hother, hkey⟩ := hyounger tombstone hmem
      exact ⟨other, otherWorkflows_mono hother, hkey⟩
  | pruned _ _ hsame =>
      exact ⟨_, expiresAt, _, by rw [hsame, hpruned], hexpiry, hfiltered⟩
  | buried organizationId workflowRunId hworkflow _ hburied =>
      have hfresh : ∀ tombstones : InsertionMap Str Int,
          (((tombstones.delete (workflowKey organizationId workflowRunId)).entries ++
            [(workflowKey organizationId workflowRunId,
              m.before.now + CANCELLATION_TOMBSTONE_TTL_MS)]).map Prod.fst).Nodup := fun tombstones =>
        (InsertionMap.append _ _ _ InsertionMap.not_mem_keys_delete).nodup
      have hnodup := hfresh (pruneExpiredTombstones m.before).cancelledWorkflows
      rw [hburied]
      rw [InsertionMap.size]
      by_cases hkey : workflowKey organizationId workflowRunId = workflowKey workflow.1 workflow.2
      · -- The tombstone is renewed: it is the youngest now.
        rw [hkey]
        exact ⟨_, _, [], List.drop_append_of_le_length (by omega), hclock, fun _ h => by cases h⟩
      · -- Another workflow has been cancelled, and its tombstone is the youngest.
        have hother : (organizationId, workflowRunId) ∈ otherWorkflows (since ++ [m]) workflow := by
          refine mem_otherWorkflows.mpr ⟨⟨m, by simp, hworkflow⟩, ?_⟩
          rintro rfl
          exact hkey rfl
        have hkept : ((pruneExpiredTombstones m.before).cancelledWorkflows.delete
            (workflowKey organizationId workflowRunId)).entries =
              (older.filter fun entry => m.before.now < entry.2).filter
                (fun entry => entry.1 ≠ workflowKey organizationId workflowRunId) ++
              (workflowKey workflow.1 workflow.2, expiresAt) ::
                (younger.filter fun entry => m.before.now < entry.2).filter
                  fun entry => entry.1 ≠ workflowKey organizationId workflowRunId := by
          show (pruneExpiredTombstones m.before).cancelledWorkflows.entries.filter _ = _
          rw [hpruned, List.filter_append, List.filter_cons, if_pos (decide_eq_true (Ne.symm hkey))]
        rw [hkept] at hnodup ⊢
        rw [List.append_assoc, List.cons_append] at hnodup ⊢
        generalize hrest : ((younger.filter fun entry => m.before.now < entry.2).filter
          fun entry => entry.1 ≠ workflowKey organizationId workflowRunId) ++
            [(workflowKey organizationId workflowRunId,
              m.before.now + CANCELLATION_TOMBSTONE_TTL_MS)] = rest at hnodup ⊢
        have hrestOf : ∀ tombstone ∈ rest, ∃ other ∈ otherWorkflows (since ++ [m]) workflow,
            workflowKey other.1 other.2 = tombstone.1 := by
          rw [← hrest]
          intro tombstone hmem
          rcases List.mem_append.mp hmem with hmem | hmem
          · exact hfiltered tombstone (List.mem_filter.mp hmem).1
          · rw [List.mem_singleton.mp hmem]
            exact ⟨_, hother, rfl⟩
        have hrestNodup : (rest.map Prod.fst).Nodup := by
          rw [List.map_append, List.map_cons] at hnodup
          exact ((List.nodup_append.mp hnodup).2.1).of_cons
        have hlength := Standing.younger_length hrestNodup hrestOf
        have hrestLength := congrArg List.length hrest
        refine ⟨_, expiresAt, rest, List.drop_append_of_le_length ?_, hexpiry, hrestOf⟩
        simp only [List.length_append, List.length_cons, List.length_nil] at hrestLength ⊢
        omega

/-- A cancellation leaves a tombstone. -/
theorem Buries.standing (h : Buries m) (hworkflow : cancelledWorkflow m = some workflow) :
    Standing workflow (m.before.now + CANCELLATION_TOMBSTONE_TTL_MS) [] m.after ∧
      m.after.cancelledWorkflows.entries.getLast? = some (workflowKey workflow.1 workflow.2,
        m.before.now + CANCELLATION_TOMBSTONE_TTL_MS) := by
  have hbound : 0 < MAX_CANCELLATION_TOMBSTONES := by
    unfold MAX_CANCELLATION_TOMBSTONES
    omega
  cases h with
  | kept hnone | pruned hnone =>
      rw [hworkflow] at hnone
      cases hnone
  | buried organizationId workflowRunId hof hnow hburied =>
      rw [hworkflow] at hof
      obtain rfl := Option.some.inj hof
      rw [InsertionMap.size, List.drop_append_of_le_length (by omega)] at hburied
      refine ⟨⟨by omega, _, _, [], hburied, Int.le_refl _, fun _ h => by cases h⟩, ?_⟩
      rw [hburied, List.getLast?_append]
      rfl

theorem Run.deferred {c r : Move} (h : Run now (A ++ c :: (B ++ r :: C)) registry)
    (hworkflow : cancelledWorkflow c = some (workflowOf input)) (hregisters : Registers r input token)
    (hsoon : r.before.now < c.before.now + CANCELLATION_TOMBSTONE_TTL_MS)
    (hfew : (otherWorkflows B (workflowOf input)).length < MAX_CANCELLATION_TOMBSTONES) :
    token ∈ r.output.called := by
  obtain ⟨-, hc, hrest⟩ := h.cut
  obtain ⟨hB, hr, -⟩ := hrest.cut
  -- The tombstone stands as long as it has not expired and not too many have come after it.
  have hstanding : (otherWorkflows B (workflowOf input)).length < MAX_CANCELLATION_TOMBSTONES →
      r.before.now < c.before.now + CANCELLATION_TOMBSTONE_TTL_MS →
        Standing (workflowOf input) (c.before.now + CANCELLATION_TOMBSTONE_TTL_MS) B r.before := by
    refine hB.invariant (P := fun since registry =>
      (otherWorkflows since (workflowOf input)).length < MAX_CANCELLATION_TOMBSTONES →
        registry.now < c.before.now + CANCELLATION_TOMBSTONE_TTL_MS →
          Standing (workflowOf input) (c.before.now + CANCELLATION_TOMBSTONE_TTL_MS) since registry)
      (fun _ _ => ((buries hc).standing hworkflow).1) ?_
    intro since m ih hm hfew hsoon
    have hbefore := Int.lt_of_le_of_lt (buries hm).now_le hsoon
    exact (ih (Nat.lt_of_le_of_lt otherWorkflows_append hfew) hbefore).step hm hbefore hfew
  obtain ⟨-, older, expiresAt, younger, hentries, hexpiry, -⟩ := hstanding hfew hsoon
  have hburied : Buried r.before (workflowKey input.organizationId input.workflowRunId) :=
    ⟨expiresAt, by rw [hentries]; exact List.mem_append_right _ List.mem_cons_self,
      Int.lt_of_lt_of_le hsoon hexpiry⟩
  cases Cancellation.changes hr with
  | nothing _ _ _ hreply | cancelled _ _ _ hreply =>
      exact absurd hregisters.reply (hreply token)
  | closed _ _ hinput =>
      rw [hregisters.input] at hinput
      cases hinput
  | registered input' cancelled hinput hreply _ hcancelled _ _ hcalled =>
      rw [hregisters.input] at hinput
      cases hinput
      rw [hregisters.reply] at hreply
      cases hreply
      rw [hcalled, hcancelled.mpr hburied]
      exact List.mem_singleton_self _

theorem size_filter_le {K V : Type} (tombstones : InsertionMap K V) (p : K × V → Bool) :
    (tombstones.filter p).size ≤ tombstones.size :=
  List.length_filter_le p tombstones.entries

theorem Run.bounded (h : Run now moves registry) :
    registry.cancelledWorkflows.size ≤ MAX_CANCELLATION_TOMBSTONES := by
  refine h.invariant (P := fun _ r => r.cancelledWorkflows.size ≤ MAX_CANCELLATION_TOMBSTONES)
    (Nat.zero_le _) fun _ m hbound hm => ?_
  cases buries hm with
  | kept _ _ hsame => rwa [hsame]
  | pruned _ _ hsame =>
      rw [hsame]
      exact Nat.le_trans (size_filter_le _ _) hbound
  | buried organizationId workflowRunId _ _ hburied =>
      rw [InsertionMap.size, hburied, List.length_drop, List.length_append, InsertionMap.size]
      simp only [List.length_cons, List.length_nil]
      omega

/-! ## Registrations -/

theorem Registers.valid (h : Registers m input token) (hm : Follows step m) :
    assertRegistration input = .ok () := by
  have hreply := h.reply
  rw [register_output hm h.input] at hreply
  exact valid_of_registered hreply

theorem rejected_keys {message : String} (hm : Follows step m) (hinput : m.input = .register input)
    (hvalid : assertRegistration input = .ok ()) (hreply : m.output.reply = .error message) :
    executionKey input ∈ m.before.active.keys := by
  by_contra hfree
  rw [register_output hm hinput, register_reply hvalid, if_neg hfree] at hreply
  cases hreply

theorem SameIdentifiers.executionKey_eq {a b : ExecutionCancellationRegistration}
    (h : SameIdentifiers a b) : executionKey a = executionKey b := by
  obtain ⟨horganization, hrun, hstep, hexecution⟩ := h
  rw [executionKey, executionKey, horganization, hrun, hstep, hexecution]

theorem Run.attributed (h : Run now (A ++ m :: B) registry) (hclear : ¬ Confused A m)
    (hcalled : token ∈ m.output.called) :
    ∃ input, (∃ r ∈ A ++ [m], Registers r input token) ∧
      ∃ c ∈ A ++ [m], cancelledWorkflow c = some (workflowOf input) := by
  rcases h.changes.called hcalled with ⟨input, hregisters, -, hburied, hfree⟩ |
      ⟨organizationId, workflowRunId, entry, k, hworkflow, hentry, rfl, hof⟩
  · by_contra hnone
    refine hclear (.workflow input hregisters.input (hregisters.valid h.cut.2.1) hfree hburied ?_)
    intro c hc hcancelled
    exact hnone ⟨input, ⟨m, by simp, hregisters⟩, c, List.mem_append_left _ hc, hcancelled⟩
  · obtain ⟨A', r, B', rfl, hregisters, -⟩ :=
      (h.tracks_before.active entry.toExecutionCancellationRegistration entry.token).mpr
        ⟨k, entry, hentry, rfl, rfl⟩
    refine ⟨entry.toExecutionCancellationRegistration, ⟨r, by simp, hregisters⟩, m, by simp, ?_⟩
    rw [hworkflow, ofWorkflow_iff.mp hof]

theorem Run.rejected (h : Run now (A ++ m :: B) registry) (hclear : ¬ Confused A m)
    (hinput : m.input = .register input) (hvalid : assertRegistration input = .ok ())
    {message : String} (hreply : m.output.reply = .error message) :
    ∃ other token, Active A other token ∧ SameIdentifiers other input := by
  obtain ⟨⟨k, entry⟩, hentry, hk⟩ := List.mem_map.mp (rejected_keys h.cut.2.1 hinput hvalid hreply)
  obtain rfl : k = executionKey input := hk
  refine ⟨entry.toExecutionCancellationRegistration, entry.token, ?_, ?_⟩
  · exact (h.tracks_before.active _ _).mpr ⟨_, entry, hentry, rfl, rfl⟩
  · by_contra hother
    exact hclear (.execution input entry hinput hvalid hentry hother)

end Runs

end Cancellation
