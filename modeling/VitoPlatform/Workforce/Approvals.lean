import VitoPlatform.Workforce.Authority

/-!
# Approvals that stand

An assignment stands if it has been approved and not been revoked or replaced since. The table of
the assignments has exactly those as approved that stand by the journal, whoever runs what.
-/

namespace Workforce

open Text Concurrent Services Journals
open AgentRuntime (capabilityForStep)
open Learning (TenantContext)

/-- What an entry says of the assignment of a step. -/
def Entry.write : Entry → Option (StepKey × Option WorkflowAgentAssignment)
  | .approved _ _ assignment => some (assignment.key, some assignment)
  | .revoked _ _ key => some (key, none)
  | .eligible _ _ _ | .stepRead _ _ _ | .assignmentRead _ _ _ | .taskRead _ _ | .agentRead _ _ =>
      none

/-- A human has approved the assignment, with a reference, for the capability that the server
has for the step; the session has found the employee active, with that capability. -/
structure Approval (before : List Entry) (session : Nat) (context : TenantContext)
    (assignment : WorkflowAgentAssignment) : Prop where
  human : context.human? = some assignment.approvedByUserId
  organization : assignment.key.organizationId = context.organizationId
  approvalRef : isApprovalRef assignment.approvalRef = true
  capability : capabilityForStep assignment.key.stepType = some assignment.capabilityCode
  eligible : ∃ employee capabilities, Entry.eligible session employee capabilities ∈ before ∧
    employee.id = assignment.digitalEmployeeId ∧
      isEligible assignment.key.organizationId assignment.capabilityCode employee capabilities

/-- What an entry says holds of what came before it. -/
def Entry.Justified (before : List Entry) : Entry → Prop
  | .approved session context assignment => Approval before session context assignment
  | .revoked _ context key =>
      context.human?.isSome ∧ key.organizationId = context.organizationId
  | .assignmentRead _ key found => found = standing Entry.write before key
  | .eligible _ _ _ | .stepRead _ _ _ | .taskRead _ _ | .agentRead _ _ => True

structure Sound (s : Store) : Prop where
  keys : (s.assignments.map WorkflowAgentAssignment.key).Nodup
  approved : ∀ key, approvedAt s.assignments key = standing Entry.write s.journal key
  recorded : Recorded Entry.Justified s.journal

/-- What every step does. -/
structure Grows (s t : Store) : Prop where
  sound : Sound s → Sound t
  journal : s.journal <+: t.journal
  planned : ∀ key row, s.planEntry key = some row → t.planEntry key = some row

variable {s t : Store} {rows : List WorkflowAgentAssignment} {entry : Entry} {key written : StepKey}
  {assignment new old : WorkflowAgentAssignment} {session : Nat} {context : TenantContext}

theorem Grows.refl (s : Store) : Grows s s :=
  ⟨fun hs => hs, List.prefix_rfl, fun _ _ h => h⟩

/-- The steps of all calls. -/
def steps : Steps Store where
  inv := Sound
  does _ := Grows
  rely _ := Grows
  records _ _ _ := False
  refl _ := Grows.refl
  keeps h := h.sound
  between h := h.elim Grows.sound False.elim

/-! ## What the table has as approved -/

/-- Under unique keys, what is approved under a key is the row under the key, if it is approved. -/
theorem approvedAt_eq (hkeys : (rows.map WorkflowAgentAssignment.key).Nodup) :
    approvedAt rows key = (Tables.find WorkflowAgentAssignment.key rows key).filter
      fun assignment => assignment.status = .approved := by
  cases hfound : Tables.find WorkflowAgentAssignment.key rows key with
  | none =>
      refine List.find?_eq_none.mpr fun row hrow => ?_
      rw [decide_eq_true_eq]
      exact fun hrowKey => Tables.find_none_iff.mp hfound row hrow hrowKey.1
  | some row =>
      obtain ⟨hrow, rfl⟩ := Tables.find_some hfound
      have hunique : ∀ other ∈ rows, other.key = row.key → other = row :=
        fun other hother h => List.inj_on_of_nodup_map hkeys hother hrow h
      rw [Option.filter_some]
      split
      · rename_i hstatus
        rw [decide_eq_true_eq] at hstatus
        refine Tables.find?_of_unique hrow (decide_eq_true ⟨rfl, hstatus⟩) fun other hother h => ?_
        rw [decide_eq_true_eq] at h
        exact hunique other hother h.1
      · rename_i hstatus
        rw [decide_eq_true_eq] at hstatus
        refine List.find?_eq_none.mpr fun other hother => ?_
        rw [decide_eq_true_eq]
        rintro ⟨hkey, happroved⟩
        rw [hunique other hother hkey] at happroved
        exact hstatus happroved

theorem keys_write (f : WorkflowAgentAssignment → WorkflowAgentAssignment)
    (hkey : ∀ row, (f row).key = row.key) (hkeys : (rows.map WorkflowAgentAssignment.key).Nodup) :
    ((Tables.write WorkflowAgentAssignment.key rows written f).map
      WorkflowAgentAssignment.key).Nodup := by
  rw [Tables.map_key_write hkey]
  exact hkeys

/-- What is approved after a write of the row under a key. -/
theorem approvedAt_write (f : WorkflowAgentAssignment → WorkflowAgentAssignment)
    (hkey : ∀ row, (f row).key = row.key) (hkeys : (rows.map WorkflowAgentAssignment.key).Nodup)
    (hfound : Tables.find WorkflowAgentAssignment.key rows written = some old) :
    approvedAt (Tables.write WorkflowAgentAssignment.key rows written f) key =
      if written = key then if (f old).status = .approved then some (f old) else none
      else approvedAt rows key := by
  rw [approvedAt_eq (keys_write f hkey hkeys), Tables.find_write hkey]
  by_cases heq : key = written
  · rw [if_pos heq, if_pos heq.symm, hfound, Option.map_some, Option.filter_some]
    simp only [decide_eq_true_eq]
  · rw [if_neg heq, if_neg (Ne.symm heq), approvedAt_eq hkeys]

/-- What is approved after a row under a new key. -/
theorem approvedAt_append (hkeys : (rows.map WorkflowAgentAssignment.key).Nodup)
    (hstatus : new.status = .approved)
    (hnew : Tables.find WorkflowAgentAssignment.key rows new.key = none) :
    approvedAt (rows ++ [new]) key = if new.key = key then some new else approvedAt rows key := by
  rw [approvedAt_eq (Tables.nodup_append hkeys hnew), Tables.find_append hnew]
  by_cases heq : key = new.key
  · rw [if_pos heq, if_pos heq.symm, Option.filter_some, if_pos (decide_eq_true hstatus)]
  · rw [if_neg heq, if_neg (Ne.symm heq), approvedAt_eq hkeys]

/-! ## Steps -/

/-- A step that writes an entry to the journal, and what the entry says to the table. -/
theorem Grows.snoc (entry : Entry) (hentry : Sound s → entry.Justified s.journal)
    (hjournal : t.journal = s.journal ++ [entry]) (hplan : t.planEntries = s.planEntries)
    (hkeys : Sound s → (t.assignments.map WorkflowAgentAssignment.key).Nodup)
    (happroved : Sound s → ∀ key, approvedAt t.assignments key =
      stand Entry.write key (approvedAt s.assignments key) entry) : Grows s t where
  sound hs :=
    { keys := hkeys hs
      approved := fun key => by rw [happroved hs, hjournal, standing_snoc, hs.approved]
      recorded := by
        rw [hjournal]
        exact hs.recorded.snoc (hentry hs) }
  journal := by
    rw [hjournal]
    exact List.prefix_append _ _
  planned key row h := by
    rw [Store.planEntry, hplan]
    exact h

/-- A step that writes an entry that says nothing to the table. -/
theorem Grows.record (hwrite : entry.write = none) (hentry : Sound s → entry.Justified s.journal) :
    Grows s (s.record entry) :=
  .snoc entry hentry rfl rfl Sound.keys fun _ _ => (stand_of_none hwrite).symm

theorem Grows.records (f : Records → Records) : Grows s { s with records := f s.records } where
  sound hs := ⟨hs.keys, hs.approved, hs.recorded⟩
  journal := List.prefix_rfl
  planned _ _ h := h

/-- A row that replaces another one is approved as the new one is. -/
theorem Approval.replaced {before : List Entry} (h : Approval before session context new)
    (hkey : old.key = new.key) : Approval before session context (new.replaced old) where
  human := h.human
  organization := hkey ▸ h.organization
  approvalRef := h.approvalRef
  capability := hkey ▸ h.capability
  eligible := hkey ▸ h.eligible

theorem Store.approve_grows (hnew : Sound s → Approval s.journal session context new)
    (hstatus : new.status = .approved) : Grows s (s.approve session context new).2 := by
  unfold Store.approve
  split
  · exact Grows.refl s
  · split
    · rename_i old hfound
      have hkey := (Tables.find_some hfound).2
      refine .snoc (.approved session context (new.replaced old))
        (fun hs => (hnew hs).replaced hkey) rfl rfl
        (fun hs => keys_write new.replaced (fun _ => rfl) hs.keys) fun hs key => ?_
      refine (approvedAt_write new.replaced (fun _ => rfl) hs.keys hfound).trans ?_
      rw [if_pos (show (new.replaced old).status = .approved from rfl), ← hkey]
      rfl
    · rename_i hfound
      split
      · exact Grows.refl s
      · exact .snoc (.approved session context new) hnew rfl rfl
          (fun hs => Tables.nodup_append hs.keys hfound) fun hs _ =>
            approvedAt_append hs.keys hstatus hfound

theorem Store.revoke_grows (hhuman : context.human?.isSome)
    (horganization : key.organizationId = context.organizationId) :
    Grows s (s.revoke session context key).2 := by
  unfold Store.revoke
  split
  · exact Grows.refl s
  · rename_i assignment happroved
    refine .snoc (.revoked session context key) (fun _ => ⟨hhuman, horganization⟩) rfl rfl
      (fun hs => keys_write _ (fun _ => rfl) hs.keys) fun hs written => ?_
    rw [approvedAt_eq hs.keys] at happroved
    exact approvedAt_write _ (fun _ => rfl) hs.keys (Option.eq_some_of_filter_eq_some happroved)

theorem Store.bindPlan_grows (new : WorkflowExecutionPlanEntry) : Grows s (s.bindPlan new).2 := by
  unfold Store.bindPlan
  split
  · exact Grows.refl s
  · split
    · exact Grows.refl s
    · exact ⟨fun hs => ⟨hs.keys, hs.approved, hs.recorded⟩, List.prefix_rfl, fun _ _ h =>
        Tables.find_append_of_some h⟩

end Workforce
