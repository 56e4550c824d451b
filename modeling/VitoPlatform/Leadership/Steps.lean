import VitoPlatform.Leadership.Transactions
import VitoPlatform.Persistence.Calls

/-!
# What the statements of a transaction do

Until it ends a transaction only takes locks and reads. When it commits, the workforces that it
clears are those that were default ones when it looked them up, except those that have become so
since (`Cleared`), and of the employee it assigns it has read the workforces (`Admitted`).
-/

namespace Leadership

open Text Concurrent Services Services.Steps
open Structure (WorkforceInstance DigitalEmployee CreateWorkforceInstanceDto
  UpdateWorkforceInstanceDto refers)

/-! ## Writes -/

namespace Writes

variable (writes : Writes)

/-- The workforce that becomes the default one. -/
def madeDefault : Option Str :=
  match writes.workforce with
  | some (.insert workforce) => if workforce.isDefault then some workforce.id else none
  | some (.update id dto) => if dto.isDefault = .value true then some id else none
  | none => none

/-- The workforce that gets an orchestrator, and the orchestrator. -/
def appointed : Option (Str × Str) :=
  match writes.workforce with
  | some (.insert workforce) => workforce.orchestratorEmployeeId.map fun e => (workforce.id, e)
  | some (.update id dto) => dto.orchestratorEmployeeId.value?.map fun e => (id, e)
  | none => none

def inserted : List WorkforceInstance :=
  match writes.workforce with
  | some (.insert workforce) => [workforce]
  | _ => []

def clear (workforce : WorkforceInstance) : WorkforceInstance :=
  if workforce.id ∈ writes.cleared then { workforce with isDefault := false } else workforce

/-- What becomes of a row. -/
def change (workforce : WorkforceInstance) : WorkforceInstance :=
  match writes.workforce with
  | some (.update id dto) =>
      if (writes.clear workforce).id = id then dto.apply (writes.clear workforce)
      else writes.clear workforce
  | _ => writes.clear workforce

variable {writes} {workforces : List WorkforceInstance} {workforce old : WorkforceInstance}
variable {employeeId : Str}

theorem write_eq : writes.write workforces = workforces.map writes.change ++ writes.inserted := by
  unfold write change inserted
  cases writes.workforce with
  | none => simp [clear]
  | some write =>
      cases write with
      | insert => simp [clear]
      | update id dto => exact List.map_map.trans (List.append_nil _).symm

@[simp] theorem clear_id : (writes.clear old).id = old.id := by
  unfold clear
  split <;> rfl

@[simp] theorem clear_organizationId :
    (writes.clear old).organizationId = old.organizationId := by
  unfold clear
  split <;> rfl

@[simp] theorem clear_orchestratorEmployeeId :
    (writes.clear old).orchestratorEmployeeId = old.orchestratorEmployeeId := by
  unfold clear
  split <;> rfl

theorem of_clear_isDefault (h : (writes.clear old).isDefault = true) :
    old.isDefault = true ∧ old.id ∉ writes.cleared := by
  unfold clear at h
  split at h
  · cases h
  · exact ⟨h, ‹_›⟩

@[simp] theorem change_id : (writes.change old).id = old.id := by
  unfold change
  split
  · split
    · exact clear_id
    · exact clear_id
  · exact clear_id

@[simp] theorem change_organizationId :
    (writes.change old).organizationId = old.organizationId := by
  unfold change
  split
  · split
    · exact clear_organizationId
    · exact clear_organizationId
  · exact clear_organizationId

theorem mem_write (h : workforce ∈ writes.write workforces) :
    writes.workforce = some (.insert workforce) ∨
      ∃ old ∈ workforces, workforce = writes.change old := by
  rw [write_eq, List.mem_append, List.mem_map] at h
  obtain ⟨old, hold, rfl⟩ | hinserted := h
  · exact .inr ⟨old, hold, rfl⟩
  · refine .inl ?_
    unfold inserted at hinserted
    split at hinserted
    · rename_i row hrow
      rw [hrow, List.mem_singleton.mp hinserted]
    · cases hinserted

theorem change_mem_write (h : old ∈ workforces) :
    writes.change old ∈ writes.write workforces := by
  rw [write_eq]
  exact List.mem_append_left _ (List.mem_map_of_mem h)

/-- A default workforce has become so, or it was and has not been cleared. -/
theorem isDefault_of_mem_write (h : workforce ∈ writes.write workforces)
    (hdefault : workforce.isDefault = true) :
    writes.madeDefault = some workforce.id ∨
      ∃ old ∈ workforces, old.id = workforce.id ∧
        old.organizationId = workforce.organizationId ∧ old.isDefault = true ∧
          old.id ∉ writes.cleared := by
  obtain hinsert | ⟨old, hold, rfl⟩ := mem_write h
  · left
    rw [madeDefault, hinsert]
    exact if_pos hdefault
  · have hkept (hclear : (writes.clear old).isDefault = true) :
        writes.madeDefault = some (writes.change old).id ∨
          ∃ old' ∈ workforces, old'.id = (writes.change old).id ∧
            old'.organizationId = (writes.change old).organizationId ∧ old'.isDefault = true ∧
              old'.id ∉ writes.cleared := by
      obtain ⟨hwas, hnot⟩ := of_clear_isDefault hclear
      exact .inr ⟨old, hold, change_id.symm, change_organizationId.symm, hwas, hnot⟩
    unfold change at hdefault
    split at hdefault
    · rename_i id dto hupdate
      split at hdefault
      · rename_i hid
        cases hfield : dto.isDefault with
        | value made =>
            have hmade : made = true := by
              simpa [UpdateWorkforceInstanceDto.apply, hfield] using hdefault
            left
            rw [madeDefault, hupdate, change_id, ← hid, clear_id]
            exact if_pos (hfield.trans (congrArg _ hmade))
        | absent | null =>
            refine hkept ?_
            simpa [UpdateWorkforceInstanceDto.apply, DtoField.set, DtoField.value?, hfield]
              using hdefault
      · exact hkept hdefault
    · exact hkept hdefault

/-- The orchestrator of a workforce has been appointed, or it was so. -/
theorem orchestrator_of_mem_write (h : workforce ∈ writes.write workforces)
    (horchestrator : workforce.orchestratorEmployeeId = some employeeId) :
    writes.appointed = some (workforce.id, employeeId) ∨
      ∃ old ∈ workforces, old.id = workforce.id ∧
        old.orchestratorEmployeeId = some employeeId := by
  obtain hinsert | ⟨old, hold, rfl⟩ := mem_write h
  · left
    rw [appointed, hinsert]
    exact congrArg (Option.map _) horchestrator
  · have hkept (hclear : (writes.clear old).orchestratorEmployeeId = some employeeId) :
        writes.appointed = some ((writes.change old).id, employeeId) ∨
          ∃ old' ∈ workforces, old'.id = (writes.change old).id ∧
            old'.orchestratorEmployeeId = some employeeId :=
      .inr ⟨old, hold, change_id.symm, clear_orchestratorEmployeeId.symm.trans hclear⟩
    unfold change at horchestrator
    split at horchestrator
    · rename_i id dto hupdate
      split at horchestrator
      · rename_i hid
        obtain hvalue | ⟨-, hwas⟩ := DtoField.setNullable_eq_some horchestrator
        · left
          rw [appointed, hupdate, change_id, ← hid, clear_id]
          exact congrArg (Option.map _) hvalue
        · exact hkept hwas
      · exact hkept horchestrator
    · exact hkept horchestrator

theorem nodup_write (h : (workforces.map WorkforceInstance.id).Nodup)
    (hfresh : ∀ row, writes.workforce = some (.insert row) → ∀ old ∈ workforces, old.id ≠ row.id) :
    ((writes.write workforces).map WorkforceInstance.id).Nodup := by
  have hids : (workforces.map writes.change).map WorkforceInstance.id =
      workforces.map WorkforceInstance.id := by
    rw [List.map_map]
    exact List.map_congr_left fun _ _ => change_id
  rw [write_eq]
  unfold inserted
  split
  · rename_i row hrow
    refine Tables.nodup_append (hids ▸ h) (Tables.find_none_iff.mpr fun changed hmem => ?_)
    obtain ⟨old, hold, rfl⟩ := List.mem_map.mp hmem
    rw [change_id]
    exact hfresh row hrow old hold
  · rw [List.append_nil, hids]
    exact h

end Writes

/-! ## Steps -/

variable {i j : Nat} {s t : Store} {id organizationId employeeId : Str}

/-- A workforce has become the default one of an organization. -/
def MadeDefault (history : List HistoryEntry) (organizationId id : Str) : Prop :=
  ∃ session writes, .committed session writes ∈ history ∧
    writes.organizationId = organizationId ∧ writes.madeDefault = some id

/-- An employee has become the orchestrator of a workforce. -/
def Appointed (history : List HistoryEntry) (employeeId id : Str) : Prop :=
  ∃ session writes, .committed session writes ∈ history ∧
    writes.appointed = some (id, employeeId)

/-- The default workforces, but for the ones that have become so since a call began to clear them,
have been cleared, or remain to be looked at. -/
def Cleared (i : Nat) (organizationId : Str) (except : Option Str) (remaining cleared : List Str)
    (s : Store) : Prop :=
  ∃ before after, s.history = before ++ .clearing i :: after ∧
    ∀ workforce ∈ s.workforces, workforce.organizationId = organizationId →
      workforce.isDefault = true → except ≠ some workforce.id →
        workforce.id ∈ remaining ∨ workforce.id ∈ cleared ∨
          MadeDefault after organizationId workforce.id

/-- The workforces of an employee have been read: those it leads, or the one it belongs to. -/
def Reads (s : Store) (employeeId : Str) (workforceIds : List Str) : Prop :=
  (∀ workforce ∈ s.workforces, workforce.orchestratorEmployeeId = some employeeId →
    workforce.id ∈ workforceIds) ∨
  ∃ employee ∈ s.employees, employee.id = employeeId ∧
    workforceIds = employee.workforceInstanceId.toList

/-- A statement of a transaction that is still open, or a read before it. -/
inductive Quiet (i : Nat) (s t : Store) : Prop
  | nothing : t = s → Quiet i s t
  | locked (locks : List Lock) :
      s.blocked i locks = false → t = s.acquire i locks → Quiet i s t
  | read (employeeId : Str) (workforceIds : List Str) :
      Reads s employeeId workforceIds → t = s.record (.read i employeeId workforceIds) →
        Quiet i s t
  | clearing : t = s.record (.clearing i) → Quiet i s t

/-- What a transaction commits. -/
structure Admitted (i : Nat) (s : Store) (writes : Writes) : Prop where
  fresh : ∀ workforce, writes.workforce = some (.insert workforce) →
    (i, .workforce workforce.id) ∈ s.locks ∧ ∀ old ∈ s.workforces, old.id ≠ workforce.id
  organization : ∀ id, writes.madeDefault = some id →
    ∀ workforce ∈ writes.write s.workforces, workforce.id = id →
      workforce.organizationId = writes.organizationId
  cleared : ∀ id, writes.madeDefault = some id →
    Cleared i writes.organizationId (some id) [] writes.cleared s
  assigns : ∀ id employeeId, writes.appointed = some (id, employeeId) →
    writes.assigned = some (employeeId, some id)
  read : ∀ employeeId target, writes.assigned = some (employeeId, target) →
    ∃ workforceIds, .read i employeeId workforceIds ∈ s.history ∧
      (writes.workforce.isSome ∨ target = none → ∀ id ∈ workforceIds, target = some id)

/-- What one step of a call does. -/
inductive Does (i : Nat) (s t : Store) : Prop
  | quiet : Quiet i s t → Does i s t
  | released : t = s.release i → Does i s t
  | committed (writes : Writes) : Admitted i s writes → t = s.commit i writes → Does i s t

/-- No lock is held twice. -/
def Apart (s : Store) : Prop :=
  ∀ i j lock, (i, lock) ∈ s.locks → (j, lock) ∈ s.locks → i = j

theorem blocked_eq_false {locks : List Lock} (h : s.blocked i locks = false) :
    ∀ j lock, (j, lock) ∈ s.locks → lock ∈ locks → j = i := by
  intro j lock hmem hlock
  simp only [Store.blocked, List.any_eq_false, decide_eq_true_eq, not_and] at h
  by_contra hne
  exact h _ hmem hne hlock

theorem blocked_of_append {locks more : List Lock} (h : s.blocked i (locks ++ more) = false) :
    s.blocked i locks = false := by
  simp only [Store.blocked, List.any_eq_false, decide_eq_true_eq, not_and] at h ⊢
  exact fun lock hmem hne hlock => h lock hmem hne (List.mem_append_left _ hlock)

theorem mem_acquire {locks : List Lock} {lock : Lock} :
    (j, lock) ∈ (s.acquire i locks).locks ↔ (j, lock) ∈ s.locks ∨ j = i ∧ lock ∈ locks := by
  simp [Store.acquire, eq_comm, and_comm]

theorem mem_release {lock : Lock} :
    (j, lock) ∈ (s.release i).locks ↔ (j, lock) ∈ s.locks ∧ j ≠ i := by
  simp [Store.release]

theorem Apart.release (h : Apart s) : Apart (s.release i) := fun j k lock hj hk =>
  h j k lock (mem_release.mp hj).1 (mem_release.mp hk).1

theorem Quiet.workforces (h : Quiet i s t) : t.workforces = s.workforces := by
  cases h with
  | nothing ht => rw [ht]
  | locked _ _ ht | read _ _ _ ht | clearing ht => exact ht ▸ rfl

theorem Quiet.employees (h : Quiet i s t) : t.employees = s.employees := by
  cases h with
  | nothing ht => rw [ht]
  | locked _ _ ht | read _ _ _ ht | clearing ht => exact ht ▸ rfl

theorem Quiet.holds {lock : Lock} (h : Quiet i s t) (hlock : (j, lock) ∈ s.locks) :
    (j, lock) ∈ t.locks := by
  cases h with
  | nothing ht | read _ _ _ ht | clearing ht => exact ht ▸ hlock
  | locked _ _ ht => exact ht ▸ mem_acquire.mpr (.inl hlock)

theorem Quiet.apart (h : Quiet i s t) (hs : Apart s) : Apart t := by
  cases h with
  | nothing ht | read _ _ _ ht | clearing ht =>
      rw [ht]
      exact hs
  | locked locks hfree ht =>
      subst ht
      intro j k lock hj hk
      obtain holds | ⟨hji, htakes⟩ := mem_acquire.mp hj
      · obtain hother | ⟨hki, htakes⟩ := mem_acquire.mp hk
        · exact hs j k lock holds hother
        · exact (blocked_eq_false hfree j lock holds htakes).trans hki.symm
      · obtain hother | ⟨hki, -⟩ := mem_acquire.mp hk
        · exact hji.trans (blocked_eq_false hfree k lock hother htakes).symm
        · exact hji.trans hki.symm

/-- The identifiers of the workforces are unique, and the locks exclude each other. -/
def Consistent (s : Store) : Prop := (s.workforces.map WorkforceInstance.id).Nodup ∧ Apart s

theorem Quiet.consistent (h : Quiet i s t) (hs : Consistent s) : Consistent t :=
  ⟨h.workforces ▸ hs.1, h.apart hs.2⟩

theorem Does.consistent (h : Does i s t) (hs : Consistent s) : Consistent t := by
  cases h with
  | quiet hquiet => exact hquiet.consistent hs
  | released ht =>
      rw [ht]
      exact ⟨hs.1, hs.2.release⟩
  | committed writes hadmitted ht =>
      rw [ht]
      exact ⟨Writes.nodup_write hs.1 fun row hrow => (hadmitted.fresh row hrow).2, hs.2.release⟩

/-- The steps of all calls. -/
def leadershipSteps : Services.Steps Store where
  inv := Consistent
  does := Does
  rely i s t := ∃ j, j ≠ i ∧ Does j s t
  records := Quiet
  refl _ _ := .quiet (.nothing rfl)
  keeps h hs := h.consistent hs
  between h hs := h.elim (fun ⟨_, _, hdoes⟩ => hdoes.consistent hs) fun hquiet =>
    hquiet.consistent hs

end Leadership
