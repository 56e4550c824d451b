import VitoPlatform.Persistence.Calls
import VitoPlatform.Tasks.Services

/-!
# Assignments and completion

A task is assigned to a user or to a digital employee, never to both. It is as the last request that
mentions its assignment has left it, and it is completed exactly if it has a time of completion,
provided that no update writes an assignment back that has changed since the update has read it,
and none completes or reopens a task.
-/

namespace Tasks

open Text Concurrent Services Services.Steps

def UpdateTaskDto.mentionsAssignment (dto : UpdateTaskDto) : Bool :=
  dto.assignedUserId ≠ .absent ∨ dto.assignedDigitalEmployeeId ≠ .absent

/-- The assignment of a task by a request that mentions it. -/
def AuditRecord.assigned (id : Str) : AuditRecord → Option Assignment
  | .created entityId _ assignment => if entityId = id then some assignment else none
  | .updated entityId changes resultingAssignment =>
      if entityId = id ∧ changes.mentionsAssignment then some resultingAssignment else none
  | .completed _ => none

def lastAssigned (audit : List AuditRecord) (id : Str) : Option Assignment :=
  (audit.filterMap (AuditRecord.assigned id)).getLast?

/-- A request that sets one of the fields, and does not mention the other, gives that assignee. -/
def Exactly (changes : UpdateTaskDto) (resulting : Assignment) : Prop :=
  (∀ userId, changes.assignedUserId = .value userId →
    changes.assignedDigitalEmployeeId = .absent → resulting = ⟨some userId, none⟩) ∧
  ∀ digitalEmployeeId, changes.assignedDigitalEmployeeId = .value digitalEmployeeId →
    changes.assignedUserId = .absent → resulting = ⟨none, some digitalEmployeeId⟩

/-- What holds whatever the calls do. -/
structure Sound (s : Store) : Prop where
  keyed : (s.tasks.map Task.id).Nodup
  exclusive : ∀ task ∈ s.tasks, task.assignment.xorCheck = true
  exactly : ∀ id changes resulting, .updated id changes resulting ∈ s.audit →
    Exactly changes resulting

/-- What holds of a task as long as the updates are timely. -/
structure Kept (audit : List AuditRecord) (task : Task) : Prop where
  assignment : lastAssigned audit task.id = some task.assignment
  completed : task.status = .completed ↔ task.completedAt.isSome = true

def AllKept (s : Store) : Prop := ∀ task ∈ s.tasks, Kept s.audit task

/-- The session has read the assignment that the task has now. -/
def Fresh (s : Store) (session : Nat) (id : Str) : Prop :=
  ∀ read ∈ s.reads, read.1 = session → read.2.id = id →
    ∀ task, Tables.find Task.id s.tasks id = some task → task.assignment = read.2.assignment

/-- A step that commits an update: a request that does not mention the assignment finds the one
that has been read, and none that sets the status completes the task or reopens it. -/
def Timely (i : Nat) (s t : Store) : Prop :=
  ∀ id changes resulting, t.audit = s.audit ++ [.updated id changes resulting] →
    (changes.mentionsAssignment = false → Fresh s i id) ∧
      ∀ status, changes.status = .value status →
        ∀ task, Tables.find Task.id s.tasks id = some task →
          (status = .completed ↔ task.status = .completed)

/-- What one step of a call does. -/
inductive Does (i : Nat) (s t : Store) : Prop
  | nothing : t = s → Does i s t
  | read (task : Task) : t = { s with reads := s.reads ++ [(i, task)] } → Does i s t
  | created (task : Task) (title : Str) :
      Tables.find Task.id s.tasks task.id = none → task.assignment.xorCheck = true →
        task.status ≠ .completed → task.completedAt = none →
          t = { s with
            tasks := s.tasks ++ [task]
            audit := s.audit ++ [.created task.id title task.assignment] } → Does i s t
  | updated (id : Str) (changes : UpdateTaskDto) (target : Assignment) (read : Task) :
      (i, read) ∈ s.reads → read.id = id →
        resolveAssignmentTarget read.assignment changes = .ok target →
          target.xorCheck = true →
            t = { s with
              tasks := Tables.write Task.id s.tasks id (changes.apply target)
              audit := s.audit ++ [.updated id changes target] } → Does i s t
  | completed (id : Str) (now : Int) :
      t = { s with
        tasks := Tables.write Task.id s.tasks id (Task.complete now)
        audit := s.audit ++ [.completed id] } → Does i s t

section Resolve

variable {existing target : Assignment} {dto : UpdateTaskDto}

/-- Nothing changes for a request that does not mention the assignment. -/
theorem resolve_unmentioned (h : resolveAssignmentTarget existing dto = .ok target)
    (hnot : dto.mentionsAssignment = false) : target = existing := by
  obtain ⟨huser, hemployee⟩ := not_or.mp (of_decide_eq_false hnot)
  rw [not_not] at huser hemployee
  unfold resolveAssignmentTarget at h
  rw [huser, hemployee] at h
  simp only [DtoField.value?, DtoField.setNullable_absent, Option.isSome_none, Bool.false_and,
    Bool.false_eq_true, if_false] at h
  split at h
  · cases h
  · exact (Except.ok.inj h).symm

theorem resolve_exactly (h : resolveAssignmentTarget existing dto = .ok target) :
    Exactly dto target := by
  constructor
  · intro userId huser hemployee
    unfold resolveAssignmentTarget at h
    rw [huser, hemployee] at h
    simp [DtoField.value?] at h
    exact h.symm
  · intro digitalEmployeeId hemployee huser
    unfold resolveAssignmentTarget at h
    rw [huser, hemployee] at h
    simp [DtoField.value?] at h
    exact h.symm

end Resolve

section Steps

variable {i : Nat} {s t : Store} {id : Str}

theorem lastAssigned_append (audit : List AuditRecord) (record : AuditRecord) :
    lastAssigned (audit ++ [record]) id = (record.assigned id).or (lastAssigned audit id) := by
  unfold lastAssigned
  rw [List.filterMap_append, List.getLast?_append]
  cases h : record.assigned id with
  | none => simp [h]
  | some assignment => simp [h]

theorem lastAssigned_other {audit : List AuditRecord} {record : AuditRecord}
    (h : record.assigned id = none) : lastAssigned (audit ++ [record]) id = lastAssigned audit id := by
  rw [lastAssigned_append, h, Option.none_or]

theorem apply_id (changes : UpdateTaskDto) (target : Assignment) (task : Task) :
    (changes.apply target task).id = task.id := rfl

theorem complete_id (now : Int) (task : Task) : (task.complete now).id = task.id := rfl

theorem Does.sound (h : Does i s t) (hs : Sound s) : Sound t := by
  cases h with
  | nothing ht => rw [ht]; exact hs
  | read task ht => rw [ht]; exact ⟨hs.keyed, hs.exclusive, hs.exactly⟩
  | created task title hnew hxor _ _ ht =>
      subst ht
      refine ⟨Tables.nodup_append hs.keyed hnew, ?_, fun id changes resulting hmem => ?_⟩
      · exact List.forall_mem_append.mpr ⟨hs.exclusive, List.forall_mem_singleton.mpr hxor⟩
      · rcases List.mem_append.mp hmem with hold | hnew
        · exact hs.exactly id changes resulting hold
        · cases List.mem_singleton.mp hnew
  | updated id changes target read _ _ htarget hxor ht =>
      subst ht
      refine ⟨?_, fun task htask => ?_, fun id' changes' resulting hmem => ?_⟩
      · rw [Tables.map_key_write (apply_id changes target)]
        exact hs.keyed
      · obtain ⟨old, hold, rfl⟩ := Tables.mem_write.mp htask
        split
        · exact hxor
        · exact hs.exclusive old hold
      · rcases List.mem_append.mp hmem with hold | hnew
        · exact hs.exactly id' changes' resulting hold
        · cases List.mem_singleton.mp hnew
          exact resolve_exactly htarget
  | completed id now ht =>
      subst ht
      refine ⟨?_, fun task htask => ?_, fun id' changes' resulting hmem => ?_⟩
      · rw [Tables.map_key_write (complete_id now)]
        exact hs.keyed
      · obtain ⟨old, hold, rfl⟩ := Tables.mem_write.mp htask
        split
        · exact hs.exclusive old hold
        · exact hs.exclusive old hold
      · rcases List.mem_append.mp hmem with hold | hnew
        · exact hs.exactly id' changes' resulting hold
        · cases List.mem_singleton.mp hnew

/-- A record that does not assign the task leaves it as it is. -/
theorem Kept.append {audit : List AuditRecord} {task : Task} (h : Kept audit task)
    (record : AuditRecord) (hother : record.assigned task.id = none) :
    Kept (audit ++ [record]) task :=
  ⟨(lastAssigned_other hother).trans h.assignment, h.completed⟩

/-- The row of a timely update. -/
theorem Kept.update {audit : List AuditRecord} {task : Task} {changes : UpdateTaskDto}
    {target : Assignment} (h : Kept audit task)
    (htarget : changes.mentionsAssignment = false → target = task.assignment)
    (hstatus : ∀ status, changes.status = .value status →
      (status = .completed ↔ task.status = .completed)) :
    Kept (audit ++ [.updated task.id changes target]) (changes.apply target task) := by
  refine ⟨?_, ?_⟩
  · rw [lastAssigned_append, apply_id, AuditRecord.assigned]
    cases hmentions : changes.mentionsAssignment with
    | true => rw [if_pos ⟨rfl, rfl⟩, Option.some_or]; rfl
    | false =>
        rw [if_neg (fun hboth => absurd hboth.2 Bool.false_ne_true), Option.none_or, h.assignment,
          ← htarget hmentions]
        rfl
  · show changes.status.set task.status = .completed ↔ task.completedAt.isSome = true
    cases hset : changes.status with
    | absent | null => exact h.completed
    | value status => exact (hstatus status hset).trans h.completed

theorem Does.kept (h : Does i s t) (hs : Sound s) (hkept : AllKept s) (htimely : Timely i s t) :
    AllKept t := by
  cases h with
  | nothing ht => rw [ht]; exact hkept
  | read task ht => rw [ht]; exact hkept
  | created task title hnew _ hopen hdate ht =>
      subst ht
      refine List.forall_mem_append.mpr ⟨fun old hold => ?_, List.forall_mem_singleton.mpr ?_⟩
      · exact (hkept old hold).append _
          (if_neg fun hsame => Tables.find_none_iff.mp hnew old hold hsame.symm)
      · refine ⟨?_, ?_⟩
        · rw [lastAssigned_append, AuditRecord.assigned, if_pos rfl, Option.some_or]
        · rw [hdate]
          exact ⟨fun hcompleted => absurd hcompleted hopen, nofun⟩
  | updated id changes target read hread hid htarget _ ht =>
      obtain ⟨hfresh, hstatus⟩ := htimely id changes target (by rw [ht])
      subst ht
      intro task htask
      obtain ⟨old, hold, rfl⟩ := Tables.mem_write.mp htask
      have hkeptOld := hkept old hold
      split
      · rename_i hsame
        subst hsame
        have hfind := Tables.find_of_mem hs.keyed hold
        refine hkeptOld.update (fun hnot => ?_) fun status hset => hstatus status hset old hfind
        rw [resolve_unmentioned htarget hnot]
        exact (hfresh hnot _ hread rfl hid old hfind).symm
      · rename_i hother
        exact hkeptOld.append _ (if_neg fun hboth => hother hboth.1.symm)
  | completed id now ht =>
      subst ht
      intro task htask
      obtain ⟨old, hold, rfl⟩ := Tables.mem_write.mp htask
      have hkeptOld := (hkept old hold).append (.completed id) rfl
      split
      · exact ⟨hkeptOld.assignment, ⟨fun _ => rfl, fun _ => rfl⟩⟩
      · exact hkeptOld

end Steps

/-- The steps of all calls. -/
def taskSteps : Steps Store where
  inv := Sound
  does := Does
  rely _ s t := ∃ i, Does i s t
  records := Does
  refl _ _ := .nothing rfl
  keeps hdoes hs := hdoes.sound hs
  between hbetween hs := by
    rcases hbetween with ⟨_, hdoes⟩ | hdoes
    · exact hdoes.sound hs
    · exact hdoes.sound hs

section Programs

variable {i : Nat} {s : Store} {id organizationId : Str} {α : Type} {post : α → Store → Prop}

theorem Does.mem_reads {t : Store} {entry : Nat × Task} (h : Does i s t) (hmem : entry ∈ s.reads) :
    entry ∈ t.reads := by
  cases h with
  | nothing ht => rw [ht]; exact hmem
  | read task ht => rw [ht]; exact List.mem_append_left _ hmem
  | created _ _ _ _ _ _ ht => rw [ht]; exact hmem
  | updated _ _ _ _ _ _ _ _ ht => rw [ht]; exact hmem
  | completed _ _ ht => rw [ht]; exact hmem

theorem reads_stable {entry : Nat × Task} : taskSteps.Stable i fun s => entry ∈ s.reads := by
  rintro s t - hmem (⟨_, hdoes⟩ | hdoes)
  · exact hdoes.mem_reads hmem
  · exact hdoes.mem_reads hmem

/-- A task that has been read. -/
theorem findByIdOrFail_bind {k : Task → Program Store α} (hs : Sound s)
    (next : ∀ task t, Sound t → task.id = id → (i, task) ∈ t.reads →
      taskSteps.Safe i (k task) t post) :
    taskSteps.Safe i (findByIdOrFail i organizationId id >>= k) s post := by
  refine change_bind (fun _ => True) stable_true hs trivial fun t c ht _ => ?_
  dsimp only
  cases hfound : t.tasks.find? fun task =>
      decide (task.id = id ∧ task.organizationId = organizationId) with
  | none => exact ⟨.nothing rfl, fun _ ha => nomatch ha⟩
  | some task =>
      have hid := List.find?_some hfound
      rw [decide_eq_true_eq] at hid
      refine ⟨.read task rfl, ?_⟩
      rintro _ ⟨⟩ hafter
      exact next task _ hafter hid.1 (List.mem_append_right _ (List.mem_singleton_self _))

theorem assertBelongs_safe {members : Store → List Member} {reference : Option Str}
    {error : HttpError} (A : Store → Prop) (stable : taskSteps.Stable i A) (hs : Sound s)
    (hA : A s) :
    taskSteps.Safe i (assertBelongs members organizationId reference error) s fun _ t =>
      Sound t ∧ A t := by
  cases reference with
  | none => exact ends A stable hs hA fun t ht hA => ⟨ht, hA⟩
  | some member =>
      refine query_bind A stable hs hA fun t ht hA => ?_
      rw [← Proc.bind_done (Proc.require _ _)]
      exact require_bind ht fun _ => ends A stable ht hA fun t ht hA => ⟨ht, hA⟩

theorem create_safe {dto : CreateTaskDto} (hs : Sound s) :
    taskSteps.Safe i (create organizationId dto) s fun _ _ => True := by
  refine require_bind hs fun hxor => ?_
  refine part_bind (assertBelongs_safe (fun _ => True) stable_true hs trivial) fun _ t ⟨ht, _⟩ => ?_
  refine part_bind (assertBelongs_safe (fun _ => True) stable_true ht trivial) fun _ t ⟨ht, _⟩ => ?_
  refine part_bind (assertBelongs_safe (fun _ => True) stable_true ht trivial) fun _ t ⟨ht, _⟩ => ?_
  refine change_last (fun _ => True) stable_true ht trivial fun t c ht _ => ?_
  split
  · exact .nothing rfl
  · unfold Store.insertTask
    split
    · rename_i hadmits
      rw [Bool.and_eq_true, Option.isNone_iff_eq_none] at hadmits
      exact .created (dto.task organizationId c.id) dto.title hadmits.1 hxor (fun h => by cases h) rfl rfl
    · exact .nothing rfl

/-- A row that is written satisfies the constraint. -/
theorem xorCheck_of_admits {task : Task} (h : s.admits task = true) :
    task.assignment.xorCheck = true := by
  unfold Store.admits at h
  simp only [Bool.and_eq_true] at h
  exact h.1.1.1

theorem update_safe {dto : UpdateTaskDto} (hs : Sound s) :
    taskSteps.Safe i (update i organizationId id dto) s fun _ _ => True := by
  refine findByIdOrFail_bind hs fun existing t ht hid hread => ?_
  cases htarget : resolveAssignmentTarget existing.assignment dto with
  | error error => exact fails ht
  | ok target =>
      refine part_bind (assertBelongs_safe _ reads_stable ht hread) fun _ t ⟨ht, hread⟩ => ?_
      refine part_bind (assertBelongs_safe _ reads_stable ht hread) fun _ t ⟨ht, hread⟩ => ?_
      refine change_last _ reads_stable ht hread fun t c ht hread => ?_
      split
      · unfold Store.updateTask
        split
        · exact .nothing rfl
        · split
          · rename_i hadmits
            exact .updated id dto target existing hread hid htarget
              (xorCheck_of_admits hadmits) rfl
          · exact .nothing rfl
      · exact .nothing rfl

theorem complete_safe (hs : Sound s) :
    taskSteps.Safe i (complete i organizationId id) s fun _ _ => True := by
  refine findByIdOrFail_bind hs fun task t ht _ _ => ?_
  split
  · exact returns fun _ => trivial
  · refine change_last (fun _ => True) stable_true ht trivial fun t c ht _ => ?_
    unfold Store.updateTask
    split
    · exact .nothing rfl
    · split
      · exact .completed id c.now rfl
      · exact .nothing rfl

theorem program_safe (call : Call) (hs : Sound s) :
    taskSteps.Safe i (call.program i) s fun _ _ => True := by
  cases call with
  | create => exact discard (create_safe hs)
  | update => exact discard (update_safe hs)
  | complete => exact discard (complete_safe hs)

end Programs

section Runs

variable {calls : List Call} {store : Store} {moves : List Move}
variable {s : System Store Choice HttpError Unit}

/-- In a run whose updates are timely every task is as its requests have left it. -/
theorem tasks_stay (h : Run calls store moves s) (hsound : Sound store) (hkept : AllKept store)
    (htimely : ∀ m ∈ moves, Timely m.input.1 m.before.store m.after.store) :
    Sound s.store ∧ AllKept s.store := by
  have hdoes : MovesDo taskSteps moves := by
    refine run_does h (fun i j s t _ hdoes => ⟨i, hdoes⟩) (fun i p hp => ?_) hsound
    rw [programs, List.getElem?_mapIdx, Option.map_eq_some_iff] at hp
    obtain ⟨call, -, rfl⟩ := hp
    exact program_safe call hsound
  exact hdoes.induction (P := fun _ s => Sound s ∧ AllKept s) h ⟨hsound, hkept⟩
    fun past m hbefore hm hsound hdoes =>
      ⟨hdoes.sound hsound, hdoes.kept hsound hbefore.2 (htimely m hm)⟩

end Runs

section Examples

private def emptyStore : Store where
  tasks := []
  users := [⟨"user".toList, "org".toList⟩]
  digitalEmployees := []
  audit := []
  reads := []

private def newTask : Call :=
  .create "org".toList ⟨"Call back".toList, none, .absent, none, none, none, none⟩

private def changeTask (title : DtoField Str) (status : DtoField TaskStatus) (assignedUserId : DtoField Str) :
    Call :=
  .update "org".toList "task".toList
    ⟨title, .absent, status, .absent, assignedUserId, .absent, .absent⟩

private def runOf (calls : List Call) (counts : List (Nat × Nat)) :
    List Move × System Store Choice HttpError Unit :=
  Machine.execute System.step ⟨emptyStore, programs calls⟩
    (counts.flatMap fun (session, count) =>
      List.replicate count (session, ⟨false, "task".toList, 7⟩))

private theorem emptyStore_sound : Sound emptyStore :=
  ⟨by decide, fun _ h => (List.not_mem_nil h).elim, fun _ _ _ h => (List.not_mem_nil h).elim⟩

private theorem emptyStore_allKept : AllKept emptyStore := fun _ h => (List.not_mem_nil h).elim

/-- An update that finds the assignment that has been read, and sets no status but an open one of
open tasks. -/
private def timelyUpdate (s : Store) (session : Nat) : AuditRecord → Bool
  | .updated _ changes _ =>
      (s.reads.all fun read => read.1 ≠ session ∨ changes.mentionsAssignment ∨
        s.tasks.all fun task => task.assignment = read.2.assignment) &&
      changes.status ≠ .value .completed && s.tasks.all fun task => task.status ≠ .completed
  | _ => true

private theorem timely_of_update {i : Nat} {s t : Store}
    (h : ∀ record ∈ t.audit.drop s.audit.length, timelyUpdate s i record = true) :
    Timely i s t := by
  intro id changes resulting haudit
  have hrecord := h (.updated id changes resulting)
    (by rw [haudit, List.drop_left]; exact List.mem_singleton_self _)
  simp only [timelyUpdate, Bool.and_eq_true, List.all_eq_true, decide_eq_true_eq] at hrecord
  obtain ⟨⟨hfresh, hnew⟩, hold⟩ := hrecord
  refine ⟨fun hnot read hread hsession _ task htask => ?_, fun status hset task htask => ?_⟩
  · rcases hfresh read hread with hother | hmentions | hsame
    · exact absurd hsession hother
    · cases hnot.symm.trans hmentions
    · exact hsame task (Tables.find_some htask).1
  · refine ⟨fun hcompleted => ?_, fun hcompleted => ?_⟩
    · exact absurd (hset.trans (congrArg DtoField.value hcompleted)) hnew
    · exact absurd hcompleted (hold task (Tables.find_some htask).1)

/-- A task is assigned, gets another title, and is completed. -/
private def workedOn : List Move × System Store Choice HttpError Unit :=
  runOf [newTask, changeTask .absent .absent (.value "user".toList),
    changeTask (.value "Call".toList) (.value .inProgress) .absent,
    .complete "org".toList "task".toList] [(0, 1), (1, 3), (2, 2), (3, 2)]

theorem tasks_stay_workedOn : Sound workedOn.2.store ∧ AllKept workedOn.2.store := by
  refine tasks_stay (Machine.run_execute _ _ _) emptyStore_sound emptyStore_allKept ?_
  have hmoves : ∀ m ∈ workedOn.1, ∀ record ∈ m.after.store.audit.drop m.before.store.audit.length,
      timelyUpdate m.before.store m.input.1 record = true := by
    decide
  exact fun m hm => timely_of_update (hmoves m hm)

/-- Another title undoes an assignment that has come after its read. -/
private def retitled : List Move × System Store Choice HttpError Unit :=
  runOf [newTask, changeTask (.value "Call".toList) .absent .absent,
    changeTask .absent .absent (.value "user".toList)] [(0, 1), (1, 1), (2, 3), (1, 1)]

/-- A task is completed by an update. -/
private def updatedToCompleted : List Move × System Store Choice HttpError Unit :=
  runOf [newTask, changeTask .absent (.value .completed) .absent] [(0, 1), (1, 2)]

theorem not_tasks_stay :
    (¬ ∀ calls store moves s, Run calls store moves s → Sound store → AllKept store →
      ∀ task ∈ s.store.tasks, lastAssigned s.store.audit task.id = some task.assignment) ∧
    ¬ ∀ calls store moves s, Run calls store moves s → Sound store → AllKept store →
      ∀ task ∈ s.store.tasks, task.status = .completed ↔ task.completedAt.isSome = true := by
  refine ⟨fun h => ?_, fun h => ?_⟩
  · have hkept := h _ emptyStore _ retitled.2 (Machine.run_execute _ _ _) emptyStore_sound
      emptyStore_allKept
    revert hkept
    decide
  · have hkept := h _ emptyStore _ updatedToCompleted.2 (Machine.run_execute _ _ _)
      emptyStore_sound emptyStore_allKept
    revert hkept
    decide

end Examples

end Tasks
