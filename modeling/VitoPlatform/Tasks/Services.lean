import VitoPlatform.Library.Tables
import VitoPlatform.Persistence.Services

/-!
# Tasks

`create`, `update` and `complete` of tasks. A task is read first; what is written is computed from
what has been read, in a transaction of its own together with its audit record. A date is kept as
the text that it is given in. The store also records what the calls have read; no program looks at
that.
-/

namespace Tasks

open Text Concurrent Services

inductive TaskStatus where
  /-- `OPEN` in the source. -/
  | opened
  | inProgress
  | waiting
  | completed
  | cancelled
  deriving DecidableEq

inductive TaskPriority where
  | low
  | normal
  | high
  | urgent
  deriving DecidableEq

structure Assignment where
  assignedUserId : Option Str
  assignedDigitalEmployeeId : Option Str
  deriving DecidableEq

structure Task where
  id : Str
  organizationId : Str
  title : Str
  description : Option Str
  status : TaskStatus
  priority : TaskPriority
  assignment : Assignment
  dueAt : Option Str
  createdByUserId : Option Str
  completedAt : Option Int

structure CreateTaskDto where
  title : Str
  description : Option Str
  priority : DtoField TaskPriority
  assignedUserId : Option Str
  assignedDigitalEmployeeId : Option Str
  createdByUserId : Option Str
  dueAt : Option Str

structure UpdateTaskDto where
  title : DtoField Str
  description : DtoField Str
  status : DtoField TaskStatus
  priority : DtoField TaskPriority
  assignedUserId : DtoField Str
  assignedDigitalEmployeeId : DtoField Str
  dueAt : DtoField Str

/-- An audit record of a task, with its metadata. -/
inductive AuditRecord where
  | created (entityId title : Str) (assignment : Assignment)
  | updated (entityId : Str) (changes : UpdateTaskDto) (resultingAssignment : Assignment)
  | completed (entityId : Str)

/-- Whoever is in an organization. -/
structure Member where
  id : Str
  organizationId : Str

structure Store where
  tasks : List Task
  users : List Member
  digitalEmployees : List Member
  audit : List AuditRecord
  /-- What each session has read. -/
  reads : List (Nat × Task)

/-! ## Writes -/

/-- The constraint `task_assignment_xor_check`. -/
def Assignment.xorCheck (assignment : Assignment) : Bool :=
  assignment.assignedUserId.isNone || assignment.assignedDigitalEmployeeId.isNone

/-- The constraints of the table on a row. -/
def Store.admits (s : Store) (task : Task) : Bool :=
  let refers members reference :=
    Option.all (fun id => (Tables.find Member.id members id).isSome) reference
  task.assignment.xorCheck && refers s.users task.assignment.assignedUserId &&
    refers s.digitalEmployees task.assignment.assignedDigitalEmployeeId &&
      refers s.users task.createdByUserId

def Store.insertTask (s : Store) (task : Task) (record : AuditRecord) :
    Except HttpError Task × Store :=
  if (Tables.find Task.id s.tasks task.id).isNone && s.admits task then
    (.ok task, { s with tasks := s.tasks ++ [task], audit := s.audit ++ [record] })
  else (.error .database, s)

/-- `update where id`, and its audit record. -/
def Store.updateTask (s : Store) (id : Str) (f : Task → Task) (record : AuditRecord) :
    Except HttpError Task × Store :=
  match Tables.find Task.id s.tasks id with
  | none => (.error .database, s)
  | some task =>
      if s.admits (f task) then
        (.ok (f task),
          { s with tasks := Tables.write Task.id s.tasks id f, audit := s.audit ++ [record] })
      else (.error .database, s)

/-! ## Reads -/

def findByIdOrFail (session : Nat) (organizationId id : Str) : Program Store Task :=
  change fun _ s =>
    let found := s.tasks.find? fun task => task.id = id ∧ task.organizationId = organizationId
    match found with
    | none => (.error (.notFound "Task nicht gefunden."), s)
    | some task => (.ok task, { s with reads := s.reads ++ [(session, task)] })

/-- Whoever is given belongs to the organization. -/
def assertBelongs (members : Store → List Member) (organizationId : Str) (id : Option Str)
    (error : HttpError) : Program Store Unit :=
  match id with
  | none => .done ()
  | some id => do
      let found ← query fun s => (members s).any fun member =>
        member.id = id ∧ member.organizationId = organizationId
      Proc.require found error

/-- `UsersService.assertBelongsToOrganization`. -/
def assertUser (organizationId : Str) (userId : Option Str) : Program Store Unit :=
  assertBelongs Store.users organizationId userId
    (.notFound "Zugewiesener User existiert nicht in dieser Organization.")

/-- `DigitalEmployeesService.assertBelongsToOrganization`. -/
def assertDigitalEmployee (organizationId : Str) (digitalEmployeeId : Option Str) :
    Program Store Unit :=
  assertBelongs Store.digitalEmployees organizationId digitalEmployeeId
    (.notFound "Zugewiesener DigitalEmployee existiert nicht in dieser Organization.")

def assignedTwice : HttpError :=
  .badRequest
    "Eine Task darf nicht gleichzeitig einem User und einem DigitalEmployee zugewiesen werden."

/-! ## Calls -/

def CreateTaskDto.assignment (dto : CreateTaskDto) : Assignment :=
  ⟨dto.assignedUserId, dto.assignedDigitalEmployeeId⟩

def CreateTaskDto.task (dto : CreateTaskDto) (organizationId id : Str) : Task :=
  { id := id
    organizationId := organizationId
    title := dto.title
    description := dto.description
    status := .opened
    priority := dto.priority.set .normal
    assignment := dto.assignment
    dueAt := dto.dueAt
    createdByUserId := dto.createdByUserId
    completedAt := none }

def create (organizationId : Str) (dto : CreateTaskDto) : Program Store Task := do
  Proc.require dto.assignment.xorCheck assignedTwice
  assertUser organizationId dto.assignedUserId
  assertDigitalEmployee organizationId dto.assignedDigitalEmployeeId
  assertUser organizationId dto.createdByUserId
  change fun c s =>
    if dto.priority = .null then (.error .database, s)
    else s.insertTask (dto.task organizationId c.id) (.created c.id dto.title dto.assignment)

/-- The assignment that a task is to have, from the one it has and the fields of the request. -/
def resolveAssignmentTarget (existing : Assignment) (dto : UpdateTaskDto) :
    Except HttpError Assignment :=
  if dto.assignedUserId.value?.isSome && dto.assignedDigitalEmployeeId.value?.isSome then
    .error assignedTwice
  else
    let targetUserId :=
      -- A digital employee takes the place of a user that the request does not mention.
      if dto.assignedDigitalEmployeeId.value?.isSome && dto.assignedUserId = .absent then none
      else dto.assignedUserId.setNullable existing.assignedUserId
    let targetDigitalEmployeeId :=
      if dto.assignedUserId.value?.isSome && dto.assignedDigitalEmployeeId = .absent then none
      else dto.assignedDigitalEmployeeId.setNullable existing.assignedDigitalEmployeeId
    if targetUserId.isSome && targetDigitalEmployeeId.isSome then .error assignedTwice
    else .ok ⟨targetUserId, targetDigitalEmployeeId⟩

namespace UpdateTaskDto

variable (dto : UpdateTaskDto)

/-- No field is `null` whose column does not take it. -/
def noNull : Bool := dto.title ≠ .null ∧ dto.status ≠ .null ∧ dto.priority ≠ .null

/-- The columns that `update` writes. -/
def apply (target : Assignment) (task : Task) : Task :=
  { task with
    title := dto.title.set task.title
    description := dto.description.setNullable task.description
    status := dto.status.set task.status
    priority := dto.priority.set task.priority
    assignment := target
    dueAt := dto.dueAt.setNullable task.dueAt }

end UpdateTaskDto

/-- A new assignee, who has to be looked up. -/
def newcomer (target existing : Option Str) : Option Str :=
  if target = existing then none else target

def update (session : Nat) (organizationId id : Str) (dto : UpdateTaskDto) :
    Program Store Task := do
  let existing ← findByIdOrFail session organizationId id
  match resolveAssignmentTarget existing.assignment dto with
  | .error error => .throw error
  | .ok target =>
      assertUser organizationId
        (newcomer target.assignedUserId existing.assignment.assignedUserId)
      assertDigitalEmployee organizationId
        (newcomer target.assignedDigitalEmployeeId
          existing.assignment.assignedDigitalEmployeeId)
      change fun _ s =>
        if dto.noNull then s.updateTask id (dto.apply target) (.updated id dto target)
        else (.error .database, s)

def Task.complete (now : Int) (task : Task) : Task :=
  { task with status := .completed, completedAt := some now }

def complete (session : Nat) (organizationId id : Str) : Program Store Task := do
  let task ← findByIdOrFail session organizationId id
  if task.status = .completed then return task
  else change fun c s => s.updateTask id (Task.complete c.now) (.completed id)

inductive Call where
  | create (organizationId : Str) (dto : CreateTaskDto)
  | update (organizationId id : Str) (dto : UpdateTaskDto)
  | complete (organizationId id : Str)

/-- The program of the call that runs as `session`. -/
def Call.program (session : Nat) : Call → Program Store Unit
  | .create organizationId dto => do
      let _ ← Tasks.create organizationId dto
  | .update organizationId id dto => do
      let _ ← Tasks.update session organizationId id dto
  | .complete organizationId id => do
      let _ ← Tasks.complete session organizationId id

def programs (calls : List Call) : List (Program Store Unit) :=
  calls.mapIdx fun session call => call.program session

abbrev Move := Concurrent.Move Store Choice HttpError Unit

/-- A run of any calls from a store. -/
abbrev Run (calls : List Call) (store : Store) (moves : List Move)
    (s : Concurrent.System Store Choice HttpError Unit) : Prop :=
  Concurrent.Run store (programs calls) moves s

end Tasks
