import VitoPlatform.Structure.Services

/-!
# Workforces and their orchestrators, statement by statement

`create` and `update` of workforce instances and `assignWorkforce` of digital employees, with the
statements of their transactions as separate steps. At READ COMMITTED a statement sees what has been
committed, and a row that an open transaction has written is locked until that transaction ends. An
`updateMany` sees its rows at once and then writes one after another: it waits for the lock of a row
and looks at the row again. What a transaction writes becomes visible when it commits. A statement
that fails, in a deadlock too, rolls its transaction back.
-/

namespace Leadership

open Text Concurrent Services
open Structure (WorkforceInstance DigitalEmployee CreateWorkforceInstanceDto
  UpdateWorkforceInstanceDto orchestratorElsewhere workforceCodeTaken refers)

/-! ## The database -/

/-- What a transaction locks: a row, or a key of the unique index of the codes. -/
inductive Lock where
  | workforce (id : Str)
  | code (organizationId code : Str)
  | employee (id : Str)
  deriving DecidableEq

inductive WorkforceWrite where
  | insert (workforce : WorkforceInstance)
  | update (id : Str) (dto : UpdateWorkforceInstanceDto)

/-- What a transaction has written. -/
structure Writes where
  organizationId : Str
  /-- The workforces that are no longer the default one. -/
  cleared : List Str
  workforce : Option WorkforceWrite
  /-- The employee whose workforce has been set, and to what. -/
  assigned : Option (Str × Option Str)

inductive HistoryEntry where
  /-- An employee has been read, with the workforces that it leads or belongs to. -/
  | read (session : Nat) (employeeId : Str) (workforceIds : List Str)
  /-- The default workforces have been looked up to be cleared. -/
  | clearing (session : Nat)
  | committed (session : Nat) (writes : Writes)

/-- What has been committed, the locks of the open transactions, and what has happened. -/
structure Store where
  workforces : List WorkforceInstance
  employees : List DigitalEmployee
  locks : List (Nat × Lock)
  history : List HistoryEntry

/-- The rows of the workforces after a transaction. -/
def Writes.write (writes : Writes) (workforces : List WorkforceInstance) :
    List WorkforceInstance :=
  let cleared := workforces.map fun workforce =>
    if workforce.id ∈ writes.cleared then { workforce with isDefault := false } else workforce
  match writes.workforce with
  | none => cleared
  | some (.insert workforce) => cleared ++ [workforce]
  | some (.update id dto) => Tables.write WorkforceInstance.id cleared id dto.apply

namespace Store

variable (s : Store) (session : Nat)

/-- The end of a transaction. -/
def release : Store := { s with locks := s.locks.filter fun lock => lock.1 ≠ session }

/-- Another transaction holds one of the locks. -/
def blocked (locks : List Lock) : Bool :=
  s.locks.any fun lock => lock.1 ≠ session ∧ lock.2 ∈ locks

def acquire (locks : List Lock) : Store :=
  { s with locks := s.locks ++ locks.map fun lock => (session, lock) }

def record (entry : HistoryEntry) : Store := { s with history := s.history ++ [entry] }

def commit (writes : Writes) : Store :=
  { s with
    workforces := writes.write s.workforces
    employees := match writes.assigned with
      | none => s.employees
      | some (id, workforceInstanceId) =>
          Tables.write DigitalEmployee.id s.employees id fun employee =>
            { employee with workforceInstanceId := workforceInstanceId }
    locks := (s.release session).locks
    history := s.history ++ [.committed session writes] }

def hasWorkforce (organizationId id : Str) : Bool :=
  s.workforces.any fun workforce => workforce.id = id ∧ workforce.organizationId = organizationId

/-- The other workforces of an organization that have a code. -/
def withCode (organizationId id code : Str) : List WorkforceInstance :=
  s.workforces.filter fun workforce =>
    workforce.organizationId = organizationId ∧ workforce.code = code ∧ workforce.id ≠ id

/-- The workforces that an employee is the orchestrator of. -/
def ledBy (employeeId : Str) : List Str :=
  (s.workforces.filter fun workforce =>
    workforce.orchestratorEmployeeId = some employeeId).map WorkforceInstance.id

end Store

/-! ## Statements -/

variable {α : Type}

/-- A statement of a transaction: it waits where there is no answer. -/
def statement (session : Nat) (f : Choice → Store → Option (Except HttpError α × Store)) :
    Program Store α :=
  .act
    (fun c s =>
      if c.fault then some (s.release session)
      else match f c s with
        | none => none
        | some (.ok _, t) => some t
        | some (.error _, _) => some (s.release session))
    fun c s =>
      if c.fault then .throw .database
      else match f c s with
        | none => .throw .database
        | some (.ok a, _) => .done a
        | some (.error error, _) => .throw error

/-- A statement whose effects are not looked at. -/
def attempt (session : Nat) : Program Store Unit := statement session fun _ s => some (.ok (), s)

/-- The workforces that `updateMany` clears: the default ones of the organization but one. -/
def isCleared (organizationId : Str) (except : Option Str) (workforce : WorkforceInstance) : Bool :=
  workforce.organizationId = organizationId ∧ workforce.isDefault = true ∧
    except ≠ some workforce.id

/-- Clear the rows that have been found, as far as they are still to be cleared. -/
def clearEach (session : Nat) (organizationId : Str) (except : Option Str) :
    List Str → List Str → Program Store (List Str)
  | [], cleared => .done cleared
  | id :: rest, cleared => do
      let still ← statement session fun _ s =>
        if s.blocked session [.workforce id] then none
        else if s.workforces.any fun workforce =>
            workforce.id = id ∧ isCleared organizationId except workforce then
          some (.ok true, s.acquire session [.workforce id])
        else some (.ok false, s)
      clearEach session organizationId except rest (if still then id :: cleared else cleared)

def clearDefaults (session : Nat) (organizationId : Str) (except : Option Str)
    (isDefault : DtoField Bool) : Program Store (List Str) :=
  if isDefault = .value true then do
    let found ← statement session fun _ s =>
      some (.ok ((s.workforces.filter (isCleared organizationId except)).map WorkforceInstance.id),
        s.record (.clearing session))
    clearEach session organizationId except found []
  else .done []

/-- The employee of a workforce, whose row is locked. `own` is a workforce of this transaction. -/
def assignEmployee (session : Nat) (id : Str) (workforceInstanceId : Option Str) (own : Bool) :
    Program Store Unit :=
  statement session fun _ s =>
    if s.blocked session [.employee id] then none
    else if (Tables.find DigitalEmployee.id s.employees id).isSome &&
        (own || refers WorkforceInstance.id s.workforces workforceInstanceId) then
      some (.ok (), s.acquire session [.employee id])
    else some (.error .database, s)

/-- The orchestrator becomes a member of the workforce. -/
def assignOrchestrator (session : Nat) (workforceInstanceId : Str) :
    Option Str → Program Store (Option (Str × Option Str))
  | none => .done none
  | some id => do
      assignEmployee session id (some workforceInstanceId) true
      return some (id, some workforceInstanceId)

def commit (session : Nat) (writes : Writes) : Program Store Unit :=
  statement session fun _ s => some (.ok (), s.commit session writes)

/-! ## The services -/

/-- An orchestrator of the organization, if one is asked for. -/
def findValidOrchestrator (session : Nat) (organizationId : Str)
    (orchestratorEmployeeId : Option Str) : Program Store (Option DigitalEmployee) :=
  match orchestratorEmployeeId with
  | none => .done none
  | some id => do
      let orchestrator ← change fun _ s =>
        match s.employees.find? fun employee => employee.id = id ∧
            employee.organizationId = organizationId ∧ employee.employeeType = .orchestrator with
        | none => (.error (.notFound
            "Der Orchestrator existiert nicht in dieser Organization oder ist kein ORCHESTRATOR."), s)
        | some employee =>
            (.ok employee, s.record (.read session id employee.workforceInstanceId.toList))
      return some orchestrator

/-- The new row. -/
def insertWorkforce (session : Nat) (organizationId : Str) (dto : CreateWorkforceInstanceDto) :
    Program Store WorkforceInstance :=
  statement session fun c s =>
    let workforce := dto.workforce organizationId c.id
    let taken := s.withCode organizationId c.id dto.code
    if dto.isDefault = .null then some (.error .database, s)
    else if s.blocked session (.workforce c.id :: .code organizationId dto.code ::
        taken.map fun other => .workforce other.id) then none
    else if !taken.isEmpty || (Tables.find WorkforceInstance.id s.workforces c.id).isSome then
      some (.error workforceCodeTaken, s)
    else if refers DigitalEmployee.id s.employees dto.orchestratorEmployeeId then
      some (.ok workforce, s.acquire session [.workforce c.id, .code organizationId dto.code])
    else some (.error .database, s)

def createWorkforce (session : Nat) (organizationId : Str) (dto : CreateWorkforceInstanceDto) :
    Program Store Unit := do
  let orchestrator ← findValidOrchestrator session organizationId dto.orchestratorEmployeeId
  Proc.require ((orchestrator.bind DigitalEmployee.workforceInstanceId).isNone)
    orchestratorElsewhere
  let cleared ← clearDefaults session organizationId none dto.isDefault
  let workforce ← insertWorkforce session organizationId dto
  let assigned ← assignOrchestrator session workforce.id dto.orchestratorEmployeeId
  -- the audit record, and the workforce that is returned
  attempt session
  attempt session
  commit session ⟨organizationId, cleared, some (.insert workforce), assigned⟩

/-- The row of an update is locked, and its new code if there is one. -/
def writeWorkforce (session : Nat) (organizationId id : Str) (dto : UpdateWorkforceInstanceDto) :
    Program Store Unit :=
  statement session fun _ s =>
    let codes := dto.code.value?.toList
    let taken := codes.flatMap fun code => s.withCode organizationId id code
    let locks := .workforce id :: codes.map fun code => .code organizationId code
    if s.blocked session (locks ++ taken.map fun other => .workforce other.id) then none
    else if !taken.isEmpty then some (.error workforceCodeTaken, s)
    else if dto.noNull && (Tables.find WorkforceInstance.id s.workforces id).isSome &&
        refers DigitalEmployee.id s.employees dto.orchestratorEmployeeId.value? then
      some (.ok (), s.acquire session locks)
    else some (.error .database, s)

def updateWorkforce (session : Nat) (organizationId id : Str) (dto : UpdateWorkforceInstanceDto) :
    Program Store Unit := do
  let found ← query fun s => s.hasWorkforce organizationId id
  Proc.require found (.notFound "WorkforceInstance nicht gefunden.")
  let orchestrator ← findValidOrchestrator session organizationId dto.orchestratorEmployeeId.value?
  Proc.require ((orchestrator.bind DigitalEmployee.workforceInstanceId).all (· = id))
    orchestratorElsewhere
  let cleared ← clearDefaults session organizationId (some id) dto.isDefault
  writeWorkforce session organizationId id dto
  let assigned ← assignOrchestrator session id dto.orchestratorEmployeeId.value?
  attempt session
  attempt session
  commit session ⟨organizationId, cleared, some (.update id dto), assigned⟩

/-- The employee, and then the workforces that it leads. -/
def orchestratedWorkforces (session : Nat) (id : Str) : Program Store (List Str) :=
  change fun _ s => (.ok (s.ledBy id), s.record (.read session id (s.ledBy id)))

def assignWorkforce (session : Nat) (organizationId id : Str) (workforceInstanceId : Option Str) :
    Program Store Unit := do
  let found ← query fun s => s.employees.any fun employee =>
    employee.id = id ∧ employee.organizationId = organizationId
  Proc.require found (.notFound "DigitalEmployee nicht gefunden.")
  let led ← orchestratedWorkforces session id
  let known ← query fun s => workforceInstanceId.all fun workforceInstanceId =>
    s.hasWorkforce organizationId workforceInstanceId
  Proc.require known (.notFound "WorkforceInstance nicht gefunden.")
  Proc.require (workforceInstanceId.isSome || led.isEmpty) (.conflict
    "Ein als Orchestrator verwendeter DigitalEmployee kann nicht aus seiner Workforce entfernt werden.")
  assignEmployee session id workforceInstanceId false
  attempt session
  commit session ⟨organizationId, [], none, some (id, workforceInstanceId)⟩

/-! ## Calls -/

inductive Call where
  | create (organizationId : Str) (dto : CreateWorkforceInstanceDto)
  | update (organizationId id : Str) (dto : UpdateWorkforceInstanceDto)
  | assignWorkforce (organizationId id : Str) (workforceInstanceId : Option Str)

/-- The program of the call that runs as `session`. -/
def Call.program (session : Nat) : Call → Program Store Unit
  | .create organizationId dto => createWorkforce session organizationId dto
  | .update organizationId id dto => updateWorkforce session organizationId id dto
  | .assignWorkforce organizationId id workforceInstanceId =>
      Leadership.assignWorkforce session organizationId id workforceInstanceId

def programs (calls : List Call) : List (Program Store Unit) :=
  calls.mapIdx fun session call => call.program session

abbrev Move := Concurrent.Move Store Choice HttpError Unit

/-- A run of any calls from a store. -/
abbrev Run (calls : List Call) (store : Store) (moves : List Move)
    (s : System Store Choice HttpError Unit) : Prop :=
  Concurrent.Run store (programs calls) moves s

/-! ## Leadership -/

/-- At most one default workforce in each organization, and at most one workforce of each
orchestrator. -/
structure Led (workforces : List WorkforceInstance) : Prop where
  ids : (workforces.map WorkforceInstance.id).Nodup
  default : ∀ first ∈ workforces, ∀ second ∈ workforces,
    first.organizationId = second.organizationId → first.isDefault = true →
      second.isDefault = true → first.id = second.id
  orchestrator : ∀ first ∈ workforces, ∀ second ∈ workforces, ∀ employeeId,
    first.orchestratorEmployeeId = some employeeId →
      second.orchestratorEmployeeId = some employeeId → first.id = second.id

end Leadership
