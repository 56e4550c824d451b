import VitoPlatform.Structure.Records

/-!
# The services of an organization's structure

`create` and `update` of workforce instances, departments, teams and positions, and
`assignWorkforce` of digital employees. Each reads, one statement after another, and then writes in
one transaction. A check of a hierarchy that is longer than `fuel` stays where it is: in a run of
that many moves none comes so far.
-/

namespace Structure

open Text Concurrent Services

/-! ## Checks -/

/-- An identifier that is there has to be found. -/
def whenSome (id : Option Str) (found : Store → Str → Bool) (error : HttpError) :
    Program Store Unit :=
  match id with
  | none => .done ()
  | some id => do
      let found ← query fun s => found s id
      Proc.require found error

/-- The parent of a row, read by organization. -/
def Store.parentIn (s : Store) (hierarchy : Hierarchy) (organizationId id : Str) : Option Str :=
  match hierarchy with
  | .positions => (s.positionOf organizationId id).bind Position.managerPositionId
  | .departments => (s.departmentOf organizationId id).bind Department.parentDepartmentId

/-- One turn of the loop of a hierarchy check: the parent of a row. -/
def readParent (session : Nat) (hierarchy : Hierarchy) (organizationId id : Str) :
    Program Store (Option Str) :=
  change fun _ s =>
    let parent := s.parentIn hierarchy organizationId id
    (.ok parent,
      { s with walked := s.walked ++ [⟨session, hierarchy, organizationId, id, parent⟩] })

/-- The loop of a hierarchy check: from a row up to its root, which must not meet `self`. -/
def walkUp (session : Nat) (hierarchy : Hierarchy) (organizationId self : Str)
    (cycle existing : HttpError) : Nat → List Str → Option Str → Program Store Unit
  | _, _, none => .done ()
  | 0, _, some _ => .act (fun _ _ => none) fun _ _ => .done ()
  | fuel + 1, visited, some current => do
      Proc.require (current ≠ self) cycle
      Proc.require (current ∉ visited) existing
      let parent ← readParent session hierarchy organizationId current
      walkUp session hierarchy organizationId self cycle existing fuel (current :: visited) parent

/-! ## Workforce instances -/

structure CreateWorkforceInstanceDto where
  name : Str
  code : Str
  isDefault : DtoField Bool
  orchestratorEmployeeId : Option Str

structure UpdateWorkforceInstanceDto where
  name : DtoField Str
  code : DtoField Str
  isDefault : DtoField Bool
  orchestratorEmployeeId : DtoField Str

/-- An orchestrator of the organization, if one is asked for. -/
def findValidOrchestrator (organizationId : Str) (orchestratorEmployeeId : Option Str) :
    Program Store (Option DigitalEmployee) :=
  match orchestratorEmployeeId with
  | none => .done none
  | some id => do
      let found ← query fun s => s.employees.find? fun employee => employee.id = id ∧
        employee.organizationId = organizationId ∧ employee.employeeType = .orchestrator
      let orchestrator ← Proc.expect found (.notFound
        "Der Orchestrator existiert nicht in dieser Organization oder ist kein ORCHESTRATOR.")
      return some orchestrator

def orchestratorElsewhere : HttpError :=
  .conflict "Der Orchestrator gehört bereits zu einer anderen WorkforceInstance."

def workforceCodeTaken : HttpError :=
  .conflict "Eine WorkforceInstance mit diesem code existiert bereits in dieser Organization."

/-- No workforce of the organization is the default one any more, if a new one is to be. -/
def clearDefault (organizationId : Str) (isDefault : DtoField Bool)
    (workforces : List WorkforceInstance) : List WorkforceInstance :=
  if isDefault = .value true then
    workforces.map fun workforce =>
      if workforce.organizationId = organizationId then { workforce with isDefault := false }
      else workforce
  else workforces

/-- The writes of a transaction on a workforce, after the workforce has been written. -/
def Store.admitOrchestrator (s t : Store) (workforce : WorkforceInstance) (taken : Bool)
    (orchestratorEmployeeId : Option Str) : Except HttpError WorkforceInstance × Store :=
  let u := match orchestratorEmployeeId with
    | some id => t.assignEmployee id (some workforce.id)
    | none => t
  checked s u workforce (taken || t.takesWorkforce workforce) (t.admitsWorkforce workforce)
    workforceCodeTaken

def CreateWorkforceInstanceDto.workforce (dto : CreateWorkforceInstanceDto)
    (organizationId id : Str) : WorkforceInstance :=
  { id := id
    organizationId := organizationId
    code := dto.code
    name := dto.name
    isDefault := dto.isDefault.set false
    orchestratorEmployeeId := dto.orchestratorEmployeeId }

def createWorkforce (organizationId : Str) (dto : CreateWorkforceInstanceDto) :
    Program Store WorkforceInstance := do
  let orchestrator ← findValidOrchestrator organizationId dto.orchestratorEmployeeId
  Proc.require ((orchestrator.bind DigitalEmployee.workforceInstanceId).isNone)
    orchestratorElsewhere
  change fun c s =>
    let workforces := clearDefault organizationId dto.isDefault s.workforces
    let workforce := dto.workforce organizationId c.id
    if dto.isDefault = .null then (.error .database, s)
    else s.admitOrchestrator { s with workforces := workforces ++ [workforce] } workforce
      (Tables.find WorkforceInstance.id s.workforces c.id).isSome dto.orchestratorEmployeeId

namespace UpdateWorkforceInstanceDto

variable (dto : UpdateWorkforceInstanceDto)

/-- No field is `null` whose column does not take it. -/
def noNull : Bool := dto.name ≠ .null ∧ dto.code ≠ .null ∧ dto.isDefault ≠ .null

def apply (workforce : WorkforceInstance) : WorkforceInstance :=
  { workforce with
    code := dto.code.set workforce.code
    name := dto.name.set workforce.name
    isDefault := dto.isDefault.set workforce.isDefault
    orchestratorEmployeeId :=
      dto.orchestratorEmployeeId.setNullable workforce.orchestratorEmployeeId }

end UpdateWorkforceInstanceDto

def updateWorkforce (organizationId id : Str) (dto : UpdateWorkforceInstanceDto) :
    Program Store WorkforceInstance := do
  let found ← query fun s => s.hasWorkforce organizationId id
  Proc.require found (.notFound "WorkforceInstance nicht gefunden.")
  let orchestrator ← findValidOrchestrator organizationId dto.orchestratorEmployeeId.value?
  Proc.require ((orchestrator.bind DigitalEmployee.workforceInstanceId).all (· = id))
    orchestratorElsewhere
  change fun _ s =>
    let workforces := clearDefault organizationId dto.isDefault s.workforces
    match Tables.find WorkforceInstance.id workforces id with
    | none => (.error .database, s)
    | some workforce =>
        if dto.noNull then
          s.admitOrchestrator
            { s with workforces := Tables.write WorkforceInstance.id workforces id dto.apply }
            (dto.apply workforce) false dto.orchestratorEmployeeId.value?
        else (.error .database, s)

/-! ## Departments -/

structure CreateDepartmentDto where
  workforceInstanceId : Str
  parentDepartmentId : Option Str
  managerEmployeeId : Option Str
  code : Str
  name : Str

structure UpdateDepartmentDto where
  parentDepartmentId : DtoField Str
  managerEmployeeId : DtoField Str
  name : DtoField Str

def assertParent (organizationId workforceInstanceId : Str) (parentDepartmentId : Option Str) :
    Program Store Unit :=
  whenSome parentDepartmentId
    (fun s id => s.hasDepartment organizationId workforceInstanceId id)
    (.notFound "Parent-Department existiert nicht in derselben Workforce.")

def assertDepartmentManager (organizationId workforceInstanceId : Str)
    (managerEmployeeId : Option Str) : Program Store Unit :=
  whenSome managerEmployeeId
    (fun s id => s.hasEmployee organizationId workforceInstanceId id)
    (.notFound "Department-Manager existiert nicht in derselben Workforce.")

def assertNoCycle (session fuel : Nat) (organizationId departmentId candidateParentId : Str) :
    Program Store Unit :=
  walkUp session .departments organizationId departmentId
    (.unprocessable "Die Department-Hierarchie würde einen Zyklus erzeugen.")
    (.unprocessable "Die bestehende Department-Hierarchie enthält einen Zyklus.")
    fuel [] (some candidateParentId)

/-- What is checked of a new parent. -/
def assertNewParent (session fuel : Nat) (organizationId id : Str) (current : Department)
    (parentDepartmentId : Option Str) : Program Store Unit :=
  match parentDepartmentId with
  | none => .done ()
  | some parentDepartmentId => do
      assertParent organizationId current.workforceInstanceId (some parentDepartmentId)
      assertNoCycle session fuel organizationId id parentDepartmentId

def departmentCodeTaken : HttpError :=
  .conflict "Ein Department mit diesem code existiert bereits in dieser Workforce."

def CreateDepartmentDto.department (dto : CreateDepartmentDto) (organizationId id : Str) :
    Department :=
  { id := id
    organizationId := organizationId
    workforceInstanceId := dto.workforceInstanceId
    parentDepartmentId := dto.parentDepartmentId
    managerEmployeeId := dto.managerEmployeeId
    code := dto.code
    name := dto.name }

def createDepartment (organizationId : Str) (dto : CreateDepartmentDto) :
    Program Store Department := do
  let found ← query fun s => s.hasWorkforce organizationId dto.workforceInstanceId
  Proc.require found
    (.notFound "WorkforceInstance nicht gefunden oder gehört nicht zu dieser Organization.")
  assertParent organizationId dto.workforceInstanceId dto.parentDepartmentId
  assertDepartmentManager organizationId dto.workforceInstanceId dto.managerEmployeeId
  change fun c s => s.insertDepartment (dto.department organizationId c.id) departmentCodeTaken

def UpdateDepartmentDto.apply (dto : UpdateDepartmentDto) (department : Department) :
    Department :=
  { department with
    parentDepartmentId := dto.parentDepartmentId.setNullable department.parentDepartmentId
    managerEmployeeId := dto.managerEmployeeId.setNullable department.managerEmployeeId
    name := dto.name.set department.name }

def updateDepartment (session fuel : Nat) (organizationId id : Str) (dto : UpdateDepartmentDto) :
    Program Store Department := do
  let found ← query fun s => s.departmentOf organizationId id
  let current ← Proc.expect found (.notFound "Department nicht gefunden.")
  Proc.require (dto.parentDepartmentId ≠ .value id)
    (.unprocessable "Ein Department kann nicht sein eigenes Parent-Department sein.")
  assertNewParent session fuel organizationId id current dto.parentDepartmentId.value?
  assertDepartmentManager organizationId current.workforceInstanceId dto.managerEmployeeId.value?
  change fun _ s =>
    if dto.name = .null then (.error .database, s)
    else s.updateDepartment id dto.apply departmentCodeTaken

/-! ## Teams -/

structure CreateTeamDto where
  workforceInstanceId : Str
  departmentId : Str
  managerEmployeeId : Option Str
  code : Str
  name : Str

structure UpdateTeamDto where
  departmentId : DtoField Str
  managerEmployeeId : DtoField Str
  name : DtoField Str

def assertTeamManager (organizationId : Str) (managerEmployeeId : Option Str)
    (workforceInstanceId : Str) : Program Store Unit :=
  whenSome managerEmployeeId
    (fun s id => s.hasEmployee organizationId workforceInstanceId id)
    (.notFound "Team-Manager gehört nicht zu dieser Organization und Workforce.")

def teamCodeTaken : HttpError :=
  .conflict "Ein Team mit diesem code existiert bereits in diesem Department."

def CreateTeamDto.team (dto : CreateTeamDto) (organizationId id : Str) : Team :=
  { id := id
    organizationId := organizationId
    workforceInstanceId := dto.workforceInstanceId
    departmentId := dto.departmentId
    managerEmployeeId := dto.managerEmployeeId
    code := dto.code
    name := dto.name }

def createTeam (organizationId : Str) (dto : CreateTeamDto) : Program Store Team := do
  whenSome (some dto.departmentId)
    (fun s id => s.hasDepartment organizationId dto.workforceInstanceId id)
    (.notFound "Department gehört nicht zu dieser Organization und Workforce.")
  assertTeamManager organizationId dto.managerEmployeeId dto.workforceInstanceId
  change fun c s => s.insertTeam (dto.team organizationId c.id) teamCodeTaken

/-- The columns that `update` writes; the workforce is the one of the department. -/
def UpdateTeamDto.apply (dto : UpdateTeamDto) (workforceInstanceId : Str) (team : Team) : Team :=
  { team with
    workforceInstanceId := workforceInstanceId
    departmentId := dto.departmentId.set team.departmentId
    managerEmployeeId := dto.managerEmployeeId.setNullable team.managerEmployeeId
    name := dto.name.set team.name }

def updateTeam (organizationId id : Str) (dto : UpdateTeamDto) : Program Store Team := do
  let found ← query fun s =>
    s.teams.find? fun team => team.id = id ∧ team.organizationId = organizationId
  let existing ← Proc.expect found (.notFound "Team nicht gefunden.")
  let found ← query fun s =>
    s.departmentOf organizationId (dto.departmentId.set existing.departmentId)
  let department ← Proc.expect found (.notFound "Department nicht gefunden.")
  assertTeamManager organizationId dto.managerEmployeeId.value? department.workforceInstanceId
  change fun _ s =>
    if dto.departmentId = .null ∨ dto.name = .null then (.error .database, s)
    else s.updateTeam id (dto.apply department.workforceInstanceId) teamCodeTaken

/-! ## Positions -/

structure CreatePositionDto where
  workforceInstanceId : Str
  departmentId : Option Str
  teamId : Option Str
  organizationRoleId : Str
  managerPositionId : Option Str
  occupantEmployeeId : Option Str
  code : Str
  title : Str
  status : Option PositionStatus
  isLeadership : DtoField Bool

structure UpdatePositionDto where
  workforceInstanceId : DtoField Str
  departmentId : DtoField Str
  teamId : DtoField Str
  organizationRoleId : DtoField Str
  managerPositionId : DtoField Str
  occupantEmployeeId : DtoField Str
  code : DtoField Str
  title : DtoField Str
  status : DtoField PositionStatus
  isLeadership : DtoField Bool

/-- What `validateContext` looks at. -/
structure PositionContext where
  workforceInstanceId : Str
  departmentId : Option Str
  teamId : Option Str
  organizationRoleId : Str
  managerPositionId : Option Str
  occupantEmployeeId : Option Str

/-- The department of a position: the one of its team, if it has one. -/
def contextDepartment (organizationId : Str) (input : PositionContext) :
    Program Store (Option Str) :=
  match input.teamId with
  | none => .done input.departmentId
  | some teamId => do
      let found ← query fun s => s.teamOf organizationId input.workforceInstanceId teamId
      let team ← Proc.expect found
        (.notFound "Team gehört nicht zu dieser Organization und Workforce.")
      Proc.require (input.departmentId.all (· = team.departmentId))
        (.conflict "Team und Department sind inkonsistent.")
      return some team.departmentId

def validateContext (organizationId : Str) (input : PositionContext) :
    Program Store (Option Str) := do
  whenSome (some input.workforceInstanceId) (fun s id => s.hasWorkforce organizationId id)
    (.notFound "Workforce gehört nicht zu dieser Organization.")
  whenSome (some input.organizationRoleId) (fun s id => s.hasRole organizationId id)
    (.notFound "Organization Role gehört nicht zu dieser Organization.")
  let departmentId ← contextDepartment organizationId input
  whenSome departmentId
    (fun s id => s.hasDepartment organizationId input.workforceInstanceId id)
    (.notFound "Department gehört nicht zu dieser Organization und Workforce.")
  whenSome input.managerPositionId
    (fun s id => s.hasPosition organizationId input.workforceInstanceId id)
    (.notFound "Vorgesetztenposition gehört nicht zu dieser Organization und Workforce.")
  whenSome input.occupantEmployeeId
    (fun s id => s.hasEmployee organizationId input.workforceInstanceId id)
    (.notFound "Occupant gehört nicht zu dieser Organization und Workforce.")
  return departmentId

def assertNoHierarchyCycle (session fuel : Nat) (organizationId positionId : Str)
    (managerPositionId : Option Str) : Program Store Unit :=
  walkUp session .positions organizationId positionId
    (.conflict "Die Positionshierarchie würde einen Zyklus erzeugen.")
    (.conflict "Bestehender Zyklus in der Positionshierarchie erkannt.")
    fuel [] managerPositionId

def positionTaken : HttpError :=
  .conflict "Positionscode oder Occupant ist bereits einer anderen Position zugeordnet."

def CreatePositionDto.context (dto : CreatePositionDto) : PositionContext :=
  { workforceInstanceId := dto.workforceInstanceId
    departmentId := dto.departmentId
    teamId := dto.teamId
    organizationRoleId := dto.organizationRoleId
    managerPositionId := dto.managerPositionId
    occupantEmployeeId := dto.occupantEmployeeId }

def CreatePositionDto.position (dto : CreatePositionDto) (organizationId : Str)
    (departmentId : Option Str) (id : Str) : Position :=
  { id := id
    organizationId := organizationId
    workforceInstanceId := dto.workforceInstanceId
    departmentId := departmentId
    teamId := dto.teamId
    organizationRoleId := dto.organizationRoleId
    managerPositionId := dto.managerPositionId
    occupantEmployeeId := dto.occupantEmployeeId
    code := dto.code
    title := dto.title
    status := if dto.occupantEmployeeId.isSome then .occupied else dto.status.getD .draft
    isLeadership := dto.isLeadership.set false }

def createPosition (organizationId : Str) (dto : CreatePositionDto) : Program Store Position := do
  let departmentId ← validateContext organizationId dto.context
  change fun c s =>
    if dto.isLeadership = .null then (.error .database, s)
    else s.insertPosition (dto.position organizationId departmentId c.id) positionTaken

namespace UpdatePositionDto

variable (dto : UpdatePositionDto) (existing : Position)

/-- `merged`: what the position is to be in. -/
def context : PositionContext :=
  { workforceInstanceId := dto.workforceInstanceId.set existing.workforceInstanceId
    departmentId := dto.departmentId.setNullable existing.departmentId
    teamId := dto.teamId.setNullable existing.teamId
    organizationRoleId := dto.organizationRoleId.set existing.organizationRoleId
    managerPositionId := dto.managerPositionId.setNullable existing.managerPositionId
    occupantEmployeeId := dto.occupantEmployeeId.setNullable existing.occupantEmployeeId }

def normalizedStatus : DtoField PositionStatus :=
  match dto.occupantEmployeeId with
  | .absent => dto.status
  | .null => .value .vacant
  | .value _ => .value .occupied

def noNull : Bool :=
  dto.workforceInstanceId ≠ .null ∧ dto.organizationRoleId ≠ .null ∧ dto.code ≠ .null ∧
    dto.title ≠ .null ∧ dto.isLeadership ≠ .null ∧ dto.normalizedStatus ≠ .null

/-- The columns that `update` writes; department and team are those of the context. -/
def apply (departmentId teamId : Option Str) (position : Position) : Position :=
  { position with
    workforceInstanceId := dto.workforceInstanceId.set position.workforceInstanceId
    departmentId := departmentId
    teamId := teamId
    organizationRoleId := dto.organizationRoleId.set position.organizationRoleId
    managerPositionId := dto.managerPositionId.setNullable position.managerPositionId
    occupantEmployeeId := dto.occupantEmployeeId.setNullable position.occupantEmployeeId
    code := dto.code.set position.code
    title := dto.title.set position.title
    status := dto.normalizedStatus.set position.status
    isLeadership := dto.isLeadership.set position.isLeadership }

end UpdatePositionDto

def updatePosition (session fuel : Nat) (organizationId id : Str) (dto : UpdatePositionDto) :
    Program Store Position := do
  let found ← query fun s => s.positionOf organizationId id
  let existing ← Proc.expect found (.notFound "Position nicht gefunden.")
  let merged := dto.context existing
  Proc.require (merged.managerPositionId ≠ some id)
    (.conflict "Eine Position kann nicht ihre eigene Vorgesetztenposition sein.")
  assertNoHierarchyCycle session fuel organizationId id merged.managerPositionId
  let departmentId ← validateContext organizationId merged
  change fun _ s =>
    if dto.noNull then s.updatePosition id (dto.apply departmentId merged.teamId) positionTaken
    else (.error .database, s)

/-! ## Digital employees -/

/-- The employee as it is read, and whether it orchestrates a workforce. -/
def Store.employeeOf (s : Store) (organizationId id : Str) : Option (DigitalEmployee × Bool) :=
  (s.employees.find? fun employee =>
    employee.id = id ∧ employee.organizationId = organizationId).map fun employee =>
      (employee, s.workforces.any fun workforce => workforce.orchestratorEmployeeId = some id)

def assignWorkforce (organizationId id : Str) (workforceInstanceId : Option Str) :
    Program Store Unit := do
  let found ← query fun s => s.employeeOf organizationId id
  let employee ← Proc.expect found (.notFound "DigitalEmployee nicht gefunden.")
  whenSome workforceInstanceId (fun s id => s.hasWorkforce organizationId id)
    (.notFound "WorkforceInstance nicht gefunden.")
  Proc.require (workforceInstanceId.isSome || !employee.2) (.conflict
    "Ein als Orchestrator verwendeter DigitalEmployee kann nicht aus seiner Workforce entfernt werden.")
  change fun _ s =>
    if (Tables.find DigitalEmployee.id s.employees id).isSome &&
        refers WorkforceInstance.id s.workforces workforceInstanceId then
      (.ok (), s.assignEmployee id workforceInstanceId)
    else (.error .database, s)

/-! ## Calls -/

inductive Call where
  | createWorkforce (organizationId : Str) (dto : CreateWorkforceInstanceDto)
  | updateWorkforce (organizationId id : Str) (dto : UpdateWorkforceInstanceDto)
  | createDepartment (organizationId : Str) (dto : CreateDepartmentDto)
  | updateDepartment (organizationId id : Str) (dto : UpdateDepartmentDto)
  | createTeam (organizationId : Str) (dto : CreateTeamDto)
  | updateTeam (organizationId id : Str) (dto : UpdateTeamDto)
  | createPosition (organizationId : Str) (dto : CreatePositionDto)
  | updatePosition (organizationId id : Str) (dto : UpdatePositionDto)
  | assignWorkforce (organizationId id : Str) (workforceInstanceId : Option Str)

/-- The program of the call that runs as `session`. -/
def Call.program (fuel session : Nat) : Call → Program Store Unit
  | .createWorkforce organizationId dto => do
      let _ ← Structure.createWorkforce organizationId dto
  | .updateWorkforce organizationId id dto => do
      let _ ← Structure.updateWorkforce organizationId id dto
  | .createDepartment organizationId dto => do
      let _ ← Structure.createDepartment organizationId dto
  | .updateDepartment organizationId id dto => do
      let _ ← Structure.updateDepartment session fuel organizationId id dto
  | .createTeam organizationId dto => do
      let _ ← Structure.createTeam organizationId dto
  | .updateTeam organizationId id dto => do
      let _ ← Structure.updateTeam organizationId id dto
  | .createPosition organizationId dto => do
      let _ ← Structure.createPosition organizationId dto
  | .updatePosition organizationId id dto => do
      let _ ← Structure.updatePosition session fuel organizationId id dto
  | .assignWorkforce organizationId id workforceInstanceId =>
      Structure.assignWorkforce organizationId id workforceInstanceId

def programs (fuel : Nat) (calls : List Call) : List (Program Store Unit) :=
  calls.mapIdx fun session call => call.program fuel session

abbrev Move := Concurrent.Move Store Choice HttpError Unit

/-- A run of any calls from a store. -/
abbrev Run (fuel : Nat) (calls : List Call) (store : Store) (moves : List Move)
    (s : Concurrent.System Store Choice HttpError Unit) : Prop :=
  Concurrent.Run store (programs fuel calls) moves s

end Structure
