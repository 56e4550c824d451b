import VitoPlatform.Library.Tables
import VitoPlatform.Persistence.Services

/-!
# The records of an organization's structure

Workforces, departments, teams, positions and digital employees, with the constraints of their
tables. Identifiers are UUIDs, so one that is there is not empty. No row is deleted. The store
also records what the hierarchy checks have read; no program looks at that.
-/

namespace Structure

open Text Services

structure WorkforceInstance where
  id : Str
  organizationId : Str
  code : Str
  name : Str
  isDefault : Bool
  orchestratorEmployeeId : Option Str

structure OrganizationRole where
  id : Str
  organizationId : Str

inductive EmployeeType where
  | orchestrator
  | specialist
  | assistant
  deriving DecidableEq

structure DigitalEmployee where
  id : Str
  organizationId : Str
  workforceInstanceId : Option Str
  employeeType : EmployeeType

structure Department where
  id : Str
  organizationId : Str
  workforceInstanceId : Str
  parentDepartmentId : Option Str
  managerEmployeeId : Option Str
  code : Str
  name : Str

structure Team where
  id : Str
  organizationId : Str
  workforceInstanceId : Str
  departmentId : Str
  managerEmployeeId : Option Str
  code : Str
  name : Str

/-- `OPEN` is `opened` here. -/
inductive PositionStatus where
  | draft
  | opened
  | occupied
  | vacant
  | archived
  deriving DecidableEq

structure Position where
  id : Str
  organizationId : Str
  workforceInstanceId : Str
  departmentId : Option Str
  teamId : Option Str
  organizationRoleId : Str
  managerPositionId : Option Str
  occupantEmployeeId : Option Str
  code : Str
  title : Str
  status : PositionStatus
  isLeadership : Bool
  deriving DecidableEq

inductive Hierarchy where
  | positions
  | departments
  deriving DecidableEq

/-- A row that the check of a hierarchy has read, and the parent it has found. -/
structure Walked where
  session : Nat
  hierarchy : Hierarchy
  organizationId : Str
  id : Str
  parent : Option Str

structure Store where
  workforces : List WorkforceInstance
  roles : List OrganizationRole
  employees : List DigitalEmployee
  departments : List Department
  teams : List Team
  positions : List Position
  walked : List Walked

/-! ## Lookups by organization and workforce -/

section Lookups

variable (s : Store) (organizationId workforceInstanceId id : Str)

def Store.hasWorkforce : Bool :=
  s.workforces.any fun workforce => workforce.id = id ∧ workforce.organizationId = organizationId

def Store.hasRole : Bool :=
  s.roles.any fun role => role.id = id ∧ role.organizationId = organizationId

def Store.hasEmployee : Bool :=
  s.employees.any fun employee => employee.id = id ∧ employee.organizationId = organizationId ∧
    employee.workforceInstanceId = some workforceInstanceId

def Store.hasDepartment : Bool :=
  s.departments.any fun department => department.id = id ∧
    department.organizationId = organizationId ∧
      department.workforceInstanceId = workforceInstanceId

def Store.hasPosition : Bool :=
  s.positions.any fun position => position.id = id ∧ position.organizationId = organizationId ∧
    position.workforceInstanceId = workforceInstanceId

/-- `findFirst` of a team by organization and workforce. -/
def Store.teamOf : Option Team :=
  s.teams.find? fun team => team.id = id ∧ team.organizationId = organizationId ∧
    team.workforceInstanceId = workforceInstanceId

def Store.positionOf : Option Position :=
  s.positions.find? fun position => position.id = id ∧ position.organizationId = organizationId

def Store.departmentOf : Option Department :=
  s.departments.find? fun department =>
    department.id = id ∧ department.organizationId = organizationId

end Lookups

/-! ## Constraints

Each is about a row that has been written: a table admits it if its keys are unique and what it
refers to is there. -/

/-- A foreign key. -/
def refers {α : Type} (id : α → Str) (rows : List α) (reference : Option Str) : Bool :=
  reference.all fun reference => (Tables.find id rows reference).isSome

def Store.admitsWorkforce (s : Store) (workforce : WorkforceInstance) : Bool :=
  refers DigitalEmployee.id s.employees workforce.orchestratorEmployeeId

def Store.takesWorkforce (s : Store) (workforce : WorkforceInstance) : Bool :=
  s.workforces.any fun other => other.id ≠ workforce.id ∧
    other.organizationId = workforce.organizationId ∧ other.code = workforce.code

def Store.admitsDepartment (s : Store) (department : Department) : Bool :=
  refers WorkforceInstance.id s.workforces (some department.workforceInstanceId) &&
    refers Department.id s.departments department.parentDepartmentId &&
      refers DigitalEmployee.id s.employees department.managerEmployeeId

def Store.takesDepartment (s : Store) (department : Department) : Bool :=
  s.departments.any fun other => other.id ≠ department.id ∧
    other.workforceInstanceId = department.workforceInstanceId ∧ other.code = department.code

def Store.admitsTeam (s : Store) (team : Team) : Bool :=
  refers WorkforceInstance.id s.workforces (some team.workforceInstanceId) &&
    refers Department.id s.departments (some team.departmentId) &&
      refers DigitalEmployee.id s.employees team.managerEmployeeId

def Store.takesTeam (s : Store) (team : Team) : Bool :=
  s.teams.any fun other => other.id ≠ team.id ∧
    other.departmentId = team.departmentId ∧ other.code = team.code

def Store.admitsPosition (s : Store) (position : Position) : Bool :=
  refers WorkforceInstance.id s.workforces (some position.workforceInstanceId) &&
    refers OrganizationRole.id s.roles (some position.organizationRoleId) &&
      refers Department.id s.departments position.departmentId &&
        refers Team.id s.teams position.teamId &&
          refers Position.id s.positions position.managerPositionId &&
            refers DigitalEmployee.id s.employees position.occupantEmployeeId

def Store.takesPosition (s : Store) (position : Position) : Bool :=
  s.positions.any fun other => other.id ≠ position.id ∧
    ((other.workforceInstanceId = position.workforceInstanceId ∧ other.code = position.code) ∨
      (other.occupantEmployeeId ≠ none ∧
        other.occupantEmployeeId = position.occupantEmployeeId))

/-- What a write answers: a conflict if a key is taken, an error if the row refers to none. -/
def checked {α : Type} (s t : Store) (row : α) (taken admitted : Bool) (conflict : HttpError) :
    Except HttpError α × Store :=
  if taken then (.error conflict, s)
  else if admitted then (.ok row, t)
  else (.error .database, s)

/-! ## Writes -/

def Store.insertDepartment (s : Store) (department : Department) (conflict : HttpError) :
    Except HttpError Department × Store :=
  let t := { s with departments := s.departments ++ [department] }
  checked s t department
    ((Tables.find Department.id s.departments department.id).isSome || t.takesDepartment department)
    (t.admitsDepartment department) conflict

/-- `update where id`, if the row is there. -/
def Store.updateDepartment (s : Store) (id : Str) (f : Department → Department)
    (conflict : HttpError) : Except HttpError Department × Store :=
  let t := { s with departments := Tables.write Department.id s.departments id f }
  match Tables.find Department.id s.departments id with
  | none => (.error .database, s)
  | some department =>
      checked s t (f department) (t.takesDepartment (f department))
        (t.admitsDepartment (f department)) conflict

def Store.insertTeam (s : Store) (team : Team) (conflict : HttpError) :
    Except HttpError Team × Store :=
  let t := { s with teams := s.teams ++ [team] }
  checked s t team ((Tables.find Team.id s.teams team.id).isSome || t.takesTeam team)
    (t.admitsTeam team) conflict

def Store.updateTeam (s : Store) (id : Str) (f : Team → Team) (conflict : HttpError) :
    Except HttpError Team × Store :=
  let t := { s with teams := Tables.write Team.id s.teams id f }
  match Tables.find Team.id s.teams id with
  | none => (.error .database, s)
  | some team => checked s t (f team) (t.takesTeam (f team)) (t.admitsTeam (f team)) conflict

def Store.insertPosition (s : Store) (position : Position) (conflict : HttpError) :
    Except HttpError Position × Store :=
  let t := { s with positions := s.positions ++ [position] }
  checked s t position
    ((Tables.find Position.id s.positions position.id).isSome || t.takesPosition position)
    (t.admitsPosition position) conflict

def Store.updatePosition (s : Store) (id : Str) (f : Position → Position) (conflict : HttpError) :
    Except HttpError Position × Store :=
  let t := { s with positions := Tables.write Position.id s.positions id f }
  match Tables.find Position.id s.positions id with
  | none => (.error .database, s)
  | some position =>
      checked s t (f position) (t.takesPosition (f position)) (t.admitsPosition (f position))
        conflict

def DigitalEmployee.assign (workforceInstanceId : Option Str) (employee : DigitalEmployee) :
    DigitalEmployee :=
  { employee with workforceInstanceId := workforceInstanceId }

/-- The workforce of an employee is set. -/
def Store.assignEmployee (s : Store) (id : Str) (workforceInstanceId : Option Str) : Store :=
  { s with
    employees :=
      Tables.write DigitalEmployee.id s.employees id (DigitalEmployee.assign workforceInstanceId) }

end Structure
