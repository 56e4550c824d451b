import VitoPlatform.Library.Trees
import VitoPlatform.Structure.SequentialCalls

/-!
# The organization chart

`getChart` of a workforce: its departments with their teams and positions as trees, its positions
under their managers, and the positions without a department. Names are sorted by the collation of
the database, which is a parameter. No tree is deeper than there are rows.
-/

namespace Structure

open Text Concurrent Services Forest Trees

/-! ## Nodes -/

/-- What is shown of the department or the team of a position. -/
structure UnitNode where
  id : Str
  code : Str
  name : Str

structure PositionNode where
  id : Str
  code : Str
  title : Str
  status : PositionStatus
  isLeadership : Bool
  managerPositionId : Option Str
  role : Option OrganizationRole
  occupant : Option DigitalEmployee
  department : Option UnitNode
  team : Option UnitNode

structure TeamNode where
  id : Str
  code : Str
  name : Str
  manager : Option DigitalEmployee
  positions : List PositionNode

/-- A node of the department tree, without its children. -/
structure DepartmentNode where
  id : Str
  code : Str
  name : Str
  manager : Option DigitalEmployee
  positions : List PositionNode
  teams : List TeamNode

structure WorkforceNode where
  id : Str
  code : Str
  name : Str
  isDefault : Bool
  orchestrator : Option DigitalEmployee

structure Summary where
  departments : Nat
  teams : Nat
  positions : Nat
  occupiedPositions : Nat
  vacantPositions : Nat
  leadershipPositions : Nat

structure Chart where
  workforce : WorkforceNode
  summary : Summary
  departmentTree : List (RowTree DepartmentNode)
  reportingTree : List (RowTree PositionNode)
  unassignedPositions : List PositionNode

/-! ## Sorted rows -/

section Load

variable (collation : Str → Str → Bool)

/-- Ascending, with what is `null` at the end. -/
def nullsLast : Option Str → Option Str → Bool
  | some a, some b => collation a b
  | none, some _ => false
  | _, none => true

/-- By one column, and then by another. -/
def thenBy {α : Type} (first second : α → α → Bool) (a b : α) : Bool :=
  first a b && (!first b a || second a b)

variable (s : Store) (organizationId workforceInstanceId : Str)

def loadDepartments : List Department :=
  (s.departments.filter fun department => department.organizationId = organizationId ∧
    department.workforceInstanceId = workforceInstanceId).mergeSort
      (thenBy (fun a b => nullsLast collation a.parentDepartmentId b.parentDepartmentId)
        fun a b => collation a.name b.name)

def loadTeams : List Team :=
  (s.teams.filter fun team => team.organizationId = organizationId ∧
    team.workforceInstanceId = workforceInstanceId).mergeSort
      (thenBy (fun a b => collation a.departmentId b.departmentId)
        fun a b => collation a.name b.name)

def loadPositions : List Position :=
  (s.positions.filter fun position => position.organizationId = organizationId ∧
    position.workforceInstanceId = workforceInstanceId).mergeSort
      (thenBy (fun a b => nullsLast collation a.managerPositionId b.managerPositionId)
        fun a b => collation a.title b.title)

end Load

/-! ## The chart -/

section Build

variable (s : Store)

/-- `include` of an employee. -/
def Store.employee (id : Option Str) : Option DigitalEmployee :=
  id.bind (Tables.find DigitalEmployee.id s.employees)

def toPositionNode (position : Position) : PositionNode :=
  { id := position.id
    code := position.code
    title := position.title
    status := position.status
    isLeadership := position.isLeadership
    managerPositionId := position.managerPositionId
    role := Tables.find OrganizationRole.id s.roles position.organizationRoleId
    occupant := s.employee position.occupantEmployeeId
    department := (position.departmentId.bind (Tables.find Department.id s.departments)).map
      fun department => ⟨department.id, department.code, department.name⟩
    team := (position.teamId.bind (Tables.find Team.id s.teams)).map
      fun team => ⟨team.id, team.code, team.name⟩ }

variable (departments : List Department) (teams : List Team) (positions : List Position)

def teamNode (team : Team) : TeamNode :=
  { id := team.id
    code := team.code
    name := team.name
    manager := s.employee team.managerEmployeeId
    positions := (positions.filter fun position => position.teamId = some team.id).map
      (toPositionNode s) }

def departmentNode (department : Department) : DepartmentNode :=
  { id := department.id
    code := department.code
    name := department.name
    manager := s.employee department.managerEmployeeId
    positions := (positions.filter fun position =>
      position.departmentId = some department.id ∧ position.teamId = none).map (toPositionNode s)
    teams := (teams.filter fun team => team.departmentId = department.id).map
      (teamNode s positions) }

def buildDepartmentTree : List (RowTree DepartmentNode) :=
  trees Department.id Department.parentDepartmentId departments (departmentNode s teams positions)

def buildPositionTree : List (RowTree PositionNode) :=
  trees Position.id Position.managerPositionId positions (toPositionNode s)

def summary : Summary :=
  { departments := departments.length
    teams := teams.length
    positions := positions.length
    occupiedPositions := (positions.filter fun position =>
      position.occupantEmployeeId.isSome).length
    vacantPositions := (positions.filter fun position => position.occupantEmployeeId.isNone).length
    leadershipPositions := (positions.filter Position.isLeadership).length }

end Build

def getChart (collation : Str → Str → Bool) (organizationId workforceInstanceId : Str)
    (s : Store) : Except HttpError Chart :=
  let found := s.workforces.find? fun workforce =>
    workforce.id = workforceInstanceId ∧ workforce.organizationId = organizationId
  match found with
  | none => .error (.notFound "Workforce nicht gefunden.")
  | some workforce =>
      let departments := loadDepartments collation s organizationId workforceInstanceId
      let teams := loadTeams collation s organizationId workforceInstanceId
      let positions := loadPositions collation s organizationId workforceInstanceId
      .ok
        { workforce :=
            { id := workforce.id
              code := workforce.code
              name := workforce.name
              isDefault := workforce.isDefault
              orchestrator := s.employee workforce.orchestratorEmployeeId }
          summary := summary departments teams positions
          departmentTree := buildDepartmentTree s departments teams positions
          reportingTree := buildPositionTree s positions
          unassignedPositions := (positions.filter fun position =>
            position.departmentId = none).map (toPositionNode s) }

/-! ## What it lists -/

def Chart.departments (chart : Chart) : List Str :=
  (flattenAll chart.departmentTree).map DepartmentNode.id

def Chart.teams (chart : Chart) : List Str :=
  (flattenAll chart.departmentTree).flatMap fun node => node.teams.map TeamNode.id

/-- The positions of a department and of its teams. -/
def DepartmentNode.members (node : DepartmentNode) : List PositionNode :=
  node.positions ++ node.teams.flatMap TeamNode.positions

def Chart.members (chart : Chart) : List Str :=
  (flattenAll chart.departmentTree).flatMap fun node => node.members.map PositionNode.id

def Chart.reporting (chart : Chart) : List Str :=
  (flattenAll chart.reportingTree).map PositionNode.id

/-- The rows, and nothing else, each once. -/
def ListsOnce {α : Type} (listed : List Str) (id : α → Str) (rows : List α) : Prop :=
  listed.Nodup ∧ ∀ x, x ∈ listed ↔ ∃ row ∈ rows, id row = x

/-- The chart shows all of a workforce. -/
structure Chart.Complete (chart : Chart) (s : Store) (organizationId workforceInstanceId : Str) :
    Prop where
  departments : ListsOnce chart.departments Department.id
    (s.departments.filter fun department => department.organizationId = organizationId ∧
      department.workforceInstanceId = workforceInstanceId)
  teams : ListsOnce chart.teams Team.id
    (s.teams.filter fun team => team.organizationId = organizationId ∧
      team.workforceInstanceId = workforceInstanceId)
  reporting : ListsOnce chart.reporting Position.id
    (s.positions.filter fun position => position.organizationId = organizationId ∧
      position.workforceInstanceId = workforceInstanceId)
  members : ListsOnce (chart.members ++ chart.unassignedPositions.map PositionNode.id) Position.id
    (s.positions.filter fun position => position.organizationId = organizationId ∧
      position.workforceInstanceId = workforceInstanceId)

end Structure
