import VitoPlatform.Structure.Forests

/-!
# Coherence of the structure

What belongs together is in one workforce. Each operation checks the row that it writes; a row
that others refer to is moved without a look at these. The structure stays coherent as long as no
call moves such a row (`Call.Loose`).
-/

namespace Structure

open Text Concurrent Services Services.Steps Forest

/-- Identifiers are unique. -/
structure Keyed (s : Store) : Prop where
  workforces : (s.workforces.map WorkforceInstance.id).Nodup
  employees : (s.employees.map DigitalEmployee.id).Nodup
  departments : (s.departments.map Department.id).Nodup
  teams : (s.teams.map Team.id).Nodup
  positions : (s.positions.map Position.id).Nodup

def WorkforceOf (s : Store) (id organizationId : Str) : Prop :=
  ∃ row, Tables.find WorkforceInstance.id s.workforces id = some row ∧
    row.organizationId = organizationId

def EmployeeIn (s : Store) (id workforceInstanceId : Str) : Prop :=
  ∃ row, Tables.find DigitalEmployee.id s.employees id = some row ∧
    row.workforceInstanceId = some workforceInstanceId

def DepartmentIn (s : Store) (id workforceInstanceId : Str) : Prop :=
  ∃ row, Tables.find Department.id s.departments id = some row ∧
    row.workforceInstanceId = workforceInstanceId

def TeamIn (s : Store) (id departmentId workforceInstanceId : Str) : Prop :=
  ∃ row, Tables.find Team.id s.teams id = some row ∧ row.departmentId = departmentId ∧
    row.workforceInstanceId = workforceInstanceId

def PositionIn (s : Store) (id workforceInstanceId : Str) : Prop :=
  ∃ row, Tables.find Position.id s.positions id = some row ∧
    row.workforceInstanceId = workforceInstanceId

/-- What a department refers to is in its workforce, and the workforce in its organization. -/
structure DepartmentCoherent (s : Store) (department : Department) : Prop where
  workforce : WorkforceOf s department.workforceInstanceId department.organizationId
  parent : ∀ id, department.parentDepartmentId = some id →
    DepartmentIn s id department.workforceInstanceId
  manager : ∀ id, department.managerEmployeeId = some id →
    EmployeeIn s id department.workforceInstanceId

structure TeamCoherent (s : Store) (team : Team) : Prop where
  workforce : WorkforceOf s team.workforceInstanceId team.organizationId
  department : DepartmentIn s team.departmentId team.workforceInstanceId
  manager : ∀ id, team.managerEmployeeId = some id → EmployeeIn s id team.workforceInstanceId

/-- The same, and the department of a position in a team is the one of the team. -/
structure PositionCoherent (s : Store) (position : Position) : Prop where
  workforce : WorkforceOf s position.workforceInstanceId position.organizationId
  team : ∀ id, position.teamId = some id → ∃ departmentId,
    position.departmentId = some departmentId ∧
      TeamIn s id departmentId position.workforceInstanceId
  department : ∀ id, position.departmentId = some id →
    DepartmentIn s id position.workforceInstanceId
  manager : ∀ id, position.managerPositionId = some id →
    PositionIn s id position.workforceInstanceId
  occupant : ∀ id, position.occupantEmployeeId = some id →
    EmployeeIn s id position.workforceInstanceId

structure Coherent (s : Store) : Prop where
  departments : ∀ department ∈ s.departments, DepartmentCoherent s department
  teams : ∀ team ∈ s.teams, TeamCoherent s team
  positions : ∀ position ∈ s.positions, PositionCoherent s position
  /-- The orchestrator of a workforce is one of its members. -/
  orchestrators : ∀ workforce ∈ s.workforces, ∀ id, workforce.orchestratorEmployeeId = some id →
    EmployeeIn s id workforce.id

/-- The employee leads nothing, and has no position. -/
structure NoOffice (s : Store) (id : Str) : Prop where
  departments : ∀ department ∈ s.departments, department.managerEmployeeId ≠ some id
  teams : ∀ team ∈ s.teams, team.managerEmployeeId ≠ some id
  positions : ∀ position ∈ s.positions, position.occupantEmployeeId ≠ some id
  workforces : ∀ workforce ∈ s.workforces, workforce.orchestratorEmployeeId ≠ some id

/-- `findFirst` of a team by organization. -/
def Store.teamIn (s : Store) (organizationId id : Str) : Option Team :=
  s.teams.find? fun team => team.id = id ∧ team.organizationId = organizationId

/-- A row that the call moves is one that no other row counts on. -/
def Call.Loose (s : Store) : Call → Prop
  -- A team that goes to another department has no positions; if that is in another workforce,
  -- the team does not keep its manager.
  | .updateTeam organizationId id dto => ∀ old department,
      s.teamIn organizationId id = some old →
        s.departmentOf organizationId (dto.departmentId.set old.departmentId) = some department →
          (department.id ≠ old.departmentId →
            ∀ position ∈ s.positions, position.teamId ≠ some id) ∧
          (department.workforceInstanceId ≠ old.workforceInstanceId →
            dto.managerEmployeeId = .absent → old.managerEmployeeId = none)
  -- A position that goes to another workforce has no reports.
  | .updatePosition organizationId id dto => ∀ old, s.positionOf organizationId id = some old →
      dto.workforceInstanceId.set old.workforceInstanceId ≠ old.workforceInstanceId →
        ∀ position ∈ s.positions, position.managerPositionId ≠ some id
  -- An employee who goes to another workforce, or leaves one, has no office.
  | .assignWorkforce organizationId id target => ∀ old, s.employeeOf organizationId id = some old →
      target ≠ old.1.workforceInstanceId → NoOffice s id
  | _ => True

/-- A hierarchy that is a forest, within its organizations. -/
structure Tended (nodes : List Node) : Prop where
  wellFormed : WellFormed nodes
  forest : IsForest (parentOf nodes)

/-- The whole invariant. -/
structure Intact (s : Store) : Prop where
  keyed : Keyed s
  hierarchies : ∀ hierarchy, Tended (s.nodes hierarchy)
  coherent : Coherent s

/-- The rows that a step moves. -/
structure Moved where
  employee : Option Str
  team : Option Str
  position : Option Str

def nothingMoved : Moved := ⟨none, none, none⟩

/-- What was there is still there, in its place, but for the rows that have been moved. -/
structure Keeps (moved : Moved) (s t : Store) : Prop where
  workforce : ∀ {id organizationId}, WorkforceOf s id organizationId →
    WorkforceOf t id organizationId
  employee : ∀ {id workforceInstanceId}, moved.employee ≠ some id →
    EmployeeIn s id workforceInstanceId → EmployeeIn t id workforceInstanceId
  department : ∀ {id workforceInstanceId}, DepartmentIn s id workforceInstanceId →
    DepartmentIn t id workforceInstanceId
  team : ∀ {id departmentId workforceInstanceId}, moved.team ≠ some id →
    TeamIn s id departmentId workforceInstanceId → TeamIn t id departmentId workforceInstanceId
  position : ∀ {id workforceInstanceId}, moved.position ≠ some id →
    PositionIn s id workforceInstanceId → PositionIn t id workforceInstanceId

section Keeps

variable {s t : Store} {moved : Moved}

theorem DepartmentCoherent.keep {department : Department} (h : DepartmentCoherent s department)
    (hkeeps : Keeps moved s t)
    (hmanager : ∀ id, department.managerEmployeeId = some id → moved.employee ≠ some id) :
    DepartmentCoherent t department :=
  ⟨hkeeps.workforce h.workforce, fun id hid => hkeeps.department (h.parent id hid),
    fun id hid => hkeeps.employee (hmanager id hid) (h.manager id hid)⟩

theorem TeamCoherent.keep {team : Team} (h : TeamCoherent s team) (hkeeps : Keeps moved s t)
    (hmanager : ∀ id, team.managerEmployeeId = some id → moved.employee ≠ some id) :
    TeamCoherent t team :=
  ⟨hkeeps.workforce h.workforce, hkeeps.department h.department,
    fun id hid => hkeeps.employee (hmanager id hid) (h.manager id hid)⟩

theorem PositionCoherent.keep {position : Position} (h : PositionCoherent s position)
    (hkeeps : Keeps moved s t) (hteam : ∀ id, position.teamId = some id → moved.team ≠ some id)
    (hmanager : ∀ id, position.managerPositionId = some id → moved.position ≠ some id)
    (hoccupant : ∀ id, position.occupantEmployeeId = some id → moved.employee ≠ some id) :
    PositionCoherent t position := by
  refine ⟨hkeeps.workforce h.workforce, fun id hid => ?_,
    fun id hid => hkeeps.department (h.department id hid),
    fun id hid => hkeeps.position (hmanager id hid) (h.manager id hid),
    fun id hid => hkeeps.employee (hoccupant id hid) (h.occupant id hid)⟩
  obtain ⟨departmentId, hdepartment, hin⟩ := h.team id hid
  exact ⟨departmentId, hdepartment, hkeeps.team (hteam id hid) hin⟩

theorem nothing_ne (id : Str) : (none : Option Str) ≠ some id := nofun

/-- A step that moves nothing keeps every row coherent. -/
theorem Coherent.keep (h : Coherent s) (hkeeps : Keeps nothingMoved s t) :
    (∀ department ∈ s.departments, DepartmentCoherent t department) ∧
      (∀ team ∈ s.teams, TeamCoherent t team) ∧
        (∀ position ∈ s.positions, PositionCoherent t position) ∧
          ∀ workforce ∈ s.workforces, ∀ id, workforce.orchestratorEmployeeId = some id →
            EmployeeIn t id workforce.id :=
  ⟨fun row hrow => (h.departments row hrow).keep hkeeps fun id _ => nothing_ne id,
    fun row hrow => (h.teams row hrow).keep hkeeps fun id _ => nothing_ne id,
    fun row hrow => (h.positions row hrow).keep hkeeps (fun id _ => nothing_ne id)
      (fun id _ => nothing_ne id) fun id _ => nothing_ne id,
    fun row hrow id hid => hkeeps.employee (nothing_ne id) (h.orchestrators row hrow id hid)⟩

theorem keeps_departments_append (department : Department) :
    Keeps nothingMoved s { s with departments := s.departments ++ [department] } := by
  refine ⟨fun h => h, fun _ h => h, ?_, fun _ h => h, fun _ h => h⟩
  rintro id w ⟨row, hrow, hin⟩
  exact ⟨row, Tables.find_append_of_some hrow, hin⟩

theorem keeps_departments_write {f : Department → Department} (id : Str)
    (hid : ∀ row, (f row).id = row.id)
    (hin : ∀ row, (f row).workforceInstanceId = row.workforceInstanceId) :
    Keeps nothingMoved s
      { s with departments := Tables.write Department.id s.departments id f } := by
  refine ⟨fun h => h, fun _ h => h, ?_, fun _ h => h, fun _ h => h⟩
  rintro id w ⟨row, hrow, rfl⟩
  refine ⟨_, Tables.find_write_of_some hid hrow, ?_⟩
  split
  · exact hin row
  · rfl

theorem keeps_teams_append (team : Team) :
    Keeps nothingMoved s { s with teams := s.teams ++ [team] } := by
  refine ⟨fun h => h, fun _ h => h, fun h => h, ?_, fun _ h => h⟩
  rintro id d w - ⟨row, hrow, hin⟩
  exact ⟨row, Tables.find_append_of_some hrow, hin⟩

theorem keeps_teams_write {f : Team → Team} (id : Str) (hid : ∀ row, (f row).id = row.id) :
    Keeps { nothingMoved with team := some id } s
      { s with teams := Tables.write Team.id s.teams id f } := by
  refine ⟨fun h => h, fun _ h => h, fun h => h, ?_, fun _ h => h⟩
  rintro id' d w hne ⟨row, hrow, hin⟩
  refine ⟨row, ?_, hin⟩
  have hother : id' ≠ id := fun he => hne (congrArg some he.symm)
  rw [Tables.find_write_of_some hid hrow, if_neg hother]

/-- A team that stays in its place is not moved. -/
theorem keeps_teams_write_in_place {f : Team → Team} {id : Str} {old : Team}
    (hid : ∀ row, (f row).id = row.id) (hold : Tables.find Team.id s.teams id = some old)
    (hdepartment : (f old).departmentId = old.departmentId)
    (hin : (f old).workforceInstanceId = old.workforceInstanceId) :
    Keeps nothingMoved s { s with teams := Tables.write Team.id s.teams id f } := by
  refine ⟨fun h => h, fun _ h => h, fun h => h, ?_, fun _ h => h⟩
  rintro id' d w - ⟨row, hrow, rfl, rfl⟩
  refine ⟨_, Tables.find_write_of_some hid hrow, ?_⟩
  split
  · rename_i hsame
    rw [hsame, hold] at hrow
    obtain rfl := Option.some.inj hrow
    exact ⟨hdepartment, hin⟩
  · exact ⟨rfl, rfl⟩

theorem keeps_positions_append (position : Position) :
    Keeps nothingMoved s { s with positions := s.positions ++ [position] } := by
  refine ⟨fun h => h, fun _ h => h, fun h => h, fun _ h => h, ?_⟩
  rintro id w - ⟨row, hrow, hin⟩
  exact ⟨row, Tables.find_append_of_some hrow, hin⟩

theorem keeps_positions_write {f : Position → Position} (id : Str)
    (hid : ∀ row, (f row).id = row.id) :
    Keeps { nothingMoved with position := some id } s
      { s with positions := Tables.write Position.id s.positions id f } := by
  refine ⟨fun h => h, fun _ h => h, fun h => h, fun _ h => h, ?_⟩
  rintro id' w hne ⟨row, hrow, hin⟩
  refine ⟨row, ?_, hin⟩
  have hother : id' ≠ id := fun he => hne (congrArg some he.symm)
  rw [Tables.find_write_of_some hid hrow, if_neg hother]

theorem keeps_positions_write_in_place {f : Position → Position} {id : Str} {old : Position}
    (hid : ∀ row, (f row).id = row.id)
    (hold : Tables.find Position.id s.positions id = some old)
    (hin : (f old).workforceInstanceId = old.workforceInstanceId) :
    Keeps nothingMoved s { s with positions := Tables.write Position.id s.positions id f } := by
  refine ⟨fun h => h, fun _ h => h, fun h => h, fun _ h => h, ?_⟩
  rintro id' w - ⟨row, hrow, rfl⟩
  refine ⟨_, Tables.find_write_of_some hid hrow, ?_⟩
  split
  · rename_i hsame
    rw [hsame, hold] at hrow
    obtain rfl := Option.some.inj hrow
    exact hin
  · rfl

theorem find_assignEmployee {id id' : Str} {target : Option Str} {row : DigitalEmployee}
    (h : Tables.find DigitalEmployee.id s.employees id' = some row) :
    Tables.find DigitalEmployee.id (s.assignEmployee id target).employees id' =
      some (if id' = id then row.assign target else row) :=
  Tables.find_write_of_some (fun _ => rfl) h

theorem keeps_assignEmployee (id : Str) (target : Option Str) :
    Keeps { nothingMoved with employee := some id } s (s.assignEmployee id target) := by
  refine ⟨fun h => h, ?_, fun h => h, fun _ h => h, fun _ h => h⟩
  rintro id' w hne ⟨row, hrow, hin⟩
  refine ⟨row, ?_, hin⟩
  have hother : id' ≠ id := fun he => hne (congrArg some he.symm)
  rw [find_assignEmployee hrow, if_neg hother]

/-- An employee who comes into a workforce from nowhere has not been in another one. -/
theorem keeps_assignEmployee_of_free {id w : Str} {old : DigitalEmployee}
    (hold : Tables.find DigitalEmployee.id s.employees id = some old)
    (hfree : old.workforceInstanceId.all (· = w) = true) :
    Keeps nothingMoved s (s.assignEmployee id (some w)) := by
  refine ⟨fun h => h, ?_, fun h => h, fun _ h => h, fun _ h => h⟩
  rintro id' w' - ⟨row, hrow, hin⟩
  refine ⟨_, find_assignEmployee hrow, ?_⟩
  split
  · rename_i hsame
    rw [hsame, hold] at hrow
    obtain rfl := Option.some.inj hrow
    rw [hin, Option.all_some, decide_eq_true_eq] at hfree
    exact congrArg some hfree.symm
  · exact hin

theorem keeps_employees_in_place {id : Str} {target : Option Str} {old : DigitalEmployee}
    (hold : Tables.find DigitalEmployee.id s.employees id = some old)
    (hsame : target = old.workforceInstanceId) :
    Keeps nothingMoved s (s.assignEmployee id target) := by
  refine ⟨fun h => h, ?_, fun h => h, fun _ h => h, fun _ h => h⟩
  rintro id' w' - ⟨row, hrow, hin⟩
  refine ⟨_, find_assignEmployee hrow, ?_⟩
  split
  · rename_i hid
    rw [hid, hold] at hrow
    obtain rfl := Option.some.inj hrow
    exact hsame.trans hin
  · exact hin

end Keeps

section Writes

variable {s : Store} {id organizationId workforceInstanceId : Str}

theorem Tended.append {nodes : List Node} {node : Node} (h : Tended nodes)
    (hnew : organizationOf nodes node.id = none)
    (hparent : ∀ target, node.parent = some target →
      organizationOf nodes target = some node.organizationId) : Tended (nodes ++ [node]) :=
  ⟨h.wellFormed.append hnew hparent, forest_append h.wellFormed h.forest hnew hparent⟩

theorem Tended.write {nodes : List Node} {target : Option Str} (h : Tended nodes)
    (hrow : organizationOf nodes id = some organizationId)
    (habove : ∀ above, target = some above → organizationOf nodes above = some organizationId)
    (hnot : ∀ above, target = some above → ¬ AtOrAbove (parentOf nodes) above id) :
    Tended (Tables.write Node.id nodes id (Node.under target)) := by
  refine ⟨h.wellFormed.write hrow habove, ?_⟩
  rw [parentOf_write hrow]
  exact h.forest.update hnot

/-- A row that is written, and its new parent if it has been given one. -/
structure Hung (nodes : List Node) (id organizationId : Str) (parent : DtoField Str) : Prop where
  row : organizationOf nodes id = some organizationId
  above : ∀ above, parent = .value above → organizationOf nodes above = some organizationId
  notBelow : ∀ above, parent = .value above → ¬ AtOrAbove (parentOf nodes) above id

theorem Tended.map_write {α : Type} {key : α → Str} {node : α → Node} {rows : List α} {f : α → α}
    {parent : DtoField Str} (h : Tended (rows.map node)) (hkey : ∀ row, (node row).id = key row)
    (hf : ∀ row, node (f row) = (node row).under (parent.setNullable (node row).parent))
    (hhung : Hung (rows.map node) id organizationId parent) :
    Tended ((Tables.write key rows id f).map node) := by
  rw [map_node_write rows id hkey hf]
  split
  · exact h
  · have hvalue : ∀ above, parent.value? = some above → parent = .value above := by
      intro above habove
      cases parent with
      | absent | null => cases habove
      | value a => rw [Option.some.inj habove]
    exact h.write hhung.row (fun above habove => hhung.above above (hvalue above habove))
      fun above habove => hhung.notBelow above (hvalue above habove)

theorem workforceOf_of_has (hs : Keyed s) (h : s.hasWorkforce organizationId id = true) :
    WorkforceOf s id organizationId := by
  obtain ⟨row, hmem, hof⟩ := List.any_eq_true.mp h
  obtain ⟨rfl, hin⟩ := of_decide_eq_true hof
  exact ⟨row, Tables.find_of_mem hs.workforces hmem, hin⟩

theorem employeeIn_of_has (hs : Keyed s)
    (h : s.hasEmployee organizationId workforceInstanceId id = true) :
    EmployeeIn s id workforceInstanceId := by
  obtain ⟨row, hmem, hof⟩ := List.any_eq_true.mp h
  obtain ⟨rfl, -, hin⟩ := of_decide_eq_true hof
  exact ⟨row, Tables.find_of_mem hs.employees hmem, hin⟩

theorem departmentIn_of_has (hs : Keyed s)
    (h : s.hasDepartment organizationId workforceInstanceId id = true) :
    DepartmentIn s id workforceInstanceId := by
  obtain ⟨row, hmem, hof⟩ := List.any_eq_true.mp h
  obtain ⟨rfl, -, hin⟩ := of_decide_eq_true hof
  exact ⟨row, Tables.find_of_mem hs.departments hmem, hin⟩

theorem positionIn_of_has (hs : Keyed s)
    (h : s.hasPosition organizationId workforceInstanceId id = true) :
    PositionIn s id workforceInstanceId := by
  obtain ⟨row, hmem, hof⟩ := List.any_eq_true.mp h
  obtain ⟨rfl, -, hin⟩ := of_decide_eq_true hof
  exact ⟨row, Tables.find_of_mem hs.positions hmem, hin⟩

theorem teamIn_of_teamOf (hs : Keyed s) {team : Team}
    (h : s.teamOf organizationId workforceInstanceId id = some team) :
    TeamIn s id team.departmentId workforceInstanceId := by
  have hof := List.find?_some h
  rw [decide_eq_true_eq] at hof
  obtain ⟨rfl, -, hin⟩ := hof
  exact ⟨team, Tables.find_of_mem hs.teams (List.mem_of_find?_eq_some h), rfl, hin⟩

/-- A new department. -/
theorem Intact.departments_append (hs : Intact s) {department : Department}
    (hnew : Tables.find Department.id s.departments department.id = none)
    (hcoherent : DepartmentCoherent s department)
    (hparent : ∀ target, department.parentDepartmentId = some target →
      organizationOf (s.nodes .departments) target = some department.organizationId) :
    Intact { s with departments := s.departments ++ [department] } := by
  have hkeeps := keeps_departments_append (s := s) department
  obtain ⟨hdepartments, hteams, hpositions, horchestrators⟩ := hs.coherent.keep hkeeps
  refine ⟨{ hs.keyed with departments := Tables.nodup_append hs.keyed.departments hnew }, ?_,
    ⟨?_, hteams, hpositions, horchestrators⟩⟩
  · rintro (_ | _)
    · exact hs.hierarchies .positions
    · show Tended ((s.departments ++ [department]).map Department.node)
      rw [List.map_append]
      refine (hs.hierarchies .departments).append ?_ hparent
      exact (organizationOf_departments s department.id).trans (Option.map_eq_none_iff.mpr hnew)
  · refine List.forall_mem_append.mpr ⟨hdepartments, List.forall_mem_singleton.mpr ?_⟩
    exact hcoherent.keep hkeeps fun id _ => nothing_ne id

/-- A row that has been written, or one that has not. -/
theorem forall_mem_write {α : Type} {key : α → Str} {rows : List α} {f : α → α} {old : α}
    {P : α → Prop} (hkeys : (rows.map key).Nodup) (hold : Tables.find key rows id = some old)
    (hnew : P (f old)) (hothers : ∀ row ∈ rows, key row ≠ id → P row) :
    ∀ row ∈ Tables.write key rows id f, P row := by
  intro row hrow
  obtain ⟨before, hbefore, rfl⟩ := Tables.mem_write.mp hrow
  split
  · rename_i hid
    rw [← hid, Tables.find_of_mem hkeys hbefore] at hold
    rw [Option.some.inj hold]
    exact hnew
  · rename_i hid
    exact hothers before hbefore hid

/-- A department that stays in its workforce. -/
theorem Intact.departments_write (hs : Intact s) {f : Department → Department}
    {old : Department} {parent : DtoField Str} (hid : ∀ row, (f row).id = row.id)
    (hin : ∀ row, (f row).workforceInstanceId = row.workforceInstanceId)
    (hold : Tables.find Department.id s.departments id = some old)
    (hcoherent : DepartmentCoherent s (f old))
    (hf : ∀ row, (f row).node = row.node.under (parent.setNullable row.node.parent))
    (hhung : Hung (s.nodes .departments) id organizationId parent) :
    Intact { s with departments := Tables.write Department.id s.departments id f } := by
  have hkeeps := keeps_departments_write (s := s) id hid hin
  obtain ⟨hdepartments, hteams, hpositions, horchestrators⟩ := hs.coherent.keep hkeeps
  refine ⟨{ hs.keyed with departments := ?_ }, ?_, ⟨?_, hteams, hpositions, horchestrators⟩⟩
  · rw [Tables.map_key_write hid]
    exact hs.keyed.departments
  · rintro (_ | _)
    · exact hs.hierarchies .positions
    · exact (hs.hierarchies .departments).map_write (fun _ => rfl) hf hhung
  · exact forall_mem_write hs.keyed.departments hold
      (hcoherent.keep hkeeps fun id _ => nothing_ne id) fun row hrow _ => hdepartments row hrow

/-- A new team. -/
theorem Intact.teams_append (hs : Intact s) {team : Team}
    (hnew : Tables.find Team.id s.teams team.id = none) (hcoherent : TeamCoherent s team) :
    Intact { s with teams := s.teams ++ [team] } := by
  have hkeeps := keeps_teams_append (s := s) team
  obtain ⟨hdepartments, hteams, hpositions, horchestrators⟩ := hs.coherent.keep hkeeps
  refine ⟨{ hs.keyed with teams := Tables.nodup_append hs.keyed.teams hnew }, hs.hierarchies,
    ⟨hdepartments, ?_, hpositions, horchestrators⟩⟩
  refine List.forall_mem_append.mpr ⟨hteams, List.forall_mem_singleton.mpr ?_⟩
  exact hcoherent.keep hkeeps fun id _ => nothing_ne id

/-- A team that stays in its department, or has no positions. -/
theorem Intact.teams_write (hs : Intact s) {f : Team → Team} {old : Team}
    (hid : ∀ row, (f row).id = row.id) (hold : Tables.find Team.id s.teams id = some old)
    (hcoherent : TeamCoherent s (f old))
    (hplace : (f old).departmentId ≠ old.departmentId →
      ∀ position ∈ s.positions, position.teamId ≠ some id) :
    Intact { s with teams := Tables.write Team.id s.teams id f } := by
  have hkeyed : Keyed { s with teams := Tables.write Team.id s.teams id f } :=
    { hs.keyed with
      teams := by
        rw [Tables.map_key_write hid]
        exact hs.keyed.teams }
  by_cases hsame : (f old).departmentId = old.departmentId
  · -- The department is the same, and so is its workforce.
    have hin : (f old).workforceInstanceId = old.workforceInstanceId := by
      obtain ⟨row, hrow, hin⟩ := hcoherent.department
      obtain ⟨row', hrow', hin'⟩ :=
        (hs.coherent.teams old (Tables.find_some hold).1).department
      rw [hsame, hrow'] at hrow
      rw [← hin, ← hin', Option.some.inj hrow]
    have hkeeps := keeps_teams_write_in_place hid hold hsame hin
    obtain ⟨hdepartments, hteams, hpositions, horchestrators⟩ := hs.coherent.keep hkeeps
    refine ⟨hkeyed, hs.hierarchies, ⟨hdepartments, ?_, hpositions, horchestrators⟩⟩
    exact forall_mem_write hs.keyed.teams hold
      (hcoherent.keep hkeeps fun id _ => nothing_ne id) fun row hrow _ => hteams row hrow
  · have hkeeps := keeps_teams_write (s := s) id hid
    refine ⟨hkeyed, hs.hierarchies, ?_, ?_, ?_, ?_⟩
    · exact fun row hrow =>
        (hs.coherent.departments row hrow).keep hkeeps fun id _ => nothing_ne id
    · exact forall_mem_write hs.keyed.teams hold
        (hcoherent.keep hkeeps fun id _ => nothing_ne id) fun row hrow _ =>
          (hs.coherent.teams row hrow).keep hkeeps fun id _ => nothing_ne id
    · intro row hrow
      refine (hs.coherent.positions row hrow).keep hkeeps (fun team hteam he => ?_)
        (fun id _ => nothing_ne id) fun id _ => nothing_ne id
      exact hplace hsame row hrow (hteam.trans he.symm)
    · exact fun row hrow e he => hkeeps.employee (nothing_ne e)
        (hs.coherent.orchestrators row hrow e he)

/-- A new position. -/
theorem Intact.positions_append (hs : Intact s) {position : Position}
    (hnew : Tables.find Position.id s.positions position.id = none)
    (hcoherent : PositionCoherent s position)
    (hparent : ∀ target, position.managerPositionId = some target →
      organizationOf (s.nodes .positions) target = some position.organizationId) :
    Intact { s with positions := s.positions ++ [position] } := by
  have hkeeps := keeps_positions_append (s := s) position
  obtain ⟨hdepartments, hteams, hpositions, horchestrators⟩ := hs.coherent.keep hkeeps
  refine ⟨{ hs.keyed with positions := Tables.nodup_append hs.keyed.positions hnew }, ?_,
    ⟨hdepartments, hteams, ?_, horchestrators⟩⟩
  · rintro (_ | _)
    · show Tended ((s.positions ++ [position]).map Position.node)
      rw [List.map_append]
      refine (hs.hierarchies .positions).append ?_ hparent
      exact (organizationOf_positions s position.id).trans (Option.map_eq_none_iff.mpr hnew)
    · exact hs.hierarchies .departments
  · refine List.forall_mem_append.mpr ⟨hpositions, List.forall_mem_singleton.mpr ?_⟩
    exact hcoherent.keep hkeeps (fun id _ => nothing_ne id) (fun id _ => nothing_ne id)
      fun id _ => nothing_ne id

/-- A position that stays in its workforce, or has no reports. -/
theorem Intact.positions_write (hs : Intact s) {f : Position → Position} {old : Position}
    {parent : DtoField Str} (hid : ∀ row, (f row).id = row.id)
    (hold : Tables.find Position.id s.positions id = some old)
    (hcoherent : PositionCoherent s (f old))
    (hself : (f old).managerPositionId ≠ some id)
    (hplace : (f old).workforceInstanceId ≠ old.workforceInstanceId →
      ∀ position ∈ s.positions, position.managerPositionId ≠ some id)
    (hf : ∀ row, (f row).node = row.node.under (parent.setNullable row.node.parent))
    (hhung : Hung (s.nodes .positions) id organizationId parent) :
    Intact { s with positions := Tables.write Position.id s.positions id f } := by
  have hkeyed : Keyed { s with positions := Tables.write Position.id s.positions id f } :=
    { hs.keyed with
      positions := by
        rw [Tables.map_key_write hid]
        exact hs.keyed.positions }
  have htended : ∀ hierarchy, Tended (Store.nodes
      { s with positions := Tables.write Position.id s.positions id f } hierarchy) := by
    rintro (_ | _)
    · exact (hs.hierarchies .positions).map_write (fun _ => rfl) hf hhung
    · exact hs.hierarchies .departments
  by_cases hsame : (f old).workforceInstanceId = old.workforceInstanceId
  · have hkeeps := keeps_positions_write_in_place hid hold hsame
    obtain ⟨hdepartments, hteams, hpositions, horchestrators⟩ := hs.coherent.keep hkeeps
    refine ⟨hkeyed, htended, ⟨hdepartments, hteams, ?_, horchestrators⟩⟩
    exact forall_mem_write hs.keyed.positions hold
      (hcoherent.keep hkeeps (fun id _ => nothing_ne id) (fun id _ => nothing_ne id)
        fun id _ => nothing_ne id) fun row hrow _ => hpositions row hrow
  · have hkeeps := keeps_positions_write (s := s) id hid
    refine ⟨hkeyed, htended, ?_, ?_, ?_, ?_⟩
    · exact fun row hrow =>
        (hs.coherent.departments row hrow).keep hkeeps fun id _ => nothing_ne id
    · exact fun row hrow => (hs.coherent.teams row hrow).keep hkeeps fun id _ => nothing_ne id
    · refine forall_mem_write hs.keyed.positions hold ?_ fun row hrow _ => ?_
      · refine hcoherent.keep hkeeps (fun id _ => nothing_ne id) (fun above habove he => ?_)
          fun id _ => nothing_ne id
        exact hself (habove.trans he.symm)
      · refine (hs.coherent.positions row hrow).keep hkeeps (fun id _ => nothing_ne id)
          (fun above habove he => ?_) fun id _ => nothing_ne id
        exact hplace hsame row hrow (habove.trans he.symm)
    · exact fun row hrow e he => hkeeps.employee (nothing_ne e)
        (hs.coherent.orchestrators row hrow e he)

theorem keyed_assignEmployee (hs : Keyed s) (id : Str) (target : Option Str) :
    Keyed (s.assignEmployee id target) :=
  { hs with
    employees := by
      have hid : ∀ row : DigitalEmployee, (row.assign target).id = row.id := fun _ => rfl
      rw [Store.assignEmployee, Tables.map_key_write hid]
      exact hs.employees }

theorem Intact.assign_of_keeps (hs : Intact s) {target : Option Str}
    (hkeeps : Keeps nothingMoved s (s.assignEmployee id target)) :
    Intact (s.assignEmployee id target) := by
  obtain ⟨hdepartments, hteams, hpositions, horchestrators⟩ := hs.coherent.keep hkeeps
  exact ⟨keyed_assignEmployee hs.keyed id target, hs.hierarchies,
    ⟨hdepartments, hteams, hpositions, horchestrators⟩⟩

/-- An employee who stays in a workforce, or has no office. -/
theorem Intact.assign (hs : Intact s) {target : Option Str} {old : DigitalEmployee}
    (hold : Tables.find DigitalEmployee.id s.employees id = some old)
    (hplace : target ≠ old.workforceInstanceId → NoOffice s id) :
    Intact (s.assignEmployee id target) := by
  by_cases hsame : target = old.workforceInstanceId
  · exact hs.assign_of_keeps (keeps_employees_in_place hold hsame)
  · obtain ⟨hdepartments, hteams, hpositions, hworkforces⟩ := hplace hsame
    have hkeeps := keeps_assignEmployee (s := s) id target
    refine ⟨keyed_assignEmployee hs.keyed id target, hs.hierarchies, ?_, ?_, ?_, ?_⟩
    · exact fun row hrow => (hs.coherent.departments row hrow).keep hkeeps fun e he hid =>
        hdepartments row hrow (he.trans hid.symm)
    · exact fun row hrow => (hs.coherent.teams row hrow).keep hkeeps fun e he hid =>
        hteams row hrow (he.trans hid.symm)
    · exact fun row hrow => (hs.coherent.positions row hrow).keep hkeeps
        (fun id _ => nothing_ne id) (fun id _ => nothing_ne id) fun e he hid =>
          hpositions row hrow (he.trans hid.symm)
    · exact fun row hrow e he => hkeeps.employee
        (fun hid => hworkforces row hrow (he.trans hid.symm))
        (hs.coherent.orchestrators row hrow e he)

/-- Other workforces, with their orchestrators among their members. -/
theorem Intact.workforces (hs : Intact s) {workforces : List WorkforceInstance}
    (hkeys : (workforces.map WorkforceInstance.id).Nodup)
    (hfound : ∀ id old, Tables.find WorkforceInstance.id s.workforces id = some old →
      ∃ row, Tables.find WorkforceInstance.id workforces id = some row ∧
        row.organizationId = old.organizationId)
    (horchestrators : ∀ workforce ∈ workforces, ∀ id,
      workforce.orchestratorEmployeeId = some id → EmployeeIn s id workforce.id) :
    Intact { s with workforces := workforces } := by
  have hkeeps : Keeps nothingMoved s { s with workforces := workforces } := by
    refine ⟨?_, fun _ h => h, fun h => h, fun _ h => h, fun _ h => h⟩
    rintro id organizationId ⟨old, hold, rfl⟩
    exact hfound id old hold
  obtain ⟨hdepartments, hteams, hpositions, -⟩ := hs.coherent.keep hkeeps
  exact ⟨{ hs.keyed with workforces := hkeys }, hs.hierarchies,
    ⟨hdepartments, hteams, hpositions, horchestrators⟩⟩

section ClearDefault

variable {isDefault : DtoField Bool} {workforces : List WorkforceInstance} {row : WorkforceInstance}

theorem map_clearDefault {β : Type} (view : WorkforceInstance → β)
    (hview : ∀ row : WorkforceInstance, view { row with isDefault := false } = view row) :
    (clearDefault organizationId isDefault workforces).map view = workforces.map view := by
  unfold clearDefault
  split
  · rw [List.map_map]
    refine List.map_congr_left fun row _ => ?_
    rw [Function.comp_apply]
    split
    · exact hview row
    · rfl
  · rfl

/-- What matters of a workforce does not change with the default. -/
theorem find_clearDefault :
    (Tables.find WorkforceInstance.id (clearDefault organizationId isDefault workforces) id).map
        (fun row => (row.id, row.organizationId, row.orchestratorEmployeeId)) =
      (Tables.find WorkforceInstance.id workforces id).map
        fun row => (row.id, row.organizationId, row.orchestratorEmployeeId) := by
  rw [← Tables.find_map Prod.fst fun _ => rfl,
    ← Tables.find_map Prod.fst fun _ => rfl, map_clearDefault _ fun _ => rfl]

theorem mem_clearDefault (h : row ∈ clearDefault organizationId isDefault workforces) :
    ∃ old ∈ workforces, old.id = row.id ∧
      old.orchestratorEmployeeId = row.orchestratorEmployeeId := by
  have hmem := List.mem_map_of_mem (f := fun row : WorkforceInstance =>
    (row.id, row.orchestratorEmployeeId)) h
  rw [map_clearDefault _ fun _ => rfl] at hmem
  obtain ⟨old, hold, hsame⟩ := List.mem_map.mp hmem
  exact ⟨old, hold, (Prod.mk.inj hsame).1, (Prod.mk.inj hsame).2⟩

end ClearDefault

end Writes

end Structure
