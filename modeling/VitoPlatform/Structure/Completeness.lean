import VitoPlatform.Structure.Chart

/-!
# The chart is complete

The rows of a workforce of an intact structure refer to rows of the same workforce only. So the
trees of the chart reach every one of them, and reach it once.
-/

namespace Structure

open Text Concurrent Services Forest Trees List

section Rows

variable {s : Store} {collation : Str → Str → Bool} {organizationId workforceInstanceId id : Str}
variable {department : Department} {team : Team} {position : Position}

theorem loadDepartments_perm : loadDepartments collation s organizationId workforceInstanceId ~
    s.departments.filter fun department => department.organizationId = organizationId ∧
      department.workforceInstanceId = workforceInstanceId :=
  mergeSort_perm _ _

theorem loadTeams_perm : loadTeams collation s organizationId workforceInstanceId ~
    s.teams.filter fun team => team.organizationId = organizationId ∧
      team.workforceInstanceId = workforceInstanceId :=
  mergeSort_perm _ _

theorem loadPositions_perm : loadPositions collation s organizationId workforceInstanceId ~
    s.positions.filter fun position => position.organizationId = organizationId ∧
      position.workforceInstanceId = workforceInstanceId :=
  mergeSort_perm _ _

theorem mem_loadDepartments :
    department ∈ loadDepartments collation s organizationId workforceInstanceId ↔
      department ∈ s.departments ∧ department.organizationId = organizationId ∧
        department.workforceInstanceId = workforceInstanceId := by
  rw [loadDepartments_perm.mem_iff, mem_filter, decide_eq_true_eq]

theorem mem_loadTeams : team ∈ loadTeams collation s organizationId workforceInstanceId ↔
    team ∈ s.teams ∧ team.organizationId = organizationId ∧
      team.workforceInstanceId = workforceInstanceId := by
  rw [loadTeams_perm.mem_iff, mem_filter, decide_eq_true_eq]

theorem mem_loadPositions :
    position ∈ loadPositions collation s organizationId workforceInstanceId ↔
      position ∈ s.positions ∧ position.organizationId = organizationId ∧
        position.workforceInstanceId = workforceInstanceId := by
  rw [loadPositions_perm.mem_iff, mem_filter, decide_eq_true_eq]

/-- Some rows of a table, in another order, have unique keys. -/
theorem nodup_of_perm_filter {α : Type} {key : α → Str} {rows loaded : List α} {p : α → Bool}
    (hkeys : (rows.map key).Nodup) (h : loaded ~ rows.filter p) : (loaded.map key).Nodup :=
  (h.map key).nodup_iff.mpr (hkeys.sublist (filter_sublist.map key))

/-- Two organizations of one workforce are the same. -/
theorem organization_unique {a b w : Str} (ha : WorkforceOf s w a) (hb : WorkforceOf s w b) :
    a = b := by
  obtain ⟨row, hrow, rfl⟩ := ha
  obtain ⟨row', hrow', rfl⟩ := hb
  rw [Option.some.inj (hrow.symm.trans hrow')]

variable (hs : Intact s)
include hs

variable (collation organizationId workforceInstanceId) in
theorem nodup_loadDepartments :
    ((loadDepartments collation s organizationId workforceInstanceId).map Department.id).Nodup :=
  nodup_of_perm_filter hs.keyed.departments loadDepartments_perm

variable (collation organizationId workforceInstanceId) in
theorem nodup_loadTeams :
    ((loadTeams collation s organizationId workforceInstanceId).map Team.id).Nodup :=
  nodup_of_perm_filter hs.keyed.teams loadTeams_perm

variable (collation organizationId workforceInstanceId) in
theorem nodup_loadPositions :
    ((loadPositions collation s organizationId workforceInstanceId).map Position.id).Nodup :=
  nodup_of_perm_filter hs.keyed.positions loadPositions_perm

/-- A department of the workforce is loaded. -/
theorem departmentIn_loaded (h : DepartmentIn s id workforceInstanceId)
    (hworkforce : WorkforceOf s workforceInstanceId organizationId) :
    ∃ row ∈ loadDepartments collation s organizationId workforceInstanceId, row.id = id := by
  obtain ⟨row, hrow, hin⟩ := h
  obtain ⟨hmem, hid⟩ := Tables.find_some hrow
  have hrowOf := (hs.coherent.departments row hmem).workforce
  rw [hin] at hrowOf
  exact ⟨row, mem_loadDepartments.mpr ⟨hmem, organization_unique hrowOf hworkforce, hin⟩, hid⟩

theorem teamIn_loaded {departmentId : Str} (h : TeamIn s id departmentId workforceInstanceId)
    (hworkforce : WorkforceOf s workforceInstanceId organizationId) :
    ∃ row ∈ loadTeams collation s organizationId workforceInstanceId,
      row.id = id ∧ row.departmentId = departmentId := by
  obtain ⟨row, hrow, hdepartment, hin⟩ := h
  obtain ⟨hmem, hid⟩ := Tables.find_some hrow
  have hrowOf := (hs.coherent.teams row hmem).workforce
  rw [hin] at hrowOf
  exact ⟨row, mem_loadTeams.mpr ⟨hmem, organization_unique hrowOf hworkforce, hin⟩, hid,
    hdepartment⟩

theorem positionIn_loaded (h : PositionIn s id workforceInstanceId)
    (hworkforce : WorkforceOf s workforceInstanceId organizationId) :
    ∃ row ∈ loadPositions collation s organizationId workforceInstanceId, row.id = id := by
  obtain ⟨row, hrow, hin⟩ := h
  obtain ⟨hmem, hid⟩ := Tables.find_some hrow
  have hrowOf := (hs.coherent.positions row hmem).workforce
  rw [hin] at hrowOf
  exact ⟨row, mem_loadPositions.mpr ⟨hmem, organization_unique hrowOf hworkforce, hin⟩, hid⟩

variable (collation organizationId workforceInstanceId) in
/-- The department tree lists the departments of the workforce. -/
theorem flatten_departmentTree {β : Type} (view : Department → β) :
    flattenAll (trees Department.id Department.parentDepartmentId
      (loadDepartments collation s organizationId workforceInstanceId) view) ~
        (loadDepartments collation s organizationId workforceInstanceId).map view := by
  refine flattenAll_trees (nodup_loadDepartments _ _ _ hs) (forest_of_subset hs.keyed.departments
    (fun row hrow => (mem_loadDepartments.mp hrow).1) ?_) view fun row hrow id hid => ?_
  · have hforest := (hs.hierarchies .departments).forest
    have hparent : parentOf (s.nodes .departments) =
        parent Department.id Department.parentDepartmentId s.departments := by
      funext id
      rw [parentOf, Store.nodes, Tables.find_map Node.id fun _ => rfl, Option.bind_map]
      rfl
    rwa [hparent] at hforest
  · obtain ⟨hmem, rfl, rfl⟩ := mem_loadDepartments.mp hrow
    have hcoherent := hs.coherent.departments row hmem
    exact departmentIn_loaded hs (hcoherent.parent id hid) hcoherent.workforce

/-- The reporting tree lists the positions of the workforce. -/
theorem flatten_reportingTree {β : Type} (view : Position → β) :
    flattenAll (trees Position.id Position.managerPositionId
      (loadPositions collation s organizationId workforceInstanceId) view) ~
        (loadPositions collation s organizationId workforceInstanceId).map view := by
  refine flattenAll_trees (nodup_loadPositions _ _ _ hs) (forest_of_subset hs.keyed.positions
    (fun row hrow => (mem_loadPositions.mp hrow).1) ?_) view fun row hrow id hid => ?_
  · have hforest := (hs.hierarchies .positions).forest
    have hparent : parentOf (s.nodes .positions) =
        parent Position.id Position.managerPositionId s.positions := by
      funext id
      rw [parentOf, Store.nodes, Tables.find_map Node.id fun _ => rfl, Option.bind_map]
      rfl
    rwa [hparent] at hforest
  · obtain ⟨hmem, rfl, rfl⟩ := mem_loadPositions.mp hrow
    have hcoherent := hs.coherent.positions row hmem
    exact positionIn_loaded hs (hcoherent.manager id hid) hcoherent.workforce

variable (collation organizationId workforceInstanceId) in
/-- Every team of the workforce is in one of its departments. -/
theorem group_teams :
    (loadDepartments collation s organizationId workforceInstanceId).flatMap (fun department =>
      (loadTeams collation s organizationId workforceInstanceId).filter fun team =>
        team.departmentId = department.id) ~
      loadTeams collation s organizationId workforceInstanceId := by
  have hkeys : ((loadDepartments collation s organizationId workforceInstanceId).map
    Department.id).Nodup := nodup_loadDepartments _ _ _ hs
  have hgroup := group_perm (fun team : Team => some team.departmentId) hkeys
    (loadTeams collation s organizationId workforceInstanceId) fun team hteam => ?_
  · simpa only [Option.some.injEq] using hgroup
  · obtain ⟨hmem, rfl, rfl⟩ := mem_loadTeams.mp hteam
    have hcoherent := hs.coherent.teams team hmem
    obtain ⟨row, hrow, hid⟩ := departmentIn_loaded hs hcoherent.department hcoherent.workforce
    exact ⟨row, hrow, congrArg some hid.symm⟩

/-- Every position of the workforce that is in a team is in one of its teams. -/
theorem group_team_positions :
    (loadTeams collation s organizationId workforceInstanceId).flatMap (fun team =>
      (loadPositions collation s organizationId workforceInstanceId).filter fun position =>
        position.teamId = some team.id) ~
      (loadPositions collation s organizationId workforceInstanceId).filter fun position =>
        position.teamId.isSome := by
  have hkeys : ((loadTeams collation s organizationId workforceInstanceId).map Team.id).Nodup :=
    nodup_loadTeams _ _ _ hs
  have hgroup := group_perm Position.teamId hkeys
    ((loadPositions collation s organizationId workforceInstanceId).filter fun position =>
      position.teamId.isSome) fun position hposition => ?_
  · refine (Perm.of_eq (flatMap_congr fun team _ => ?_)).trans hgroup
    rw [filter_filter]
    refine filter_congr fun position _ => ?_
    by_cases hteam : position.teamId = some team.id <;> simp [hteam]
  · obtain ⟨hposition, hteam⟩ := mem_filter.mp hposition
    obtain ⟨id, hid⟩ := Option.isSome_iff_exists.mp hteam
    obtain ⟨hmem, rfl, rfl⟩ := mem_loadPositions.mp hposition
    have hcoherent := hs.coherent.positions position hmem
    obtain ⟨departmentId, -, hin⟩ := hcoherent.team id hid
    obtain ⟨row, hrow, hrowId, -⟩ := teamIn_loaded hs hin hcoherent.workforce
    exact ⟨row, hrow, hid.trans (congrArg some hrowId.symm)⟩

variable (collation organizationId workforceInstanceId) in
/-- Every position that is in a department, but not in a team, is in one of the departments. -/
theorem group_department_positions :
    (loadDepartments collation s organizationId workforceInstanceId).flatMap (fun department =>
      (loadPositions collation s organizationId workforceInstanceId).filter fun position =>
        position.departmentId = some department.id ∧ position.teamId = none) ~
      (loadPositions collation s organizationId workforceInstanceId).filter fun position =>
        position.departmentId.isSome ∧ position.teamId = none := by
  have hkeys : ((loadDepartments collation s organizationId workforceInstanceId).map
    Department.id).Nodup := nodup_loadDepartments _ _ _ hs
  have hgroup := group_perm Position.departmentId hkeys
    ((loadPositions collation s organizationId workforceInstanceId).filter fun position =>
      position.departmentId.isSome ∧ position.teamId = none) fun position hposition => ?_
  · refine (Perm.of_eq (flatMap_congr fun department _ => ?_)).trans hgroup
    rw [filter_filter]
    refine filter_congr fun position _ => ?_
    by_cases hdepartment : position.departmentId = some department.id <;> simp [hdepartment]
  · obtain ⟨hposition, hdepartment⟩ := mem_filter.mp hposition
    obtain ⟨id, hid⟩ := Option.isSome_iff_exists.mp (of_decide_eq_true hdepartment).1
    obtain ⟨hmem, rfl, rfl⟩ := mem_loadPositions.mp hposition
    have hcoherent := hs.coherent.positions position hmem
    obtain ⟨row, hrow, hrowId⟩ :=
      departmentIn_loaded hs (hcoherent.department id hid) hcoherent.workforce
    exact ⟨row, hrow, hid.trans (congrArg some hrowId.symm)⟩

/-- A position that is in a team is in a department. -/
theorem filter_unassigned :
    (loadPositions collation s organizationId workforceInstanceId).filter (fun position =>
      position.departmentId = none) =
    ((loadPositions collation s organizationId workforceInstanceId).filter fun position =>
      !position.teamId.isSome).filter fun position => !position.departmentId.isSome := by
  rw [filter_filter]
  refine filter_congr fun position hposition => ?_
  cases hteam : position.teamId with
  | none => cases position.departmentId <;> rfl
  | some id =>
      obtain ⟨departmentId, hdepartment, -⟩ :=
        (hs.coherent.positions position (mem_loadPositions.mp hposition).1).team id hteam
      rw [hdepartment]
      rfl

/-- Every position of the workforce is in one place of its departments, or in none. -/
theorem group_positions :
    (loadDepartments collation s organizationId workforceInstanceId).flatMap (fun department =>
        ((loadPositions collation s organizationId workforceInstanceId).filter fun position =>
          position.departmentId = some department.id ∧ position.teamId = none) ++
        ((loadTeams collation s organizationId workforceInstanceId).filter fun team =>
          team.departmentId = department.id).flatMap fun team =>
            (loadPositions collation s organizationId workforceInstanceId).filter fun position =>
              position.teamId = some team.id) ++
      (loadPositions collation s organizationId workforceInstanceId).filter (fun position =>
        position.departmentId = none) ~
      loadPositions collation s organizationId workforceInstanceId := by
  have hteams := ((group_teams collation organizationId workforceInstanceId hs).flatMap_right
    fun team => (loadPositions collation s organizationId workforceInstanceId).filter
      fun position => position.teamId = some team.id).trans (group_team_positions hs)
  rw [flatMap_assoc] at hteams
  have hdepartments :=
    group_department_positions collation organizationId workforceInstanceId hs
  refine ((flatMap_append_perm _ _ _).symm.trans (hdepartments.append hteams)).append_right _
    |>.trans ?_
  -- Those in a team, and those in none: in a department, or unassigned.
  rw [filter_unassigned hs]
  refine (perm_append_comm.append_right _).trans ?_
  rw [append_assoc]
  refine Perm.trans (Perm.append_left _ ?_)
    (filter_append_perm (fun position : Position => position.teamId.isSome)
      (loadPositions collation s organizationId workforceInstanceId))
  refine Perm.trans (Perm.append_right _ (Perm.of_eq ?_))
    (filter_append_perm (fun position : Position => position.departmentId.isSome) _)
  rw [filter_filter]
  refine filter_congr fun position _ => ?_
  cases position.teamId <;> cases position.departmentId <;> rfl

end Rows

section Charts

variable {s : Store} {collation : Str → Str → Bool} {organizationId workforceInstanceId : Str}
variable {chart : Chart}

theorem ListsOnce.of_perm {α : Type} {listed : List Str} {id : α → Str} {rows loaded : List α}
    (hkeys : (loaded.map id).Nodup) (hloaded : loaded ~ rows) (h : listed ~ loaded.map id) :
    ListsOnce listed id rows := by
  refine ⟨h.nodup_iff.mpr hkeys, fun x => ?_⟩
  rw [h.mem_iff, (hloaded.map id).mem_iff, mem_map]

/-- The positions of a department node. -/
theorem members_departmentNode (s : Store) (teams : List Team) (positions : List Position)
    (department : Department) :
    (departmentNode s teams positions department).members.map PositionNode.id =
      ((positions.filter fun position =>
        position.departmentId = some department.id ∧ position.teamId = none) ++
      (teams.filter fun team => team.departmentId = department.id).flatMap fun team =>
        positions.filter fun position => position.teamId = some team.id).map Position.id := by
  have hid : PositionNode.id ∘ toPositionNode s = Position.id := rfl
  have hteam : (fun team => (teamNode s positions team).positions.map PositionNode.id) =
      fun team => (positions.filter fun position => position.teamId = some team.id).map
        Position.id := by
    funext team
    rw [teamNode, map_map, hid]
  rw [DepartmentNode.members, departmentNode, map_append, map_append, map_map, hid, flatMap_map,
    map_flatMap, map_flatMap]
  exact congrArg (_ ++ flatMap · _) hteam

/-- The chart of an intact structure shows all of a workforce. -/
theorem complete_of_intact (hs : Intact s)
    (h : getChart collation organizationId workforceInstanceId s = .ok chart) :
    chart.Complete s organizationId workforceInstanceId := by
  unfold getChart at h
  dsimp only at h
  split at h
  · cases h
  · cases h
    have hdepartments := flatten_departmentTree collation organizationId workforceInstanceId hs
      (departmentNode s (loadTeams collation s organizationId workforceInstanceId)
        (loadPositions collation s organizationId workforceInstanceId))
    refine ⟨?_, ?_, ?_, ?_⟩
    · refine .of_perm (nodup_loadDepartments collation _ _ hs) loadDepartments_perm
        ((hdepartments.map DepartmentNode.id).trans (Perm.of_eq ?_))
      rw [map_map]
      rfl
    · refine .of_perm (nodup_loadTeams collation _ _ hs) loadTeams_perm
        (((hdepartments.flatMap_right _).trans (Perm.of_eq ?_)).trans
          ((group_teams collation organizationId workforceInstanceId hs).map Team.id))
      rw [flatMap_map, map_flatMap]
      exact flatMap_congr fun department _ => map_map
    · refine .of_perm (nodup_loadPositions collation _ _ hs) loadPositions_perm
        (((flatten_reportingTree hs _).map PositionNode.id).trans (Perm.of_eq ?_))
      rw [map_map]
      rfl
    · refine .of_perm (nodup_loadPositions collation _ _ hs) loadPositions_perm
        ((((hdepartments.flatMap_right _).append_right _).trans (Perm.of_eq ?_)).trans
          ((group_positions hs).map Position.id))
      rw [map_append, map_flatMap, flatMap_map, map_map]
      congr 1
      exact flatMap_congr fun department _ => members_departmentNode s _ _ department

end Charts

section Runs

variable {fuel : Nat} {calls : List Call} {store : Store} {moves : List Move}
variable {s : System Store Choice HttpError Unit}

/-- In a sequential run whose calls move no row that others count on, the structure is coherent in
every state, and the charts are complete. -/
theorem structure_stays (h : Run fuel calls store moves s) (hsequential : Sequential moves)
    (hstore : Intact store)
    (hloose : ∀ m ∈ moves, ∀ call, calls[m.input.1]? = some call → call.Loose m.before.store) :
    Coherent s.store ∧ ∀ collation organizationId workforceInstanceId chart,
      getChart collation organizationId workforceInstanceId s.store = .ok chart →
        chart.Complete s.store organizationId workforceInstanceId := by
  have hintact := intact_stays h hsequential hstore hloose
  exact ⟨hintact.coherent, fun _ _ _ _ hchart => complete_of_intact hintact hchart⟩

end Runs

section Examples

private def teamOfStore (id : Str) : Team where
  id := id
  organizationId := "org".toList
  workforceInstanceId := "core".toList
  departmentId := "law".toList
  managerEmployeeId := none
  code := id
  name := id

private def lawyer : Position where
  id := "lawyer".toList
  organizationId := "org".toList
  workforceInstanceId := "core".toList
  departmentId := some "law".toList
  teamId := some "contracts".toList
  organizationRoleId := "role".toList
  managerPositionId := none
  occupantEmployeeId := none
  code := "lawyer".toList
  title := "Lawyer".toList
  status := .opened
  isLeadership := false

private def department (id workforceInstanceId : Str) : Department where
  id := id
  organizationId := "org".toList
  workforceInstanceId := workforceInstanceId
  parentDepartmentId := none
  managerEmployeeId := none
  code := id
  name := id

/-- Two workforces with a department each; the first one has two teams, and a position in one. -/
private def teamStore : Store where
  workforces :=
    [⟨"core".toList, "org".toList, "core".toList, "Core".toList, true, none⟩,
      ⟨"lab".toList, "org".toList, "lab".toList, "Lab".toList, false, none⟩]
  roles := [⟨"role".toList, "org".toList⟩]
  employees := []
  departments := [department "law".toList "core".toList, department "research".toList "lab".toList]
  teams := [teamOfStore "contracts".toList, teamOfStore "patents".toList]
  positions := [lawyer]
  walked := []

private theorem teamStore_tended (hierarchy : Hierarchy) : Tended (teamStore.nodes hierarchy) := by
  have hparent : ∀ id, parentOf (teamStore.nodes hierarchy) id = none := by
    intro id
    unfold parentOf
    cases hfound : Tables.find Node.id (teamStore.nodes hierarchy) id with
    | none => rfl
    | some node =>
        have hroots : ∀ node ∈ teamStore.nodes hierarchy, node.parent = none := by
          cases hierarchy <;> decide
        exact hroots node (Tables.find_some hfound).1
  refine ⟨⟨by cases hierarchy <;> decide, fun a b hab => ?_⟩, fun a hloop => ?_⟩
  · cases (hparent a).symm.trans hab
  · obtain ⟨b, hab, -⟩ := Relation.TransGen.head'_iff.mp hloop
    cases (hparent a).symm.trans hab

private theorem teamStore_intact : Intact teamStore := by
  refine ⟨⟨by decide, by decide, by decide, by decide, by decide⟩, teamStore_tended, ?_⟩
  have hcore : WorkforceOf teamStore "core".toList "org".toList := ⟨_, rfl, rfl⟩
  have hlab : WorkforceOf teamStore "lab".toList "org".toList := ⟨_, rfl, rfl⟩
  have hlaw : DepartmentIn teamStore "law".toList "core".toList := ⟨_, rfl, rfl⟩
  have hcontracts : TeamIn teamStore "contracts".toList "law".toList "core".toList :=
    ⟨_, rfl, rfl, rfl⟩
  refine ⟨?_, ?_, ?_, ?_⟩
  · refine List.forall_mem_cons.mpr ⟨⟨hcore, nofun, nofun⟩, List.forall_mem_singleton.mpr ?_⟩
    exact ⟨hlab, nofun, nofun⟩
  · refine List.forall_mem_cons.mpr ⟨⟨hcore, hlaw, nofun⟩, List.forall_mem_singleton.mpr ?_⟩
    exact ⟨hcore, hlaw, nofun⟩
  · refine List.forall_mem_singleton.mpr ⟨hcore, ?_, ?_, nofun, nofun⟩
    · rintro _ ⟨⟩
      exact ⟨_, rfl, hcontracts⟩
    · rintro _ ⟨⟩
      exact hlaw
  · refine List.forall_mem_cons.mpr ⟨nofun, List.forall_mem_singleton.mpr nofun⟩

private def moveTeam (id : Str) : Call :=
  .updateTeam "org".toList id ⟨.value "research".toList, .absent, .absent⟩

private def movedTeam (id : Str) : List Move × System Store Choice HttpError Unit :=
  Machine.execute System.step ⟨teamStore, programs 0 [moveTeam id]⟩
    (List.replicate 3 (0, ⟨false, [], 0⟩))

/-- A team without positions goes to another workforce. -/
theorem structure_stays_patents :
    Coherent (movedTeam "patents".toList).2.store ∧
      ∀ collation organizationId workforceInstanceId chart,
        getChart collation organizationId workforceInstanceId (movedTeam "patents".toList).2.store =
            .ok chart →
          chart.Complete (movedTeam "patents".toList).2.store organizationId
            workforceInstanceId := by
  refine structure_stays (Machine.run_execute _ _ _) (by decide) teamStore_intact ?_
  intro m hm call hcall
  have hmoves : ∀ m ∈ (movedTeam "patents".toList).1, m.input.1 = 0 ∧
      (∀ position ∈ m.before.store.positions, position.teamId ≠ some "patents".toList) ∧
        ∀ team ∈ m.before.store.teams, team.managerEmployeeId = none := by
    decide
  obtain ⟨hsession, hpositions, hteams⟩ := hmoves m hm
  rw [hsession] at hcall
  obtain rfl : moveTeam "patents".toList = call := Option.some.inj hcall
  intro old department hold _
  exact ⟨fun _ => hpositions, fun _ _ => hteams old (teamIn_some hold).1⟩

/-- A team goes to another workforce without its position. -/
theorem not_structure_stays_contracts :
    ¬ ∀ fuel calls store moves s, Run fuel calls store moves s → Sequential moves →
      Intact store → Coherent s.store ∧ ∀ collation organizationId workforceInstanceId chart,
        getChart collation organizationId workforceInstanceId s.store = .ok chart →
          chart.Complete s.store organizationId workforceInstanceId := by
  intro h
  obtain ⟨hcoherent, -⟩ := h 0 _ teamStore _ (movedTeam "contracts".toList).2
    (Machine.run_execute _ _ _) (by decide) teamStore_intact
  have hmem : lawyer ∈ (movedTeam "contracts".toList).2.store.positions := by decide
  obtain ⟨_, ⟨⟩, row, hrow, hdepartment, -⟩ := (hcoherent.positions lawyer hmem).team _ rfl
  have hmoved : (Tables.find Team.id (movedTeam "contracts".toList).2.store.teams
      "contracts".toList).map Team.departmentId = some "research".toList := by
    decide
  rw [hrow, Option.map_some, Option.some.injEq, hdepartment] at hmoved
  exact absurd hmoved (by decide)

end Examples

end Structure
