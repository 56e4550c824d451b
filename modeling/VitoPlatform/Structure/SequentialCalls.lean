import VitoPlatform.Structure.Coherence

/-!
# Calls one after another

When nobody else does anything, what a call has read is so when it writes, and a row that passes
the checks is coherent. So every step of a sequential run whose calls move no row that others count
on keeps the whole invariant.
-/

namespace Structure

open Text Concurrent Services Services.Steps Forest

/-- Calls that are alone, under a condition on each. -/
def soloSteps (loose : Nat → Store → Prop) : Steps Store where
  inv _ := True
  does i s t := Intact s → loose i s → Intact t
  rely _ _ _ := False
  records _ s t := ∃ walked, t = { s with walked := s.walked ++ [walked] }
  refl _ _ hs _ := hs
  keeps _ _ := trivial
  between _ _ := trivial

section Programs

variable {s : Store} {i fuel : Nat} {organizationId id : Str} {loose : Nat → Store → Prop}

/-- What a call has read is so, unless it is about the records of reads. -/
theorem now {F : Store → Prop} (h : Read (soloSteps loose) i s F)
    (hF : ∀ s walked, F s → F { s with walked := walked }) : F s := by
  refine h.now (fun _ _ h => h) ?_
  rintro s t - hs (hfalse | ⟨walked, rfl⟩)
  · exact hfalse.elim
  · exact hF s _ hs

theorem Checked.now {reference : Option Str} {found : Store → Str → Bool}
    (h : Checked (soloSteps loose) i reference found s)
    (hfound : ∀ s walked x, found { s with walked := walked } x = found s x) :
    ∀ x, reference = some x → found s x = true :=
  fun x hx => Structure.now (h x hx) fun s walked h => (hfound s walked x).trans h

theorem walked_solo (walked : Walked) : (soloSteps loose).Stable i fun s => walked ∈ s.walked := by
  rintro s t - hmem (hfalse | ⟨other, rfl⟩)
  · exact hfalse.elim
  · exact List.mem_append_left _ hmem

theorem Intact.record (hs : Intact s) (walked : Walked) :
    Intact { s with walked := s.walked ++ [walked] } := by
  have hkeeps : Keeps nothingMoved s { s with walked := s.walked ++ [walked] } :=
    ⟨fun h => h, fun _ h => h, fun h => h, fun _ h => h, fun _ h => h⟩
  obtain ⟨hdepartments, hteams, hpositions, horchestrators⟩ := hs.coherent.keep hkeeps
  exact ⟨{ hs.keyed with }, hs.hierarchies, ⟨hdepartments, hteams, hpositions, horchestrators⟩⟩

theorem recordsReads_solo : RecordsReads (soloSteps loose) i :=
  fun _ walked _ _ => ⟨fun hs _ => hs.record walked, walked, rfl⟩

theorem Intact.sound (hs : Intact s) : Sound s := fun hierarchy =>
  (hs.hierarchies hierarchy).wellFormed

/-- A way up that has been read. -/
theorem Climbs.now {hierarchy : Hierarchy} {self : Str} {target : Option Str}
    (h : Climbs (soloSteps loose) i hierarchy organizationId self target s) :
    Climb (fun id parent => s.parentIn hierarchy organizationId id = parent) self target :=
  h.mono fun id parent hread => by
    refine Structure.now hread fun s walked hparent => ?_
    cases hierarchy <;> exact hparent

/-- The last step of a call, from what it has read. -/
theorem solo_last {α : Type} {f : Choice → Store → Except HttpError α × Store} (A : Store → Prop)
    (stable : (soloSteps loose).Stable i A) (hA : A s)
    (step : ∀ c t, A t → Intact t → loose i t → Intact (f c t).2) :
    (soloSteps loose).Safe i (change f) s fun _ _ => True :=
  change_last A stable trivial hA fun t c _ hA ht hloose => step c t hA ht hloose

theorem insertDepartment_intact (hs : Intact s) {department : Department} {conflict : HttpError}
    (hcoherent : DepartmentCoherent s department)
    (hparent : ∀ target, department.parentDepartmentId = some target →
      organizationOf (s.nodes .departments) target = some department.organizationId) :
    Intact (s.insertDepartment department conflict).2 := by
  unfold Store.insertDepartment
  rcases checked_cases with h | ⟨htaken, -, h⟩ <;> rw [h]
  · exact hs
  · rw [Bool.or_eq_false_iff, Option.isSome_eq_false_iff, Option.isNone_iff_eq_none] at htaken
    exact hs.departments_append htaken.1 hcoherent hparent

theorem createDepartment_solo {dto : CreateDepartmentDto} :
    (soloSteps loose).Safe i (createDepartment organizationId dto) s fun _ _ => True := by
  refine query_read (fun _ => True) stable_true trivial trivial fun found t ht _ hread => ?_
  refine require_bind ht fun hfound => ?_
  subst hfound
  refine part_bind (whenSome_safe _ earlier_stable ht hread)
    fun _ t ⟨ht, hworkforce, hparent⟩ => ?_
  refine part_bind (whenSome_safe _ (earlier_stable.and checked_stable) ht ⟨hworkforce, hparent⟩)
    fun _ t ⟨ht, ⟨hworkforce, hparent⟩, hmanager⟩ => ?_
  refine solo_last _ ((earlier_stable.and checked_stable).and checked_stable)
    ⟨⟨hworkforce, hparent⟩, hmanager⟩ fun c t h ht _ => ?_
  obtain ⟨⟨hworkforce, hparent⟩, hmanager⟩ := h
  replace hworkforce : t.hasWorkforce organizationId dto.workforceInstanceId = true :=
    now hworkforce fun _ _ h => h
  replace hparent := hparent.now fun _ _ _ => rfl
  replace hmanager := hmanager.now fun _ _ _ => rfl
  refine insertDepartment_intact ht ⟨workforceOf_of_has ht.keyed hworkforce, ?_, ?_⟩ ?_
  · exact fun id hid => departmentIn_of_has ht.keyed (hparent id hid)
  · exact fun id hid => employeeIn_of_has ht.keyed (hmanager id hid)
  · exact fun id hid => organizationOf_of_hasDepartment ht.sound (hparent id hid)

theorem insertTeam_intact (hs : Intact s) {team : Team} {conflict : HttpError}
    (hcoherent : TeamCoherent s team) : Intact (s.insertTeam team conflict).2 := by
  unfold Store.insertTeam
  rcases checked_cases with h | ⟨htaken, -, h⟩ <;> rw [h]
  · exact hs
  · rw [Bool.or_eq_false_iff, Option.isSome_eq_false_iff, Option.isNone_iff_eq_none] at htaken
    exact hs.teams_append htaken.1 hcoherent

/-- The workforce of a department that has been found. -/
theorem workforceOf_of_department (hs : Intact s) {workforceInstanceId : Str}
    (h : s.hasDepartment organizationId workforceInstanceId id = true) :
    WorkforceOf s workforceInstanceId organizationId := by
  obtain ⟨row, hmem, hof⟩ := List.any_eq_true.mp h
  obtain ⟨-, rfl, rfl⟩ := of_decide_eq_true hof
  exact (hs.coherent.departments row hmem).workforce

theorem createTeam_solo {dto : CreateTeamDto} :
    (soloSteps loose).Safe i (createTeam organizationId dto) s fun _ _ => True := by
  refine part_bind (whenSome_safe (fun _ => True) stable_true trivial trivial)
    fun _ t ⟨ht, _, hdepartment⟩ => ?_
  refine part_bind (whenSome_safe _ checked_stable ht hdepartment)
    fun _ t ⟨ht, hdepartment, hmanager⟩ => ?_
  refine solo_last _ (checked_stable.and checked_stable) ⟨hdepartment, hmanager⟩ fun c t h ht _ => ?_
  have hdepartment := h.1.now (fun _ _ _ => rfl) _ rfl
  have hmanager := h.2.now fun _ _ _ => rfl
  exact insertTeam_intact ht ⟨workforceOf_of_department ht hdepartment,
    departmentIn_of_has ht.keyed hdepartment,
    fun id hid => employeeIn_of_has ht.keyed (hmanager id hid)⟩

/-- What a position is checked for makes it coherent. -/
theorem Validated.now {input : PositionContext} {departmentId : Option Str} (hs : Intact s)
    (h : Validated (soloSteps loose) i organizationId input departmentId s) :
    WorkforceOf s input.workforceInstanceId organizationId ∧
      (∀ id, input.teamId = some id → ∃ team : Team,
        departmentId = some team.departmentId ∧
          TeamIn s id team.departmentId input.workforceInstanceId) ∧
      (∀ id, departmentId = some id → DepartmentIn s id input.workforceInstanceId) ∧
      (∀ id, input.managerPositionId = some id → PositionIn s id input.workforceInstanceId ∧
        organizationOf (s.nodes .positions) id = some organizationId) ∧
      ∀ id, input.occupantEmployeeId = some id → EmployeeIn s id input.workforceInstanceId := by
  refine ⟨workforceOf_of_has hs.keyed (Structure.now h.workforce fun _ _ h => h), ?_, ?_, ?_, ?_⟩
  · intro id hid
    obtain ⟨team, hread, hdepartment⟩ := h.team id hid
    exact ⟨team, hdepartment, teamIn_of_teamOf hs.keyed (Structure.now hread fun _ _ h => h)⟩
  · exact fun id hid => departmentIn_of_has hs.keyed
      (Structure.now (h.department id hid) fun _ _ h => h)
  · intro id hid
    have hmanager := Structure.now (h.manager id hid) fun _ _ h => h
    exact ⟨positionIn_of_has hs.keyed hmanager, organizationOf_of_hasPosition hs.sound hmanager⟩
  · exact fun id hid => employeeIn_of_has hs.keyed
      (Structure.now (h.occupant id hid) fun _ _ h => h)

theorem insertPosition_intact (hs : Intact s) {position : Position} {conflict : HttpError}
    (hcoherent : PositionCoherent s position)
    (hparent : ∀ target, position.managerPositionId = some target →
      organizationOf (s.nodes .positions) target = some position.organizationId) :
    Intact (s.insertPosition position conflict).2 := by
  unfold Store.insertPosition
  rcases checked_cases with h | ⟨htaken, -, h⟩ <;> rw [h]
  · exact hs
  · rw [Bool.or_eq_false_iff, Option.isSome_eq_false_iff, Option.isNone_iff_eq_none] at htaken
    exact hs.positions_append htaken.1 hcoherent hparent

theorem validated_stable {steps : Steps Store} {input : PositionContext}
    {departmentId : Option Str} :
    steps.Stable i (Validated steps i organizationId input departmentId) := by
  intro s t hs h hbetween
  refine ⟨earlier_stable _ _ hs h.workforce hbetween, fun id hid => ?_, h.noTeam,
    fun id hid => earlier_stable _ _ hs (h.department id hid) hbetween,
    fun id hid => earlier_stable _ _ hs (h.manager id hid) hbetween,
    fun id hid => earlier_stable _ _ hs (h.occupant id hid) hbetween⟩
  obtain ⟨team, hread, hdepartment⟩ := h.team id hid
  exact ⟨team, earlier_stable _ _ hs hread hbetween, hdepartment⟩

theorem createPosition_solo {dto : CreatePositionDto} :
    (soloSteps loose).Safe i (createPosition organizationId dto) s fun _ _ => True := by
  refine part_bind (validateContext_safe (fun _ => True) stable_true trivial trivial)
    fun departmentId t ⟨ht, _, hvalid⟩ => ?_
  refine solo_last _ validated_stable hvalid fun c t hvalid ht _ => ?_
  obtain ⟨hworkforce, hteam, hdepartment, hmanager, hoccupant⟩ := hvalid.now ht
  split
  · exact ht
  · refine insertPosition_intact ht ⟨hworkforce, fun id hid => ?_, hdepartment,
      fun id hid => (hmanager id hid).1, hoccupant⟩ fun id hid => (hmanager id hid).2
    obtain ⟨team, hof, hin⟩ := hteam id hid
    exact ⟨team.departmentId, hof, hin⟩

/-- What is checked of a new parent, found out. -/
theorem assertNewParent_solo {current : Department} {target : Option Str} (A : Store → Prop)
    (stable : (soloSteps loose).Stable i A) (hA : A s) :
    (soloSteps loose).Safe i (assertNewParent i fuel organizationId id current target) s fun _ t =>
      A t ∧ Checked (soloSteps loose) i target
          (fun s id => s.hasDepartment organizationId current.workforceInstanceId id) t ∧
        Climbs (soloSteps loose) i .departments organizationId id target t := by
  unfold assertNewParent
  cases target with
  | none => exact ends A stable trivial hA fun t _ hA => ⟨hA, nofun, .root⟩
  | some above =>
      refine part_bind (whenSome_safe A stable trivial hA) fun _ t ⟨ht, hA, habove⟩ => ?_
      refine (walkUp_safe recordsReads_solo walked_solo _ (stable.and checked_stable) ht
        ⟨hA, habove⟩).mono (fun _ t ⟨_, ⟨hA, habove⟩, _, hclimbs⟩ => ?_) fun _ _ h => h
      exact ⟨hA, habove, hclimbs⟩

/-- A row that has been found, with a parent that has been found and climbed from. -/
theorem Hung.of_climbs {hierarchy : Hierarchy} {parent : DtoField Str} (hs : Intact s)
    (hrow : organizationOf (s.nodes hierarchy) id = some organizationId)
    (habove : ∀ above, parent = .value above →
      organizationOf (s.nodes hierarchy) above = some organizationId)
    (hclimbs : parent ≠ .absent →
      Climb (fun id parent => s.parentIn hierarchy organizationId id = parent) id parent.value?) :
    Hung (s.nodes hierarchy) id organizationId parent := by
  refine ⟨hrow, habove, fun above hvalue => ?_⟩
  subst hvalue
  refine not_atOrAbove_of_climb hs.sound (hclimbs nofun) (fun x hx => ?_) above rfl
  exact habove x (congrArg DtoField.value (Option.some.inj hx))

theorem updateDepartment_intact (hs : Intact s) {current : Department} {conflict : HttpError}
    {dto : UpdateDepartmentDto} (hmem : current ∈ s.departments)
    (hparent : ∀ id, dto.parentDepartmentId.value? = some id →
      DepartmentIn s id current.workforceInstanceId)
    (hmanager : ∀ id, dto.managerEmployeeId.value? = some id →
      EmployeeIn s id current.workforceInstanceId)
    (hhung : Hung (s.nodes .departments) current.id current.organizationId
      dto.parentDepartmentId) :
    Intact (s.updateDepartment current.id dto.apply conflict).2 := by
  have hfind := Tables.find_of_mem hs.keyed.departments hmem
  have hcurrent := hs.coherent.departments current hmem
  unfold Store.updateDepartment
  rw [hfind]
  rcases checked_cases with h | ⟨-, -, h⟩ <;> rw [h]
  · exact hs
  · refine hs.departments_write (fun _ => rfl) (fun _ => rfl) hfind ⟨hcurrent.workforce, ?_, ?_⟩
      (fun _ => rfl) hhung
    · intro id hid
      rcases DtoField.setNullable_eq_some hid with hnew | ⟨-, hold⟩
      · exact hparent id hnew
      · exact hcurrent.parent id hold
    · intro id hid
      rcases DtoField.setNullable_eq_some hid with hnew | ⟨-, hold⟩
      · exact hmanager id hnew
      · exact hcurrent.manager id hold

theorem updateDepartment_solo {dto : UpdateDepartmentDto} :
    (soloSteps loose).Safe i (updateDepartment i fuel organizationId id dto) s fun _ _ => True := by
  refine query_read (fun _ => True) stable_true trivial trivial fun found t ht _ hread => ?_
  refine expect_bind ht fun current hfound => require_bind ht fun _ => ?_
  subst hfound
  refine part_bind (assertNewParent_solo _ earlier_stable hread)
    fun _ t ⟨hread, hparent, hclimbs⟩ => ?_
  refine part_bind (whenSome_safe _ ((earlier_stable.and checked_stable).and climbs_stable) trivial
    ⟨⟨hread, hparent⟩, hclimbs⟩) fun _ t ⟨_, h, hmanager⟩ => ?_
  refine solo_last _ (((earlier_stable.and checked_stable).and climbs_stable).and checked_stable)
    ⟨h, hmanager⟩ fun c t h ht _ => ?_
  obtain ⟨⟨⟨hread, hparent⟩, hclimbs⟩, hmanager⟩ := h
  replace hread : t.departmentOf organizationId id = some current :=
    now hread fun _ _ h => h
  replace hparent := hparent.now fun _ _ _ => rfl
  replace hmanager := hmanager.now fun _ _ _ => rfl
  obtain ⟨hmem, rfl, rfl⟩ := departmentOf_some hread
  split
  · exact ht
  · refine updateDepartment_intact ht hmem (fun id hid => departmentIn_of_has ht.keyed
      (hparent id hid)) (fun id hid => employeeIn_of_has ht.keyed (hmanager id hid)) ?_
    refine .of_climbs ht (organizationOf_department ht.sound hmem) (fun above habove => ?_)
      fun _ => hclimbs.now
    refine organizationOf_of_hasDepartment ht.sound (hparent above ?_)
    rw [habove, DtoField.value?]

theorem teamIn_some {team : Team} (h : s.teamIn organizationId id = some team) :
    team ∈ s.teams ∧ team.id = id ∧ team.organizationId = organizationId := by
  have hof := List.find?_some h
  rw [decide_eq_true_eq] at hof
  exact ⟨List.mem_of_find?_eq_some h, hof⟩

theorem updateTeam_intact (hs : Intact s) {team : Team} {department : Department}
    {conflict : HttpError} {dto : UpdateTeamDto}
    (hteam : s.teamIn organizationId id = some team)
    (hdepartment : s.departmentOf organizationId (dto.departmentId.set team.departmentId) =
      some department)
    (hmanager : ∀ id, dto.managerEmployeeId.value? = some id →
      EmployeeIn s id department.workforceInstanceId)
    (hloose : (Call.updateTeam organizationId id dto).Loose s) :
    Intact (s.updateTeam id (dto.apply department.workforceInstanceId) conflict).2 := by
  obtain ⟨hpositions, hkeeps⟩ := hloose team department hteam hdepartment
  obtain ⟨hmem, rfl, rfl⟩ := teamIn_some hteam
  obtain ⟨hthere, hid, horganization⟩ := departmentOf_some hdepartment
  have hfind := Tables.find_of_mem hs.keyed.teams hmem
  have hcurrent := hs.coherent.teams team hmem
  unfold Store.updateTeam
  rw [hfind]
  rcases checked_cases with h | ⟨-, -, h⟩ <;> rw [h]
  · exact hs
  · refine hs.teams_write (fun _ => rfl) hfind ⟨?_, ?_, ?_⟩ fun hmoved => ?_
    · show WorkforceOf s department.workforceInstanceId team.organizationId
      rw [← horganization]
      exact (hs.coherent.departments department hthere).workforce
    · refine ⟨department, ?_, rfl⟩
      show Tables.find Department.id s.departments (dto.departmentId.set team.departmentId) = _
      rw [← hid]
      exact Tables.find_of_mem hs.keyed.departments hthere
    · intro id hold
      rcases DtoField.setNullable_eq_some hold with hnew | ⟨habsent, hold⟩
      · exact hmanager id hnew
      · -- The manager stays, so the workforce is the same.
        by_cases hsame : department.workforceInstanceId = team.workforceInstanceId
        · show EmployeeIn s id department.workforceInstanceId
          rw [hsame]
          exact hcurrent.manager id hold
        · cases hold.symm.trans (hkeeps hsame habsent)
    · exact hpositions fun hsame => hmoved (hid.symm.trans hsame)

theorem updateTeam_solo {dto : UpdateTeamDto}
    (hloose : ∀ s, loose i s → (Call.updateTeam organizationId id dto).Loose s) :
    (soloSteps loose).Safe i (updateTeam organizationId id dto) s fun _ _ => True := by
  refine query_read (fun _ => True) stable_true trivial trivial fun found t ht _ hteam => ?_
  refine expect_bind ht fun team hfound => ?_
  subst hfound
  refine query_read _ earlier_stable trivial hteam fun found t ht hteam hdepartment => ?_
  refine expect_bind ht fun department hfound => ?_
  subst hfound
  refine part_bind (whenSome_safe _ (earlier_stable.and earlier_stable) ht ⟨hteam, hdepartment⟩)
    fun _ t ⟨ht, ⟨hteam, hdepartment⟩, hmanager⟩ => ?_
  refine solo_last _ ((earlier_stable.and earlier_stable).and checked_stable)
    ⟨⟨hteam, hdepartment⟩, hmanager⟩ fun c t h ht ht' => ?_
  obtain ⟨⟨hteam, hdepartment⟩, hmanager⟩ := h
  replace hteam : t.teamIn organizationId id = some team := now hteam fun _ _ h => h
  replace hdepartment : t.departmentOf organizationId (dto.departmentId.set team.departmentId) =
    some department := now hdepartment fun _ _ h => h
  replace hmanager := hmanager.now fun _ _ _ => rfl
  split
  · exact ht
  · exact updateTeam_intact ht hteam hdepartment
      (fun id hid => employeeIn_of_has ht.keyed (hmanager id hid)) (hloose t ht')

theorem updatePosition_intact (hs : Intact s) {existing : Position} {departmentId : Option Str}
    {conflict : HttpError} {dto : UpdatePositionDto} (hmem : existing ∈ s.positions)
    (hself : (dto.context existing).managerPositionId ≠ some existing.id)
    (hvalid : Validated (soloSteps loose) i existing.organizationId (dto.context existing)
      departmentId s)
    (hclimbs : Climbs (soloSteps loose) i .positions existing.organizationId existing.id
      (dto.context existing).managerPositionId s)
    (hplace : dto.workforceInstanceId.set existing.workforceInstanceId ≠
        existing.workforceInstanceId →
      ∀ position ∈ s.positions, position.managerPositionId ≠ some existing.id) :
    Intact (s.updatePosition existing.id
      (dto.apply departmentId (dto.context existing).teamId) conflict).2 := by
  obtain ⟨hworkforce, hteam, hdepartment, hmanager, hoccupant⟩ := hvalid.now hs
  have hfind := Tables.find_of_mem hs.keyed.positions hmem
  have hhung : Hung (s.nodes .positions) existing.id existing.organizationId
      dto.managerPositionId := by
    refine .of_climbs hs (organizationOf_position hs.sound hmem) (fun above habove => ?_)
      fun hset => ?_
    · refine (hmanager above ?_).2
      rw [UpdatePositionDto.context, habove, DtoField.setNullable_value]
    · rw [← DtoField.setNullable_of_ne_absent hset existing.managerPositionId]
      exact hclimbs.now
  unfold Store.updatePosition
  rw [hfind]
  rcases checked_cases with h | ⟨-, -, h⟩ <;> rw [h]
  · exact hs
  · refine hs.positions_write (fun _ => rfl) hfind ⟨hworkforce, fun id hid => ?_, hdepartment,
      fun id hid => (hmanager id hid).1, hoccupant⟩ hself hplace (fun _ => rfl) hhung
    obtain ⟨team, hof, hin⟩ := hteam id hid
    exact ⟨team.departmentId, hof, hin⟩

theorem updatePosition_solo {dto : UpdatePositionDto}
    (hloose : ∀ s, loose i s → (Call.updatePosition organizationId id dto).Loose s) :
    (soloSteps loose).Safe i (updatePosition i fuel organizationId id dto) s fun _ _ => True := by
  refine query_read (fun _ => True) stable_true trivial trivial fun found t ht _ hread => ?_
  refine expect_bind ht fun existing hfound => require_bind ht fun hself => ?_
  subst hfound
  refine part_bind (walkUp_safe recordsReads_solo walked_solo _ earlier_stable ht hread)
    fun _ t ⟨ht, hread, _, hclimbs⟩ => ?_
  refine part_bind (validateContext_safe _ (earlier_stable.and climbs_stable) ht ⟨hread, hclimbs⟩)
    fun departmentId t ⟨ht, ⟨hread, hclimbs⟩, hvalid⟩ => ?_
  refine solo_last _ ((earlier_stable.and climbs_stable).and validated_stable)
    ⟨⟨hread, hclimbs⟩, hvalid⟩ fun c t h ht ht' => ?_
  obtain ⟨⟨hread, hclimbs⟩, hvalid⟩ := h
  replace hread : t.positionOf organizationId id = some existing := now hread fun _ _ h => h
  have hplace := hloose t ht' existing hread
  obtain ⟨hmem, rfl, rfl⟩ := positionOf_some hread
  split
  · exact updatePosition_intact ht hmem (of_decide_eq_true hself) hvalid hclimbs hplace
  · exact ht

/-- An orchestrator comes into its workforce with the workforce that is written. -/
theorem admitOrchestrator_intact (hs : Intact s) {workforces : List WorkforceInstance}
    {workforce : WorkforceInstance} {taken : Bool} {orchestrator : Option Str}
    (hfree : ∀ id, orchestrator = some id → ∃ employee ∈ s.employees, employee.id = id ∧
      employee.workforceInstanceId.all (· = workforce.id) = true)
    (hkeys : taken = false → (workforces.map WorkforceInstance.id).Nodup)
    (hfound : ∀ id old, Tables.find WorkforceInstance.id s.workforces id = some old →
      ∃ row, Tables.find WorkforceInstance.id workforces id = some row ∧
        row.organizationId = old.organizationId)
    (horchestrators : ∀ row ∈ workforces, ∀ id, row.orchestratorEmployeeId = some id →
      (row.id = workforce.id ∧ orchestrator = some id) ∨
        ∃ old ∈ s.workforces, old.id = row.id ∧ old.orchestratorEmployeeId = some id) :
    Intact (s.admitOrchestrator { s with workforces := workforces } workforce taken
      orchestrator).2 := by
  unfold Store.admitOrchestrator
  rcases checked_cases with h | ⟨htaken, -, h⟩ <;> rw [h]
  · exact hs
  · rw [Bool.or_eq_false_iff] at htaken
    replace hkeys := hkeys htaken.1
    cases orchestrator with
    | none =>
        refine hs.workforces hkeys hfound fun row hrow id hid => ?_
        rcases horchestrators row hrow id hid with ⟨-, hnone⟩ | ⟨old, hold, hsame, horchestrator⟩
        · cases hnone
        · rw [← hsame]
          exact hs.coherent.orchestrators old hold id horchestrator
    | some member =>
        obtain ⟨employee, hmem, rfl, hplace⟩ := hfree _ rfl
        have hfind := Tables.find_of_mem hs.keyed.employees hmem
        have hassigned := hs.assign_of_keeps (keeps_assignEmployee_of_free hfind hplace)
        refine hassigned.workforces hkeys hfound fun row hrow id hid => ?_
        rcases horchestrators row hrow id hid with ⟨hsame, hid⟩ | ⟨old, hold, hsame, horchestrator⟩
        · cases hid
          refine ⟨_, find_assignEmployee hfind, ?_⟩
          rw [if_pos rfl, hsame]
          rfl
        · rw [← hsame]
          exact hassigned.coherent.orchestrators old hold id horchestrator

/-- An orchestrator that has been found, and is free for a workforce. -/
theorem OrchestratorFound.now {reference : Option Str} {orchestrator : Option DigitalEmployee}
    (h : OrchestratorFound (soloSteps loose) i reference orchestrator s) (free : Option Str → Bool)
    (hfree : free (orchestrator.bind DigitalEmployee.workforceInstanceId) = true) :
    ∀ id, reference = some id → ∃ employee ∈ s.employees, employee.id = id ∧
      free employee.workforceInstanceId = true := by
  intro id hid
  obtain ⟨employee, rfl, hread⟩ := h id hid
  obtain ⟨hmem, hid⟩ := Structure.now hread fun _ _ h => h
  exact ⟨employee, hmem, hid, hfree⟩

theorem find_clearDefault_of_some {workforces : List WorkforceInstance} {old : WorkforceInstance}
    (organizationId : Str) (isDefault : DtoField Bool)
    (h : Tables.find WorkforceInstance.id workforces id = some old) :
    ∃ row, Tables.find WorkforceInstance.id (clearDefault organizationId isDefault workforces) id =
      some row ∧ row.organizationId = old.organizationId := by
  have hview := congrArg (Option.map fun row : WorkforceInstance =>
    (row.id, row.organizationId, row.orchestratorEmployeeId)) h
  rw [← find_clearDefault, Option.map_some, Option.map_eq_some_iff] at hview
  obtain ⟨row, hrow, hview⟩ := hview
  exact ⟨row, hrow, (Prod.mk.inj (Prod.mk.inj hview).2).1⟩

theorem createWorkforce_solo {dto : CreateWorkforceInstanceDto} :
    (soloSteps loose).Safe i (createWorkforce organizationId dto) s fun _ _ => True := by
  refine part_bind (findValidOrchestrator_safe (fun _ => True) stable_true trivial trivial)
    fun orchestrator t ⟨ht, _, hfound⟩ => require_bind ht fun hfree => ?_
  refine solo_last _ orchestratorFound_stable hfound fun c t hfound ht _ => ?_
  dsimp only
  split
  · exact ht
  · refine admitOrchestrator_intact ht (hfound.now (fun w => w.all (· = c.id)) ?_) ?_ ?_ ?_
    · rw [Option.isNone_iff_eq_none] at hfree
      rw [hfree]
      rfl
    · intro hnew
      rw [Option.isSome_eq_false_iff, Option.isNone_iff_eq_none] at hnew
      rw [List.map_append, map_clearDefault _ fun _ => rfl, ← List.map_append]
      exact Tables.nodup_append ht.keyed.workforces hnew
    · intro id old hold
      obtain ⟨row, hrow, hsame⟩ := find_clearDefault_of_some organizationId dto.isDefault hold
      exact ⟨row, Tables.find_append_of_some hrow, hsame⟩
    · intro row hrow id hid
      rcases List.mem_append.mp hrow with hrow | hrow
      · obtain ⟨old, hold, hsame, horchestrator⟩ := mem_clearDefault hrow
        exact .inr ⟨old, hold, hsame, horchestrator.trans hid⟩
      · rw [List.mem_singleton] at hrow
        subst hrow
        exact .inl ⟨rfl, hid⟩

theorem updateWorkforce_solo {dto : UpdateWorkforceInstanceDto} :
    (soloSteps loose).Safe i (updateWorkforce organizationId id dto) s fun _ _ => True := by
  refine query_bind (fun _ => True) stable_true trivial trivial fun t ht _ =>
    require_bind ht fun _ => ?_
  refine part_bind (findValidOrchestrator_safe (fun _ => True) stable_true ht trivial)
    fun orchestrator t ⟨ht, _, hfound⟩ => require_bind ht fun hfree => ?_
  refine solo_last _ orchestratorFound_stable hfound fun c t hfound ht _ => ?_
  dsimp only
  split
  · exact ht
  · rename_i workforce hworkforce
    obtain ⟨-, rfl⟩ := Tables.find_some hworkforce
    split
    · refine admitOrchestrator_intact ht (hfound.now _ hfree) (fun _ => ?_) ?_ ?_
      · have hid : ∀ row, (dto.apply row).id = row.id := fun _ => rfl
        rw [Tables.map_key_write hid, map_clearDefault _ fun _ => rfl]
        exact ht.keyed.workforces
      · intro id old hold
        obtain ⟨row, hrow, hsame⟩ := find_clearDefault_of_some organizationId dto.isDefault hold
        refine ⟨_, Tables.find_write_of_some (fun _ => rfl) hrow, ?_⟩
        split <;> exact hsame
      · intro row hrow id hid
        obtain ⟨before, hbefore, rfl⟩ := Tables.mem_write.mp hrow
        obtain ⟨old, hold, hsame, horchestrator⟩ := mem_clearDefault hbefore
        split at hid
        · rename_i hrow
          rcases DtoField.setNullable_eq_some hid with hnew | ⟨-, hkept⟩
          · exact .inl ⟨by rw [if_pos hrow]; exact hrow, hnew⟩
          · exact .inr ⟨old, hold, by rw [if_pos hrow]; exact hsame, horchestrator.trans hkept⟩
        · rename_i hrow
          exact .inr ⟨old, hold, by rw [if_neg hrow]; exact hsame, horchestrator.trans hid⟩
    · exact ht

theorem assignWorkforce_solo {target : Option Str}
    (hloose : ∀ s, loose i s → (Call.assignWorkforce organizationId id target).Loose s) :
    (soloSteps loose).Safe i (assignWorkforce organizationId id target) s fun _ _ => True := by
  refine query_read (fun _ => True) stable_true trivial trivial fun found t ht _ hread => ?_
  refine expect_bind ht fun employee hfound => ?_
  subst hfound
  refine part_bind (whenSome_safe _ earlier_stable ht hread) fun _ t ⟨ht, hread, _⟩ => ?_
  refine require_bind ht fun _ => ?_
  refine solo_last _ earlier_stable hread fun c t hread ht ht' => ?_
  replace hread : t.employeeOf organizationId id = some employee := now hread fun _ _ h => h
  have hplace := hloose t ht' employee hread
  obtain ⟨old, hold, rfl⟩ := Option.map_eq_some_iff.mp hread
  have hof := List.find?_some hold
  rw [decide_eq_true_eq] at hof
  obtain ⟨rfl, rfl⟩ := hof
  split
  · refine ht.assign (Tables.find_of_mem ht.keyed.employees (List.mem_of_find?_eq_some hold)) ?_
    exact hplace
  · exact ht

theorem program_solo {call : Call} (hloose : ∀ s, loose i s → call.Loose s) :
    (soloSteps loose).Safe i (call.program fuel i) s fun _ _ => True := by
  cases call with
  | createWorkforce => exact discard createWorkforce_solo
  | updateWorkforce => exact discard updateWorkforce_solo
  | createDepartment => exact discard createDepartment_solo
  | updateDepartment => exact discard updateDepartment_solo
  | createTeam => exact discard createTeam_solo
  | updateTeam => exact discard (updateTeam_solo hloose)
  | createPosition => exact discard createPosition_solo
  | updatePosition => exact discard (updatePosition_solo hloose)
  | assignWorkforce => exact assignWorkforce_solo hloose

end Programs

/-- A sequential run keeps the structure intact as long as no call moves a row that others count
on. -/
theorem intact_stays {fuel : Nat} {calls : List Call} {store : Store} {moves : List Move}
    {s : System Store Choice HttpError Unit} (h : Run fuel calls store moves s)
    (hsequential : Sequential moves) (hstore : Intact store)
    (hloose : ∀ m ∈ moves, ∀ call, calls[m.input.1]? = some call → call.Loose m.before.store) :
    Intact s.store := by
  let loose (i : Nat) (s : Store) := ∀ call, calls[i]? = some call → call.Loose s
  have hdoes : MovesDo (soloSteps loose) moves := by
    refine sequential_does h hsequential (fun i p hp s _ => ?_) trivial
    rw [programs, List.getElem?_mapIdx, Option.map_eq_some_iff] at hp
    obtain ⟨call, hcall, rfl⟩ := hp
    exact program_solo fun s hs => hs call hcall
  exact hdoes.induction (P := fun _ s => Intact s) h hstore
    fun _ m hbefore hm _ hstep => hstep hbefore (hloose m hm)

end Structure
