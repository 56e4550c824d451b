import VitoPlatform.Persistence.Calls
import VitoPlatform.Structure.Services

/-!
# What the checks establish

Each check that passes has found, at some earlier time, what it looks for.
-/

namespace Structure

open Text Concurrent Services Services.Steps

variable {steps : Steps Store} {i : Nat} {s : Store} {α : Type} {post : α → Store → Prop}

/-- What was so when it was read. -/
abbrev Read (steps : Steps Store) (i : Nat) (t : Store) (F : Store → Prop) : Prop :=
  steps.Earlier i F t

/-- An identifier that is there has been found. -/
def Checked (steps : Steps Store) (i : Nat) (id : Option Str) (found : Store → Str → Bool)
    (t : Store) : Prop :=
  ∀ x, id = some x → Read steps i t fun s => found s x = true

/-- What has been found stays found. -/
theorem checked_stable {id : Option Str} {found : Store → Str → Bool} :
    steps.Stable i (Checked steps i id found) :=
  fun _ _ hs h hbetween x hx => earlier_stable _ _ hs (h x hx) hbetween

theorem whenSome_safe {id : Option Str} {found : Store → Str → Bool} {error : HttpError}
    (A : Store → Prop) (stable : steps.Stable i A) (hs : steps.inv s) (hA : A s) :
    steps.Safe i (whenSome id found error) s fun _ t =>
      steps.inv t ∧ A t ∧ Checked steps i id found t := by
  unfold whenSome
  cases id with
  | none => exact ends A stable hs hA fun t ht hA => ⟨ht, hA, nofun⟩
  | some x =>
      refine query_bind A stable hs hA fun t ht hA => ?_
      rw [← Proc.bind_done (Proc.require _ _)]
      refine require_bind ht fun hfound => ?_
      refine ends (fun t => A t ∧ Read steps i t fun s => found s x = true)
        (stable.and earlier_stable) ht ⟨hA, earlier ht hfound⟩ fun t ht h => ⟨ht, h.1, ?_⟩
      rintro _ ⟨⟩
      exact h.2

/-- The way from a row up to a root, by what is known of the parents, without `self`. -/
inductive Climb (known : Str → Option Str → Prop) (self : Str) : Option Str → Prop
  | root : Climb known self none
  | up {current : Str} {parent : Option Str} :
      known current parent → current ≠ self → Climb known self parent →
        Climb known self (some current)

theorem Climb.mono {known known' : Str → Option Str → Prop} {self : Str} {target : Option Str}
    (h : Climb known self target) (hknown : ∀ id parent, known id parent → known' id parent) :
    Climb known' self target := by
  induction h with
  | root => exact .root
  | up hread hne _ ih => exact .up (hknown _ _ hread) hne ih

/-- The session has walked from a row up to a root, and has not met `self`. -/
def Walks (walked : List Walked) (session : Nat) (hierarchy : Hierarchy)
    (organizationId self : Str) (target : Option Str) : Prop :=
  Climb (fun id parent => (⟨session, hierarchy, organizationId, id, parent⟩ : Walked) ∈ walked)
    self target

/-- The same, in terms of what was so when it was read. -/
def Climbs (steps : Steps Store) (i : Nat) (hierarchy : Hierarchy) (organizationId self : Str)
    (target : Option Str) (t : Store) : Prop :=
  Climb (fun id parent => Read steps i t fun s => s.parentIn hierarchy organizationId id = parent)
    self target

theorem climbs_stable {hierarchy : Hierarchy} {organizationId self : Str} {target : Option Str} :
    steps.Stable i (Climbs steps i hierarchy organizationId self target) :=
  fun _ _ hs h hbetween => h.mono fun _ _ hread => earlier_stable _ _ hs hread hbetween

/-- What `validateContext` has found, and the department it answers with. -/
structure Validated (steps : Steps Store) (i : Nat) (organizationId : Str)
    (input : PositionContext) (departmentId : Option Str) (t : Store) : Prop where
  workforce : Read steps i t fun s => s.hasWorkforce organizationId input.workforceInstanceId
  team : ∀ teamId, input.teamId = some teamId → ∃ team,
    (Read steps i t fun s =>
      s.teamOf organizationId input.workforceInstanceId teamId = some team) ∧
      departmentId = some team.departmentId
  noTeam : input.teamId = none → departmentId = input.departmentId
  department : ∀ id, departmentId = some id → Read steps i t fun s =>
    s.hasDepartment organizationId input.workforceInstanceId id = true
  manager : ∀ id, input.managerPositionId = some id → Read steps i t fun s =>
    s.hasPosition organizationId input.workforceInstanceId id = true
  occupant : ∀ id, input.occupantEmployeeId = some id → Read steps i t fun s =>
    s.hasEmployee organizationId input.workforceInstanceId id = true

/-- What the team of a position says of its department. -/
def TeamFound (steps : Steps Store) (i : Nat) (organizationId : Str) (input : PositionContext)
    (departmentId : Option Str) (t : Store) : Prop :=
  (∀ teamId, input.teamId = some teamId → ∃ team,
    (Read steps i t fun s =>
      s.teamOf organizationId input.workforceInstanceId teamId = some team) ∧
      departmentId = some team.departmentId) ∧
    (input.teamId = none → departmentId = input.departmentId)

theorem contextDepartment_safe {organizationId : Str} {input : PositionContext}
    (A : Store → Prop) (stable : steps.Stable i A) (hs : steps.inv s) (hA : A s) :
    steps.Safe i (contextDepartment organizationId input) s fun departmentId t =>
      steps.inv t ∧ A t ∧ TeamFound steps i organizationId input departmentId t := by
  unfold contextDepartment TeamFound
  cases hteam : input.teamId with
  | none => exact ends A stable hs hA fun t ht hA => ⟨ht, hA, nofun, fun _ => rfl⟩
  | some teamId =>
      refine query_bind A stable hs hA fun t ht hA => ?_
      refine expect_bind ht fun team hfound => require_bind ht fun _ => ?_
      refine ends (fun t => A t ∧ Read steps i t fun s =>
        s.teamOf organizationId input.workforceInstanceId teamId = some team)
        (stable.and earlier_stable) ht ⟨hA, earlier ht hfound⟩ fun t ht h => ?_
      refine ⟨ht, h.1, ?_, nofun⟩
      rintro _ ⟨⟩
      exact ⟨team, h.2, rfl⟩

theorem teamFound_stable {organizationId : Str} {input : PositionContext}
    {departmentId : Option Str} :
    steps.Stable i (TeamFound steps i organizationId input departmentId) := by
  intro s t hs h hbetween
  refine ⟨fun teamId hteam => ?_, h.2⟩
  obtain ⟨team, hread, hdepartment⟩ := h.1 teamId hteam
  exact ⟨team, earlier_stable _ _ hs hread hbetween, hdepartment⟩

theorem validateContext_safe {organizationId : Str} {input : PositionContext} (A : Store → Prop)
    (stable : steps.Stable i A) (hs : steps.inv s) (hA : A s) :
    steps.Safe i (validateContext organizationId input) s fun departmentId t =>
      steps.inv t ∧ A t ∧ Validated steps i organizationId input departmentId t := by
  refine part_bind (whenSome_safe A stable hs hA) fun _ t ⟨ht, hA, hworkforce⟩ => ?_
  refine part_bind (whenSome_safe _ (stable.and checked_stable) ht ⟨hA, hworkforce⟩)
    fun _ t ⟨ht, ⟨hA, hworkforce⟩, _⟩ => ?_
  refine part_bind (contextDepartment_safe _ (stable.and checked_stable) ht ⟨hA, hworkforce⟩)
    fun departmentId t ⟨ht, ⟨hA, hworkforce⟩, hteam⟩ => ?_
  refine part_bind (whenSome_safe _ ((stable.and checked_stable).and teamFound_stable) ht
    ⟨⟨hA, hworkforce⟩, hteam⟩) fun _ t ⟨ht, hA, hdepartment⟩ => ?_
  refine part_bind (whenSome_safe _
    (((stable.and checked_stable).and teamFound_stable).and checked_stable) ht
    ⟨hA, hdepartment⟩) fun _ t ⟨ht, hA, hmanager⟩ => ?_
  refine part_bind (whenSome_safe _
    ((((stable.and checked_stable).and teamFound_stable).and checked_stable).and checked_stable) ht
    ⟨hA, hmanager⟩) fun _ t ⟨ht, hA, hoccupant⟩ => ?_
  refine ends _ (((((stable.and checked_stable).and teamFound_stable).and checked_stable).and
    checked_stable).and checked_stable) ht ⟨hA, hoccupant⟩ fun t ht h => ?_
  obtain ⟨⟨⟨⟨⟨hA, hworkforce⟩, hteam⟩, hdepartment⟩, hmanager⟩, hoccupant⟩ := h
  exact ⟨ht, hA, hworkforce _ rfl, hteam.1, hteam.2, hdepartment, hmanager, hoccupant⟩

/-- The orchestrator that has been asked for. -/
def OrchestratorFound (steps : Steps Store) (i : Nat) (reference : Option Str)
    (orchestrator : Option DigitalEmployee) (t : Store) : Prop :=
  ∀ id, reference = some id → ∃ employee, orchestrator = some employee ∧
    Read steps i t fun s => employee ∈ s.employees ∧ employee.id = id

theorem orchestratorFound_stable {reference : Option Str}
    {orchestrator : Option DigitalEmployee} :
    steps.Stable i (OrchestratorFound steps i reference orchestrator) := by
  intro s t hs h hbetween id hid
  obtain ⟨employee, hemployee, hread⟩ := h id hid
  exact ⟨employee, hemployee, earlier_stable _ _ hs hread hbetween⟩

theorem findValidOrchestrator_safe {organizationId : Str} {reference : Option Str}
    (A : Store → Prop) (stable : steps.Stable i A) (hs : steps.inv s) (hA : A s) :
    steps.Safe i (findValidOrchestrator organizationId reference) s fun orchestrator t =>
      steps.inv t ∧ A t ∧ OrchestratorFound steps i reference orchestrator t := by
  unfold findValidOrchestrator
  cases reference with
  | none => exact ends A stable hs hA fun t ht hA => ⟨ht, hA, nofun⟩
  | some id =>
      refine query_bind A stable hs hA fun t ht hA => expect_bind ht fun employee hfound => ?_
      have hid := List.find?_some hfound
      rw [decide_eq_true_eq] at hid
      have hread : Read steps i t fun s => employee ∈ s.employees ∧ employee.id = id :=
        earlier ht ⟨List.mem_of_find?_eq_some hfound, hid.1⟩
      refine ends _ (stable.and earlier_stable) ht ⟨hA, hread⟩ fun t ht h => ⟨ht, h.1, ?_⟩
      rintro _ ⟨⟩
      exact ⟨employee, rfl, h.2⟩

/-- Recording a read is a step. -/
def RecordsReads (steps : Steps Store) (i : Nat) : Prop :=
  ∀ (s : Store) (walked : Walked), walked.session = i →
    walked.parent = s.parentIn walked.hierarchy walked.organizationId walked.id →
      steps.does i s { s with walked := s.walked ++ [walked] } ∧
        steps.records i s { s with walked := s.walked ++ [walked] }

variable {hierarchy : Hierarchy} {organizationId self : Str} {cycle existing : HttpError}

/-- The loop ends only at a root, and has met other rows only. -/
theorem walkUp_safe (hrecords : RecordsReads steps i)
    (hwalked : ∀ walked, steps.Stable i fun s => walked ∈ s.walked) {fuel : Nat}
    {visited : List Str} {target : Option Str} (A : Store → Prop) (stable : steps.Stable i A)
    (hs : steps.inv s) (hA : A s) :
    steps.Safe i (walkUp i hierarchy organizationId self cycle existing fuel visited target) s
      fun _ t => steps.inv t ∧ A t ∧ Walks t.walked i hierarchy organizationId self target ∧
        Climbs steps i hierarchy organizationId self target t := by
  induction fuel generalizing visited target A s with
  | zero =>
      cases target with
      | none => exact ends A stable hs hA fun t ht hA => ⟨ht, hA, .root, .root⟩
      | some current => exact fun t _ c u hu => nomatch hu
  | succ fuel ih =>
      cases target with
      | none => exact ends A stable hs hA fun t ht hA => ⟨ht, hA, .root, .root⟩
      | some current =>
          refine require_bind hs fun hne => require_bind hs fun _ => ?_
          refine record_bind A stable hs hA (fun t _ => hrecords t _ rfl rfl) fun t ht _ hu hA => ?_
          -- The record stays, and the rest of the walk starts at what has been read.
          have hmem := List.mem_append_right t.walked (List.mem_singleton_self
            (⟨i, hierarchy, organizationId, current,
              t.parentIn hierarchy organizationId current⟩ : Walked))
          have hearlier : Read steps i t fun s => s.parentIn hierarchy organizationId current =
            t.parentIn hierarchy organizationId current := earlier ht rfl
          have hread := earlier_stable _ _ ht hearlier (.inr (hrecords t
            ⟨i, hierarchy, organizationId, current, t.parentIn hierarchy organizationId current⟩
            rfl rfl).2)
          refine (ih (fun s => (A s ∧ _ ∈ s.walked) ∧ Read steps i s _)
            ((stable.and (hwalked _)).and earlier_stable) hu ⟨⟨hA, hmem⟩, hread⟩).mono
            (fun _ u ⟨hu, ⟨⟨hA, hmem⟩, hread⟩, hwalks, hclimbs⟩ => ?_) fun _ _ h => h
          have hother : current ≠ self := of_decide_eq_true hne
          exact ⟨hu, hA, .up hmem hother hwalks, .up hread hother hclimbs⟩

end Structure
