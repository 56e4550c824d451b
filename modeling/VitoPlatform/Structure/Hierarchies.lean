import VitoPlatform.Library.Forest
import VitoPlatform.Structure.Checks

/-!
# Hierarchies

What the steps of calls do to the two hierarchies, positions under their managers and departments
under their parents. A row is hung under another only after the call has walked up from there to a
root without meeting the row (`Does`), but the walk is made of single reads, and the write comes
later.
-/

namespace Structure

open Text Concurrent Services Forest

/-- What a hierarchy sees of a row. -/
structure Node where
  id : Str
  organizationId : Str
  parent : Option Str

def Position.node (position : Position) : Node :=
  ⟨position.id, position.organizationId, position.managerPositionId⟩

def Department.node (department : Department) : Node :=
  ⟨department.id, department.organizationId, department.parentDepartmentId⟩

def Store.nodes (s : Store) : Hierarchy → List Node
  | .positions => s.positions.map Position.node
  | .departments => s.departments.map Department.node

def parentOf (nodes : List Node) (id : Str) : Option Str :=
  (Tables.find Node.id nodes id).bind Node.parent

def organizationOf (nodes : List Node) (id : Str) : Option Str :=
  (Tables.find Node.id nodes id).map Node.organizationId

/-- Identifiers are unique, and nobody is under a row of another organization. -/
structure WellFormed (nodes : List Node) : Prop where
  ids : (nodes.map Node.id).Nodup
  within : ∀ a b, parentOf nodes a = some b → ∃ organizationId,
    organizationOf nodes a = some organizationId ∧ organizationOf nodes b = some organizationId

def Sound (s : Store) : Prop := ∀ hierarchy, WellFormed (s.nodes hierarchy)

def Node.under (target : Option Str) (node : Node) : Node := { node with parent := target }

theorem Node.under_id (target : Option Str) (node : Node) : (node.under target).id = node.id := rfl

/-- What one step of a call does to the hierarchies. -/
inductive Does (i : Nat) (s t : Store) : Prop
  | kept : (∀ hierarchy, t.nodes hierarchy = s.nodes hierarchy) → t.walked = s.walked → Does i s t
  | read (hierarchy : Hierarchy) (organizationId id : Str) :
      t = { s with walked := s.walked ++
        [⟨i, hierarchy, organizationId, id, s.parentIn hierarchy organizationId id⟩] } → Does i s t
  | added (hierarchy : Hierarchy) (node : Node) :
      t.nodes hierarchy = s.nodes hierarchy ++ [node] →
        (∀ other, other ≠ hierarchy → t.nodes other = s.nodes other) → t.walked = s.walked →
          organizationOf (s.nodes hierarchy) node.id = none →
            (∀ target, node.parent = some target →
              organizationOf (s.nodes hierarchy) target = some node.organizationId) → Does i s t
  | moved (hierarchy : Hierarchy) (organizationId id : Str) (target : Option Str) :
      t.nodes hierarchy = Tables.write Node.id (s.nodes hierarchy) id (Node.under target) →
        (∀ other, other ≠ hierarchy → t.nodes other = s.nodes other) → t.walked = s.walked →
          organizationOf (s.nodes hierarchy) id = some organizationId →
            (∀ above, target = some above →
              organizationOf (s.nodes hierarchy) above = some organizationId) →
                Walks s.walked i hierarchy organizationId id target → Does i s t

section Nodes

variable {nodes : List Node} {node : Node} {id organizationId : Str} {target : Option Str}

theorem find_of_organizationOf (h : organizationOf nodes id = some organizationId) :
    ∃ node, Tables.find Node.id nodes id = some node ∧ node.organizationId = organizationId :=
  Option.map_eq_some_iff.mp h

theorem organizationOf_append (hnew : organizationOf nodes node.id = none) :
    organizationOf (nodes ++ [node]) =
      Function.update (organizationOf nodes) node.id (some node.organizationId) := by
  funext id
  rw [organizationOf, Tables.find_append (Option.map_eq_none_iff.mp hnew), Function.update_apply]
  split
  · rfl
  · rfl

theorem parentOf_append (hnew : organizationOf nodes node.id = none) :
    parentOf (nodes ++ [node]) = Function.update (parentOf nodes) node.id node.parent := by
  funext id
  rw [parentOf, Tables.find_append (Option.map_eq_none_iff.mp hnew), Function.update_apply]
  split
  · rfl
  · rfl

theorem organizationOf_write :
    organizationOf (Tables.write Node.id nodes id (Node.under target)) = organizationOf nodes := by
  funext other
  rw [organizationOf, Tables.find_write (Node.under_id target)]
  split
  · rename_i hid
    rw [hid, Option.map_map]
    rfl
  · rfl

theorem parentOf_write (h : organizationOf nodes id = some organizationId) :
    parentOf (Tables.write Node.id nodes id (Node.under target)) =
      Function.update (parentOf nodes) id target := by
  obtain ⟨node, hnode, -⟩ := find_of_organizationOf h
  funext other
  rw [parentOf, Tables.find_write (Node.under_id target), Function.update_apply]
  split
  · rw [hnode]
    rfl
  · rfl

/-- A row that has a parent is there. -/
theorem WellFormed.isSome_of_parent (h : WellFormed nodes) {a b : Str}
    (hparent : parentOf nodes a = some b) : organizationOf nodes b ≠ none := by
  obtain ⟨_, -, hb⟩ := h.within a b hparent
  rw [hb]
  nofun

theorem WellFormed.append (h : WellFormed nodes) (hnew : organizationOf nodes node.id = none)
    (hparent : ∀ target, node.parent = some target →
      organizationOf nodes target = some node.organizationId) : WellFormed (nodes ++ [node]) := by
  refine ⟨?_, fun a b hab => ?_⟩
  · exact Tables.nodup_append h.ids (Option.map_eq_none_iff.mp hnew)
  · rw [parentOf_append hnew, Function.update_apply] at hab
    rw [organizationOf_append hnew]
    -- The new row is nobody's parent.
    have hne : b ≠ node.id := by
      rintro rfl
      split at hab
      · exact absurd (hnew.symm.trans (hparent _ hab)) nofun
      · exact h.isSome_of_parent hab hnew
    rw [Function.update_of_ne hne]
    split at hab
    · rename_i ha
      exact ⟨node.organizationId, by rw [ha, Function.update_self], hparent b hab⟩
    · rename_i ha
      rw [Function.update_of_ne ha]
      exact h.within a b hab

theorem WellFormed.write (h : WellFormed nodes)
    (hid : organizationOf nodes id = some organizationId)
    (htarget : ∀ above, target = some above → organizationOf nodes above = some organizationId) :
    WellFormed (Tables.write Node.id nodes id (Node.under target)) := by
  refine ⟨?_, fun a b hab => ?_⟩
  · rw [Tables.map_key_write (Node.under_id target)]
    exact h.ids
  · rw [parentOf_write hid, Function.update_apply] at hab
    rw [organizationOf_write]
    split at hab
    · rename_i ha
      exact ⟨organizationId, ha ▸ hid, htarget b hab⟩
    · exact h.within a b hab

end Nodes

section Steps

variable {i j : Nat} {s t : Store} {hierarchy : Hierarchy} {organizationId id : Str}

/-- Every step keeps the hierarchies within their organizations. -/
theorem Does.sound (h : Does i s t) (hs : Sound s) : Sound t := by
  intro hierarchy
  cases h with
  | kept hnodes => rw [hnodes]; exact hs hierarchy
  | read _ _ _ ht => rw [ht]; exact hs hierarchy
  | added changed node hadded hothers _ hnew hparent =>
      by_cases hsame : hierarchy = changed
      · subst hsame
        rw [hadded]
        exact (hs hierarchy).append hnew hparent
      · rw [hothers hierarchy hsame]
        exact hs hierarchy
  | moved changed organizationId id target hmoved hothers _ hid htarget =>
      by_cases hsame : hierarchy = changed
      · subst hsame
        rw [hmoved]
        exact (hs hierarchy).write hid htarget
      · rw [hothers hierarchy hsame]
        exact hs hierarchy

/-- Rows stay in their organization. -/
theorem Does.organizationOf (h : Does i s t)
    (hid : organizationOf (s.nodes hierarchy) id = some organizationId) :
    organizationOf (t.nodes hierarchy) id = some organizationId := by
  cases h with
  | kept hnodes => rwa [hnodes]
  | read _ _ _ ht => rw [ht]; exact hid
  | added changed node hadded hothers _ hnew =>
      by_cases hsame : hierarchy = changed
      · subst hsame
        have hne : id ≠ node.id := by
          rintro rfl
          cases hnew.symm.trans hid
        rw [hadded, organizationOf_append hnew, Function.update_of_ne hne]
        exact hid
      · rwa [hothers hierarchy hsame]
  | moved changed organizationId id target hmoved hothers =>
      by_cases hsame : hierarchy = changed
      · subst hsame
        rwa [hmoved, organizationOf_write]
      · rwa [hothers hierarchy hsame]

/-- What has been walked stays recorded. -/
theorem Does.walked (h : Does i s t) : s.walked ⊆ t.walked := by
  cases h with
  | kept _ hwalked | added _ _ _ _ hwalked | moved _ _ _ _ _ _ hwalked => rw [hwalked]; simp
  | read _ _ _ ht => rw [ht]; exact List.subset_append_left _ _

end Steps

/-! ## The steps of calls -/

/-- The hierarchies under any calls. -/
def hierarchySteps : Steps Store where
  inv := Sound
  does := Does
  rely _ s t := ∃ j, Does j s t
  records := Does
  refl _ _ := .kept (fun _ => rfl) rfl
  keeps := Does.sound
  between := by
    rintro i s t (⟨j, hdoes⟩ | hdoes) hs
    · exact hdoes.sound hs
    · exact hdoes.sound hs

theorem stable_of_does {i : Nat} {A : Store → Prop} (h : ∀ j s t, A s → Does j s t → A t) :
    hierarchySteps.Stable i A := by
  rintro s t - hA (⟨j, hdoes⟩ | hdoes)
  · exact h j s t hA hdoes
  · exact h i s t hA hdoes

theorem organizationOf_stable {i : Nat} {hierarchy : Hierarchy} {id organizationId : Str} :
    hierarchySteps.Stable i fun s =>
      organizationOf (s.nodes hierarchy) id = some organizationId :=
  stable_of_does fun _ _ _ h hdoes => hdoes.organizationOf h

theorem walked_stable {i : Nat} (walked : Walked) :
    hierarchySteps.Stable i fun s => walked ∈ s.walked :=
  stable_of_does fun _ _ _ h hdoes => hdoes.walked h

theorem walks_stable {i : Nat} {hierarchy : Hierarchy} {organizationId self : Str}
    {target : Option Str} :
    hierarchySteps.Stable i fun s => Walks s.walked i hierarchy organizationId self target :=
  stable_of_does fun _ _ _ h hdoes => h.mono fun _ _ hmem => hdoes.walked hmem

theorem recordsReads {i : Nat} : RecordsReads hierarchySteps i := by
  rintro s ⟨session, hierarchy, organizationId, id, parent⟩ hsession hparent
  obtain rfl : session = i := hsession
  obtain rfl : parent = s.parentIn hierarchy organizationId id := hparent
  exact ⟨.read hierarchy organizationId id rfl, .read hierarchy organizationId id rfl⟩

section Lookups

variable {s t : Store} {i : Nat} {organizationId workforceInstanceId id : Str}

theorem organizationOf_of_mem {nodes : List Node} {node : Node} (h : WellFormed nodes)
    (hnode : node ∈ nodes) : organizationOf nodes node.id = some node.organizationId := by
  rw [organizationOf, Tables.find_of_mem h.ids hnode]
  rfl

theorem organizationOf_department (hs : Sound s) {department : Department}
    (h : department ∈ s.departments) :
    organizationOf (s.nodes .departments) department.id = some department.organizationId :=
  organizationOf_of_mem (hs .departments) (List.mem_map_of_mem h)

theorem organizationOf_position (hs : Sound s) {position : Position}
    (h : position ∈ s.positions) :
    organizationOf (s.nodes .positions) position.id = some position.organizationId :=
  organizationOf_of_mem (hs .positions) (List.mem_map_of_mem h)

theorem organizationOf_of_hasDepartment (hs : Sound s)
    (h : s.hasDepartment organizationId workforceInstanceId id = true) :
    organizationOf (s.nodes .departments) id = some organizationId := by
  obtain ⟨department, hmem, hof⟩ := List.any_eq_true.mp h
  obtain ⟨rfl, rfl, -⟩ := of_decide_eq_true hof
  exact organizationOf_department hs hmem

theorem organizationOf_of_hasPosition (hs : Sound s)
    (h : s.hasPosition organizationId workforceInstanceId id = true) :
    organizationOf (s.nodes .positions) id = some organizationId := by
  obtain ⟨position, hmem, hof⟩ := List.any_eq_true.mp h
  obtain ⟨rfl, rfl, -⟩ := of_decide_eq_true hof
  exact organizationOf_position hs hmem

theorem departmentOf_some {department : Department}
    (h : s.departmentOf organizationId id = some department) :
    department ∈ s.departments ∧ department.id = id ∧
      department.organizationId = organizationId := by
  have hof := List.find?_some h
  rw [decide_eq_true_eq] at hof
  exact ⟨List.mem_of_find?_eq_some h, hof⟩

theorem positionOf_some {position : Position}
    (h : s.positionOf organizationId id = some position) :
    position ∈ s.positions ∧ position.id = id ∧ position.organizationId = organizationId := by
  have hof := List.find?_some h
  rw [decide_eq_true_eq] at hof
  exact ⟨List.mem_of_find?_eq_some h, hof⟩

/-- A row that is read by its organization has the parent it has. -/
theorem parentIn_eq (hs : Sound s) {hierarchy : Hierarchy}
    (h : organizationOf (s.nodes hierarchy) id = some organizationId) :
    s.parentIn hierarchy organizationId id = parentOf (s.nodes hierarchy) id := by
  obtain ⟨node, hnode, rfl⟩ := find_of_organizationOf h
  obtain ⟨hmem, rfl⟩ := Tables.find_some hnode
  rw [parentOf, hnode]
  have hids := (hs hierarchy).ids
  cases hierarchy with
  | positions =>
      obtain ⟨position, hposition, rfl⟩ := List.mem_map.mp hmem
      have hread : s.positionOf position.organizationId position.id = some position := by
        refine Tables.find?_of_unique hposition (decide_eq_true ⟨rfl, rfl⟩) fun other hother hp => ?_
        rw [Store.nodes, List.map_map] at hids
        exact List.inj_on_of_nodup_map hids hother hposition (of_decide_eq_true hp).1
      exact congrArg (Option.bind · Position.managerPositionId) hread
  | departments =>
      obtain ⟨department, hdepartment, rfl⟩ := List.mem_map.mp hmem
      have hread : s.departmentOf department.organizationId department.id = some department := by
        refine Tables.find?_of_unique hdepartment (decide_eq_true ⟨rfl, rfl⟩)
          fun other hother hp => ?_
        rw [Store.nodes, List.map_map] at hids
        exact List.inj_on_of_nodup_map hids hother hdepartment (of_decide_eq_true hp).1
      exact congrArg (Option.bind · Department.parentDepartmentId) hread

end Lookups

section Writes

variable {s t : Store} {i : Nat} {organizationId id : Str} {conflict : HttpError}

theorem does_of_same (hdepartments : t.departments = s.departments)
    (hpositions : t.positions = s.positions) (hwalked : t.walked = s.walked) : Does i s t := by
  refine .kept (fun hierarchy => ?_) hwalked
  cases hierarchy with
  | positions => rw [Store.nodes, Store.nodes, hpositions]
  | departments => rw [Store.nodes, Store.nodes, hdepartments]

/-- A write that is refused leaves the store as it is. -/
theorem checked_cases {α : Type} {row : α} {taken admitted : Bool} :
    (checked s t row taken admitted conflict).2 = s ∨
      (taken = false ∧ admitted = true ∧ (checked s t row taken admitted conflict).2 = t) := by
  unfold checked
  cases taken with
  | true => exact .inl rfl
  | false =>
      cases admitted with
      | true => exact .inr ⟨rfl, rfl, rfl⟩
      | false => exact .inl rfl

theorem organizationOf_departments (s : Store) (id : Str) :
    organizationOf (s.nodes .departments) id =
      (Tables.find Department.id s.departments id).map Department.organizationId := by
  rw [organizationOf, Store.nodes, Tables.find_map Node.id fun _ => rfl, Option.map_map]
  rfl

theorem organizationOf_positions (s : Store) (id : Str) :
    organizationOf (s.nodes .positions) id =
      (Tables.find Position.id s.positions id).map Position.organizationId := by
  rw [organizationOf, Store.nodes, Tables.find_map Node.id fun _ => rfl, Option.map_map]
  rfl

theorem insertDepartment_does {department : Department}
    (hparent : ∀ target, department.parentDepartmentId = some target →
      organizationOf (s.nodes .departments) target = some department.organizationId) :
    Does i s (s.insertDepartment department conflict).2 := by
  unfold Store.insertDepartment
  rcases checked_cases with h | ⟨htaken, -, h⟩ <;> rw [h]
  · exact .kept (fun _ => rfl) rfl
  · rw [Bool.or_eq_false_iff, Option.isSome_eq_false_iff, Option.isNone_iff_eq_none] at htaken
    refine .added .departments department.node List.map_append ?_ rfl ?_ hparent
    · rintro (_ | _) hother
      · rfl
      · exact absurd rfl hother
    · rw [organizationOf_departments]
      exact Option.map_eq_none_iff.mpr htaken.1

theorem insertPosition_does {position : Position}
    (hparent : ∀ target, position.managerPositionId = some target →
      organizationOf (s.nodes .positions) target = some position.organizationId) :
    Does i s (s.insertPosition position conflict).2 := by
  unfold Store.insertPosition
  rcases checked_cases with h | ⟨htaken, -, h⟩ <;> rw [h]
  · exact .kept (fun _ => rfl) rfl
  · rw [Bool.or_eq_false_iff, Option.isSome_eq_false_iff, Option.isNone_iff_eq_none] at htaken
    refine .added .positions position.node List.map_append ?_ rfl ?_ hparent
    · rintro (_ | _) hother
      · exact absurd rfl hother
      · rfl
    · rw [organizationOf_positions]
      exact Option.map_eq_none_iff.mpr htaken.1

/-- What has been found out about a row and its new parent. -/
structure MayMove (s : Store) (i : Nat) (hierarchy : Hierarchy) (organizationId id : Str)
    (target : Option Str) : Prop where
  row : organizationOf (s.nodes hierarchy) id = some organizationId
  above : ∀ above, target = some above →
    organizationOf (s.nodes hierarchy) above = some organizationId
  walks : Walks s.walked i hierarchy organizationId id target

theorem mayMove_stable {hierarchy : Hierarchy} {target : Option Str} :
    hierarchySteps.Stable i fun s => MayMove s i hierarchy organizationId id target :=
  stable_of_does fun _ _ _ h hdoes =>
    ⟨hdoes.organizationOf h.row, fun above ha => hdoes.organizationOf (h.above above ha),
      h.walks.mono fun _ _ hmem => hdoes.walked hmem⟩

/-- What a hierarchy sees of a write that sets a parent, or leaves it. -/
theorem map_node_write {α : Type} (rows : List α) (id : Str) {key : α → Str} {node : α → Node}
    {f : α → α} {parent : DtoField Str} (hkey : ∀ row, (node row).id = key row)
    (hf : ∀ row, node (f row) = (node row).under (parent.setNullable (node row).parent)) :
    (Tables.write key rows id f).map node = if parent = .absent then rows.map node
      else Tables.write Node.id (rows.map node) id (Node.under parent.value?) := by
  split
  · rename_i habsent
    subst habsent
    exact Tables.map_write_of_same fun row => (hf row).trans rfl
  · rename_i hset
    refine Tables.map_write hkey fun row _ _ => ?_
    rw [hf, DtoField.setNullable_of_ne_absent hset]

theorem updateDepartment_does {f : Department → Department} (organizationId : Str) (parent : DtoField Str)
    (hf : ∀ row, (f row).node = row.node.under (parent.setNullable row.node.parent))
    (hmove : parent ≠ .absent → MayMove s i .departments organizationId id parent.value?) :
    Does i s (s.updateDepartment id f conflict).2 := by
  unfold Store.updateDepartment
  cases hfound : Tables.find Department.id s.departments id with
  | none => exact .kept (fun _ => rfl) rfl
  | some department =>
      rcases checked_cases with h | ⟨-, -, h⟩ <;> rw [h]
      · exact .kept (fun _ => rfl) rfl
      · have hnodes := map_node_write s.departments id (fun _ => rfl) hf
        split at hnodes
        · refine .kept ?_ rfl
          rintro (_ | _)
          · rfl
          · exact hnodes
        · rename_i hset
          have hmove := hmove hset
          refine .moved .departments organizationId id _ hnodes ?_ rfl hmove.row hmove.above
            hmove.walks
          rintro (_ | _) hother
          · rfl
          · exact absurd rfl hother

theorem updatePosition_does {f : Position → Position} (organizationId : Str) (parent : DtoField Str)
    (hf : ∀ row, (f row).node = row.node.under (parent.setNullable row.node.parent))
    (hmove : parent ≠ .absent → MayMove s i .positions organizationId id parent.value?) :
    Does i s (s.updatePosition id f conflict).2 := by
  unfold Store.updatePosition
  cases hfound : Tables.find Position.id s.positions id with
  | none => exact .kept (fun _ => rfl) rfl
  | some position =>
      rcases checked_cases with h | ⟨-, -, h⟩ <;> rw [h]
      · exact .kept (fun _ => rfl) rfl
      · have hnodes := map_node_write s.positions id (fun _ => rfl) hf
        split at hnodes
        · refine .kept ?_ rfl
          rintro (_ | _)
          · exact hnodes
          · rfl
        · rename_i hset
          have hmove := hmove hset
          refine .moved .positions organizationId id _ hnodes ?_ rfl hmove.row hmove.above
            hmove.walks
          rintro (_ | _) hother
          · exact absurd rfl hother
          · rfl

end Writes

section Programs

open Services.Steps

variable {s : Store} {i fuel : Nat} {organizationId id : Str}

/-- A step that does not touch the hierarchies. -/
theorem unrelated_last {α : Type} {f : Choice → Store → Except HttpError α × Store}
    (hs : Sound s) (hf : ∀ c t, (f c t).2.departments = t.departments ∧
      (f c t).2.positions = t.positions ∧ (f c t).2.walked = t.walked) :
    hierarchySteps.Safe i (change f) s fun _ _ => True :=
  change_last (fun _ => True) stable_true hs trivial fun t c _ _ =>
    does_of_same (hf c t).1 (hf c t).2.1 (hf c t).2.2

theorem query_any {α β : Type} {f : Store → β} {k : β → Program Store α} {post : α → Store → Prop}
    (hs : Sound s) (next : ∀ t, Sound t → hierarchySteps.Safe i (k (f t)) t post) :
    hierarchySteps.Safe i (query f >>= k) s post :=
  query_bind (fun _ => True) stable_true hs trivial fun t ht _ => next t ht

theorem whenSome_any {α : Type} {reference : Option Str} {found : Store → Str → Bool}
    {error : HttpError} {k : Unit → Program Store α} {post : α → Store → Prop} (hs : Sound s)
    (next : ∀ t, Sound t → hierarchySteps.Safe i (k ()) t post) :
    hierarchySteps.Safe i (whenSome reference found error >>= k) s post :=
  part_bind (whenSome_safe (fun _ => True) stable_true hs trivial) fun _ t h => next t h.1

theorem findValidOrchestrator_any {α : Type} {reference : Option Str}
    {k : Option DigitalEmployee → Program Store α} {post : α → Store → Prop} (hs : Sound s)
    (next : ∀ orchestrator t, Sound t → hierarchySteps.Safe i (k orchestrator) t post) :
    hierarchySteps.Safe i (findValidOrchestrator organizationId reference >>= k) s post :=
  part_bind (findValidOrchestrator_safe (fun _ => True) stable_true hs trivial)
    fun orchestrator t h => next orchestrator t h.1

theorem admitOrchestrator_frame {s t : Store} {workforce : WorkforceInstance} {taken : Bool}
    {orchestrator : Option Str} (hdepartments : t.departments = s.departments)
    (hpositions : t.positions = s.positions) (hwalked : t.walked = s.walked) :
    (s.admitOrchestrator t workforce taken orchestrator).2.departments = s.departments ∧
      (s.admitOrchestrator t workforce taken orchestrator).2.positions = s.positions ∧
        (s.admitOrchestrator t workforce taken orchestrator).2.walked = s.walked := by
  unfold Store.admitOrchestrator
  rcases checked_cases with h | ⟨-, -, h⟩ <;> rw [h]
  · exact ⟨rfl, rfl, rfl⟩
  · cases orchestrator with
    | none => exact ⟨hdepartments, hpositions, hwalked⟩
    | some id => exact ⟨hdepartments, hpositions, hwalked⟩

theorem createWorkforce_safe {dto : CreateWorkforceInstanceDto} (hs : Sound s) :
    hierarchySteps.Safe i (createWorkforce organizationId dto) s fun _ _ => True := by
  refine findValidOrchestrator_any hs fun orchestrator t ht => require_bind ht fun _ => ?_
  refine unrelated_last ht fun c t => ?_
  split
  · exact ⟨rfl, rfl, rfl⟩
  · exact admitOrchestrator_frame rfl rfl rfl

theorem updateWorkforce_safe {dto : UpdateWorkforceInstanceDto} (hs : Sound s) :
    hierarchySteps.Safe i (updateWorkforce organizationId id dto) s fun _ _ => True := by
  refine query_any hs fun t ht => require_bind ht fun _ => ?_
  refine findValidOrchestrator_any ht fun orchestrator t ht => require_bind ht fun _ => ?_
  refine unrelated_last ht fun c t => ?_
  dsimp only
  split
  · exact ⟨rfl, rfl, rfl⟩
  · split
    · exact admitOrchestrator_frame rfl rfl rfl
    · exact ⟨rfl, rfl, rfl⟩

theorem createDepartment_safe {dto : CreateDepartmentDto} (hs : Sound s) :
    hierarchySteps.Safe i (createDepartment organizationId dto) s fun _ _ => True := by
  refine query_any hs fun t ht => require_bind ht fun _ => ?_
  refine part_bind (whenSome_safe (fun _ => True) stable_true ht trivial)
    fun _ t ⟨ht, _, hparent⟩ => ?_
  refine part_bind (whenSome_safe _ checked_stable ht hparent) fun _ t ⟨ht, hparent, _⟩ => ?_
  refine change_last _ checked_stable ht hparent fun t c ht hparent => ?_
  refine insertDepartment_does fun target htarget => ?_
  exact (hparent target htarget).now (fun _ hs h => organizationOf_of_hasDepartment hs h)
    organizationOf_stable

theorem assertNewParent_safe {current : Department} {target : Option Str} (hs : Sound s)
    (hrow : organizationOf (s.nodes .departments) id = some organizationId) :
    hierarchySteps.Safe i (assertNewParent i fuel organizationId id current target) s fun _ t =>
      Sound t ∧ MayMove t i .departments organizationId id target := by
  unfold assertNewParent
  cases target with
  | none => exact ends _ organizationOf_stable hs hrow fun t ht hrow => ⟨ht, hrow, nofun, .root⟩
  | some above =>
      refine part_bind (whenSome_safe _ organizationOf_stable hs hrow)
        fun _ t ⟨ht, hrow, habove⟩ => ?_
      refine (walkUp_safe recordsReads walked_stable _ (organizationOf_stable.and checked_stable)
        ht ⟨hrow, habove⟩).mono (fun _ t ⟨ht, ⟨hrow, habove⟩, hwalks, _⟩ => ?_) fun _ _ h => h
      refine ⟨ht, hrow, fun x hx => ?_, hwalks⟩
      exact (habove x hx).now (fun _ hs h => organizationOf_of_hasDepartment hs h)
        organizationOf_stable

theorem updateDepartment_safe {dto : UpdateDepartmentDto} (hs : Sound s) :
    hierarchySteps.Safe i (updateDepartment i fuel organizationId id dto) s fun _ _ => True := by
  refine query_any hs fun t ht => expect_bind ht fun current hcurrent => ?_
  obtain ⟨hmem, rfl, rfl⟩ := departmentOf_some hcurrent
  refine require_bind ht fun _ => ?_
  refine part_bind (assertNewParent_safe ht (organizationOf_department ht hmem))
    fun _ t ⟨ht, hmove⟩ => ?_
  refine part_bind (whenSome_safe _ mayMove_stable ht hmove) fun _ t ⟨ht, hmove, _⟩ => ?_
  refine change_last _ mayMove_stable ht hmove fun t c ht hmove => ?_
  split
  · exact .kept (fun _ => rfl) rfl
  · exact updateDepartment_does _ dto.parentDepartmentId (fun _ => rfl) fun _ => hmove

theorem createTeam_safe {dto : CreateTeamDto} (hs : Sound s) :
    hierarchySteps.Safe i (createTeam organizationId dto) s fun _ _ => True := by
  refine whenSome_any hs fun t ht => whenSome_any ht fun t ht => unrelated_last ht fun c t => ?_
  unfold Store.insertTeam
  rcases checked_cases with h | ⟨-, -, h⟩ <;> rw [h] <;> exact ⟨rfl, rfl, rfl⟩

theorem updateTeam_safe {dto : UpdateTeamDto} (hs : Sound s) :
    hierarchySteps.Safe i (updateTeam organizationId id dto) s fun _ _ => True := by
  refine query_any hs fun t ht => expect_bind ht fun team _ => ?_
  refine query_any ht fun t ht => expect_bind ht fun department _ => ?_
  refine whenSome_any ht fun t ht => unrelated_last ht fun c t => ?_
  split
  · exact ⟨rfl, rfl, rfl⟩
  · unfold Store.updateTeam
    split
    · exact ⟨rfl, rfl, rfl⟩
    · rcases checked_cases with h | ⟨-, -, h⟩ <;> rw [h] <;> exact ⟨rfl, rfl, rfl⟩

theorem createPosition_safe {dto : CreatePositionDto} (hs : Sound s) :
    hierarchySteps.Safe i (createPosition organizationId dto) s fun _ _ => True := by
  refine part_bind (validateContext_safe (fun _ => True) stable_true hs trivial)
    fun departmentId t ⟨ht, _, hvalid⟩ => ?_
  refine change_last _ checked_stable ht hvalid.manager fun t c ht hmanager => ?_
  split
  · exact .kept (fun _ => rfl) rfl
  · refine insertPosition_does fun target htarget => ?_
    exact (hmanager target htarget).now (fun _ hs h => organizationOf_of_hasPosition hs h)
      organizationOf_stable

theorem updatePosition_safe {dto : UpdatePositionDto} (hs : Sound s) :
    hierarchySteps.Safe i (updatePosition i fuel organizationId id dto) s fun _ _ => True := by
  refine query_any hs fun t ht => expect_bind ht fun existing hexisting => ?_
  obtain ⟨hmem, rfl, rfl⟩ := positionOf_some hexisting
  refine require_bind ht fun _ => ?_
  refine part_bind (walkUp_safe recordsReads walked_stable _ organizationOf_stable ht
    (organizationOf_position ht hmem)) fun _ t ⟨ht, hrow, hwalks, _⟩ => ?_
  refine part_bind (validateContext_safe _ (organizationOf_stable.and walks_stable) ht
    ⟨hrow, hwalks⟩) fun departmentId t ⟨ht, ⟨hrow, hwalks⟩, hvalid⟩ => ?_
  refine change_last _ ((organizationOf_stable.and walks_stable).and checked_stable) ht
    ⟨⟨hrow, hwalks⟩, hvalid.manager⟩ fun t c ht h => ?_
  obtain ⟨⟨hrow, hwalks⟩, hmanager⟩ := h
  split
  · refine updatePosition_does existing.organizationId dto.managerPositionId (fun _ => rfl) fun hset => ?_
    rw [← DtoField.setNullable_of_ne_absent hset]
    refine ⟨hrow, fun above habove => ?_, hwalks⟩
    exact (hmanager above habove).now (fun _ hs h => organizationOf_of_hasPosition hs h)
      organizationOf_stable
  · exact .kept (fun _ => rfl) rfl

theorem assignWorkforce_safe {workforceInstanceId : Option Str} (hs : Sound s) :
    hierarchySteps.Safe i (assignWorkforce organizationId id workforceInstanceId) s
      fun _ _ => True := by
  refine query_any hs fun t ht => expect_bind ht fun employee _ => ?_
  refine whenSome_any ht fun t ht => require_bind ht fun _ => unrelated_last ht fun c t => ?_
  split <;> exact ⟨rfl, rfl, rfl⟩

theorem program_safe (call : Call) (hs : Sound s) :
    hierarchySteps.Safe i (call.program fuel i) s fun _ _ => True := by
  cases call with
  | createWorkforce => exact discard (createWorkforce_safe hs)
  | updateWorkforce => exact discard (updateWorkforce_safe hs)
  | createDepartment => exact discard (createDepartment_safe hs)
  | updateDepartment => exact discard (updateDepartment_safe hs)
  | createTeam => exact discard (createTeam_safe hs)
  | updateTeam => exact discard (updateTeam_safe hs)
  | createPosition => exact discard (createPosition_safe hs)
  | updatePosition => exact discard (updatePosition_safe hs)
  | assignWorkforce => exact assignWorkforce_safe hs

end Programs

end Structure
