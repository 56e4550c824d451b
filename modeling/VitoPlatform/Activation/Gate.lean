import VitoPlatform.Activation.Services
import VitoPlatform.Persistence.Calls

/-!
# What the activation gate refuses is not reached

An active employee has an enabled capability, and each of those that has a high risk needs an
approval. An activation has looked at that, but not at what has come since; a grant and a
revocation do not look at all. So the gate holds as long as these steps do no harm
(`AuditRecord.Harmless`).
-/

namespace Activation

open Text Concurrent Services Services.Steps

def Store.enabled (s : Store) (id : Str) : List Capability := enabledOf (s.assignments id)

/-- What the gate asks of an employee. -/
structure Ready (s : Store) (id : Str) : Prop where
  enabled : ∃ capability, capability ∈ s.enabled id
  approved : ∀ capability ∈ s.enabled id, capability.ungated = false

def IsActive (s : Store) (id : Str) : Prop :=
  ∃ employee ∈ s.employees, employee.id = id ∧ employee.status = .active

/-- No employee is active whom the gate would have refused. -/
def Gated (s : Store) : Prop := ∀ id, IsActive s id → Ready s id

/-- Identifiers are unique, and the capabilities of the links are there. -/
structure Sound (s : Store) : Prop where
  employees : (s.employees.map DigitalEmployee.id).Nodup
  capabilities : (s.capabilities.map Capability.id).Nodup
  links : ∀ link ∈ s.links, (Tables.find Capability.id s.capabilities link.capabilityId).isSome

def HasEnabled (s : Store) (id : Str) (link : DigitalEmployeeCapability) : Prop :=
  link ∈ s.links ∧ link.digitalEmployeeId = id ∧ link.isEnabled = true

/-- An employee keeps an enabled capability besides this one. -/
def KeepsOther (s : Store) (id capabilityId : Str) : Prop :=
  ∃ link, HasEnabled s id link ∧ link.capabilityId ≠ capabilityId

/-- What session `i` commits does no harm to the gate. -/
def AuditRecord.Harmless (s : Store) (i : Nat) : AuditRecord → Prop
  -- There still is an enabled capability, and what has been enabled since the read is harmless.
  | .activated id _ _ => (∃ capability, capability ∈ s.enabled id) ∧
      ∀ read ∈ s.reads, read.1 = i → read.2.1 = id →
        ∀ capability ∈ s.enabled id, capability ∈ enabledOf read.2.2 ∨ capability.ungated = false
  | .granted id capabilityId isEnabled => IsActive s id →
      if isEnabled then ∀ capability,
        Tables.find Capability.id s.capabilities capabilityId = some capability →
          capability.ungated = false
      else KeepsOther s id capabilityId
  | .revoked id capabilityId => IsActive s id → KeepsOther s id capabilityId
  | _ => True

def Harmless (i : Nat) (s t : Store) : Prop :=
  ∀ record, t.audit = s.audit ++ [record] → record.Harmless s i

/-- What one step of a call does. -/
inductive Does (i : Nat) (s t : Store) : Prop
  | nothing : t = s → Does i s t
  | read (id : Str) :
      t = { s with reads := s.reads ++ [(i, id, s.assignments id)] } → Does i s t
  | employeeCreated (employee : DigitalEmployee) (record : AuditRecord) :
      Tables.find DigitalEmployee.id s.employees employee.id = none →
        employee.status ≠ .active →
          t = { s with employees := s.employees ++ [employee], audit := s.audit ++ [record] } →
            Does i s t
  | employeeUpdated (id : Str) (dto : UpdateDigitalEmployeeDto) :
      dto.status ≠ .value .active →
        t = { s with
          employees := Tables.write DigitalEmployee.id s.employees id dto.apply
          audit := s.audit ++ [.employeeUpdated id dto] } → Does i s t
  | activated (id approvalNote : Str) (codes : List Str) (assignments : Assignments) :
      (i, id, assignments) ∈ s.reads →
        (∀ capability ∈ enabledOf assignments, capability.ungated = false) →
          t = { s with
            employees := Tables.write DigitalEmployee.id s.employees id DigitalEmployee.activate
            audit := s.audit ++ [.activated id approvalNote codes] } → Does i s t
  | capabilityCreated (capability : Capability) (record : AuditRecord) :
      Tables.find Capability.id s.capabilities capability.id = none →
        t = { s with
          capabilities := s.capabilities ++ [capability]
          audit := s.audit ++ [record] } → Does i s t
  | granted (link : DigitalEmployeeCapability) :
      (Tables.find Capability.id s.capabilities link.capabilityId).isSome →
        t = { s with
          links := s.upsertLink link
          audit := s.audit ++
            [.granted link.digitalEmployeeId link.capabilityId link.isEnabled] } → Does i s t
  | revoked (id capabilityId : Str) :
      t = { s with
        links := s.links.filter fun link => !link.isFor id capabilityId
        audit := s.audit ++ [.revoked id capabilityId] } → Does i s t

section Links

variable {s t : Store} {id : Str} {capability : Capability}

theorem mem_enabled : capability ∈ s.enabled id ↔ ∃ link, HasEnabled s id link ∧
    Tables.find Capability.id s.capabilities link.capabilityId = some capability := by
  unfold Store.enabled enabledOf Store.assignments HasEnabled
  simp only [List.mem_map, List.mem_filter, List.mem_filterMap, decide_eq_true_eq, Prod.exists,
    Option.map_eq_some_iff, Prod.mk.injEq]
  constructor
  · rintro ⟨link, other, ⟨⟨old, ⟨hmem, hid⟩, found, hfound, rfl, rfl⟩, henabled⟩, rfl⟩
    exact ⟨old, ⟨hmem, hid, henabled⟩, hfound⟩
  · rintro ⟨link, ⟨hmem, hid, henabled⟩, hfound⟩
    exact ⟨link, capability, ⟨⟨link, ⟨hmem, hid⟩, capability, hfound, rfl, rfl⟩, henabled⟩, rfl⟩

/-- An enabled link stands for a capability. -/
theorem exists_enabled (hs : Sound s) {link : DigitalEmployeeCapability}
    (h : HasEnabled s id link) : ∃ capability, capability ∈ s.enabled id := by
  obtain ⟨capability, hfound⟩ := Option.isSome_iff_exists.mp (hs.links link h.1)
  exact ⟨capability, mem_enabled.mpr ⟨link, h, hfound⟩⟩

/-- An employee stays ready if an enabled link is left, and each link is an old one or harmless. -/
theorem Ready.of_links (ht : Sound t) (hcapabilities : t.capabilities = s.capabilities)
    (hready : Ready s id) (hsome : ∃ link, HasEnabled t id link)
    (hall : ∀ link, HasEnabled t id link → HasEnabled s id link ∨ ∀ capability,
      Tables.find Capability.id s.capabilities link.capabilityId = some capability →
        capability.ungated = false) : Ready t id := by
  obtain ⟨link, hlink⟩ := hsome
  refine ⟨exists_enabled ht hlink, fun capability hmem => ?_⟩
  obtain ⟨link, hlink, hfound⟩ := mem_enabled.mp hmem
  rw [hcapabilities] at hfound
  rcases hall link hlink with hold | hharmless
  · exact hready.approved capability (mem_enabled.mpr ⟨link, hold, hfound⟩)
  · exact hharmless capability hfound

/-- What is seen of an employee is the same if its links and the capabilities are. -/
theorem Ready.of_same (hready : Ready s id) (hlinks : t.links = s.links)
    (hcapabilities : t.capabilities = s.capabilities) : Ready t id := by
  have hsame : t.enabled id = s.enabled id := by
    unfold Store.enabled Store.assignments
    rw [hlinks, hcapabilities]
  exact ⟨hsame ▸ hready.enabled, hsame ▸ hready.approved⟩

theorem mem_upsertLink {link other : DigitalEmployeeCapability} :
    other ∈ s.upsertLink link ↔ other = link ∨
      other ∈ s.links ∧ other.isFor link.digitalEmployeeId link.capabilityId = false := by
  unfold Store.upsertLink
  split
  · rename_i hthere
    obtain ⟨present, hpresent, hfor⟩ := List.any_eq_true.mp hthere
    rw [List.mem_map]
    constructor
    · rintro ⟨old, hold, rfl⟩
      split
      · exact .inl rfl
      · rename_i hnot
        exact .inr ⟨hold, Bool.eq_false_iff.mpr hnot⟩
    · rintro (rfl | ⟨hold, hnot⟩)
      · exact ⟨present, hpresent, if_pos hfor⟩
      · exact ⟨other, hold, if_neg (Bool.eq_false_iff.mp hnot)⟩
  · rename_i hnew
    rw [List.mem_append, List.mem_singleton, or_comm]
    refine or_congr_right ⟨fun hold => ⟨hold, ?_⟩, fun h => h.1⟩
    rw [Store.hasLink, List.any_eq_true, not_exists] at hnew
    exact Bool.eq_false_iff.mpr fun hfor => hnew other ⟨hold, hfor⟩

theorem isFor_false {link : DigitalEmployeeCapability} {digitalEmployeeId capabilityId : Str}
    (h : link.digitalEmployeeId ≠ digitalEmployeeId ∨ link.capabilityId ≠ capabilityId) :
    link.isFor digitalEmployeeId capabilityId = false := by
  refine decide_eq_false fun hboth => ?_
  rcases h with hother | hother
  · exact hother hboth.1
  · exact hother hboth.2

end Links

section Steps

variable {i : Nat} {s t : Store} {id : Str}

theorem apply_id (dto : UpdateDigitalEmployeeDto) (employee : DigitalEmployee) :
    (dto.apply employee).id = employee.id := rfl

theorem activate_id (employee : DigitalEmployee) : employee.activate.id = employee.id := rfl

theorem Does.sound (h : Does i s t) (hs : Sound s) : Sound t := by
  cases h with
  | nothing ht => rw [ht]; exact hs
  | read id ht => rw [ht]; exact ⟨hs.employees, hs.capabilities, hs.links⟩
  | employeeCreated employee record hnew _ ht =>
      rw [ht]
      exact ⟨Tables.nodup_append hs.employees hnew, hs.capabilities, hs.links⟩
  | employeeUpdated id dto _ ht =>
      subst ht
      refine ⟨?_, hs.capabilities, hs.links⟩
      rw [Tables.map_key_write (apply_id dto)]
      exact hs.employees
  | activated id note codes assignments _ _ ht =>
      subst ht
      refine ⟨?_, hs.capabilities, hs.links⟩
      rw [Tables.map_key_write activate_id]
      exact hs.employees
  | capabilityCreated capability record hnew ht =>
      subst ht
      refine ⟨hs.employees, Tables.nodup_append hs.capabilities hnew, fun link hlink => ?_⟩
      obtain ⟨found, hfound⟩ := Option.isSome_iff_exists.mp (hs.links link hlink)
      exact Option.isSome_iff_exists.mpr ⟨found, Tables.find_append_of_some hfound⟩
  | granted link hthere ht =>
      subst ht
      refine ⟨hs.employees, hs.capabilities, fun other hother => ?_⟩
      rcases mem_upsertLink.mp hother with rfl | ⟨hold, -⟩
      · exact hthere
      · exact hs.links other hold
  | revoked id capabilityId ht =>
      subst ht
      exact ⟨hs.employees, hs.capabilities, fun link hlink =>
        hs.links link (List.mem_filter.mp hlink).1⟩

/-- Another link does not change what an employee has enabled. -/
theorem HasEnabled.granted {link other : DigitalEmployeeCapability}
    (h : HasEnabled s id other)
    (hother : id ≠ link.digitalEmployeeId ∨ other.capabilityId ≠ link.capabilityId) :
    HasEnabled { s with links := s.upsertLink link } id other := by
  obtain ⟨hmem, hid, henabled⟩ := h
  refine ⟨mem_upsertLink.mpr (.inr ⟨hmem, isFor_false ?_⟩), hid, henabled⟩
  rwa [hid]

theorem HasEnabled.revoked {digitalEmployeeId capabilityId : Str}
    {other : DigitalEmployeeCapability} (h : HasEnabled s id other)
    (hother : id ≠ digitalEmployeeId ∨ other.capabilityId ≠ capabilityId) :
    HasEnabled { s with
      links := s.links.filter fun link => !link.isFor digitalEmployeeId capabilityId } id
      other := by
  obtain ⟨hmem, hid, henabled⟩ := h
  refine ⟨List.mem_filter.mpr ⟨hmem, ?_⟩, hid, henabled⟩
  rw [isFor_false (by rwa [hid]), Bool.not_false]

/-- A harmless grant leaves an employee ready. -/
theorem Ready.granted {link : DigitalEmployeeCapability} (hs : Sound s)
    (ht : Sound { s with links := s.upsertLink link }) (hactive : IsActive s id)
    (hready : Ready s id)
    (hharmless : (AuditRecord.granted link.digitalEmployeeId link.capabilityId
      link.isEnabled).Harmless s i) : Ready { s with links := s.upsertLink link } id := by
  obtain ⟨capability, hcapability⟩ := hready.enabled
  obtain ⟨old, hold, -⟩ := mem_enabled.mp hcapability
  refine hready.of_links (s := s) ht rfl ?_ ?_
  · by_cases hid : id = link.digitalEmployeeId
    · subst hid
      cases henabled : link.isEnabled with
      | true => exact ⟨link, mem_upsertLink.mpr (.inl rfl), rfl, henabled⟩
      | false =>
          have hkeeps := hharmless hactive
          rw [henabled, if_neg Bool.false_ne_true] at hkeeps
          obtain ⟨other, hother, hne⟩ := hkeeps
          exact ⟨other, hother.granted (.inr hne)⟩
    · exact ⟨old, hold.granted (.inl hid)⟩
  · rintro other ⟨hmem, hid, henabled⟩
    rcases mem_upsertLink.mp hmem with rfl | ⟨hold, -⟩
    · subst hid
      have hsafe := hharmless hactive
      rw [henabled, if_pos rfl] at hsafe
      exact .inr hsafe
    · exact .inl ⟨hold, hid, henabled⟩

/-- So does a harmless revocation. -/
theorem Ready.revoked {digitalEmployeeId capabilityId : Str}
    (ht : Sound { s with
      links := s.links.filter fun link => !link.isFor digitalEmployeeId capabilityId })
    (hactive : IsActive s id) (hready : Ready s id)
    (hharmless : (AuditRecord.revoked digitalEmployeeId capabilityId).Harmless s i) :
    Ready { s with
      links := s.links.filter fun link => !link.isFor digitalEmployeeId capabilityId } id := by
  obtain ⟨capability, hcapability⟩ := hready.enabled
  obtain ⟨old, hold, -⟩ := mem_enabled.mp hcapability
  refine hready.of_links (s := s) ht rfl ?_ fun other h => .inl ⟨(List.mem_filter.mp h.1).1, h.2⟩
  by_cases hid : id = digitalEmployeeId
  · subst hid
    obtain ⟨other, hother, hne⟩ := hharmless hactive
    exact ⟨other, hother.revoked (.inr hne)⟩
  · exact ⟨old, hold.revoked (.inl hid)⟩

/-- A new capability is not linked yet. -/
theorem Ready.capabilityCreated {capability : Capability} (hs : Sound s) (hready : Ready s id) :
    Ready { s with capabilities := s.capabilities ++ [capability] } id := by
  obtain ⟨old, hold⟩ := hready.enabled
  obtain ⟨link, hlink, hfound⟩ := mem_enabled.mp hold
  refine ⟨⟨old, mem_enabled.mpr ⟨link, hlink, Tables.find_append_of_some hfound⟩⟩, ?_⟩
  intro other hother
  obtain ⟨link, hlink, hfound⟩ := mem_enabled.mp hother
  obtain ⟨there, hthere⟩ := Option.isSome_iff_exists.mp (hs.links link hlink.1)
  obtain rfl := Option.some.inj ((Tables.find_append_of_some hthere).symm.trans hfound)
  exact hready.approved there (mem_enabled.mpr ⟨link, hlink, hthere⟩)

/-- An employee who is active after a write has been so before, or because of the write. -/
theorem IsActive.of_write {f : DigitalEmployee → DigitalEmployee} {written : Str}
    (h : IsActive { s with
      employees := Tables.write DigitalEmployee.id s.employees written f } id)
    (hid : ∀ employee, (f employee).id = employee.id) :
    ∃ old ∈ s.employees, old.id = id ∧
      (old.status = .active ∨ id = written ∧ (f old).status = .active) := by
  obtain ⟨employee, hmem, rfl, hactive⟩ := h
  obtain ⟨old, hold, rfl⟩ := Tables.mem_write.mp hmem
  split at hactive
  · rename_i hsame
    rw [if_pos hsame, hid]
    exact ⟨old, hold, rfl, .inr ⟨hsame, hactive⟩⟩
  · rename_i hother
    rw [if_neg hother]
    exact ⟨old, hold, rfl, .inl hactive⟩

/-- A step that does no harm leaves the gate closed. -/
theorem Does.gated (h : Does i s t) (hs : Sound s) (hgated : Gated s)
    (hharmless : Harmless i s t) : Gated t := by
  have ht := h.sound hs
  intro id hactive
  cases h with
  | nothing hst => subst hst; exact hgated id hactive
  | read _ hst => subst hst; exact (hgated id hactive).of_same rfl rfl
  | employeeCreated employee record _ hstatus hst =>
      subst hst
      obtain ⟨old, hmem, hid, hactive⟩ := hactive
      rcases List.mem_append.mp hmem with hold | hnew
      · exact (hgated id ⟨old, hold, hid, hactive⟩).of_same rfl rfl
      · rw [List.mem_singleton.mp hnew] at hactive
        exact absurd hactive hstatus
  | employeeUpdated written dto hstatus hst =>
      subst hst
      obtain ⟨old, hold, hid, hactive⟩ := hactive.of_write (apply_id dto)
      have hactive : old.status = .active := by
        rcases hactive with hactive | ⟨-, hactive⟩
        · exact hactive
        · -- No update makes an employee active.
          change dto.status.set old.status = .active at hactive
          cases hset : dto.status with
          | absent | null => rw [hset] at hactive; exact hactive
          | value status =>
              rw [hset, DtoField.set_value] at hactive
              exact absurd (hset.trans (congrArg DtoField.value hactive)) hstatus
      exact (hgated id ⟨old, hold, hid, hactive⟩).of_same rfl rfl
  | activated written note codes assignments hread hpassed hst =>
      obtain ⟨hsome, hsince⟩ := hharmless (.activated written note codes) (by rw [hst])
      subst hst
      obtain ⟨old, hold, hid, hactive⟩ := hactive.of_write activate_id
      rcases hactive with hactive | ⟨rfl, -⟩
      · exact (hgated id ⟨old, hold, hid, hactive⟩).of_same rfl rfl
      · refine Ready.of_same (s := s) ⟨hsome, fun capability hmem => ?_⟩ rfl rfl
        rcases hsince _ hread rfl rfl capability hmem with hold | hnew
        · exact hpassed capability hold
        · exact hnew
  | capabilityCreated capability record _ hst =>
      subst hst
      exact ((hgated id hactive).capabilityCreated hs).of_same rfl rfl
  | granted link hthere hst =>
      have hgrant := hharmless (.granted _ _ _) (by rw [hst])
      subst hst
      exact ((hgated id hactive).granted hs ⟨ht.employees, ht.capabilities, ht.links⟩ hactive
        hgrant).of_same rfl rfl
  | revoked digitalEmployeeId capabilityId hst =>
      have hrevocation := hharmless (.revoked _ _) (by rw [hst])
      subst hst
      exact ((hgated id hactive).revoked ⟨ht.employees, ht.capabilities, ht.links⟩ hactive
        hrevocation).of_same rfl rfl

end Steps

/-- The steps of all calls. -/
def gateSteps : Steps Store where
  inv := Sound
  does := Does
  rely _ s t := ∃ i, Does i s t
  records := Does
  refl _ _ := .nothing rfl
  keeps hdoes hs := hdoes.sound hs
  between hbetween hs := by
    rcases hbetween with ⟨_, hdoes⟩ | hdoes
    · exact hdoes.sound hs
    · exact hdoes.sound hs

section Programs

variable {i : Nat} {s : Store} {id organizationId : Str} {α : Type} {post : α → Store → Prop}

theorem Does.mem_reads {t : Store} {entry : Nat × Str × Assignments} (h : Does i s t)
    (hmem : entry ∈ s.reads) : entry ∈ t.reads := by
  cases h with
  | nothing ht => rw [ht]; exact hmem
  | read _ ht => rw [ht]; exact List.mem_append_left _ hmem
  | employeeCreated _ _ _ _ ht => rw [ht]; exact hmem
  | employeeUpdated _ _ _ ht => rw [ht]; exact hmem
  | activated _ _ _ _ _ _ ht => rw [ht]; exact hmem
  | capabilityCreated _ _ _ ht => rw [ht]; exact hmem
  | granted _ _ ht => rw [ht]; exact hmem
  | revoked _ _ ht => rw [ht]; exact hmem

theorem reads_stable {entry : Nat × Str × Assignments} :
    gateSteps.Stable i fun s => entry ∈ s.reads := by
  rintro s t - hmem (⟨_, hdoes⟩ | hdoes)
  · exact hdoes.mem_reads hmem
  · exact hdoes.mem_reads hmem

/-- An employee that has been read. -/
theorem findByIdOrFail_bind {k : DigitalEmployee × Assignments → Program Store α} (hs : Sound s)
    (next : ∀ employee assignments t, Sound t → (i, id, assignments) ∈ t.reads →
      gateSteps.Safe i (k (employee, assignments)) t post) :
    gateSteps.Safe i (findByIdOrFail i organizationId id >>= k) s post := by
  refine change_bind (fun _ => True) stable_true hs trivial fun t c ht _ => ?_
  dsimp only
  cases t.employees.find? fun employee =>
      decide (employee.id = id ∧ employee.organizationId = organizationId) with
  | none => exact ⟨.nothing rfl, fun _ ha => nomatch ha⟩
  | some employee =>
      refine ⟨.read id rfl, ?_⟩
      rintro _ ⟨⟩ hafter
      exact next employee _ _ hafter (List.mem_append_right _ (List.mem_singleton_self _))

theorem createEmployee_safe {dto : CreateDigitalEmployeeDto} (hs : Sound s) :
    gateSteps.Safe i (createEmployee organizationId dto) s fun _ _ => True := by
  refine require_bind hs fun hstatus => ?_
  refine change_last (fun _ => True) stable_true hs trivial fun t c ht _ => ?_
  split
  · exact .nothing rfl
  · unfold Store.insertEmployee
    split
    · exact .nothing rfl
    · rename_i hfree
      refine .employeeCreated (dto.employee organizationId c.id) _ ?_ (fun hactive => ?_) rfl
      · refine Tables.find_none_iff.mpr fun old hold hsame => hfree ?_
        exact List.any_eq_true.mpr ⟨old, hold, decide_eq_true (.inl hsame)⟩
      · have hstatus := of_decide_eq_true hstatus
        change dto.status.set .draft = .active at hactive
        cases hset : dto.status with
        | absent | null => rw [hset] at hactive; cases hactive
        | value status =>
            rw [hset, DtoField.set_value] at hactive
            exact hstatus (hset.trans (congrArg DtoField.value hactive))

theorem updateEmployee_safe {dto : UpdateDigitalEmployeeDto} (hs : Sound s) :
    gateSteps.Safe i (updateEmployee i organizationId id dto) s fun _ _ => True := by
  refine findByIdOrFail_bind hs fun employee assignments t ht _ => ?_
  refine require_bind ht fun hstatus => ?_
  refine change_last (fun _ => True) stable_true ht trivial fun t c ht _ => ?_
  split
  · unfold Store.updateEmployee
    split
    · exact .nothing rfl
    · exact .employeeUpdated id dto (of_decide_eq_true hstatus) rfl
  · exact .nothing rfl

/-- What has passed the gate. -/
theorem activationGate_ok {employee : DigitalEmployee} {assignments : Assignments}
    {dto : ActivateDigitalEmployeeDto} {enabled : List Capability}
    (h : activationGate employee assignments dto = .ok enabled) :
    ∀ capability ∈ enabledOf assignments, capability.ungated = false := by
  unfold activationGate at h
  dsimp only at h
  split_ifs at h with _ _ _ _ hungated
  intro capability hmem
  by_contra hnot
  refine hungated (List.length_pos_of_mem (a := capability) ?_)
  exact List.mem_filter.mpr ⟨hmem, Bool.not_eq_false _ ▸ hnot⟩

theorem activate_safe {dto : ActivateDigitalEmployeeDto} (hs : Sound s) :
    gateSteps.Safe i (activate i organizationId id dto) s fun _ _ => True := by
  refine findByIdOrFail_bind hs fun employee assignments t ht hread => ?_
  dsimp only
  cases hgate : activationGate employee assignments dto with
  | error error => exact fails ht
  | ok enabled =>
      refine change_last _ reads_stable ht hread fun t c ht hread => ?_
      unfold Store.updateEmployee
      split
      · exact .nothing rfl
      · exact .activated id _ _ assignments hread (activationGate_ok hgate) rfl

theorem createCapability_safe {dto : CreateCapabilityDto} (hs : Sound s) :
    gateSteps.Safe i (createCapability organizationId dto) s fun _ _ => True := by
  refine change_last (fun _ => True) stable_true hs trivial fun t c ht _ => ?_
  split
  · exact .nothing rfl
  · unfold Store.insertCapability
    split
    · exact .nothing rfl
    · rename_i hfree
      refine .capabilityCreated (dto.capability organizationId c.id) _ ?_ rfl
      refine Tables.find_none_iff.mpr fun old hold hsame => hfree ?_
      exact List.any_eq_true.mpr ⟨old, hold, decide_eq_true (.inl hsame)⟩

theorem assertBoth_safe {digitalEmployeeId capabilityId : Str} (hs : Sound s) :
    gateSteps.Safe i (assertBoth organizationId digitalEmployeeId capabilityId) s
      fun _ t => Sound t := by
  refine query_bind (fun _ => True) stable_true hs trivial fun t ht _ => require_bind ht fun _ => ?_
  refine query_bind (fun _ => True) stable_true ht trivial fun t ht _ => ?_
  rw [← Proc.bind_done (Proc.require _ _)]
  exact require_bind ht fun _ => ends (fun _ => True) stable_true ht trivial fun t ht _ => ht

theorem grantToDigitalEmployee_safe {digitalEmployeeId capabilityId : Str}
    {dto : GrantCapabilityDto} (hs : Sound s) :
    gateSteps.Safe i (grantToDigitalEmployee organizationId digitalEmployeeId capabilityId dto) s
      fun _ _ => True := by
  refine part_bind (assertBoth_safe hs) fun _ t ht => ?_
  refine change_last (fun _ => True) stable_true ht trivial fun t c ht _ => ?_
  unfold Store.grant
  split
  · rename_i hthere
    exact .granted _ hthere.2 rfl
  · exact .nothing rfl

theorem revokeFromDigitalEmployee_safe {digitalEmployeeId capabilityId : Str} (hs : Sound s) :
    gateSteps.Safe i (revokeFromDigitalEmployee organizationId digitalEmployeeId capabilityId) s
      fun _ _ => True := by
  refine part_bind (assertBoth_safe hs) fun _ t ht => ?_
  refine query_bind (fun _ => True) stable_true ht trivial fun t ht _ => require_bind ht fun _ => ?_
  refine change_last (fun _ => True) stable_true ht trivial fun t c ht _ => ?_
  unfold Store.revoke
  split
  · exact .revoked digitalEmployeeId capabilityId rfl
  · exact .nothing rfl

theorem program_safe (call : Call) (hs : Sound s) :
    gateSteps.Safe i (call.program i) s fun _ _ => True := by
  cases call with
  | createEmployee => exact discard (createEmployee_safe hs)
  | updateEmployee => exact discard (updateEmployee_safe hs)
  | activate => exact discard (activate_safe hs)
  | createCapability => exact discard (createCapability_safe hs)
  | grant => exact discard (grantToDigitalEmployee_safe hs)
  | revoke => exact revokeFromDigitalEmployee_safe hs

end Programs

section Runs

variable {calls : List Call} {store : Store} {moves : List Move}
variable {s : System Store Choice HttpError Unit}

/-- In a run whose steps do no harm no employee is active whom the gate would have refused. -/
theorem gate_holds (h : Run calls store moves s) (hsound : Sound store) (hgated : Gated store)
    (hharmless : ∀ m ∈ moves, Harmless m.input.1 m.before.store m.after.store) :
    Gated s.store := by
  have hdoes : MovesDo gateSteps moves := by
    refine run_does h (fun i j s t _ hdoes => ⟨i, hdoes⟩) (fun i p hp => ?_) hsound
    rw [programs, List.getElem?_mapIdx, Option.map_eq_some_iff] at hp
    obtain ⟨call, -, rfl⟩ := hp
    exact program_safe call hsound
  exact hdoes.induction (P := fun _ s => Gated s) h hgated
    fun past m hbefore hm hsound hdoes => hdoes.gated hsound hbefore (hharmless m hm)

end Runs

section Examples

private def emptyStore : Store where
  employees := []
  capabilities := []
  links := []
  audit := []
  reads := []

private theorem emptyStore_sound : Sound emptyStore :=
  ⟨by decide, by decide, fun _ h => (List.not_mem_nil h).elim⟩

private theorem emptyStore_gated : Gated emptyStore :=
  fun _ ⟨_, hmem, _⟩ => (List.not_mem_nil hmem).elim

private def newEmployee : Call :=
  .createEmployee "org".toList
    ⟨"TIMO".toList, "timo".toList, none, .specialist, .absent, "0.1.0".toList⟩

private def newCapability (code : Str) (riskLevel : RiskLevel) (requiresApproval : Bool) : Call :=
  .createCapability "org".toList ⟨code, code, none, .value riskLevel, .value requiresApproval⟩

private def enable (capabilityId : Str) : Call :=
  .grant "org".toList "timo".toList capabilityId ⟨some true, none⟩

private def activateTimo : Call :=
  .activate "org".toList "timo".toList ⟨true, true, "Reviewed and approved.".toList⟩

private def runOf (calls : List Call) (turns : List (Nat × Nat × Str)) :
    List Move × System Store Choice HttpError Unit :=
  Machine.execute System.step ⟨emptyStore, programs calls⟩
    (turns.flatMap fun (session, count, id) => List.replicate count (session, ⟨false, id, 0⟩))

/-- A step that only enables what is approved, and leaves something enabled. -/
private def noHarm (s : Store) : AuditRecord → Bool
  | .activated id _ _ =>
      (s.enabled id).length > 0 && (s.enabled id).all fun capability => !capability.ungated
  | .granted _ capabilityId isEnabled => isEnabled && s.capabilities.all fun capability =>
      capability.id ≠ capabilityId || !capability.ungated
  | .revoked id capabilityId => s.links.any fun link =>
      link.digitalEmployeeId = id && link.isEnabled && link.capabilityId ≠ capabilityId
  | _ => true

private theorem harmless_of_noHarm {i : Nat} {s t : Store}
    (h : ∀ record ∈ t.audit.drop s.audit.length, noHarm s record = true) : Harmless i s t := by
  intro record haudit
  have hrecord := h record (by rw [haudit, List.drop_left]; exact List.mem_singleton_self _)
  cases record with
  | activated id note codes =>
      simp only [noHarm, Bool.and_eq_true, decide_eq_true_eq, List.all_eq_true] at hrecord
      refine ⟨List.exists_mem_of_length_pos hrecord.1, fun _ _ _ _ capability hmem => .inr ?_⟩
      simpa using hrecord.2 capability hmem
  | granted id capabilityId isEnabled =>
      simp only [noHarm, Bool.and_eq_true, List.all_eq_true] at hrecord
      intro _
      rw [if_pos hrecord.1]
      intro capability hfound
      obtain ⟨hmem, rfl⟩ := Tables.find_some hfound
      simpa using hrecord.2 capability hmem
  | revoked id capabilityId =>
      intro _
      obtain ⟨link, hmem, hlink⟩ := List.any_eq_true.mp hrecord
      simp only [Bool.and_eq_true, decide_eq_true_eq] at hlink
      exact ⟨link, ⟨hmem, hlink.1.1, hlink.1.2⟩, hlink.2⟩
  | employeeCreated | employeeUpdated | capabilityCreated => trivial

/-- An employee gets two capabilities, is activated, and loses one of them. -/
private def activated : List Move × System Store Choice HttpError Unit :=
  runOf [newEmployee, newCapability "read".toList .low false, newCapability "send".toList .high true,
    enable "read".toList, enable "send".toList, activateTimo,
    .revoke "org".toList "timo".toList "read".toList]
    [(0, 1, "timo".toList), (1, 1, "read".toList), (2, 1, "send".toList), (3, 3, []), (4, 3, []),
      (5, 2, []), (6, 4, [])]

theorem gate_holds_activated : Gated activated.2.store := by
  refine gate_holds (Machine.run_execute _ _ _) emptyStore_sound emptyStore_gated ?_
  have hmoves : ∀ m ∈ activated.1,
      ∀ record ∈ m.after.store.audit.drop m.before.store.audit.length,
        noHarm m.before.store record = true := by
    decide
  exact fun m hm => harmless_of_noHarm (hmoves m hm)

/-- After the activation a risk is enabled that nobody has to approve. -/
private def enabledLater : List Move × System Store Choice HttpError Unit :=
  runOf [newEmployee, newCapability "read".toList .low false, newCapability "wipe".toList .critical false,
    enable "read".toList, activateTimo, enable "wipe".toList]
    [(0, 1, "timo".toList), (1, 1, "read".toList), (2, 1, "wipe".toList), (3, 3, []), (4, 2, []),
      (5, 3, [])]

private def wipe : Capability where
  id := "wipe".toList
  organizationId := "org".toList
  code := "wipe".toList
  name := "wipe".toList
  description := none
  riskLevel := .critical
  requiresApproval := false

theorem not_gate_holds_enabledLater :
    ¬ ∀ calls store moves s, Run calls store moves s → Sound store → Gated store →
      Gated s.store := by
  intro h
  have hgated := h _ emptyStore _ enabledLater.2 (Machine.run_execute _ _ _) emptyStore_sound
    emptyStore_gated
  have hactive : enabledLater.2.store.employees.any (fun employee =>
      employee.id = "timo".toList && employee.status = .active) = true := by
    decide
  obtain ⟨employee, hmem, hemployee⟩ := List.any_eq_true.mp hactive
  simp only [Bool.and_eq_true, decide_eq_true_eq] at hemployee
  have hwipe : wipe ∈ enabledLater.2.store.enabled "timo".toList := by decide
  have happroved := (hgated _ ⟨employee, hmem, hemployee⟩).approved wipe hwipe
  exact absurd happroved (by decide)

end Examples

end Activation
