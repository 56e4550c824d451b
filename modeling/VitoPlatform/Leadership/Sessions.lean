import VitoPlatform.Leadership.Steps

/-!
# Calls on workforces keep to their steps

Whatever the others commit in between: a call still knows what it has read, what it has cleared but
for what others have made a default workforce since, and that the row it inserts is a new one.
-/

namespace Leadership

open Text Concurrent Services Services.Steps
open Structure (WorkforceInstance DigitalEmployee CreateWorkforceInstanceDto
  UpdateWorkforceInstanceDto refers)

/-! ## What stays while others go on -/

section Stability

variable {i j : Nat} {s t : Store} {id organizationId employeeId : Str}
variable {except : Option Str} {remaining done : List Str}

theorem Quiet.history (h : Quiet i s t) : ∃ more, t.history = s.history ++ more := by
  cases h with
  | nothing ht => exact ⟨[], by rw [ht, List.append_nil]⟩
  | locked _ _ ht => exact ⟨[], by rw [ht, List.append_nil]; rfl⟩
  | read _ _ _ ht | clearing ht => exact ⟨_, by rw [ht]; rfl⟩

theorem Does.history (h : Does i s t) : ∃ more, t.history = s.history ++ more := by
  cases h with
  | quiet hquiet => exact hquiet.history
  | released ht => exact ⟨[], by rw [ht, List.append_nil]; rfl⟩
  | committed writes _ ht => exact ⟨_, by rw [ht]; rfl⟩

theorem MadeDefault.mono {history more : List HistoryEntry}
    (h : MadeDefault history organizationId id) :
    MadeDefault (history ++ more) organizationId id := by
  obtain ⟨session, writes, hmem, hwrites⟩ := h
  exact ⟨session, writes, List.mem_append_left _ hmem, hwrites⟩

theorem Appointed.mono {history more : List HistoryEntry} (h : Appointed history employeeId id) :
    Appointed (history ++ more) employeeId id := by
  obtain ⟨session, writes, hmem, hwrites⟩ := h
  exact ⟨session, writes, List.mem_append_left _ hmem, hwrites⟩

/-- A workforce that is a default one has become so, or was. -/
theorem Does.isDefault {workforce : WorkforceInstance} (h : Does j s t)
    (hmem : workforce ∈ t.workforces) (hdefault : workforce.isDefault = true) :
    (∃ writes, t.history = s.history ++ [.committed j writes] ∧
      writes.organizationId = workforce.organizationId ∧
        writes.madeDefault = some workforce.id) ∨
      ∃ old ∈ s.workforces, old.id = workforce.id ∧
        old.organizationId = workforce.organizationId ∧ old.isDefault = true := by
  cases h with
  | quiet hquiet => exact .inr ⟨workforce, hquiet.workforces ▸ hmem, rfl, rfl, hdefault⟩
  | released ht =>
      subst ht
      exact .inr ⟨workforce, hmem, rfl, rfl, hdefault⟩
  | committed writes hadmitted ht =>
      subst ht
      obtain hmade | ⟨old, hold, hid, horganization, hwas, -⟩ :=
        Writes.isDefault_of_mem_write hmem hdefault
      · exact .inl ⟨writes, rfl, (hadmitted.organization _ hmade workforce hmem rfl).symm, hmade⟩
      · exact .inr ⟨old, hold, hid, horganization, hwas⟩

theorem Does.cleared (h : Does j s t) (hs : Cleared i organizationId except remaining done s) :
    Cleared i organizationId except remaining done t := by
  obtain ⟨before, after, hsplit, hcleared⟩ := hs
  obtain ⟨more, hmore⟩ := h.history
  refine ⟨before, after ++ more, by simp [hmore, hsplit], ?_⟩
  intro workforce hmem horganization hdefault hexcept
  obtain ⟨writes, hhistory, hwrites, hmade⟩ | ⟨old, hold, hid, hsame, hwas⟩ :=
    h.isDefault hmem hdefault
  · have hlast : more = [.committed j writes] := List.append_cancel_left (hmore ▸ hhistory)
    refine .inr (.inr ⟨j, writes, ?_, hwrites.trans horganization, hmade⟩)
    simp [hlast]
  · have hwas := hcleared old hold (hsame.trans horganization) hwas (hid ▸ hexcept)
    rw [hid] at hwas
    exact hwas.imp_right (Or.imp_right MadeDefault.mono)

theorem cleared_stable : leadershipSteps.Stable i
    (Cleared i organizationId except remaining done) := by
  rintro s t - hs (⟨j, -, hdoes⟩ | hquiet)
  · exact hdoes.cleared hs
  · exact (Does.quiet hquiet).cleared hs

/-- The orchestrator that is asked for has been read, with workforces that are allowed. -/
def Asked (i : Nat) (allowed : Str → Prop) (orchestrator : Option Str) (s : Store) : Prop :=
  ∀ employeeId, orchestrator = some employeeId →
    ∃ workforceIds, .read i employeeId workforceIds ∈ s.history ∧ ∀ id ∈ workforceIds, allowed id

theorem asked_stable {allowed : Str → Prop} {orchestrator : Option Str} :
    leadershipSteps.Stable i (Asked i allowed orchestrator) := by
  intro s t _ hs hbetween employeeId horchestrator
  obtain ⟨workforceIds, hread, hallowed⟩ := hs employeeId horchestrator
  have hmore : ∃ more, t.history = s.history ++ more := by
    obtain ⟨j, -, hdoes⟩ | hquiet := hbetween
    · exact hdoes.history
    · exact hquiet.history
  obtain ⟨more, hmore⟩ := hmore
  exact ⟨workforceIds, hmore ▸ List.mem_append_left _ hread, hallowed⟩

/-- A row that has been inserted and is not there yet. -/
def Inserted (i : Nat) (id : Str) (s : Store) : Prop :=
  (i, .workforce id) ∈ s.locks ∧ ∀ old ∈ s.workforces, old.id ≠ id

theorem inserted_stable : leadershipSteps.Stable i (Inserted i id) := by
  rintro s t ⟨-, hapart⟩ ⟨hlock, hfresh⟩ (⟨j, hne, hdoes⟩ | hquiet)
  · cases hdoes with
    | quiet hquiet => exact ⟨hquiet.holds hlock, hquiet.workforces ▸ hfresh⟩
    | released ht =>
        rw [ht]
        exact ⟨mem_release.mpr ⟨hlock, hne.symm⟩, hfresh⟩
    | committed writes hadmitted ht =>
        rw [ht]
        refine ⟨mem_release.mpr ⟨hlock, hne.symm⟩, fun workforce hmem hid => ?_⟩
        obtain hinsert | ⟨old, hold, rfl⟩ := Writes.mem_write hmem
        · have hother := (hadmitted.fresh workforce hinsert).1
          rw [hid] at hother
          exact hne (hapart j i _ hother hlock)
        · exact hfresh old hold (Writes.change_id.symm.trans hid)
  · exact ⟨hquiet.holds hlock, hquiet.workforces ▸ hfresh⟩

/-- The workforce of an organization stays one. -/
def Belongs (organizationId id : Str) (s : Store) : Prop :=
  ∃ workforce ∈ s.workforces, workforce.id = id ∧ workforce.organizationId = organizationId

theorem belongs_stable : leadershipSteps.Stable i (Belongs organizationId id) := by
  rintro s t - ⟨workforce, hmem, hid, horganization⟩ (⟨j, -, hdoes⟩ | hquiet)
  · cases hdoes with
    | quiet hquiet => exact ⟨workforce, hquiet.workforces ▸ hmem, hid, horganization⟩
    | released ht =>
        rw [ht]
        exact ⟨workforce, hmem, hid, horganization⟩
    | committed writes _ ht =>
        rw [ht]
        exact ⟨_, Writes.change_mem_write hmem, Writes.change_id.trans hid,
          Writes.change_organizationId.trans horganization⟩
  · exact ⟨workforce, hquiet.workforces ▸ hmem, hid, horganization⟩

end Stability

/-! ## Calls -/

section Programs

variable {i : Nat} {s : Store} {α β : Type} {post : α → Store → Prop}
variable {id organizationId : Str} {except : Option Str} {A B : Store → Prop}

/-- A statement that does not end its transaction. -/
theorem statement_bind {f : Choice → Store → Option (Except HttpError β × Store)}
    {k : β → Program Store α} (A : Store → Prop) (stable : leadershipSteps.Stable i A)
    (hs : Consistent s) (hA : A s)
    (step : ∀ t c b u, Consistent t → A t → f c t = some (.ok b, u) →
      Quiet i t u ∧ (Consistent u → A u → leadershipSteps.Safe i (k b) u post)) :
    leadershipSteps.Safe i (statement i f >>= k) s post := by
  refine Safe.act A hs hA stable.rely fun t c u ht hA hu _ => ?_
  have hrelease (error : HttpError) : Consistent (t.release i) ∧ Does i t (t.release i) ∧
      leadershipSteps.Safe i (.throw error : Program Store α) (t.release i) post := by
    have hdoes : Does i t (t.release i) := .released rfl
    exact ⟨hdoes.consistent ht, hdoes, fails (hdoes.consistent ht)⟩
  cases hfault : c.fault with
  | true =>
      simp only [hfault, if_true, Option.some.injEq] at hu ⊢
      subst hu
      exact hrelease _
  | false =>
      simp only [hfault, Bool.false_eq_true, if_false] at hu ⊢
      cases hf : f c t with
      | none => simp [hf] at hu
      | some answer =>
          obtain ⟨answer, t'⟩ := answer
          cases answer with
          | error error =>
              simp only [hf, Option.some.injEq] at hu ⊢
              subst hu
              exact hrelease _
          | ok b =>
              simp only [hf, Option.some.injEq] at hu ⊢
              subst hu
              obtain ⟨hquiet, hnext⟩ := step t c b t' ht hA hf
              exact ⟨hquiet.consistent ht, .quiet hquiet,
                hnext (hquiet.consistent ht) (stable t t' ht hA (.inr hquiet))⟩

theorem attempt_bind {k : Unit → Program Store α} (A : Store → Prop)
    (stable : leadershipSteps.Stable i A) (hs : Consistent s) (hA : A s)
    (next : ∀ t, Consistent t → A t → leadershipSteps.Safe i (k ()) t post) :
    leadershipSteps.Safe i (attempt i >>= k) s post := by
  refine statement_bind A stable hs hA fun t c b u _ _ hf => ?_
  cases hf
  exact ⟨.nothing rfl, fun hu hA => next _ hu hA⟩

theorem commit_safe {writes : Writes} (A : Store → Prop) (stable : leadershipSteps.Stable i A)
    (hs : Consistent s) (hA : A s) (hadmitted : ∀ t, Consistent t → A t → Admitted i t writes) :
    leadershipSteps.Safe i (commit i writes) s fun _ _ => True := by
  refine Safe.act A hs hA stable.rely fun t c u ht hA hu _ => ?_
  cases hfault : c.fault with
  | true =>
      simp only [hfault, if_true, Option.some.injEq] at hu ⊢
      have hdoes : Does i t u := .released hu.symm
      exact ⟨hdoes.consistent ht, hdoes, fails (hdoes.consistent ht)⟩
  | false =>
      simp only [hfault, Bool.false_eq_true, if_false, Option.some.injEq] at hu ⊢
      have hdoes : Does i t u := .committed writes (hadmitted t ht hA) hu.symm
      exact ⟨hdoes.consistent ht, hdoes, returns fun _ => trivial⟩

/-- The rows that have been found are looked at one after another. -/
theorem clearEach_safe (A : Store → Prop) (stable : leadershipSteps.Stable i A)
    (remaining : List Str) : ∀ cleared s, Consistent s → A s →
      Cleared i organizationId except remaining cleared s →
        leadershipSteps.Safe i (clearEach i organizationId except remaining cleared) s
          fun cleared t => Consistent t ∧ A t ∧ Cleared i organizationId except [] cleared t := by
  induction remaining with
  | nil =>
      intro cleared s hs hA hcleared
      exact ends _ (stable.and cleared_stable) hs ⟨hA, hcleared⟩ fun t ht h => ⟨ht, h⟩
  | cons id rest ih =>
      intro cleared s hs hA hcleared
      refine statement_bind (fun s => A s ∧ Cleared i organizationId except (id :: rest) cleared s)
        (stable.and cleared_stable) hs ⟨hA, hcleared⟩ fun t c still u ht hboth hf => ?_
      split at hf
      · cases hf
      · rename_i hblocked
        split at hf
        · cases hf
          refine ⟨.locked _ (Bool.eq_false_iff.mpr hblocked) rfl, fun hu hA => ?_⟩
          refine ih _ _ hu hA.1 ?_
          obtain ⟨before, after, hsplit, hall⟩ := hA.2
          refine ⟨before, after, hsplit, fun workforce hmem horganization hdefault hexcept => ?_⟩
          obtain hremaining | hdone := hall workforce hmem horganization hdefault hexcept
          · obtain hid | hrest := List.mem_cons.mp hremaining
            · exact .inr (.inl (hid ▸ List.mem_cons_self))
            · exact .inl hrest
          · exact .inr (hdone.imp_left (List.mem_cons_of_mem _))
        · rename_i hnot
          cases hf
          refine ⟨.nothing rfl, fun hu hA => ?_⟩
          refine ih _ _ hu hA.1 ?_
          obtain ⟨before, after, hsplit, hall⟩ := hA.2
          refine ⟨before, after, hsplit, fun workforce hmem horganization hdefault hexcept => ?_⟩
          obtain hremaining | hdone := hall workforce hmem horganization hdefault hexcept
          · obtain hid | hrest := List.mem_cons.mp hremaining
            · refine absurd ?_ hnot
              rw [List.any_eq_true]
              exact ⟨workforce, hmem, decide_eq_true ⟨hid, decide_eq_true
                ⟨horganization, hdefault, hexcept⟩⟩⟩
            · exact .inl hrest
          · exact .inr hdone

/-- If a workforce becomes the default one, the others have been cleared. -/
theorem clearDefaults_safe {isDefault : DtoField Bool} (A : Store → Prop)
    (stable : leadershipSteps.Stable i A) (hs : Consistent s) (hA : A s) :
    leadershipSteps.Safe i (clearDefaults i organizationId except isDefault) s
      fun cleared t => Consistent t ∧ A t ∧
        (isDefault = .value true → Cleared i organizationId except [] cleared t) := by
  unfold clearDefaults
  split
  · rename_i hvalue
    refine statement_bind A stable hs hA fun t c found u ht hA hf => ?_
    cases hf
    refine ⟨.clearing rfl, fun hu hA => ?_⟩
    have hfound : Cleared i organizationId except
        ((t.workforces.filter (isCleared organizationId except)).map WorkforceInstance.id) []
        (t.record (.clearing i)) := by
      refine ⟨t.history, [], rfl, fun workforce hmem horganization hdefault hexcept => .inl ?_⟩
      refine List.mem_map_of_mem (List.mem_filter.mpr ⟨hmem, ?_⟩)
      exact decide_eq_true ⟨horganization, hdefault, hexcept⟩
    exact (clearEach_safe A stable _ _ _ hu hA hfound).mono
      (fun cleared t ⟨ht, hA, hcleared⟩ => ⟨ht, hA, fun _ => hcleared⟩) fun _ _ h => h
  · rename_i hvalue
    exact ends A stable hs hA fun t ht hA => ⟨ht, hA, fun h => absurd h hvalue⟩

/-- An orchestrator that is asked for has been read with the workforce it belongs to. -/
theorem findValidOrchestrator_safe {orchestrator : Option Str} (A : Store → Prop)
    (stable : leadershipSteps.Stable i A) (hs : Consistent s) (hA : A s) :
    leadershipSteps.Safe i (findValidOrchestrator i organizationId orchestrator) s
      fun employee t => Consistent t ∧ A t ∧ Asked i
        (fun id => employee.bind DigitalEmployee.workforceInstanceId = some id) orchestrator t := by
  cases orchestrator with
  | none => exact ends A stable hs hA fun t ht hA => ⟨ht, hA, nofun⟩
  | some id =>
      refine change_bind A stable hs hA fun t c ht hA => ?_
      cases hfound : t.employees.find? fun employee => decide (employee.id = id ∧
          employee.organizationId = organizationId ∧ employee.employeeType = .orchestrator) with
      | none => exact ⟨.quiet (.nothing rfl), nofun⟩
      | some employee =>
          have hid : employee.id = id := by
            have := List.find?_some hfound
            exact (of_decide_eq_true this).1
          have hquiet : Quiet i t (t.record (.read i id employee.workforceInstanceId.toList)) :=
            .read id _ (.inr ⟨employee, List.mem_of_find?_eq_some hfound, hid, rfl⟩) rfl
          refine ⟨.quiet hquiet, ?_⟩
          rintro _ ⟨⟩ hu
          refine ends _ (stable.and asked_stable) hu ⟨stable t _ ht hA (.inr hquiet), ?_⟩
            fun t ht h => ⟨ht, h⟩
          rintro _ ⟨⟩
          exact ⟨_, List.mem_append_right _ (List.mem_singleton_self _),
            fun id hmem => Option.mem_toList.mp hmem⟩

theorem assignEmployee_bind {employeeId : Str} {target : Option Str} {own : Bool}
    {k : Unit → Program Store α} (A : Store → Prop) (stable : leadershipSteps.Stable i A)
    (hs : Consistent s) (hA : A s)
    (next : ∀ t, Consistent t → A t → leadershipSteps.Safe i (k ()) t post) :
    leadershipSteps.Safe i (assignEmployee i employeeId target own >>= k) s post := by
  refine statement_bind A stable hs hA fun t c b u _ _ hf => ?_
  split at hf
  · cases hf
  · rename_i hblocked
    split at hf
    · cases hf
      exact ⟨.locked _ (Bool.eq_false_iff.mpr hblocked) rfl, fun hu hA => next _ hu hA⟩
    · cases hf

theorem assignOrchestrator_safe {orchestrator : Option Str} (A : Store → Prop)
    (stable : leadershipSteps.Stable i A) (hs : Consistent s) (hA : A s) :
    leadershipSteps.Safe i (assignOrchestrator i id orchestrator) s fun assigned t =>
      Consistent t ∧ A t ∧
        assigned = orchestrator.map fun employeeId => (employeeId, some id) := by
  cases orchestrator with
  | none => exact ends A stable hs hA fun t ht hA => ⟨ht, hA, rfl⟩
  | some employeeId =>
      exact assignEmployee_bind A stable hs hA fun t ht hA =>
        ends A stable ht hA fun t ht hA => ⟨ht, hA, rfl⟩

/-- The new row has a lock, and an identifier that no other row has. -/
theorem insertWorkforce_bind {dto : CreateWorkforceInstanceDto}
    {k : WorkforceInstance → Program Store α} (A : Store → Prop)
    (stable : leadershipSteps.Stable i A) (hs : Consistent s) (hA : A s)
    (next : ∀ id t, Consistent t → A t → Inserted i id t →
      leadershipSteps.Safe i (k (dto.workforce organizationId id)) t post) :
    leadershipSteps.Safe i (insertWorkforce i organizationId dto >>= k) s post := by
  refine statement_bind A stable hs hA fun t c workforce u _ _ hf => ?_
  dsimp only at hf
  split at hf
  · cases hf
  · split at hf
    · cases hf
    · rename_i hblocked
      split at hf
      · cases hf
      · rename_i hfresh
        split at hf
        · cases hf
          have hfree : t.blocked i [.workforce c.id, .code organizationId dto.code] = false :=
            blocked_of_append (Bool.eq_false_iff.mpr hblocked)
          refine ⟨.locked _ hfree rfl, fun hu hA => next c.id _ hu hA ⟨?_, ?_⟩⟩
          · exact mem_acquire.mpr (.inr ⟨rfl, List.mem_cons_self⟩)
          · intro old hold hid
            refine hfresh (Bool.or_eq_true_iff.mpr (.inr ?_))
            exact Tables.find_isSome_iff.mpr ⟨old, hold, hid⟩
        · cases hf

/-- What has to be so before a transaction on a workforce writes it. -/
def Prepared (i : Nat) (organizationId : Str) (except orchestrator : Option Str)
    (isDefault : DtoField Bool) (allowed : Str → Prop) (cleared : List Str) (s : Store) : Prop :=
  Asked i allowed orchestrator s ∧
    (isDefault = .value true → Cleared i organizationId except [] cleared s)

theorem prepared_stable {orchestrator : Option Str} {isDefault : DtoField Bool}
    {allowed : Str → Prop} {cleared : List Str} : leadershipSteps.Stable i
      (Prepared i organizationId except orchestrator isDefault allowed cleared) :=
  fun s t hs ⟨hasked, hcleared⟩ hbetween =>
    ⟨asked_stable s t hs hasked hbetween, fun hvalue =>
      cleared_stable s t hs (hcleared hvalue) hbetween⟩

/-- The orchestrator that is assigned has been read. -/
theorem Asked.read {allowed : Str → Prop} {orchestrator : Option Str}
    (h : Asked i allowed orchestrator s) (hallowed : ∀ id', allowed id' → id' = id)
    {employeeId : Str} {target : Option Str}
    (hassigned : (orchestrator.map fun employeeId => (employeeId, some id)) =
      some (employeeId, target)) :
    ∃ workforceIds, .read i employeeId workforceIds ∈ s.history ∧
      ∀ id' ∈ workforceIds, target = some id' := by
  obtain ⟨employee, horchestrator, hpair⟩ := Option.map_eq_some_iff.mp hassigned
  obtain ⟨rfl, rfl⟩ := Prod.mk.inj hpair
  obtain ⟨workforceIds, hread, hall⟩ := h employee horchestrator
  exact ⟨workforceIds, hread, fun id' hmem => congrArg some (hallowed id' (hall id' hmem)).symm⟩

theorem assigned_of_appointed {orchestrator : Option Str} {employeeId id' : Str}
    (h : (orchestrator.map fun employeeId => (id, employeeId)) = some (id', employeeId)) :
    (orchestrator.map fun employeeId => (employeeId, some id)) = some (employeeId, some id') := by
  obtain ⟨employee, rfl, hpair⟩ := Option.map_eq_some_iff.mp h
  obtain ⟨rfl, rfl⟩ := Prod.mk.inj hpair
  rfl

theorem isDefault_workforce {dto : CreateWorkforceInstanceDto}
    (h : (dto.workforce organizationId id).isDefault = true) : dto.isDefault = .value true := by
  cases hfield : dto.isDefault with
  | absent | null =>
      simp [CreateWorkforceInstanceDto.workforce, DtoField.set, DtoField.value?, hfield] at h
  | value made => simpa [CreateWorkforceInstanceDto.workforce, hfield] using h

/-- What the transaction of a new workforce commits. -/
theorem admitted_create {dto : CreateWorkforceInstanceDto} {cleared : List Str}
    (h : Prepared i organizationId none dto.orchestratorEmployeeId dto.isDefault
      (fun _ => False) cleared s) (hinserted : Inserted i id s) :
    Admitted i s ⟨organizationId, cleared, some (.insert (dto.workforce organizationId id)),
      dto.orchestratorEmployeeId.map fun employeeId => (employeeId, some id)⟩ where
  fresh := by
    rintro workforce ⟨⟩
    exact hinserted
  organization := by
    intro id' hmade workforce hmem hid
    obtain hinsert | ⟨old, hold, rfl⟩ := Writes.mem_write hmem
    · cases hinsert
      rfl
    · have hold' := hinserted.2 old hold
      unfold Writes.madeDefault at hmade
      dsimp only at hmade
      split at hmade
      · cases hmade
        exact absurd (Writes.change_id.symm.trans hid) hold'
      · cases hmade
  cleared := by
    intro id' hmade
    unfold Writes.madeDefault at hmade
    dsimp only at hmade
    split at hmade
    · rename_i hdefault
      obtain ⟨before, after, hsplit, hall⟩ := h.2 (isDefault_workforce hdefault)
      exact ⟨before, after, hsplit, fun workforce hmem horganization hwas _ =>
        hall workforce hmem horganization hwas nofun⟩
    · cases hmade
  assigns id' employeeId happointed := assigned_of_appointed happointed
  read employeeId target hassigned := by
    obtain ⟨workforceIds, hread, hall⟩ := h.1.read (fun _ => False.elim) hassigned
    exact ⟨workforceIds, hread, fun _ => hall⟩

theorem createWorkforce_safe {dto : CreateWorkforceInstanceDto} (hs : Consistent s) :
    leadershipSteps.Safe i (createWorkforce i organizationId dto) s fun _ _ => True := by
  refine part_bind (findValidOrchestrator_safe (fun _ => True) stable_true hs trivial)
    fun orchestrator t ⟨ht, _, hasked⟩ => ?_
  refine require_bind ht fun hnone => ?_
  have hnobody : Asked i (fun _ => False) dto.orchestratorEmployeeId t := by
    intro employeeId horchestrator
    obtain ⟨workforceIds, hread, hallowed⟩ := hasked employeeId horchestrator
    refine ⟨workforceIds, hread, fun id hid => ?_⟩
    rw [hallowed id hid] at hnone
    cases hnone
  refine part_bind (clearDefaults_safe _ asked_stable ht hnobody)
    fun cleared t ⟨ht, hprepared⟩ => ?_
  refine insertWorkforce_bind _ prepared_stable ht hprepared fun id t ht hprepared hinserted => ?_
  have hstable : leadershipSteps.Stable i fun t => Prepared i organizationId none
      dto.orchestratorEmployeeId dto.isDefault (fun _ => False) cleared t ∧ Inserted i id t :=
    prepared_stable.and inserted_stable
  refine part_bind (assignOrchestrator_safe _ hstable ht ⟨hprepared, hinserted⟩) ?_
  rintro _ t ⟨ht, hall, rfl⟩
  refine attempt_bind _ hstable ht hall fun t ht hall => ?_
  refine attempt_bind _ hstable ht hall fun t ht hall => ?_
  exact commit_safe _ hstable ht hall fun t _ hall => admitted_create hall.1 hall.2

/-- What the transaction of an update commits. -/
theorem admitted_update {dto : UpdateWorkforceInstanceDto} {cleared : List Str}
    (h : Prepared i organizationId (some id) dto.orchestratorEmployeeId.value? dto.isDefault
      (fun id' => id' = id) cleared s) (hbelongs : Belongs organizationId id s)
    (hs : Consistent s) :
    Admitted i s ⟨organizationId, cleared, some (.update id dto),
      dto.orchestratorEmployeeId.value?.map fun employeeId => (employeeId, some id)⟩ where
  fresh := nofun
  organization := by
    intro id' hmade workforce hmem hid
    unfold Writes.madeDefault at hmade
    dsimp only at hmade
    split at hmade
    · cases hmade
      obtain ⟨old, hold, rfl⟩ := (Writes.mem_write hmem).resolve_left nofun
      obtain ⟨own, hown, hownId, horganization⟩ := hbelongs
      have hsame : old = own := List.inj_on_of_nodup_map hs.1 hold hown
        ((Writes.change_id.symm.trans hid).trans hownId.symm)
      rw [Writes.change_organizationId, hsame, horganization]
    · cases hmade
  cleared := by
    intro id' hmade
    unfold Writes.madeDefault at hmade
    dsimp only at hmade
    split at hmade
    · rename_i hvalue
      cases hmade
      exact h.2 hvalue
    · cases hmade
  assigns id' employeeId happointed := assigned_of_appointed happointed
  read employeeId target hassigned := by
    obtain ⟨workforceIds, hread, hall⟩ := h.1.read (fun _ h => h) hassigned
    exact ⟨workforceIds, hread, fun _ => hall⟩

theorem writeWorkforce_bind {dto : UpdateWorkforceInstanceDto} {k : Unit → Program Store α}
    (A : Store → Prop) (stable : leadershipSteps.Stable i A) (hs : Consistent s) (hA : A s)
    (next : ∀ t, Consistent t → A t → leadershipSteps.Safe i (k ()) t post) :
    leadershipSteps.Safe i (writeWorkforce i organizationId id dto >>= k) s post := by
  refine statement_bind A stable hs hA fun t c b u _ _ hf => ?_
  dsimp only at hf
  split at hf
  · cases hf
  · rename_i hblocked
    split at hf
    · cases hf
    · split at hf
      · cases hf
        have hfree := blocked_of_append (Bool.eq_false_iff.mpr hblocked)
        exact ⟨.locked _ hfree rfl, fun hu hA => next _ hu hA⟩
      · cases hf

theorem updateWorkforce_safe {dto : UpdateWorkforceInstanceDto} (hs : Consistent s) :
    leadershipSteps.Safe i (updateWorkforce i organizationId id dto) s fun _ _ => True := by
  refine query_bind (fun _ => True) stable_true hs trivial fun t ht _ => ?_
  refine require_bind ht fun hfound => ?_
  have hbelongs : Belongs organizationId id t := by
    obtain ⟨workforce, hmem, hworkforce⟩ := List.any_eq_true.mp hfound
    exact ⟨workforce, hmem, of_decide_eq_true hworkforce⟩
  refine part_bind (findValidOrchestrator_safe _ belongs_stable ht hbelongs)
    fun orchestrator t ⟨ht, hbelongs, hasked⟩ => ?_
  refine require_bind ht fun hown => ?_
  have hsame : Asked i (fun id' => id' = id) dto.orchestratorEmployeeId.value? t := by
    intro employeeId horchestrator
    obtain ⟨workforceIds, hread, hallowed⟩ := hasked employeeId horchestrator
    refine ⟨workforceIds, hread, fun id' hid => ?_⟩
    rw [hallowed id' hid] at hown
    simpa using hown
  refine part_bind (clearDefaults_safe _ (belongs_stable.and asked_stable) ht ⟨hbelongs, hsame⟩)
    fun cleared t ⟨ht, ⟨hbelongs, hasked⟩, hcleared⟩ => ?_
  have hstable : leadershipSteps.Stable i fun t => Prepared i organizationId (some id)
      dto.orchestratorEmployeeId.value? dto.isDefault (fun id' => id' = id) cleared t ∧
        Belongs organizationId id t :=
    prepared_stable.and belongs_stable
  refine writeWorkforce_bind _ hstable ht ⟨⟨hasked, hcleared⟩, hbelongs⟩ fun t ht hall => ?_
  refine part_bind (assignOrchestrator_safe _ hstable ht hall) ?_
  rintro _ t ⟨ht, hall, rfl⟩
  refine attempt_bind _ hstable ht hall fun t ht hall => ?_
  refine attempt_bind _ hstable ht hall fun t ht hall => ?_
  exact commit_safe _ hstable ht hall fun t ht hall => admitted_update hall.1 hall.2 ht

theorem assignWorkforce_safe {employeeId : Str} {target : Option Str} (hs : Consistent s) :
    leadershipSteps.Safe i (assignWorkforce i organizationId employeeId target) s
      fun _ _ => True := by
  refine query_bind (fun _ => True) stable_true hs trivial fun t ht _ => ?_
  refine require_bind ht fun _ => ?_
  refine change_bind (fun _ => True) stable_true ht trivial fun t c ht _ => ?_
  have hquiet : Quiet i t (t.record (.read i employeeId (t.ledBy employeeId))) := by
    refine .read employeeId _ (.inl fun workforce hmem horchestrator => ?_) rfl
    exact List.mem_map_of_mem (List.mem_filter.mpr ⟨hmem, decide_eq_true horchestrator⟩)
  refine ⟨.quiet hquiet, ?_⟩
  rintro _ ⟨⟩ hu
  have hread : Asked i (· ∈ t.ledBy employeeId) (some employeeId)
      (t.record (.read i employeeId (t.ledBy employeeId))) := by
    rintro _ ⟨⟩
    exact ⟨_, List.mem_append_right _ (List.mem_singleton_self _), fun _ h => h⟩
  refine query_bind _ asked_stable hu hread fun t ht hread => ?_
  refine require_bind ht fun _ => require_bind ht fun hled => ?_
  refine assignEmployee_bind _ asked_stable ht hread fun t ht hread => ?_
  refine attempt_bind _ asked_stable ht hread fun t ht hread => ?_
  refine commit_safe _ asked_stable ht hread fun t _ hread => ?_
  refine ⟨nofun, nofun, nofun, nofun, ?_⟩
  rintro _ _ ⟨⟩
  obtain ⟨workforceIds, hmem, hall⟩ := hread employeeId rfl
  refine ⟨workforceIds, hmem, ?_⟩
  rintro (hsome | rfl) id hid
  · cases hsome
  · rw [Option.isSome_none, Bool.false_or, List.isEmpty_iff] at hled
    exact absurd (hall id hid) (hled ▸ List.not_mem_nil)

theorem program_safe (call : Call) (hs : Consistent s) :
    leadershipSteps.Safe i (call.program i) s fun _ _ => True := by
  cases call with
  | create => exact createWorkforce_safe hs
  | update => exact updateWorkforce_safe hs
  | assignWorkforce => exact assignWorkforce_safe hs

end Programs

end Leadership
