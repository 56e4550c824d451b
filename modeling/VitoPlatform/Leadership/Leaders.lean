import VitoPlatform.Leadership.Sessions

/-!
# At most one leader

There is at most one default workforce in an organization, and an employee leads at most one
workforce, in every state of a run whose commits come in time (`OnTime`): what others have made a
default workforce since the clearing began has been cleared, too, nobody else has been given the
orchestrator since it was read, and no employee is taken away from the workforce it leads.
-/

namespace Leadership

open Text Concurrent Services Services.Steps
open Structure (WorkforceInstance DigitalEmployee CreateWorkforceInstanceDto
  UpdateWorkforceInstanceDto)

/-- When a transaction comes in time. -/
structure OnTime (i : Nat) (s : Store) (writes : Writes) : Prop where
  /-- What others have made a default workforce since the default ones were looked up has been
  cleared. -/
  cleared : ∀ id, writes.madeDefault = some id →
    ∀ before after, s.history = before ++ .clearing i :: after →
      ∀ other, MadeDefault after writes.organizationId other → other ≠ id →
        other ∈ writes.cleared
  /-- Nobody else has got the orchestrator since it was read. -/
  appointed : ∀ employeeId target, writes.assigned = some (employeeId, target) →
    ∀ before after workforceIds, s.history = before ++ .read i employeeId workforceIds :: after →
      ∀ id, Appointed after employeeId id → target = some id
  /-- An employee that is moved to a workforce led no other one. -/
  moved : writes.workforce = none →
    ∀ employeeId target, writes.assigned = some (employeeId, some target) →
      ∀ workforceIds, .read i employeeId workforceIds ∈ s.history →
        ∀ id ∈ workforceIds, id = target

/-- A step whose commit, if it is one, comes in time. -/
def InTime (i : Nat) (s t : Store) : Prop :=
  ∀ writes, t.history = s.history ++ [.committed i writes] → OnTime i s writes

/-- The orchestrators are members of their workforces, and what has been read of an employee is
what it leads, but for what it has been given since. -/
structure Sound (s : Store) : Prop where
  led : Led s.workforces
  member : ∀ workforce ∈ s.workforces, ∀ employeeId,
    workforce.orchestratorEmployeeId = some employeeId →
      ∀ employee ∈ s.employees, employee.id = employeeId →
        employee.workforceInstanceId = some workforce.id
  read : ∀ before after session employeeId workforceIds,
    s.history = before ++ .read session employeeId workforceIds :: after →
      ∀ workforce ∈ s.workforces, workforce.orchestratorEmployeeId = some employeeId →
        workforce.id ∈ workforceIds ∨ Appointed after employeeId workforce.id

section Steps

variable {i : Nat} {s t : Store} {writes : Writes} {workforce : WorkforceInstance}
variable {employeeId : Str}

/-- Another workforce that stays a default one is in another organization. -/
theorem Admitted.not_default {id : Str} {old : WorkforceInstance} (h : Admitted i s writes)
    (hontime : OnTime i s writes) (hmade : writes.madeDefault = some id)
    (hold : old ∈ s.workforces) (horganization : old.organizationId = writes.organizationId)
    (hdefault : old.isDefault = true) (hkept : old.id ∉ writes.cleared) : old.id = id := by
  by_contra hne
  obtain ⟨before, after, hsplit, hall⟩ := h.cleared id hmade
  obtain hnil | hcleared | hsince := hall old hold horganization hdefault
    fun he => hne (Option.some.inj he).symm
  · cases hnil
  · exact hkept hcleared
  · exact hkept (hontime.cleared id hmade before after hsplit _ hsince hne)

/-- The orchestrator that is assigned leads its workforce only. -/
theorem Admitted.leads {target : Option Str} {old : WorkforceInstance} (h : Admitted i s writes)
    (hontime : OnTime i s writes) (hs : Sound s)
    (hassigned : writes.assigned = some (employeeId, target)) (hold : old ∈ s.workforces)
    (horchestrator : old.orchestratorEmployeeId = some employeeId) : target = some old.id := by
  obtain ⟨workforceIds, hread, hallowed⟩ := h.read employeeId target hassigned
  obtain ⟨before, after, hsplit⟩ := List.append_of_mem hread
  obtain hmem | happointed := hs.read before after i _ _ hsplit old hold horchestrator
  · cases htarget : target with
    | none => exact htarget ▸ hallowed (.inr htarget) old.id hmem
    | some id =>
        cases hworkforce : writes.workforce with
        | none =>
            rw [htarget] at hassigned
            rw [hontime.moved hworkforce _ _ hassigned _ hread old.id hmem]
        | some write =>
            rw [← htarget]
            exact hallowed (.inl (by rw [hworkforce]; rfl)) old.id hmem
  · exact hontime.appointed _ _ hassigned before after _ hsplit _ happointed

/-- After a commit in time, a workforce with an orchestrator is the one that the orchestrator has
been assigned to, if it has been assigned. -/
theorem Admitted.led_target {target : Option Str} (h : Admitted i s writes)
    (hontime : OnTime i s writes) (hs : Sound s)
    (hassigned : writes.assigned = some (employeeId, target))
    (hmem : workforce ∈ writes.write s.workforces)
    (horchestrator : workforce.orchestratorEmployeeId = some employeeId) :
    target = some workforce.id := by
  obtain happointed | ⟨old, hold, hid, hwas⟩ :=
    Writes.orchestrator_of_mem_write hmem horchestrator
  · have hassigns := h.assigns _ _ happointed
    rw [hassigned, Option.some.injEq, Prod.mk.injEq] at hassigns
    exact hassigns.2
  · exact hid ▸ h.leads hontime hs hassigned hold hwas

theorem Admitted.led (h : Admitted i s writes) (hontime : OnTime i s writes) (hs : Sound s) :
    Led (writes.write s.workforces) where
  ids := Writes.nodup_write hs.led.ids fun row hrow => (h.fresh row hrow).2
  default := by
    intro first hfirst second hsecond hsame hfirstDefault hsecondDefault
    obtain hmade | ⟨old, hold, hid, horganization, hwas, hkept⟩ :=
      Writes.isDefault_of_mem_write hfirst hfirstDefault
    · have hown := h.organization _ hmade first hfirst rfl
      obtain hmade' | ⟨old', hold', hid', horganization', hwas', hkept'⟩ :=
        Writes.isDefault_of_mem_write hsecond hsecondDefault
      · exact Option.some.inj (hmade.symm.trans hmade')
      · rw [← hid']
        exact (h.not_default hontime hmade hold' (by rw [horganization', ← hsame, hown])
          hwas' hkept').symm
    · obtain hmade' | ⟨old', hold', hid', horganization', hwas', hkept'⟩ :=
        Writes.isDefault_of_mem_write hsecond hsecondDefault
      · have hown := h.organization _ hmade' second hsecond rfl
        rw [← hid]
        exact h.not_default hontime hmade' hold (by rw [horganization, hsame, hown]) hwas hkept
      · rw [← hid, ← hid']
        exact hs.led.default old hold old' hold'
          (horganization.trans (hsame.trans horganization'.symm)) hwas hwas'
  orchestrator := by
    intro first hfirst second hsecond employeeId hfirstLeads hsecondLeads
    obtain happointed | ⟨old, hold, hid, hwas⟩ :=
      Writes.orchestrator_of_mem_write hfirst hfirstLeads
    · exact Option.some.inj
        (h.led_target hontime hs (h.assigns _ _ happointed) hsecond hsecondLeads)
    · obtain happointed' | ⟨old', hold', hid', hwas'⟩ :=
        Writes.orchestrator_of_mem_write hsecond hsecondLeads
      · exact (Option.some.inj
          (h.led_target hontime hs (h.assigns _ _ happointed') hfirst hfirstLeads)).symm
      · rw [← hid, ← hid']
        exact hs.led.orchestrator old hold old' hold' employeeId hwas hwas'

/-- After a commit in time the orchestrators are members of their workforces. -/
theorem Admitted.member (h : Admitted i s writes) (hontime : OnTime i s writes) (hs : Sound s)
    (hmem : workforce ∈ writes.write s.workforces)
    (horchestrator : workforce.orchestratorEmployeeId = some employeeId)
    {employee : DigitalEmployee} (hemployee : employee ∈ (s.commit i writes).employees)
    (hid : employee.id = employeeId) : employee.workforceInstanceId = some workforce.id := by
  -- An employee that has not been assigned leads what it led.
  have hkept (hassigned : ∀ target, writes.assigned ≠ some (employeeId, target))
      (hemployee : employee ∈ s.employees) :
      employee.workforceInstanceId = some workforce.id := by
    obtain happointed | ⟨old, hold, hsame, hwas⟩ :=
      Writes.orchestrator_of_mem_write hmem horchestrator
    · exact absurd (h.assigns _ _ happointed) (hassigned _)
    · rw [← hsame]
      exact hs.member old hold employeeId hwas employee hemployee hid
  unfold Store.commit at hemployee
  dsimp only at hemployee
  split at hemployee
  · rename_i hnone
    exact hkept (fun target htarget => by rw [hnone] at htarget; cases htarget) hemployee
  · rename_i id target hassigned
    obtain ⟨old, hold, rfl⟩ := Tables.mem_write.mp hemployee
    split at hid
    · rename_i hsame
      rw [if_pos hsame]
      have hown : id = employeeId := hsame.symm.trans hid
      exact h.led_target hontime hs (hown ▸ hassigned) hmem horchestrator
    · rename_i hother
      rw [if_neg hother] at hkept ⊢
      refine hkept (fun target' htarget => hother ?_) hold
      rw [hassigned, Option.some.injEq, Prod.mk.injEq] at htarget
      exact hid.trans htarget.1.symm

/-- Where an entry stands in a history that has grown by one. -/
theorem split_last {history before after : List HistoryEntry} {entry last : HistoryEntry}
    (h : history ++ [last] = before ++ entry :: after) :
    (after = [] ∧ last = entry ∧ history = before) ∨
      ∃ rest, after = rest ++ [last] ∧ history = before ++ entry :: rest := by
  obtain rfl | ⟨rest, other, rfl⟩ := List.eq_nil_or_concat after
  · obtain ⟨hhistory, hlast⟩ := List.append_inj' h rfl
    exact .inl ⟨rfl, List.singleton_inj.mp hlast, hhistory⟩
  · rw [List.concat_eq_append, ← List.cons_append, ← List.append_assoc] at h
    obtain ⟨hhistory, hlast⟩ := List.append_inj' h rfl
    rw [List.singleton_inj.mp hlast, List.concat_eq_append]
    exact .inr ⟨rest, rfl, hhistory⟩

/-- An employee whose workforces have been read leads no other ones. -/
theorem Reads.led {workforceIds : List Str} (h : Reads s employeeId workforceIds) (hs : Sound s)
    (hmem : workforce ∈ s.workforces)
    (horchestrator : workforce.orchestratorEmployeeId = some employeeId) :
    workforce.id ∈ workforceIds := by
  obtain hled | ⟨employee, hemployee, hid, rfl⟩ := h
  · exact hled workforce hmem horchestrator
  · rw [hs.member workforce hmem employeeId horchestrator employee hemployee hid]
    exact List.mem_singleton_self _

/-- What was led before a step, and what has been given in it. -/
theorem Does.read (h : Does i s t) (hs : Sound s) :
    ∀ before after session employeeId workforceIds,
      t.history = before ++ .read session employeeId workforceIds :: after →
        ∀ workforce ∈ t.workforces, workforce.orchestratorEmployeeId = some employeeId →
          workforce.id ∈ workforceIds ∨ Appointed after employeeId workforce.id := by
  intro before after session employeeId workforceIds hsplit workforce hmem horchestrator
  cases h with
  | released ht =>
      subst ht
      exact hs.read before after session _ _ hsplit workforce hmem horchestrator
  | quiet hquiet =>
      rw [hquiet.workforces] at hmem
      cases hquiet with
      | nothing ht | locked _ _ ht =>
          subst ht
          exact hs.read before after session _ _ hsplit workforce hmem horchestrator
      | read id ids hreads ht =>
          subst ht
          obtain ⟨-, hlast, -⟩ | ⟨rest, rfl, hbefore⟩ := split_last hsplit
          · cases hlast
            exact .inl (hreads.led hs hmem horchestrator)
          · exact (hs.read before rest session _ _ hbefore workforce hmem horchestrator).imp_right
              Appointed.mono
      | clearing ht =>
          subst ht
          obtain ⟨-, hlast, -⟩ | ⟨rest, rfl, hbefore⟩ := split_last hsplit
          · cases hlast
          · exact (hs.read before rest session _ _ hbefore workforce hmem horchestrator).imp_right
              Appointed.mono
  | committed writes hadmitted ht =>
      subst ht
      obtain ⟨-, hlast, -⟩ | ⟨rest, rfl, hbefore⟩ := split_last hsplit
      · cases hlast
      · obtain happointed | ⟨old, hold, hid, hwas⟩ :=
          Writes.orchestrator_of_mem_write hmem horchestrator
        · exact .inr ⟨i, writes, by simp, happointed⟩
        · have hread := hs.read before rest session _ _ hbefore old hold hwas
          exact hid ▸ hread.imp_right Appointed.mono

/-- A step in time keeps everybody to at most one workforce. -/
theorem Does.sound (h : Does i s t) (hs : Sound s) (hintime : InTime i s t) : Sound t := by
  have hread := h.read hs
  cases h with
  | quiet hquiet =>
      refine ⟨hquiet.workforces ▸ hs.led, ?_, hread⟩
      rw [hquiet.workforces, hquiet.employees]
      exact hs.member
  | released ht =>
      subst ht
      exact ⟨hs.led, hs.member, hread⟩
  | committed writes hadmitted ht =>
      have hontime := hintime writes (by rw [ht]; rfl)
      subst ht
      exact ⟨hadmitted.led hontime hs, fun workforce hmem employeeId horchestrator employee
        hemployee hid => hadmitted.member hontime hs hmem horchestrator hemployee hid, hread⟩

end Steps

/-! ## Runs -/

/-- A database before any call, whose orchestrators are members of their workforces. -/
structure Start (s : Store) : Prop where
  led : Led s.workforces
  member : ∀ workforce ∈ s.workforces, ∀ employeeId,
    workforce.orchestratorEmployeeId = some employeeId →
      ∀ employee ∈ s.employees, employee.id = employeeId →
        employee.workforceInstanceId = some workforce.id
  locks : s.locks = []
  history : s.history = []

/-- In a run whose commits come in time an organization has at most one default workforce, and an
employee leads at most one. -/
theorem leaders_unique {calls : List Call} {store : Store} {moves : List Move}
    {s : System Store Choice HttpError Unit} (h : Run calls store moves s) (hstart : Start store)
    (hintime : ∀ m ∈ moves, InTime m.input.1 m.before.store m.after.store) :
    Led s.store.workforces := by
  have hconsistent : Consistent store := by
    refine ⟨hstart.led.ids, fun i j lock hi => ?_⟩
    rw [hstart.locks] at hi
    cases hi
  have hdoes : MovesDo leadershipSteps moves := by
    refine run_does h (fun i j s t hij hdoes => ⟨i, hij, hdoes⟩) (fun i p hp => ?_) hconsistent
    rw [programs, List.getElem?_mapIdx, Option.map_eq_some_iff] at hp
    obtain ⟨call, -, rfl⟩ := hp
    exact program_safe call hconsistent
  have hsound : Sound store := by
    refine ⟨hstart.led, hstart.member, ?_⟩
    intro before after session employeeId workforceIds hsplit
    rw [hstart.history] at hsplit
    simp at hsplit
  exact (hdoes.induction (P := fun _ s => Sound s) h hsound
    fun past m hbefore hm _ hdoes => hdoes.sound hbefore (hintime m hm)).led

section Examples

private def ann : DigitalEmployee := ⟨"ann".toList, "org".toList, none, .orchestrator⟩

private def noWorkforces : Store := ⟨[], [ann], [], []⟩

private theorem noWorkforces_start : Start noWorkforces where
  led := ⟨List.nodup_nil, fun _ h => (List.not_mem_nil h).elim,
    fun _ h => (List.not_mem_nil h).elim⟩
  member _ h := (List.not_mem_nil h).elim
  locks := rfl
  history := rfl

private def newWorkforce (code : String) (isDefault : DtoField Bool)
    (orchestrator : Option Str) : Call :=
  .create "org".toList ⟨"Workforce".toList, code.toList, isDefault, orchestrator⟩

/-- In turn each session takes some steps; the identifier is what the first of them may use. -/
private def runOf (calls : List Call) (turns : List (Nat × Nat × Str)) :
    List Move × System Store Choice HttpError Unit :=
  Machine.execute System.step ⟨noWorkforces, programs calls⟩
    (turns.flatMap fun (session, count, id) => List.replicate count (session, ⟨false, id, 0⟩))

/-- An entry of a session about what it has read. -/
private def ofSession (i : Nat) : HistoryEntry → Bool
  | .read session _ _ => session = i
  | .clearing session => session = i
  | .committed _ _ => false

/-- A commit that cannot come too late: nothing has been committed since the session began. -/
private def surelyInTime (s : Store) : HistoryEntry → Bool
  | .committed i writes => writes.workforce.isSome &&
      (s.history.dropWhile fun entry => !ofSession i entry).all fun entry =>
        match entry with
        | .committed _ _ => false
        | _ => true
  | _ => true

private theorem mem_since {p : HistoryEntry → Bool} {before after : List HistoryEntry}
    {entry later : HistoryEntry} (hentry : p entry = false) (hlater : later ∈ after) :
    later ∈ (before ++ entry :: after).dropWhile p := by
  induction before with
  | nil => simp [hentry, hlater]
  | cons first before ih =>
      rw [List.cons_append, List.dropWhile_cons]
      split
      · exact ih
      · simp [hlater]

private theorem inTime_of_surely {i : Nat} {s t : Store}
    (h : ∀ entry ∈ t.history.drop s.history.length, surelyInTime s entry = true) :
    InTime i s t := by
  intro writes hhistory
  have hentry := h _ (by rw [hhistory, List.drop_left]; exact List.mem_singleton_self _)
  obtain ⟨hsome, hsince⟩ := Bool.and_eq_true_iff.mp hentry
  have hnone {before after : List HistoryEntry} {entry : HistoryEntry}
      (hsplit : s.history = before ++ entry :: after) (hown : ofSession i entry = true)
      {session : Nat} {other : Writes} : .committed session other ∉ after := by
    intro hmem
    rw [hsplit] at hsince
    have hlater := List.all_eq_true.mp hsince _ (mem_since (by rw [hown]; rfl) hmem)
    cases hlater
  constructor
  · rintro id - before after hsplit other ⟨_, _, hmem, -⟩ -
    exact absurd hmem (hnone hsplit (decide_eq_true rfl))
  · rintro employeeId target - before after workforceIds hsplit id ⟨_, _, hmem, -⟩
    exact absurd hmem (hnone hsplit (decide_eq_true rfl))
  · intro hworkforce
    rw [hworkforce] at hsome
    cases hsome

/-- A default workforce with an orchestrator, and then another default one. -/
private def oneAfterAnother : List Move × System Store Choice HttpError Unit :=
  runOf [newWorkforce "first" (.value true) (some "ann".toList),
      newWorkforce "second" (.value true) none]
    [(0, 7, "w1".toList), (1, 6, "w2".toList)]

theorem leaders_unique_in_turn : Led oneAfterAnother.2.store.workforces := by
  refine leaders_unique (Machine.run_execute _ _ _) noWorkforces_start ?_
  have hmoves : ∀ m ∈ oneAfterAnother.1,
      ∀ entry ∈ m.after.store.history.drop m.before.store.history.length,
        surelyInTime m.before.store entry = true := by
    decide
  exact fun m hm => inTime_of_surely (hmoves m hm)

/-- Two default workforces are created at once: neither clears the other. -/
private def atOnce : List Move × System Store Choice HttpError Unit :=
  runOf [newWorkforce "first" (.value true) none, newWorkforce "second" (.value true) none]
    [(0, 2, "w1".toList), (1, 2, "w2".toList), (0, 3, []), (1, 3, [])]

/-- An orchestrator is moved to another workforce and becomes its orchestrator, too. -/
private def twice : List Move × System Store Choice HttpError Unit :=
  runOf [newWorkforce "first" .absent (some "ann".toList), newWorkforce "second" .absent none,
      .assignWorkforce "org".toList "ann".toList (some "w2".toList),
      .update "org".toList "w2".toList ⟨.absent, .absent, .absent, .value "ann".toList⟩]
    [(0, 6, "w1".toList), (1, 4, "w2".toList), (2, 6, []), (3, 7, [])]

/-- There are two default workforces, and an employee leads two. -/
theorem not_leaders_unique :
    (¬ ∀ calls store moves s, Run calls store moves s → Start store →
      ∀ first ∈ s.store.workforces, ∀ second ∈ s.store.workforces,
        first.organizationId = second.organizationId → first.isDefault = true →
          second.isDefault = true → first.id = second.id) ∧
    ¬ ∀ calls store moves s, Run calls store moves s → Start store →
      ∀ first ∈ s.store.workforces, ∀ second ∈ s.store.workforces, ∀ employeeId,
        first.orchestratorEmployeeId = some employeeId →
          second.orchestratorEmployeeId = some employeeId → first.id = second.id := by
  constructor
  · intro h
    have hdefault := h _ noWorkforces _ atOnce.2 (Machine.run_execute _ _ _) noWorkforces_start
    have htwo : ∃ first ∈ atOnce.2.store.workforces, ∃ second ∈ atOnce.2.store.workforces,
        first.organizationId = second.organizationId ∧ first.isDefault = true ∧
          second.isDefault = true ∧ first.id ≠ second.id := by
      decide
    obtain ⟨first, hfirst, second, hsecond, hsame, hone, htwo, hne⟩ := htwo
    exact hne (hdefault first hfirst second hsecond hsame hone htwo)
  · intro h
    have hled := h _ noWorkforces _ twice.2 (Machine.run_execute _ _ _) noWorkforces_start
    have htwo : ∃ first ∈ twice.2.store.workforces, ∃ second ∈ twice.2.store.workforces,
        first.orchestratorEmployeeId = some "ann".toList ∧
          second.orchestratorEmployeeId = some "ann".toList ∧ first.id ≠ second.id := by
      decide
    obtain ⟨first, hfirst, second, hsecond, hone, htwo, hne⟩ := htwo
    exact hne (hled first hfirst second hsecond _ hone htwo)

end Examples

end Leadership
