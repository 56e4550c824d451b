import VitoPlatform.Users.Runs

/-!
# Owners

An organization that has an active owner keeps one, whatever the calls do. Who becomes or ceases
to be an owner is decided by owners alone as long as no call creates a user as `OWNER` in the name
of somebody else: `create` does not look at the role of its actor.
-/

namespace Users

open Text Concurrent Services

/-- The organization has an active owner who has not been deleted. -/
def HasOwner (s : Store) (organizationId : Str) : Prop :=
  ∃ user ∈ s.users, activeOwner organizationId user = true

/-- The user is an owner. -/
def IsOwner (s : Store) (id : Str) : Prop := ∃ user ∈ s.users, user.id = id ∧ user.role = .owner

/-- The role of the actor, where the call has one. -/
def Call.actorRole : Call → Option UserRole
  | .create actorRole _ _ | .update actorRole _ _ _ | .softDelete actorRole _ _ _ => some actorRole
  | .login _ | .changeOwnPassword _ _ | .authenticate _ => none

structure OwnerSafe (calls : List Call) (organizationId : Str) (moves : List Move) : Prop where
  /-- There is an owner after every move. -/
  owned : ∀ m ∈ moves, HasOwner m.after.store organizationId
  /-- An owner decides who becomes one and who ceases to be one. -/
  authorized : ∀ m ∈ moves, ∀ id, ¬ (IsOwner m.before.store id ↔ IsOwner m.after.store id) →
    ∃ call, calls[m.input.1]? = some call ∧ call.actorRole = some .owner

/-- The call creates an owner in the name of somebody who is none. -/
def Call.escalates : Call → Bool
  | .create actorRole _ dto => actorRole ≠ .owner ∧ dto.role = .value .owner
  | .update _ _ _ _ | .softDelete _ _ _ _ | .login _ | .changeOwnPassword _ _
  | .authenticate _ => false

section Steps

variable {accounts : Accounts} {call : Call} {i : Nat} {s t : Store} {organizationId : Str}

/-- An update that does not count as a loss leaves an active owner one. -/
theorem activeOwner_apply {dto : UpdateUserDto} {user : User}
    (hactive : activeOwner organizationId user = true) (hnull : dto.noNull = true)
    (hkeeps : dto.losesActiveOwnerStatus user = false) :
    activeOwner organizationId (dto.apply user user) = true := by
  obtain ⟨horganization, hrole, hstatus, hdeleted⟩ := activeOwner_iff.mp hactive
  simp only [UpdateUserDto.losesActiveOwnerStatus, UpdateUserDto.roleChanged,
    UpdateUserDto.statusChanged, hrole, hstatus, decide_eq_false_iff_not, true_and,
    decide_eq_true_eq, not_or, not_and, not_not] at hkeeps
  obtain ⟨hroleKept, hstatusKept⟩ := hkeeps
  simp only [UpdateUserDto.noNull, decide_eq_true_eq] at hnull
  refine activeOwner_iff.mpr ⟨horganization, ?_, ?_, hdeleted⟩
  · show dto.role.set user.role = .owner
    cases h : dto.role with
    | absent => exact hrole
    | null => exact absurd h hnull.2.2.1
    | value role =>
        rw [h] at hroleKept
        by_contra hother
        have hne : DtoField.value role ≠ .value .owner := fun he => hother (DtoField.value.inj he)
        exact hother (DtoField.value.inj (hroleKept ⟨(fun h => by cases h), hne⟩))
  · show dto.userStatus.set user.status = .active
    cases h : dto.userStatus with
    | absent => exact hstatus
    | null =>
        exact hstatus
    | value status =>
        rw [h] at hstatusKept
        by_contra hother
        have hne : DtoField.value status ≠ .value .active := fun he => hother (DtoField.value.inj he)
        exact hother (DtoField.value.inj (hstatusKept ⟨(fun h => by cases h), hne⟩))

/-- Every step leaves an owner. -/
theorem Does.hasOwner (h : Does accounts call i s t) (hs : Sound s)
    (howner : HasOwner s organizationId) : HasOwner t organizationId := by
  obtain ⟨owner, hmem, hactive⟩ := howner
  have write : ∀ {f : User → User} {id : Str},
      (owner.id = id → activeOwner organizationId (f owner) = true ∨
        ∃ other ∈ s.users, activeOwner organizationId other = true ∧ other.id ≠ id) →
        HasOwner (s.setUser id f) organizationId := by
    intro f id hf
    have kept : ∀ u ∈ s.users, activeOwner organizationId u = true → u.id ≠ id →
        HasOwner (s.setUser id f) organizationId := fun u hu hactive hne =>
      ⟨u, mem_setUser.mpr ⟨u, hu, (if_neg hne).symm⟩, hactive⟩
    by_cases hid : owner.id = id
    · rcases hf hid with hstill | ⟨other, hother, hactive, hne⟩
      · exact ⟨f owner, mem_setUser.mpr ⟨owner, hmem, (if_pos hid).symm⟩, hstill⟩
      · exact kept other hother hactive hne
    · exact kept owner hmem hactive hid
  cases h with
  | read | locked | released | checked | issued | accepted => exact ⟨owner, hmem, hactive⟩
  | created => exact ⟨owner, List.mem_append_left _ hmem, hactive⟩
  | updated actorRole dto user _ _ huser _ hneeded hnull =>
      unfold HasOwner
      rw [release_users, writeUser_users]
      refine write fun hid => ?_
      obtain rfl := hs.eq_of_id hmem huser hid
      cases hloses : dto.losesActiveOwnerStatus owner with
      | true =>
          rw [← (activeOwner_iff.mp hactive).1]
          exact .inr (hneeded hloses)
      | false => exact .inl (activeOwner_apply hactive hnull hloses)
  | disabled actorRole currentUserId now user _ _ huser hneeded =>
      unfold HasOwner
      rw [release_users, writeUser_users]
      refine write fun hid => ?_
      obtain rfl := hs.eq_of_id hmem huser hid
      obtain ⟨horganization, hrole, hstatus, hdeleted⟩ := activeOwner_iff.mp hactive
      rw [← horganization]
      exact .inr (hneeded ⟨hrole, hstatus⟩)
  | passwordChanged user =>
      unfold HasOwner
      rw [writeUser_users]
      exact write fun _ => .inl hactive
  | loggedIn => exact write fun _ => .inl hactive

/-- An update that neither grants nor revokes the role leaves an owner one, and nobody else. -/
theorem role_apply_iff {dto : UpdateUserDto} {user : User} (hnull : dto.noNull = true)
    (hgrants : dto.grantsOwner user = false) (hrevokes : dto.revokesOwner user = false) :
    (dto.apply user user).role = .owner ↔ user.role = .owner := by
  simp only [UpdateUserDto.grantsOwner, UpdateUserDto.revokesOwner, decide_eq_false_iff_not,
    not_and, not_not] at hgrants hrevokes
  simp only [UpdateUserDto.noNull, decide_eq_true_eq] at hnull
  show dto.role.set user.role = .owner ↔ _
  cases h : dto.role with
  | absent => rfl
  | null => exact absurd h hnull.2.2.1
  | value role =>
      rw [h] at hgrants hrevokes
      constructor
      · rintro rfl
        exact hgrants rfl
      · intro howner
        by_contra hother
        exact hrevokes (fun h => by cases h) (fun he => hother (DtoField.value.inj he)) howner

/-- Writing a row changes who is an owner only if it changes that of its user. -/
theorem isOwner_of_write (target : Str) (f : User → User) {id : Str}
    (husers : t.users = (s.setUser target f).users) (hid : ∀ u, (f u).id = u.id)
    (hrole : ∀ u ∈ s.users, u.id = target → ((f u).role = .owner ↔ u.role = .owner)) :
    IsOwner s id ↔ IsOwner t id := by
  refine Iff.symm ?_
  unfold IsOwner
  rw [husers]
  constructor
  · rintro ⟨v, hv, hsame, hv'⟩
    obtain ⟨u, hu, rfl⟩ := mem_setUser.mp hv
    split at hsame
    · rename_i hwritten
      rw [if_pos hwritten] at hv'
      exact ⟨u, hu, (hid u).symm.trans hsame, (hrole u hu hwritten).mp hv'⟩
    · rename_i hwritten
      rw [if_neg hwritten] at hv'
      exact ⟨u, hu, hsame, hv'⟩
  · rintro ⟨u, hu, hsame, howner⟩
    refine ⟨if u.id = target then f u else u, mem_setUser.mpr ⟨u, hu, rfl⟩, ?_⟩
    split
    · rename_i hwritten
      exact ⟨(hid u).trans hsame, (hrole u hu hwritten).mpr howner⟩
    · exact ⟨hsame, howner⟩

/-- Who is an owner changes by a step of an owner, or of a call that escalates. -/
theorem Does.authorized (h : Does accounts call i s t) (hs : Sound s) {id : Str}
    (hchanges : ¬ (IsOwner s id ↔ IsOwner t id)) (hcall : call.escalates = false) :
    call.actorRole = some .owner := by
  by_contra hactor
  apply hchanges
  cases h with
  | read | locked | released | checked | issued | accepted => rfl
  | created actorRole organizationId newId dto hof =>
      subst hof
      have hmember : (dto.user accounts organizationId newId).role ≠ .owner := by
        intro howner
        simp only [Call.escalates, decide_eq_false_iff_not, not_and] at hcall
        refine hcall (fun he => hactor (congrArg some he)) ?_
        cases hrole : dto.role with
        | absent | null =>
            simp [CreateUserDto.user, hrole, DtoField.set, DtoField.value?] at howner
        | value role =>
            simp only [CreateUserDto.user, hrole, DtoField.set_value] at howner
            rw [howner]
      refine ⟨fun ⟨u, hu, h⟩ => ⟨u, List.mem_append_left _ hu, h⟩, ?_⟩
      rintro ⟨u, hu, hid, howner⟩
      rcases List.mem_append.mp hu with hu | hu
      · exact ⟨u, hu, hid, howner⟩
      · rw [List.mem_singleton.mp hu] at howner
        exact absurd howner hmember
  | updated actorRole dto user hof _ huser hallowed _ hnull =>
      subst hof
      refine isOwner_of_write user.id (dto.apply user) (by rw [release_users, writeUser_users])
        (fun _ => rfl) fun u hu hid => ?_
      obtain rfl := hs.eq_of_id hu huser hid
      rcases hallowed with howner | ⟨hgrants, hrevokes⟩
      · exact absurd (congrArg some howner) hactor
      · exact role_apply_iff hnull hgrants hrevokes
  | disabled _ currentUserId now user =>
      exact isOwner_of_write user.id (softDeleted now currentUserId)
        (by rw [release_users, writeUser_users]) (fun _ => rfl) fun _ _ _ => Iff.rfl
  | passwordChanged user row newHash =>
      exact isOwner_of_write user.id (Users.passwordChanged newHash) (by rw [writeUser_users])
        (fun _ => rfl) fun _ _ _ => Iff.rfl
  | loggedIn target now =>
      exact isOwner_of_write target (fun user => { user with lastLoginAt := some now }) rfl
        (fun _ => rfl) fun _ _ _ => Iff.rfl

end Steps

section Runs

variable {accounts : Accounts} {calls : List Call} {store : Store} {moves : List Move}
variable {s : System Store Choice HttpError Unit} {organizationId : Str}

theorem Run.hasOwner (h : Run accounts calls store moves s) (hs : Sound store)
    (howner : HasOwner store organizationId) : HasOwner s.store organizationId :=
  h.induction hs (P := fun _ s => HasOwner s organizationId) howner (fun _ _ h _ => h)
    fun _ _ _ h _ _ _ hsound hdoes => hdoes.hasOwner hsound h

/-- Owners are safe in every run of calls of which none escalates. -/
theorem owner_safe (h : Run accounts calls store moves s) (hs : Sound store)
    (howner : HasOwner store organizationId) (hcalls : ∀ call ∈ calls, call.escalates = false) :
    OwnerSafe calls organizationId moves where
  owned := by
    intro m hm
    obtain ⟨A, B, rfl⟩ := List.append_of_mem hm
    exact Run.hasOwner (.snoc h.cut.1 h.cut.2.1) hs howner
  authorized := by
    intro m hm id hchanges
    obtain ⟨A, B, rfl⟩ := List.append_of_mem hm
    rcases step_cases h.cut.2.1 with ⟨-, hafter⟩ | ⟨_, _, _, houtput, -⟩
    · rw [hafter] at hchanges
      exact absurd Iff.rfl hchanges
    · obtain ⟨call, hcall, hsound, hdoes⟩ := h.does hs m hm houtput
      exact ⟨call, hcall, hdoes.authorized hsound hchanges
        (hcalls call (List.mem_of_getElem? hcall))⟩

end Runs

section Examples

private def plainAccounts : Accounts where
  toLowerCase := id
  compare password hash := password = hash
  hash password salt := salt ++ password

private def ownerRow : User where
  id := "owner".toList
  organizationId := "org".toList
  email := "owner@example".toList
  firstName := []
  lastName := []
  role := .owner
  status := .active
  passwordHash := none
  lastLoginAt := none
  tokenVersion := 1
  isMachineIdentity := false
  machineScope := none
  deletedAt := none
  deletedByUserId := none

private def ownedStore : Store where
  users := [ownerRow]
  organizations := [⟨"org".toList, "org".toList, .active⟩]
  locks := []
  issued := []
  log := []

private theorem ownedStore_sound : Sound ownedStore :=
  ⟨List.nodup_singleton _, nofun⟩

private theorem ownedStore_owned : HasOwner ownedStore "org".toList :=
  ⟨ownerRow, List.mem_singleton_self _, by decide⟩

private def createOwner (actorRole : UserRole) : Call :=
  .create actorRole "org".toList
    { email := "new@example".toList
      firstName := []
      lastName := []
      role := .value .owner
      status := .absent }

private def ordinary : Choice := ⟨false, "user-1".toList, 0⟩

/-- An owner creates an owner. -/
theorem owner_safe_created :
    OwnerSafe [createOwner .owner] "org".toList
      (Machine.execute System.step ⟨ownedStore, programs plainAccounts [createOwner .owner]⟩
        [(0, ordinary)]).1 :=
  owner_safe (Machine.run_execute _ _ _) ownedStore_sound ownedStore_owned (by decide)

/-- An administrator does so, too. -/
theorem not_owner_safe_created :
    ¬ ∀ accounts calls store moves s organizationId, Run accounts calls store moves s →
      Sound store → HasOwner store organizationId → OwnerSafe calls organizationId moves := by
  intro h
  have hsafe := h plainAccounts [createOwner .admin] ownedStore _ _ "org".toList
    (Machine.run_execute _ _ [(0, ordinary)]) ownedStore_sound ownedStore_owned
  obtain ⟨call, hcall, hactor⟩ := hsafe.authorized _ (List.mem_singleton_self _) "user-1".toList (by
    intro hsame
    obtain ⟨user, huser, hid, -⟩ := hsame.mpr ⟨_, List.mem_append_right _ (List.mem_singleton_self _),
      rfl, rfl⟩
    rw [List.mem_singleton.mp huser] at hid
    exact absurd hid (by decide))
  cases hcall
  cases hactor

end Examples

end Users
