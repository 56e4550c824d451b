import VitoPlatform.Users.Accounts
import Mathlib.Data.List.Nodup

/-!
# What a call does at a step

`Does` lists what a step of a call can do to users, locks, tokens and log, with what the call has
made sure of before. Every move of a run is one of these (`Run.does`).
-/

namespace Users

open Text Concurrent Services

/-- Identifiers are unique, and the row of an organization is locked by one call at most. -/
structure Sound (s : Store) : Prop where
  ids : (s.users.map User.id).Nodup
  exclusive : ∀ o i j, (o, i) ∈ s.locks → (o, j) ∈ s.locks → i = j

/-- The version of a token, or of a row that has been read, is not ahead of the user's. -/
def AtMost (s : Store) (id : Str) (version : Nat) : Prop :=
  ∃ user ∈ s.users, user.id = id ∧ version ≤ user.tokenVersion

/-- A user who is suspended or deleted. -/
def User.Down (user : User) : Prop := user.status ≠ .active ∨ user.deletedAt ≠ none

/-- The same, and behind it if the user is suspended or deleted. -/
def Live (s : Store) (id : Str) (version : Nat) : Prop :=
  ∃ user ∈ s.users, user.id = id ∧ version ≤ user.tokenVersion ∧
    (user.Down → version < user.tokenVersion)

/-- Another owner can act for the organization. -/
def OtherOwner (s : Store) (organizationId id : Str) : Prop :=
  ∃ user ∈ s.users, activeOwner organizationId user = true ∧ user.id ≠ id

/-- What one step of a call does. -/
inductive Does (accounts : Accounts) (call : Call) (i : Nat) (s : Store) : Store → Prop
  | read : Does accounts call i s s
  | locked (organizationId : Str) : s.isLocked organizationId = false →
      Does accounts call i s { s with locks := s.locks ++ [(organizationId, i)] }
  | released : Does accounts call i s (s.release i)
  | created (actorRole : UserRole) (organizationId id : Str)
      (dto : CreateUserDto) : call = .create actorRole organizationId dto →
      s.isLocked organizationId = false → dto.role ≠ .null →
        s.excludes (dto.user accounts organizationId id) = false →
          Does accounts call i s { s with users := s.users ++ [dto.user accounts organizationId id] }
  | updated (actorRole : UserRole) (dto : UpdateUserDto) (user : User) :
      call = .update actorRole user.organizationId user.id dto →
      (user.organizationId, i) ∈ s.locks → user ∈ s.users →
        (actorRole = .owner ∨ (dto.grantsOwner user = false ∧ dto.revokesOwner user = false)) →
          (dto.losesActiveOwnerStatus user = true → OtherOwner s user.organizationId user.id) →
            dto.noNull = true →
              Does accounts call i s ((s.writeUser i user (dto.apply user)
                (revokes user (dto.apply user user))).release i)
  | disabled (actorRole : UserRole) (currentUserId : Str) (now : Int) (user : User) :
      call = .softDelete actorRole user.organizationId user.id currentUserId →
      (user.organizationId, i) ∈ s.locks → user ∈ s.users →
        (user.role = .owner ∧ user.status = .active →
          OtherOwner s user.organizationId user.id) →
          Does accounts call i s ((s.writeUser i user (softDeleted now currentUserId) true).release i)
  | checked (user : User) : AtMost s user.id user.tokenVersion →
      (¬ user.Down → Live s user.id user.tokenVersion) →
        ((∃ dto, call = .login dto) → user.status = .active) →
          Does accounts call i s { s with log := s.log ++ [.checked i user] }
  | loggedIn (id : Str) (now : Int) :
      Does accounts call i s (s.setUser id fun user => { user with lastLoginAt := some now })
  | passwordChanged (user row : User) (newHash : Str) (token : Token) (dto : ChangePasswordDto) :
      call = .changeOwnPassword token dto → user ∈ s.users → row.id = user.id →
        .checked i row ∈ s.log →
          Does accounts call i s (s.writeUser i user (passwordChanged newHash) true)
  | issued (user : User) :
      ((∃ dto, call = .login dto) ∧ .checked i user ∈ s.log) ∨
        ((∃ token dto, call = .changeOwnPassword token dto) ∧
          .revoked i user.id user.tokenVersion ∈ s.log) →
        Does accounts call i s { s with issued := s.issued ++ [⟨payloadOf user, i⟩] }
  | accepted (token : Token) (user : AuthenticatedUser) : token ∈ s.issued →
      validUser s token.payload = .ok user →
        Does accounts call i s { s with log := s.log ++ [.accepted token] }

section Steps

variable {accounts : Accounts} {call : Call} {i j : Nat} {s t : Store} {user : User} {id organizationId : Str}

@[simp] theorem release_users (s : Store) (i : Nat) : (s.release i).users = s.users := rfl

@[simp] theorem release_issued (s : Store) (i : Nat) : (s.release i).issued = s.issued := rfl

@[simp] theorem release_log (s : Store) (i : Nat) : (s.release i).log = s.log := rfl

@[simp] theorem writeUser_users {f : User → User} {b : Bool} :
    (s.writeUser i user f b).users = (s.setUser user.id f).users := by
  cases b <;> rfl

@[simp] theorem writeUser_locks {f : User → User} {b : Bool} :
    (s.writeUser i user f b).locks = s.locks := by
  cases b <;> rfl

@[simp] theorem writeUser_issued {f : User → User} {b : Bool} :
    (s.writeUser i user f b).issued = s.issued := by
  cases b <;> rfl

theorem writeUser_log {f : User → User} {b : Bool} :
    (s.writeUser i user f b).log =
      s.log ++ if b then [.revoked i user.id (f user).tokenVersion] else [] := by
  cases b
  · exact (List.append_nil _).symm
  · rfl

theorem mem_setUser {f : User → User} {v : User} :
    v ∈ (s.setUser id f).users ↔ ∃ u ∈ s.users, v = if u.id = id then f u else u := by
  simp only [Store.setUser, List.mem_map, eq_comm]

theorem isLocked_iff : s.isLocked organizationId = true ↔ ∃ i, (organizationId, i) ∈ s.locks := by
  simp only [Store.isLocked, List.any_eq_true, decide_eq_true_eq, Prod.exists]
  constructor
  · rintro ⟨o, i, h, rfl⟩
    exact ⟨i, h⟩
  · rintro ⟨i, h⟩
    exact ⟨organizationId, i, h, rfl⟩

theorem mem_release {lock : Str × Nat} :
    lock ∈ (s.release i).locks ↔ lock ∈ s.locks ∧ lock.2 ≠ i := by
  simp [Store.release]

/-- One row under an identifier. -/
theorem Sound.eq_of_id (h : Sound s) {u v : User} (hu : u ∈ s.users) (hv : v ∈ s.users)
    (hid : u.id = v.id) : u = v :=
  List.inj_on_of_nodup_map h.ids hu hv hid

theorem map_id_setUser (s : Store) (id : Str) (f : User → User) (hf : ∀ u, (f u).id = u.id) :
    (s.setUser id f).users.map User.id = s.users.map User.id := by
  simp only [Store.setUser, List.map_map]
  refine List.map_congr_left fun u _ => ?_
  simp only [Function.comp_apply]
  split
  · exact hf u
  · rfl

theorem not_excludes (h : s.excludes user = false) : ∀ u ∈ s.users, u.id ≠ user.id := by
  intro u hu hid
  simp only [Store.excludes, List.any_eq_false, decide_eq_true_eq, not_or] at h
  exact (h u hu).1 hid

/-- Every step keeps the constraints. -/
theorem Does.sound (h : Does accounts call i s t) (hs : Sound s) : Sound t := by
  have release : ∀ {s : Store}, Sound s → Sound (s.release i) := fun h =>
    ⟨h.ids, fun o j k hj hk => h.exclusive o j k (mem_release.mp hj).1 (mem_release.mp hk).1⟩
  have write : ∀ {f : User → User} {b : Bool} {user : User}, (∀ u, (f u).id = u.id) →
      Sound (s.writeUser i user f b) := fun hf =>
    ⟨by rw [writeUser_users, map_id_setUser _ _ _ hf]; exact hs.ids,
      by rw [writeUser_locks]; exact hs.exclusive⟩
  cases h with
  | read => exact hs
  | locked organizationId hfree =>
      refine ⟨hs.ids, fun o j k hj hk => ?_⟩
      have hnone : ∀ i, (organizationId, i) ∉ s.locks := by
        intro i hi
        rw [isLocked_iff.mpr ⟨i, hi⟩] at hfree
        cases hfree
      rcases List.mem_append.mp hj with hold | hnew
      · rcases List.mem_append.mp hk with hold' | hnew
        · exact hs.exclusive o j k hold hold'
        · obtain ⟨rfl, rfl⟩ := Prod.mk.inj (List.mem_singleton.mp hnew)
          exact absurd hold (hnone j)
      · obtain ⟨rfl, rfl⟩ := Prod.mk.inj (List.mem_singleton.mp hnew)
        rcases List.mem_append.mp hk with hold | hnew
        · exact absurd hold (hnone k)
        · exact (Prod.mk.inj (List.mem_singleton.mp hnew)).2.symm
  | released => exact release hs
  | created actorRole organizationId id dto _ _ _ hexcludes =>
      refine ⟨?_, hs.exclusive⟩
      rw [List.map_append, List.nodup_append]
      refine ⟨hs.ids, List.nodup_singleton _, fun a ha b hb hab => ?_⟩
      obtain ⟨u, hu, rfl⟩ := List.mem_map.mp ha
      exact not_excludes hexcludes u hu (hab.trans (List.mem_singleton.mp hb))
  | updated | disabled => exact release (write fun _ => rfl)
  | passwordChanged => exact write fun _ => rfl
  | loggedIn id now =>
      refine ⟨?_, hs.exclusive⟩
      rw [map_id_setUser]
      · exact hs.ids
      · exact fun _ => rfl
  | checked | issued | accepted => exact ⟨hs.ids, hs.exclusive⟩

/-! ## What stays -/

/-- How a row can change. -/
structure Evolves (u v : User) : Prop where
  id : v.id = u.id
  organizationId : v.organizationId = u.organizationId
  version : u.tokenVersion ≤ v.tokenVersion
  down : v.Down → u.Down ∨ u.tokenVersion < v.tokenVersion

theorem Evolves.refl (u : User) : Evolves u u := ⟨rfl, rfl, Nat.le_refl _, .inl⟩

theorem evolves_apply (dto : UpdateUserDto) (u : User) : Evolves u (dto.apply u u) := by
  refine ⟨rfl, rfl, Nat.le_add_right _ _, ?_⟩
  rintro (hstatus | hdeleted)
  · -- Only a suspension ends the status `ACTIVE`, and it counts as one.
    by_cases hactive : u.status = .active
    · right
      simp only [UpdateUserDto.apply, UpdateUserDto.userStatus] at hstatus ⊢
      have hsuspended : dto.status = .value .suspended := by
        cases hdto : dto.status with
        | absent => rw [hdto] at hstatus; exact absurd hactive hstatus
        | null => rw [hdto] at hstatus; exact absurd hactive hstatus
        | value status =>
            rw [hdto] at hstatus
            cases status with
            | active => exact absurd rfl hstatus
            | suspended => rfl
      have hbump : dto.shouldBumpTokenVersion u = true := by
        simp [UpdateUserDto.shouldBumpTokenVersion, UpdateUserDto.statusChangedToSuspended,
          UpdateUserDto.userStatus, hsuspended, Sprint3aUserStatus.status, hactive]
      rw [if_pos hbump]
      omega
    · exact .inl (.inl hactive)
  · exact .inl (.inr hdeleted)

/-- Rows stay, and their versions grow. -/
theorem Does.evolves (h : Does accounts call i s t) (hs : Sound s) {u : User} (hu : u ∈ s.users) :
    ∃ v ∈ t.users, Evolves u v := by
  have write : ∀ {f : User → User} {id : Str}, (u.id = id → Evolves u (f u)) →
      ∃ v ∈ (s.setUser id f).users, Evolves u v := by
    intro f id hf
    refine ⟨if u.id = id then f u else u, mem_setUser.mpr ⟨u, hu, rfl⟩, ?_⟩
    split
    · rename_i hid
      exact hf hid
    · exact .refl u
  cases h with
  | read | locked | released | checked | issued | accepted => exact ⟨u, hu, .refl u⟩
  | created => exact ⟨u, List.mem_append_left _ hu, .refl u⟩
  | updated actorRole dto user _ _ huser =>
      rw [release_users, writeUser_users]
      refine write fun hid => ?_
      obtain rfl := hs.eq_of_id hu huser hid
      exact evolves_apply dto u
  | disabled actorRole currentUserId now user =>
      rw [release_users, writeUser_users]
      exact write fun _ => ⟨rfl, rfl, Nat.le_succ _, fun _ => .inr (Nat.lt_succ_self _)⟩
  | passwordChanged user row newHash =>
      rw [writeUser_users]
      exact write fun _ => ⟨rfl, rfl, Nat.le_succ _, fun _ => .inr (Nat.lt_succ_self _)⟩
  | loggedIn id now => exact write fun _ => ⟨rfl, rfl, Nat.le_refl _, .inl⟩

theorem Does.atMost (h : Does accounts call i s t) (hs : Sound s) {version : Nat}
    (hversion : AtMost s id version) : AtMost t id version := by
  obtain ⟨u, hu, hid, hle⟩ := hversion
  obtain ⟨v, hv, hevolves⟩ := h.evolves hs hu
  exact ⟨v, hv, hevolves.id.trans hid, Nat.le_trans hle hevolves.version⟩

theorem Does.live (h : Does accounts call i s t) (hs : Sound s) {version : Nat}
    (hlive : Live s id version) : Live t id version := by
  obtain ⟨u, hu, hid, hle, hdown⟩ := hlive
  obtain ⟨v, hv, hevolves⟩ := h.evolves hs hu
  have hversion := hevolves.version
  refine ⟨v, hv, hevolves.id.trans hid, Nat.le_trans hle hversion, fun hv => ?_⟩
  rcases hevolves.down hv with hu | hlt
  · exact Nat.lt_of_lt_of_le (hdown hu) hversion
  · exact Nat.lt_of_le_of_lt hle hlt

/-- The log grows. -/
theorem Does.log (h : Does accounts call i s t) : s.log <+: t.log := by
  cases h with
  | read | locked | released | created | loggedIn | issued => exact List.prefix_refl _
  | updated | disabled | passwordChanged =>
      simp only [release_log, writeUser_log]
      exact List.prefix_append _ _
  | checked | accepted => exact List.prefix_append _ _

/-- So do the tokens. -/
theorem Does.issued_subset (h : Does accounts call i s t) : s.issued ⊆ t.issued := by
  cases h with
  | read | locked | released | created | loggedIn | checked | accepted => exact fun _ h => h
  | updated | disabled | passwordChanged =>
      simp only [release_issued, writeUser_issued]
      exact fun _ h => h
  | issued => exact List.subset_append_left _ _

/-- What a lock protects: role, status and deletion of a user. -/
structure SameStanding (u v : User) : Prop where
  id : v.id = u.id
  organizationId : v.organizationId = u.organizationId
  role : v.role = u.role
  status : v.status = u.status
  deletedAt : v.deletedAt = u.deletedAt

theorem SameStanding.refl (u : User) : SameStanding u u := ⟨rfl, rfl, rfl, rfl, rfl⟩

/-- As long as a call holds the lock of an organization, nobody else changes the standing of its
users. -/
theorem Does.standing (h : Does accounts call i s t) (hs : Sound s) (hij : i ≠ j)
    (hlock : (organizationId, j) ∈ s.locks) :
    (organizationId, j) ∈ t.locks ∧ ∀ u ∈ s.users, u.organizationId = organizationId →
      ∃ v ∈ t.users, SameStanding u v := by
  have kept : ∀ {t : Store}, t.users = s.users → ∀ u ∈ s.users,
      u.organizationId = organizationId → ∃ v ∈ t.users, SameStanding u v := by
    rintro t ht u hu -
    exact ⟨u, ht ▸ hu, .refl u⟩
  have write : ∀ {f : User → User} {id : Str},
      (∀ u ∈ s.users, u.id = id → u.organizationId = organizationId → SameStanding u (f u)) →
        ∀ u ∈ s.users, u.organizationId = organizationId →
          ∃ v ∈ (s.setUser id f).users, SameStanding u v := by
    intro f id hf u hu ho
    refine ⟨if u.id = id then f u else u, mem_setUser.mpr ⟨u, hu, rfl⟩, ?_⟩
    split
    · rename_i hid
      exact hf u hu hid ho
    · exact .refl u
  -- A row that somebody else may write is not of this organization.
  have elsewhere : ∀ {user u : User}, user ∈ s.users → (user.organizationId, i) ∈ s.locks →
      u ∈ s.users → u.id = user.id → u.organizationId = organizationId → False := by
    intro user u huser hlocked hu hid ho
    obtain rfl := hs.eq_of_id hu huser hid
    rw [ho] at hlocked
    exact hij (hs.exclusive _ i j hlocked hlock)
  have hrelease : ∀ {s : Store}, (organizationId, j) ∈ s.locks →
      (organizationId, j) ∈ (s.release i).locks := fun h => mem_release.mpr ⟨h, hij.symm⟩
  cases h with
  | read | checked | issued | accepted => exact ⟨hlock, kept rfl⟩
  | locked => exact ⟨List.mem_append_left _ hlock, kept rfl⟩
  | released => exact ⟨hrelease hlock, kept rfl⟩
  | created =>
      exact ⟨hlock, fun u hu _ => ⟨u, List.mem_append_left _ hu, .refl u⟩⟩
  | updated actorRole dto user _ hlocked huser =>
      refine ⟨hrelease (by rwa [writeUser_locks]), ?_⟩
      rw [release_users, writeUser_users]
      exact write fun u hu hid ho => (elsewhere huser hlocked hu hid ho).elim
  | disabled actorRole currentUserId now user _ hlocked huser =>
      refine ⟨hrelease (by rwa [writeUser_locks]), ?_⟩
      rw [release_users, writeUser_users]
      exact write fun u hu hid ho => (elsewhere huser hlocked hu hid ho).elim
  | passwordChanged =>
      refine ⟨by rwa [writeUser_locks], ?_⟩
      rw [writeUser_users]
      exact write fun u _ _ _ => ⟨rfl, rfl, rfl, rfl, rfl⟩
  | loggedIn => exact ⟨hlock, write fun u _ _ _ => ⟨rfl, rfl, rfl, rfl, rfl⟩⟩

end Steps

end Users
