import VitoPlatform.Users.Steps

/-!
# Runs of calls

Every move of a run does what `Does` lists.
-/

namespace Users

open Text Concurrent Services

/-- What a call is judged by: the others make steps of calls, and so does it. -/
def contract (accounts : Accounts) (calls : List Call) (i : Nat) : Contract Store where
  inv := Sound
  rely s t := ∃ j call, j ≠ i ∧ Does accounts call j s t
  cond _ _ := True
  guar s t := ∃ call, calls[i]? = some call ∧ Does accounts call i s t

/-- The calls around it leave the store sound when a call fails. -/
def Fails (_ : HttpError) (s : Store) : Prop := Sound s

section Programs

variable {accounts : Accounts} {calls : List Call} {i : Nat} {call : Call} {s : Store} {α β : Type}
variable {post : α → Store → Prop}

theorem fails (hs : Sound s) {error : HttpError} :
    Safe (contract accounts calls i) (.throw error : Program Store α) s post Fails := by
  intro t ht
  exact (ht.stable (A := fun _ => True) hs trivial fun _ _ _ _ _ => trivial).1

theorem returns {a : α} (hpost : ∀ t, post a t) :
    Safe (contract accounts calls i) (.done a : Program Store α) s post Fails :=
  safe_done hpost

/-- One step of a call, from an assertion that the steps of other calls keep. -/
theorem step_bind {f : Choice → Store → Except HttpError β × Store} {k : β → Program Store α}
    (hcall : calls[i]? = some call) (A : Store → Prop) (hs : Sound s) (hA : A s)
    (stable : ∀ s t j call, j ≠ i → Sound s → A s → Does accounts call j s t → A t)
    (step : ∀ t c, Sound t → A t → Does accounts call i t (f c t).2 ∧
      ∀ a, (f c t).1 = .ok a → Sound (f c t).2 →
        Safe (contract accounts calls i) (k a) (f c t).2 post Fails) :
    Safe (contract accounts calls i) (change f >>= k) s post Fails := by
  refine Safe.change_bind A hs hA ?_ ?_ (fun t ht _ => fails ht) ?_
  · rintro a b ha hA ⟨j, call', hj, hdoes⟩
    exact stable a b j call' hj ha hA hdoes
  · exact fun a => ⟨call, hcall, .read⟩
  · intro t c _ ht hA _
    obtain ⟨hdoes, hnext⟩ := step t c ht hA
    have hafter := hdoes.sound ht
    exact ⟨hafter, ⟨call, hcall, hdoes⟩, fun a ha => hnext a ha hafter, fun _ _ => fails hafter⟩

/-- The last step of a call, or of a transaction. -/
theorem step_last {f : Choice → Store → Except HttpError α × Store} (hcall : calls[i]? = some call)
    (A : Store → Prop) (hs : Sound s) (hA : A s)
    (stable : ∀ s t j call, j ≠ i → Sound s → A s → Does accounts call j s t → A t)
    (step : ∀ t c, Sound t → A t → Does accounts call i t (f c t).2) :
    Safe (contract accounts calls i) (change f) s (fun _ _ => True) Fails := by
  rw [← Proc.bind_done (change f)]
  exact step_bind hcall A hs hA stable fun t c ht hA =>
    ⟨step t c ht hA, fun _ _ _ => returns fun _ => trivial⟩

theorem read_bind {f : Store → β} {k : β → Program Store α} (hcall : calls[i]? = some call)
    (A : Store → Prop) (hs : Sound s) (hA : A s)
    (stable : ∀ s t j call, j ≠ i → Sound s → A s → Does accounts call j s t → A t)
    (next : ∀ t, Sound t → A t → Safe (contract accounts calls i) (k (f t)) t post Fails) :
    Safe (contract accounts calls i) (query f >>= k) s post Fails := by
  refine step_bind hcall A hs hA stable fun t c ht hA => ⟨.read, fun a ha _ => ?_⟩
  cases ha
  exact next t ht hA

/-- Without an assertion. -/
theorem read_any {f : Store → β} {k : β → Program Store α} (hcall : calls[i]? = some call)
    (hs : Sound s) (next : ∀ t, Sound t → Safe (contract accounts calls i) (k (f t)) t post Fails) :
    Safe (contract accounts calls i) (query f >>= k) s post Fails :=
  read_bind hcall (fun _ => True) hs trivial (fun _ _ _ _ _ _ _ _ => trivial) fun t ht _ =>
    next t ht

/-! ## Transactions -/

/-- A transaction is safe if its body is. -/
theorem transaction_safe {body : Program Store α} (hcall : calls[i]? = some call)
    (h : Safe (contract accounts calls i) body s post Fails) :
    Safe (contract accounts calls i) (transaction i body) s post Fails := by
  refine Safe.tryCatch (h.mono (fun _ _ h => h) fun error t ht => ?_)
  refine Safe.act (fun _ => True) ht trivial (fun _ _ _ _ _ => trivial) fun u c v hu _ hv _ => ?_
  obtain rfl := Option.some.inj hv
  have hdoes : Does accounts call i u (u.release i) := .released
  exact ⟨hdoes.sound hu, ⟨call, hcall, hdoes⟩, fails (hdoes.sound hu)⟩

/-- After the lock has been taken it is held. -/
theorem lock_bind {organizationId : Str} {k : Unit → Program Store α}
    (hcall : calls[i]? = some call) (hs : Sound s)
    (next : ∀ t, Sound t → (organizationId, i) ∈ t.locks →
      Safe (contract accounts calls i) (k ()) t post Fails) :
    Safe (contract accounts calls i) (lockOrganization i organizationId >>= k) s post Fails := by
  refine Safe.bind (Safe.act (fun _ => True) hs trivial (fun _ _ _ _ _ => trivial) ?_)
  intro t c u ht _ hu _
  cases hc : c.fault with
  | true =>
      simp only [hc, if_true, Option.some.injEq] at hu
      subst hu
      exact ⟨ht, ⟨call, hcall, .read⟩, fails ht⟩
  | false =>
      simp only [hc, Bool.false_eq_true, if_false, Option.ite_none_left_eq_some,
        Option.some.injEq] at hu
      obtain ⟨hfree, rfl⟩ := hu
      have hdoes : Does accounts call i t { t with locks := t.locks ++ [(organizationId, i)] } :=
        .locked organizationId (Bool.eq_false_iff.mpr hfree)
      have hafter := hdoes.sound ht
      refine ⟨hafter, ⟨call, hcall, hdoes⟩, fun v hv => ?_⟩
      exact (next _ hafter (List.mem_append_right _ (List.mem_singleton_self _))).others hv

theorem commit_last {f : Choice → Store → Except HttpError α × Store} (hcall : calls[i]? = some call)
    (A : Store → Prop) (hs : Sound s) (hA : A s)
    (stable : ∀ s t j call, j ≠ i → Sound s → A s → Does accounts call j s t → A t)
    (step : ∀ t c a u, Sound t → A t → f c t = (.ok a, u) → Does accounts call i t (u.release i)) :
    Safe (contract accounts calls i) (commit i f) s (fun _ _ => True) Fails := by
  refine step_last hcall A hs hA stable fun t c ht hA => ?_
  split
  · rename_i a u hf
    exact step t c a u ht hA hf
  · exact .read

/-- The call holds the lock, and the row it has read still has its standing. -/
structure Holds (i : Nat) (organizationId id : Str) (existing : User) (s : Store) : Prop where
  lock : (organizationId, i) ∈ s.locks
  row : ∃ user ∈ s.users, user.id = id ∧ user.organizationId = organizationId ∧
    user.role = existing.role ∧ user.status = existing.status

theorem Holds.stable {organizationId id : Str} {existing : User} {t : Store} {j : Nat}
    {call' : Call} (hj : j ≠ i) (hs : Sound s) (h : Holds i organizationId id existing s)
    (hdoes : Does accounts call' j s t) : Holds i organizationId id existing t := by
  obtain ⟨user, huser, hid, horganization, hrole, hstatus⟩ := h.row
  obtain ⟨hlock, hkept⟩ := hdoes.standing hs hj h.lock
  obtain ⟨v, hv, hsame⟩ := hkept user huser horganization
  exact ⟨hlock, v, hv, hsame.id.trans hid, hsame.organizationId.trans horganization,
    hsame.role.trans hrole, hsame.status.trans hstatus⟩

/-- The row that is written is the one that was read, as far as the lock protects it. -/
theorem Holds.found {organizationId id : Str} {existing user : User}
    (h : Holds i organizationId id existing s) (hs : Sound s)
    (hfound : s.users.find? (fun user => user.id = id) = some user) :
    user ∈ s.users ∧ user.id = id ∧ user.organizationId = organizationId ∧
      user.role = existing.role ∧ user.status = existing.status := by
  obtain ⟨row, hrow, hid, hof⟩ := h.row
  have huser := List.mem_of_find?_eq_some hfound
  have hsame : user.id = id := by simpa using List.find?_some hfound
  obtain rfl : user = row := hs.eq_of_id huser hrow (hsame.trans hid.symm)
  exact ⟨huser, hsame, hof⟩

theorem activeOwner_iff {organizationId : Str} {user : User} :
    activeOwner organizationId user = true ↔ user.organizationId = organizationId ∧
      user.role = .owner ∧ user.status = .active ∧ user.deletedAt = none := by
  simp [activeOwner]

/-- What has been counted under the lock is still there. -/
theorem OtherOwner.stable {organizationId id : Str} {t : Store} {j : Nat} {call' : Call}
    (hj : j ≠ i) (hs : Sound s) (hlock : (organizationId, i) ∈ s.locks)
    (h : OtherOwner s organizationId id) (hdoes : Does accounts call' j s t) :
    OtherOwner t organizationId id := by
  obtain ⟨user, huser, hactive, hne⟩ := h
  obtain ⟨horganization, hrole, hstatus, hdeleted⟩ := activeOwner_iff.mp hactive
  obtain ⟨v, hv, hsame⟩ := (hdoes.standing hs hj hlock).2 user huser horganization
  refine ⟨v, hv, activeOwner_iff.mpr ⟨hsame.organizationId.trans horganization,
    hsame.role.trans hrole, hsame.status.trans hstatus, hsame.deletedAt.trans hdeleted⟩, ?_⟩
  rw [hsame.id]
  exact hne

theorem otherOwner_of_count {organizationId id : Str}
    (h : otherActiveOwners organizationId id s ≠ 0) : OtherOwner s organizationId id := by
  obtain ⟨user, huser⟩ := List.exists_mem_of_length_pos (Nat.pos_of_ne_zero h)
  obtain ⟨hmem, hof⟩ := List.mem_filter.mp huser
  obtain ⟨hactive, hne⟩ := of_decide_eq_true hof
  exact ⟨user, hmem, hactive, hne⟩

theorem userOf_some {organizationId id : Str} {user : User}
    (h : s.userOf organizationId id = some user) :
    user ∈ s.users ∧ user.id = id ∧ user.organizationId = organizationId := by
  have hof := List.find?_some h
  rw [decide_eq_true_eq] at hof
  exact ⟨List.mem_of_find?_eq_some h, hof⟩

/-- A transaction that reads a user under the lock, counts other owners if the change needs it,
and writes the row. -/
theorem guarded_safe {organizationId id : Str} (guard : User → Program Store Unit)
    (allowed needed : User → Prop) [DecidablePred needed] {message : HttpError}
    {write : User → Choice → Store → Except HttpError User × Store}
    (hcall : calls[i]? = some call) (hs : Sound s)
    (hguard : ∀ existing t (k : Unit → Program Store User), Sound t →
      (allowed existing → Safe (contract accounts calls i) (k ()) t (fun _ _ => True) Fails) →
        Safe (contract accounts calls i) (guard existing >>= k) t (fun _ _ => True) Fails)
    (hwrite : ∀ existing t c u v, Sound t → Holds i organizationId id existing t →
      allowed existing → (needed existing → OtherOwner t organizationId id) →
        write existing c t = (.ok u, v) → Does accounts call i t (v.release i)) :
    Safe (contract accounts calls i) (transaction i do
      lockOrganization i organizationId
      let found ← query fun s => s.userOf organizationId id
      let existing ← Proc.expect found userNotFound
      guard existing
      let others ← query fun s =>
        if needed existing then some (otherActiveOwners organizationId id s) else none
      Proc.require (others ≠ some 0) message
      commit i (write existing)) s (fun _ _ => True) Fails := by
  refine transaction_safe hcall (lock_bind hcall hs fun t ht hlock => ?_)
  refine read_bind hcall (fun s => (organizationId, i) ∈ s.locks) ht hlock
    (fun s t j call' hj hs hlock hdoes => (hdoes.standing hs hj hlock).1) fun t ht hlock => ?_
  refine Safe.expect_bind (fun existing hfound => ?_) fun _ => fails ht
  obtain ⟨hmem, hid, horganization⟩ := userOf_some hfound
  have hholds : Holds i organizationId id existing t :=
    ⟨hlock, existing, hmem, hid, horganization, rfl, rfl⟩
  refine hguard existing t _ ht fun hallowed => ?_
  refine read_bind hcall (Holds i organizationId id existing) ht hholds
    (fun s t j call' hj hs h hdoes => h.stable hj hs hdoes) fun t ht hholds => ?_
  refine Safe.require_bind (fun hothers => ?_) fun _ => fails ht
  have hcounted : needed existing → OtherOwner t organizationId id := by
    intro hneeded
    rw [if_pos hneeded] at hothers
    refine otherOwner_of_count fun hzero => ?_
    simp [hzero] at hothers
  refine commit_last hcall
    (fun s => Holds i organizationId id existing s ∧
      (needed existing → OtherOwner s organizationId id)) ht ⟨hholds, hcounted⟩ ?_ ?_
  · intro s t j call' hj hs hA hdoes
    exact ⟨hA.1.stable hj hs hdoes, fun hneeded => (hA.2 hneeded).stable hj hs hA.1.lock hdoes⟩
  · intro t c u v ht hA hwritten
    exact hwrite existing t c u v ht hA.1 hallowed hA.2 hwritten

theorem apply_congr {dto : UpdateUserDto} {existing user : User} (hrole : user.role = existing.role)
    (hstatus : user.status = existing.status) : dto.apply existing = dto.apply user := by
  have hbump : dto.shouldBumpTokenVersion existing = dto.shouldBumpTokenVersion user := by
    rw [UpdateUserDto.shouldBumpTokenVersion, UpdateUserDto.shouldBumpTokenVersion,
      UpdateUserDto.roleChanged, UpdateUserDto.roleChanged, UpdateUserDto.statusChangedToSuspended,
      UpdateUserDto.statusChangedToSuspended, hrole, hstatus]
  funext row
  rw [UpdateUserDto.apply, UpdateUserDto.apply, hbump]

theorem update_safe {actorRole : UserRole} {organizationId id : Str} {dto : UpdateUserDto}
    (hcall : calls[i]? = some (.update actorRole organizationId id dto)) (hs : Sound s) :
    Safe (contract accounts calls i) (update i organizationId id dto actorRole) s
      (fun _ _ => True) Fails := by
  refine guarded_safe (fun existing => Proc.require (actorRole = .owner ||
      !(dto.grantsOwner existing || dto.revokesOwner existing)) _)
    (fun existing => actorRole = .owner ∨
      (dto.grantsOwner existing = false ∧ dto.revokesOwner existing = false))
    (fun existing => dto.losesActiveOwnerStatus existing = true) hcall hs ?_ ?_
  · intro existing t k ht hk
    refine Safe.require_bind (fun hallowed => hk ?_) fun _ => fails ht
    simpa using hallowed
  · intro existing t c u v ht hholds hallowed hneeded hwritten
    split at hwritten
    · cases hwritten
    · rename_i user hfound
      obtain ⟨huser, hid, horganization, hrole, hstatus⟩ := hholds.found ht hfound
      split at hwritten
      · rename_i hnull
        obtain ⟨-, rfl⟩ := Prod.mk.inj hwritten
        subst hid horganization
        rw [apply_congr hrole hstatus]
        refine .updated actorRole dto user ?_ hholds.lock huser ?_ ?_ hnull
        · rfl
        · rw [UpdateUserDto.grantsOwner, UpdateUserDto.revokesOwner, hrole]
          exact hallowed
        · rw [UpdateUserDto.losesActiveOwnerStatus, UpdateUserDto.roleChanged,
            UpdateUserDto.statusChanged, hrole, hstatus]
          exact hneeded
      · cases hwritten

theorem softDelete_safe {actorRole : UserRole} {organizationId id currentUserId : Str}
    (hcall : calls[i]? = some (.softDelete actorRole organizationId id currentUserId))
    (hs : Sound s) :
    Safe (contract accounts calls i) (softDelete i organizationId id currentUserId) s
      (fun _ _ => True) Fails := by
  refine Safe.require_bind (fun _ => ?_) fun _ => fails hs
  refine guarded_safe (fun _ => .done ()) (fun _ => True)
    (fun existing => existing.role = .owner ∧ existing.status = .active) hcall hs
    (fun _ _ _ _ hk => hk trivial) ?_
  intro existing t c u v ht hholds _ hneeded hwritten
  split at hwritten
  · cases hwritten
  · rename_i user hfound
    obtain ⟨huser, hid, horganization, hrole, hstatus⟩ := hholds.found ht hfound
    obtain ⟨-, rfl⟩ := Prod.mk.inj hwritten
    subst hid horganization
    refine .disabled actorRole currentUserId c.now user rfl hholds.lock huser ?_
    rw [hrole, hstatus]
    exact hneeded

/-! ## Tokens -/

/-- A row that has been read. -/
structure Seen (user : User) (s : Store) : Prop where
  version : AtMost s user.id user.tokenVersion
  live : ¬ user.Down → Live s user.id user.tokenVersion

theorem seen_of_mem {user : User} (h : user ∈ s.users) : Seen user s :=
  ⟨⟨user, h, rfl, Nat.le_refl _⟩, fun hup =>
    ⟨user, h, rfl, Nat.le_refl _, fun hdown => absurd hdown hup⟩⟩

theorem Seen.stable {user : User} {t : Store} {j : Nat} {call' : Call} (hs : Sound s)
    (h : Seen user s) (hdoes : Does accounts call' j s t) : Seen user t :=
  ⟨hdoes.atMost hs h.version, fun hup => hdoes.live hs (h.live hup)⟩

theorem check_bind {user : User} {password passwordHash : Str}
    {error : HttpError} {k : Unit → Program Store α} (hcall : calls[i]? = some call)
    (hs : Sound s) (hseen : Seen user s)
    (hactive : (∃ dto, call = .login dto) → user.status = .active)
    (next : ∀ t, Sound t → .checked i user ∈ t.log →
      Safe (contract accounts calls i) (k ()) t post Fails) :
    Safe (contract accounts calls i)
      (checkPassword accounts i user password passwordHash error >>= k) s post Fails := by
  refine step_bind hcall (Seen user) hs hseen (fun s t j call' _ hs h hdoes => h.stable hs hdoes) ?_
  intro t c ht hseen
  split
  · refine ⟨.checked user hseen.version hseen.live hactive, fun a ha hafter => ?_⟩
    exact next _ hafter (List.mem_append_right _ (List.mem_singleton_self _))
  · exact ⟨.read, fun _ h => nomatch h⟩

theorem mem_log_stable {event : Event} {t : Store} {j : Nat} {call' : Call}
    (h : event ∈ s.log) (hdoes : Does accounts call' j s t) : event ∈ t.log :=
  hdoes.log.subset h

theorem issue_safe {user : User} (hcall : calls[i]? = some call) (hs : Sound s) (event : Event)
    (hevent : event ∈ s.log)
    (hof : ((∃ dto, call = .login dto) ∧ event = .checked i user) ∨
      ((∃ token dto, call = .changeOwnPassword token dto) ∧
        event = .revoked i user.id user.tokenVersion)) :
    Safe (contract accounts calls i) (issueTokenFor i user) s (fun _ _ => True) Fails := by
  refine step_last hcall (fun s => event ∈ s.log) hs hevent
    (fun s t j call' _ _ h hdoes => mem_log_stable h hdoes) fun t c ht hevent => ?_
  refine .issued user (hof.imp ?_ ?_)
  · rintro ⟨hlogin, rfl⟩
    exact ⟨hlogin, hevent⟩
  · rintro ⟨hchange, rfl⟩
    exact ⟨hchange, hevent⟩

theorem login_safe {dto : LoginDto} (hcall : calls[i]? = some (.login dto))
    (hs : Sound s) :
    Safe (contract accounts calls i) (login accounts i dto) s (fun _ _ => True) Fails := by
  refine read_any hcall hs fun t ht => ?_
  refine Safe.expect_bind (fun organization _ => ?_) fun _ => fails ht
  refine Safe.require_bind (fun _ => ?_) fun _ => fails ht
  refine read_any hcall ht fun t ht => ?_
  refine Safe.expect_bind (fun user hfound => ?_) fun _ => fails ht
  refine Safe.require_bind (fun hactive => ?_) fun _ => fails ht
  refine Safe.expect_bind (fun passwordHash _ => ?_) fun _ => fails ht
  refine check_bind hcall ht (seen_of_mem (List.mem_of_find?_eq_some hfound))
    (fun _ => of_decide_eq_true hactive) fun t ht hchecked => ?_
  refine step_bind hcall (fun s => .checked i user ∈ s.log) ht hchecked
    (fun s t j call' _ _ h hdoes => mem_log_stable h hdoes) fun t c ht hchecked => ?_
  refine ⟨.loggedIn user.id c.now, fun _ _ hafter => ?_⟩
  exact issue_safe hcall hafter (.checked i user) hchecked (.inl ⟨⟨dto, rfl⟩, rfl⟩)

theorem changeOwnPassword_safe {token : Token} {dto : ChangePasswordDto}
    {organizationId userId : Str} (hcall : calls[i]? = some (.changeOwnPassword token dto))
    (hs : Sound s) :
    Safe (contract accounts calls i) (changeOwnPassword accounts i organizationId userId dto) s
      (fun _ _ => True) Fails := by
  refine read_any hcall hs fun t ht => ?_
  refine Safe.expect_bind (fun row hfound => ?_) fun _ => fails ht
  obtain ⟨hrow, hid, -⟩ := userOf_some hfound
  refine Safe.expect_bind (fun passwordHash _ => ?_) fun _ => fails ht
  refine check_bind hcall ht (seen_of_mem hrow) (fun ⟨_, h⟩ => nomatch h) fun t ht hchecked => ?_
  refine step_bind hcall (fun s => .checked i row ∈ s.log) ht hchecked
    (fun s t j call' _ _ h hdoes => mem_log_stable h hdoes) fun t c ht hchecked => ?_
  split
  · exact ⟨.read, fun _ h => nomatch h⟩
  · rename_i user hfound
    have huser := List.mem_of_find?_eq_some hfound
    have hsame : user.id = userId := by simpa using List.find?_some hfound
    refine ⟨.passwordChanged user row _ token dto rfl huser (hid.trans hsame.symm) hchecked,
      fun updated hupdated hafter => ?_⟩
    obtain rfl := Except.ok.inj hupdated
    refine issue_safe hcall hafter (.revoked i user.id (user.tokenVersion + 1)) ?_
      (.inr ⟨⟨token, dto, rfl⟩, rfl⟩)
    rw [writeUser_log]
    exact List.mem_append_right _ (List.mem_singleton_self _)

theorem validate_bind {token : Token} {k : AuthenticatedUser → Program Store α}
    (hcall : calls[i]? = some call) (hs : Sound s)
    (next : ∀ user t, Sound t → Safe (contract accounts calls i) (k user) t post Fails) :
    Safe (contract accounts calls i) (validate token >>= k) s post Fails := by
  refine Safe.bind (read_any hcall hs fun t ht => ?_)
  refine Safe.require_bind (fun hsigned => ?_) fun _ => fails ht
  rw [List.contains_iff_mem] at hsigned
  rw [← Proc.bind_done (change _)]
  refine step_bind hcall (fun s => token ∈ s.issued) ht hsigned
    (fun s t j call' _ _ h hdoes => hdoes.issued_subset h) fun t c ht hsigned => ?_
  split
  · exact ⟨.read, fun _ h => nomatch h⟩
  · rename_i user hvalid
    exact ⟨.accepted token user hsigned hvalid, fun a _ hafter u hu => (next a _ hafter).others hu⟩

theorem create_safe {actorRole : UserRole} {organizationId : Str}
    {dto : CreateUserDto} (hcall : calls[i]? = some (.create actorRole organizationId dto))
    (hs : Sound s) :
    Safe (contract accounts calls i) (create accounts organizationId dto) s
      (fun _ _ => True) Fails := by
  refine Safe.act (fun _ => True) hs trivial (fun _ _ _ _ _ => trivial) fun t c u ht _ hu _ => ?_
  rw [Option.ite_none_left_eq_some, Option.some.injEq] at hu
  obtain ⟨hfree, rfl⟩ := hu
  -- Either nothing is inserted, or the row of the request.
  have hdoes : Does accounts (.create actorRole organizationId dto) i t (if c.fault = true ∨
      dto.role = .null ∨ dto.status = .null then (.error .database, t)
      else if t.excludes (dto.user accounts organizationId c.id) then (.error emailTaken, t)
      else (.ok (dto.user accounts organizationId c.id),
        { t with users := t.users ++ [dto.user accounts organizationId c.id] }) :
          Except HttpError User × Store).2 := by
    split
    · exact .read
    · rename_i hnull
      split
      · exact .read
      · rename_i hexcludes
        exact .created actorRole organizationId c.id dto rfl (Bool.eq_false_iff.mpr hfree)
          (fun h => hnull (.inr (.inl h))) (Bool.eq_false_iff.mpr hexcludes)
  refine ⟨hdoes.sound ht, ⟨_, hcall, hdoes⟩, ?_⟩
  split
  · exact returns fun _ => trivial
  · exact fails (hdoes.sound ht)

theorem discard_safe {p : Program Store β}
    (h : Safe (contract accounts calls i) p s (fun _ _ => True) Fails) :
    Safe (contract accounts calls i) (p >>= fun _ => pure () : Program Store Unit) s (fun _ _ => True)
      Fails :=
  Safe.bind (h.mono (fun _ _ _ => returns fun _ => trivial) fun _ _ h => h)

theorem program_safe (hcall : calls[i]? = some call) (hs : Sound s) :
    Safe (contract accounts calls i) (call.program accounts i) s (fun _ _ => True) Fails := by
  cases call with
  | create actorRole organizationId dto => exact discard_safe (create_safe hcall hs)
  | update actorRole organizationId targetUserId dto => exact discard_safe (update_safe hcall hs)
  | softDelete actorRole organizationId targetUserId currentUserId =>
      exact discard_safe (softDelete_safe hcall hs)
  | login dto => exact discard_safe (login_safe hcall hs)
  | changeOwnPassword token dto =>
      exact validate_bind hcall hs fun user t ht =>
        discard_safe (changeOwnPassword_safe hcall ht)
  | authenticate token =>
      exact validate_bind hcall hs fun user t ht => returns fun _ => trivial

end Programs

section Runs

variable {accounts : Accounts} {calls : List Call} {store : Store} {moves : List Move}
variable {s : System Store Choice HttpError Unit}

/-- Every move of a run is a step of its call. -/
theorem Run.does (h : Run accounts calls store moves s) (hs : Sound store) :
    ∀ m ∈ moves, m.output = true → ∃ call, calls[m.input.1]? = some call ∧
      Sound m.before.store ∧ Does accounts call m.input.1 m.before.store m.after.store := by
  have hsafe : AllSafe (contract accounts calls) ⟨store, programs accounts calls⟩ := by
    intro i p hp
    simp only [programs, List.getElem?_mapIdx, Option.map_eq_some_iff] at hp
    obtain ⟨call, hcall, rfl⟩ := hp
    exact (program_safe hcall hs).mono (fun _ _ _ => trivial) fun _ _ _ => trivial
  have hinv : ∀ i, (contract accounts calls i).inv = Sound := fun _ => rfl
  have hrun := Concurrent.Run.safe h hsafe hinv ?_ hs fun _ _ _ => trivial
  · intro m hm houtput
    obtain ⟨hbefore, -, hguar⟩ := hrun.2 m hm
    obtain ⟨call, hcall, hdoes⟩ := hguar houtput
    exact ⟨call, hcall, hbefore, hdoes⟩
  · rintro i j s t hij - - ⟨call, -, hdoes⟩
    exact ⟨i, call, hij, hdoes⟩

/-- What every step of a call keeps holds at the end of a run. -/
theorem Run.induction {P : List Move → Store → Prop} (h : Run accounts calls store moves s)
    (hs : Sound store) (hstart : P [] store)
    (hidle : ∀ past m, P past m.before.store → m.after = m.before → P (past ++ [m]) m.before.store)
    (hstep : ∀ past m call, P past m.before.store → m.output = true → m ∈ moves →
      calls[m.input.1]? = some call → Sound m.before.store →
        Does accounts call m.input.1 m.before.store m.after.store → P (past ++ [m]) m.after.store) :
    P moves s.store := by
  have hdoes := h.does hs
  refine Machine.Run.invariant (P := fun past s => past ⊆ moves → P past s.store) h
    (fun _ => hstart) ?_ (List.Subset.refl _)
  intro past m ih hm hsubset
  have hmem : m ∈ moves := hsubset (List.mem_append_right _ (List.mem_singleton_self m))
  have hpast := ih fun m' hm' => hsubset (List.mem_append_left _ hm')
  rcases step_cases hm with ⟨-, hafter⟩ | ⟨_, _, _, houtput, -⟩
  · rw [hafter]
    exact hidle past m hpast hafter
  · obtain ⟨call, hcall, hbefore, hstepped⟩ := hdoes m hmem houtput
    exact hstep past m call hpast houtput hmem hcall hbefore hstepped

end Runs

end Users
