import VitoPlatform.Users.Runs

/-!
# Revocation of tokens

A token is fenced by the version of its user: no token carries the version of a user who is
suspended or deleted, and a token that is accepted comes from a password check after which nobody
has revoked the user. This holds of the runs in which no login succeeds for a deleted user and no
password change is written for a user who has been revoked since the password was checked.
-/

namespace Users

open Text Concurrent Services

/-- The session has checked a password of the user, and since then no other call has revoked the
user. -/
def Unrevoked (log : List Event) (session : Nat) (id : Str) : Prop :=
  ∃ A row B, log = A ++ .checked session row :: B ∧ row.id = id ∧
    ∀ k v, .revoked k id v ∈ B → k = session

structure TokenSafe (moves : List Move) : Prop where
  /-- No token carries the version of a user who is suspended or deleted. -/
  stale : ∀ m ∈ moves, ∀ user ∈ m.after.store.users, user.Down →
    ∀ token ∈ m.after.store.issued, token.payload.sub = user.id →
      token.payload.token_version ≠ user.tokenVersion
  /-- The tokens of such a user are not accepted later, either. -/
  never : ∀ A m B, moves = A ++ m :: B → ∀ user ∈ m.after.store.users, user.Down →
    ∀ token ∈ m.after.store.issued, token.payload.sub = user.id →
      ∀ m' ∈ B, m'.after.store.log ≠ m'.before.store.log ++ [.accepted token]
  accepted : ∀ m ∈ moves, ∀ token, m.after.store.log = m.before.store.log ++ [.accepted token] →
    (∃ user ∈ m.before.store.users, user.id = token.payload.sub ∧ user.status = .active ∧
      user.deletedAt = none ∧ ∃ organization ∈ m.before.store.organizations,
        organization.id = user.organizationId ∧ organization.status = .active) ∧
      Unrevoked m.before.store.log token.session token.payload.sub

/-- What a step has to heed. -/
structure Prudent (call : Call) (i : Nat) (s t : Store) : Prop where
  /-- The password of a deleted user is not accepted. -/
  login : ∀ dto user, call = .login dto → t.log = s.log ++ [.checked i user] →
    user.deletedAt = none
  /-- The password is changed of an active user whom nobody has revoked since the check. -/
  change : ∀ token dto id v, call = .changeOwnPassword token dto →
    t.log = s.log ++ [.revoked i id v] →
      (∃ user ∈ s.users, user.id = id ∧ ¬ user.Down) ∧ Unrevoked s.log i id

/-- Whoever has revoked the user since the session's check has made a version after this one. -/
def Clear (log : List Event) (session : Nat) (id : Str) (version : Nat) : Prop :=
  ∃ A row B, log = A ++ .checked session row :: B ∧ row.id = id ∧
    ∀ k v, .revoked k id v ∈ B → k = session ∨ version < v

/-- A version that a token of the session may carry. -/
structure Guarded (s : Store) (session : Nat) (id : Str) (version : Nat) : Prop where
  live : Live s id version
  clear : Clear s.log session id version

/-- What fences the tokens. -/
structure Fenced (calls : List Call) (s : Store) : Prop where
  revoked : ∀ k id v, .revoked k id v ∈ s.log → AtMost s id v
  logins : ∀ j dto row, calls[j]? = some (.login dto) → .checked j row ∈ s.log →
    Guarded s j row.id row.tokenVersion
  changes : ∀ j token dto id v, calls[j]? = some (.changeOwnPassword token dto) →
    .revoked j id v ∈ s.log → Guarded s j id v
  issued : ∀ token ∈ s.issued,
    Guarded s token.session token.payload.sub token.payload.token_version

theorem Clear.append {log : List Event} {event : Event} {session version : Nat} {id : Str}
    (h : Clear log session id version) (hevent : ∀ k v, event = .revoked k id v → version < v) :
    Clear (log ++ [event]) session id version := by
  obtain ⟨A, row, B, rfl, hid, hB⟩ := h
  refine ⟨A, row, B ++ [event], by simp, hid, fun k v hv => ?_⟩
  rcases List.mem_append.mp hv with hv | hv
  · exact hB k v hv
  · exact .inr (hevent k v (List.mem_singleton.mp hv).symm)

section Steps

variable {accounts : Accounts} {call : Call} {i session version : Nat} {s t : Store} {id : Str}

/-- A revocation makes a new version. -/
theorem lt_apply_of_revokes {dto : UpdateUserDto} {user : User}
    (h : revokes user (dto.apply user user) = true) :
    user.tokenVersion < (dto.apply user user).tokenVersion := by
  have hbump : dto.shouldBumpTokenVersion user = true := by
    rw [UpdateUserDto.shouldBumpTokenVersion, Bool.or_eq_true]
    rcases of_decide_eq_true h with hrole | ⟨hsuspended, hother⟩
    · refine .inl (decide_eq_true ?_)
      replace hrole : user.role ≠ dto.role.set user.role := hrole
      constructor <;> intro hdto <;> rw [hdto] at hrole <;> exact hrole rfl
    · refine .inr (decide_eq_true ⟨?_, hother⟩)
      replace hsuspended : dto.userStatus.set user.status = .suspended := hsuspended
      cases hdto : dto.userStatus with
      | absent | null => rw [hdto] at hsuspended; exact absurd hsuspended hother
      | value status => rw [hdto] at hsuspended; exact congrArg _ hsuspended
  show user.tokenVersion < user.tokenVersion + _
  rw [if_pos hbump]
  omega

/-- What a step adds to the log. -/
inductive Records (call : Call) (i : Nat) (s t : Store) : Prop
  | nothing : t.log = s.log → Records call i s t
  | checked (user : User) : t.log = s.log ++ [.checked i user] →
      (¬ user.Down → Live s user.id user.tokenVersion) →
        ((∃ dto, call = .login dto) → user.status = .active) → Records call i s t
  | revoked (user after : User) : t.log = s.log ++ [.revoked i user.id after.tokenVersion] →
      user ∈ s.users → after ∈ t.users → after.id = user.id →
        user.tokenVersion < after.tokenVersion →
          ((∃ token dto, call = .changeOwnPassword token dto) → after.Down → user.Down) →
            Records call i s t
  | accepted (token : Token) : t.log = s.log ++ [.accepted token] → Records call i s t

theorem Does.records (h : Does accounts call i s t) : Records call i s t := by
  have written : ∀ {f : User → User} {user : User}, user ∈ s.users →
      f user ∈ (s.setUser user.id f).users := fun huser =>
    mem_setUser.mpr ⟨_, huser, (if_pos rfl).symm⟩
  cases h with
  | read | locked | released | created | loggedIn | issued => exact .nothing rfl
  | updated actorRole dto user hof _ huser =>
      cases hrevokes : revokes user (dto.apply user user) with
      | false => exact .nothing (by rw [release_log, writeUser_log]; exact List.append_nil _)
      | true =>
          refine .revoked user (dto.apply user user) (by rw [release_log, writeUser_log]; rfl) huser
            ?_ rfl (lt_apply_of_revokes hrevokes) ?_
          · rw [release_users, writeUser_users]
            exact written huser
          · rintro ⟨_, _, rfl⟩
            cases hof
  | disabled actorRole currentUserId now user hof _ huser =>
      refine .revoked user (softDeleted now currentUserId user)
        (by rw [release_log, writeUser_log]; rfl) huser ?_ rfl (Nat.lt_succ_self _) ?_
      · rw [release_users, writeUser_users]
        exact written huser
      · rintro ⟨_, _, rfl⟩
        cases hof
  | checked user _ hlive hactive => exact .checked user rfl hlive hactive
  | passwordChanged user row newHash token dto _ huser =>
      refine .revoked user (Users.passwordChanged newHash user) (by rw [writeUser_log]; rfl) huser
        ?_ rfl (Nat.lt_succ_self _) fun _ hdown => hdown
      rw [writeUser_users]
      exact written huser
  | accepted token => exact .accepted token rfl

theorem Does.guarded (h : Does accounts call i s t) (hs : Sound s)
    (hguarded : Guarded s session id version) : Guarded t session id version := by
  refine ⟨h.live hs hguarded.live, ?_⟩
  cases h.records with
  | nothing hlog => rw [hlog]; exact hguarded.clear
  | checked user hlog => rw [hlog]; exact hguarded.clear.append nofun
  | accepted token hlog => rw [hlog]; exact hguarded.clear.append nofun
  | revoked user after hlog huser hafter hid hlt =>
      rw [hlog]
      refine hguarded.clear.append ?_
      rintro k v ⟨⟩
      obtain ⟨u, hu, hsame, hle, -⟩ := hguarded.live
      obtain rfl := hs.eq_of_id hu huser hsame
      omega

/-- The fence stands after every prudent step. -/
theorem Does.fenced {calls : List Call} (h : Does accounts call i s t)
    (hcall : calls[i]? = some call) (hs : Sound s) (hfenced : Fenced calls s)
    (hprudent : Prudent call i s t) : Fenced calls t := by
  have hrecords := h.records
  have kept : ∀ {j : Nat} {id : Str} {v : Nat}, Guarded s j id v → Guarded t j id v :=
    fun hguarded => h.guarded hs hguarded
  refine ⟨?_, ?_, ?_, ?_⟩
  · intro k id v hv
    cases hrecords with
    | nothing hlog => exact h.atMost hs (hfenced.revoked k id v (hlog ▸ hv))
    | checked user hlog | accepted token hlog =>
        rw [hlog] at hv
        exact h.atMost hs (hfenced.revoked k id v (by simpa using hv))
    | revoked user after hlog huser hafter hid =>
        rw [hlog] at hv
        rcases List.mem_append.mp hv with hv | hv
        · exact h.atMost hs (hfenced.revoked k id v hv)
        · cases List.mem_singleton.mp hv
          exact ⟨after, hafter, hid, Nat.le_refl _⟩
  · intro j dto row hj hrow
    cases hrecords with
    | nothing hlog => exact kept (hfenced.logins j dto row hj (hlog ▸ hrow))
    | accepted token hlog | revoked user after hlog =>
        rw [hlog] at hrow
        exact kept (hfenced.logins j dto row hj (by simpa using hrow))
    | checked user hlog hlive hactive =>
        rw [hlog] at hrow
        rcases List.mem_append.mp hrow with hrow | hrow
        · exact kept (hfenced.logins j dto row hj hrow)
        · cases List.mem_singleton.mp hrow
          obtain rfl := Option.some.inj (hcall.symm.trans hj)
          have hup : ¬ row.Down := by
            rintro (hdown | hdown)
            · exact hdown (hactive ⟨dto, rfl⟩)
            · exact hdown (hprudent.login dto row rfl hlog)
          exact ⟨h.live hs (hlive hup), s.log, row, [], hlog, rfl, nofun⟩
  · intro j token dto id v hj hv
    cases hrecords with
    | nothing hlog => exact kept (hfenced.changes j token dto id v hj (hlog ▸ hv))
    | checked user hlog | accepted token' hlog =>
        rw [hlog] at hv
        exact kept (hfenced.changes j token dto id v hj (by simpa using hv))
    | revoked user after hlog huser hafter hid hlt hdown =>
        rw [hlog] at hv
        rcases List.mem_append.mp hv with hv | hv
        · exact kept (hfenced.changes j token dto id v hj hv)
        · cases List.mem_singleton.mp hv
          obtain rfl := Option.some.inj (hcall.symm.trans hj)
          obtain ⟨⟨u, hu, hsame, hup⟩, A, row, B, hcut, hrow, hB⟩ :=
            hprudent.change token dto _ _ rfl hlog
          obtain rfl := hs.eq_of_id hu huser hsame
          refine ⟨⟨after, hafter, hid, Nat.le_refl _,
            fun hafterDown => absurd (hdown ⟨token, dto, rfl⟩ hafterDown) hup⟩, ?_⟩
          refine ⟨A, row, B ++ [.revoked i u.id after.tokenVersion], by rw [hlog, hcut]; simp, hrow,
            fun k v hv => ?_⟩
          rcases List.mem_append.mp hv with hv | hv
          · exact .inl (hB k v hv)
          · cases List.mem_singleton.mp hv
            exact .inl rfl
  · intro token htoken
    have old := fun hold => kept (hfenced.issued token hold)
    cases h with
    | read | locked | released | created | loggedIn | checked | accepted => exact old htoken
    | updated | disabled | passwordChanged =>
        simp only [release_issued, writeUser_issued] at htoken
        exact old htoken
    | issued user hof =>
        rcases List.mem_append.mp htoken with htoken | htoken
        · exact old htoken
        · obtain rfl := List.mem_singleton.mp htoken
          rcases hof with ⟨⟨dto, rfl⟩, hchecked⟩ | ⟨⟨token, dto, rfl⟩, hrevoked⟩
          · exact kept (hfenced.logins i dto user hcall hchecked)
          · exact kept (hfenced.changes i token dto _ _ hcall hrevoked)

/-- The version of the user has passed this one. -/
def Passed (s : Store) (id : Str) (version : Nat) : Prop :=
  ∃ user ∈ s.users, user.id = id ∧ version < user.tokenVersion

theorem Does.passed (h : Does accounts call i s t) (hs : Sound s) (hpassed : Passed s id version) :
    Passed t id version := by
  obtain ⟨u, hu, hid, hlt⟩ := hpassed
  obtain ⟨v, hv, hevolves⟩ := h.evolves hs hu
  exact ⟨v, hv, hevolves.id.trans hid, Nat.lt_of_lt_of_le hlt hevolves.version⟩

theorem Guarded.passed (h : Guarded s session id version) (hs : Sound s) {user : User}
    (huser : user ∈ s.users) (hid : id = user.id) (hdown : user.Down) :
    Passed s id version ∧ version < user.tokenVersion := by
  obtain ⟨u, hu, hsame, -, hbehind⟩ := h.live
  obtain rfl := hs.eq_of_id hu huser (hsame.trans hid)
  exact ⟨⟨u, hu, hsame, hbehind hdown⟩, hbehind hdown⟩

theorem validUser_ok {payload : JwtPayload} {authenticated : AuthenticatedUser}
    (h : validUser s payload = .ok authenticated) :
    ∃ user ∈ s.users, user.id = payload.sub ∧ user.status = .active ∧
      user.tokenVersion = payload.token_version ∧ ∃ organization ∈ s.organizations,
        organization.id = user.organizationId ∧ organization.status = .active := by
  unfold validUser at h
  split at h
  · cases h
  rename_i user hfound
  split at h
  · cases h
  split at h
  · cases h
  rename_i hstatus
  split at h
  · cases h
  rename_i organization hof
  split at h
  · cases h
  rename_i hactive
  split at h
  · cases h
  rename_i hversion
  refine ⟨user, List.mem_of_find?_eq_some hfound, by simpa using List.find?_some hfound,
    not_not.mp hstatus, (not_not.mp hversion).symm, organization,
    List.mem_of_find?_eq_some hof, by simpa using List.find?_some hof, not_not.mp hactive⟩

/-- Only a token that has been issued and is valid is accepted. -/
theorem Does.accepts (h : Does accounts call i s t) {token : Token}
    (hlog : t.log = s.log ++ [.accepted token]) :
    token ∈ s.issued ∧ ∃ user, validUser s token.payload = .ok user := by
  cases h with
  | read | locked | released | created | loggedIn | issued =>
      exact absurd hlog (by simp [Store.release, Store.setUser])
  | updated | disabled | passwordChanged =>
      simp only [release_log, writeUser_log] at hlog
      have hnew := List.append_cancel_left hlog
      split at hnew <;> cases hnew
  | checked => cases List.append_cancel_left hlog
  | accepted token' user hissued hvalid =>
      cases List.append_cancel_left hlog
      exact ⟨hissued, user, hvalid⟩

end Steps

section Runs

variable {accounts : Accounts} {calls : List Call} {store : Store} {moves : List Move}
variable {s : System Store Choice HttpError Unit}

/-- Every step of the run is prudent. -/
def PrudentRun (calls : List Call) (moves : List Move) : Prop :=
  ∀ m ∈ moves, ∀ call, calls[m.input.1]? = some call →
    Prudent call m.input.1 m.before.store m.after.store

theorem Run.fenced (h : Run accounts calls store moves s) (hs : Sound store)
    (hissued : store.issued = []) (hlog : store.log = []) (hprudent : PrudentRun calls moves) :
    Sound s.store ∧ Fenced calls s.store ∧
      ∀ m ∈ moves, ∀ user ∈ m.after.store.users, user.Down →
        ∀ token ∈ m.after.store.issued, token.payload.sub = user.id →
          Passed s.store token.payload.sub token.payload.token_version := by
  refine h.induction hs (P := fun past s => Sound s ∧ Fenced calls s ∧ ∀ m ∈ past,
    ∀ user ∈ m.after.store.users, user.Down → ∀ token ∈ m.after.store.issued,
      token.payload.sub = user.id →
        Passed s token.payload.sub token.payload.token_version) ?_ ?_ ?_
  · have hnone : ∀ event, event ∉ store.log := fun event h => List.not_mem_nil (hlog ▸ h)
    refine ⟨hs, ⟨?_, ?_, ?_, ?_⟩, nofun⟩
    · exact fun k id v h => (hnone _ h).elim
    · exact fun j dto row _ h => (hnone _ h).elim
    · exact fun j token dto id v _ h => (hnone _ h).elim
    · exact fun token h => (List.not_mem_nil (hissued ▸ h)).elim
  · intro past m ⟨hsound, hfenced, hpast⟩ hafter
    refine ⟨hsound, hfenced, List.forall_mem_append.mpr ⟨hpast, List.forall_mem_singleton.mpr ?_⟩⟩
    rw [hafter]
    intro user huser hdown token htoken hid
    exact ((hfenced.issued token htoken).passed hsound huser hid hdown).1
  · intro past m call ⟨_, hfenced, hpast⟩ _ hm hcall hsound hdoes
    have hafter := hdoes.sound hsound
    have hfenced := hdoes.fenced hcall hsound hfenced (hprudent m hm call hcall)
    refine ⟨hafter, hfenced, List.forall_mem_append.mpr ⟨?_, List.forall_mem_singleton.mpr ?_⟩⟩
    · intro m' hm' user huser hdown token htoken hid
      exact hdoes.passed hsound (hpast m' hm' user huser hdown token htoken hid)
    · intro user huser hdown token htoken hid
      exact ((hfenced.issued token htoken).passed hafter huser hid hdown).1

/-- An accepted token is guarded, and its version is the one of its user. -/
theorem Run.accepts (h : Run accounts calls store moves s) (hs : Sound store) {m : Move}
    (hm : m ∈ moves) {token : Token}
    (hlog : m.after.store.log = m.before.store.log ++ [.accepted token]) :
    token ∈ m.before.store.issued ∧ ∃ user ∈ m.before.store.users, user.id = token.payload.sub ∧
      user.status = .active ∧ user.tokenVersion = token.payload.token_version ∧
        ∃ organization ∈ m.before.store.organizations, organization.id = user.organizationId ∧
          organization.status = .active := by
  obtain ⟨A, B, rfl⟩ := List.append_of_mem hm
  rcases step_cases h.cut.2.1 with ⟨-, hafter⟩ | ⟨_, _, _, houtput, -⟩
  · rw [hafter] at hlog
    simp at hlog
  · obtain ⟨call, hcall, hsound, hdoes⟩ := h.does hs m hm houtput
    obtain ⟨hissued, user, hvalid⟩ := hdoes.accepts hlog
    exact ⟨hissued, validUser_ok hvalid⟩

/-- The tokens are safe in every run of prudent steps. -/
theorem token_safe (h : Run accounts calls store moves s) (hs : Sound store)
    (hissued : store.issued = []) (hlog : store.log = []) (hprudent : PrudentRun calls moves) :
    TokenSafe moves where
  stale := by
    intro m hm user huser hdown token htoken hid
    obtain ⟨A, B, rfl⟩ := List.append_of_mem hm
    have hrun : Run accounts calls store (A ++ [m]) m.after := .snoc h.cut.1 h.cut.2.1
    obtain ⟨hsound, hfenced, -⟩ := hrun.fenced hs hissued hlog fun m' hm' =>
      hprudent m' (by simp at hm' ⊢; tauto)
    have hbehind := ((hfenced.issued token htoken).passed hsound huser hid hdown).2
    omega
  never := by
    rintro A m B rfl user huser hdown token htoken hid m' hm' haccepted
    obtain ⟨-, u, hu, hsame, -, hversion, -⟩ := Run.accepts h hs (by simp [hm']) haccepted
    obtain ⟨B, D, rfl⟩ := List.append_of_mem hm'
    have hcut : A ++ m :: (B ++ m' :: D) = (A ++ m :: B) ++ m' :: D := by simp
    rw [hcut] at h hprudent
    obtain ⟨hsound, -, hpassed⟩ := Run.fenced h.cut.1 hs hissued hlog fun m'' hm'' =>
      hprudent m'' (List.mem_append_left _ hm'')
    obtain ⟨v, hv, hid', hlt⟩ := hpassed m (by simp) user huser hdown token htoken hid
    obtain rfl := hsound.eq_of_id hv hu (hid'.trans hsame.symm)
    omega
  accepted := by
    intro m hm token haccepted
    obtain ⟨htoken, user, huser, hid, hstatus, hversion, hof⟩ := Run.accepts h hs hm haccepted
    obtain ⟨A, B, rfl⟩ := List.append_of_mem hm
    obtain ⟨hsound, hfenced, -⟩ := Run.fenced h.cut.1 hs hissued hlog fun m' hm' =>
      hprudent m' (List.mem_append_left _ hm')
    have hguarded := hfenced.issued token htoken
    refine ⟨⟨user, huser, hid, hstatus, ?_, hof⟩, ?_⟩
    · by_contra hdeleted
      have hbehind := (hguarded.passed hsound huser hid.symm (.inr hdeleted)).2
      omega
    · obtain ⟨C, row, D, hlog, hrow, hD⟩ := hguarded.clear
      refine ⟨C, row, D, hlog, hrow, fun k v hv => ?_⟩
      -- A revocation by somebody else would have made a version that the user does not have yet.
      rcases hD k v hv with hk | hlt
      · exact hk
      · obtain ⟨u, hu, hsame, hle⟩ := hfenced.revoked k _ v
          (by rw [hlog]; exact List.mem_append_right _ (List.mem_cons_of_mem _ hv))
        obtain rfl := hsound.eq_of_id hu huser (hsame.trans hid.symm)
        omega

end Runs

section Examples

instance (user : User) : Decidable user.Down :=
  inferInstanceAs (Decidable (user.status ≠ .active ∨ user.deletedAt ≠ none))

private def literalAccounts : Accounts where
  toLowerCase := id
  compare password hash := password = hash
  hash password salt := salt ++ password

private def memberStore : Store where
  users :=
    [{ id := "user".toList
       organizationId := "org".toList
       email := "user@example".toList
       firstName := []
       lastName := []
       role := .member
       status := .active
       passwordHash := some "secret".toList
       lastLoginAt := none
       tokenVersion := 1
       isMachineIdentity := false
       machineScope := none
       deletedAt := none
       deletedByUserId := none }]
  organizations := [⟨"org".toList, "slug".toList, .active⟩]
  locks := []
  issued := []
  log := []

private theorem memberStore_sound : Sound memberStore :=
  ⟨List.nodup_singleton _, nofun⟩

private def memberLogin : Call :=
  .login ⟨"slug".toList, "user@example".toList, "secret".toList⟩

private def memberToken : Token := ⟨⟨"user".toList, "org".toList, .member, 1⟩, 0⟩

private def steps (counts : List (Nat × Nat)) : List (Nat × Choice) :=
  counts.flatMap fun (session, count) => List.replicate count (session, ⟨false, [], 0⟩)

/-- A login, and a request with its token. -/
private def requestMoves : List Move :=
  (Machine.execute System.step
    ⟨memberStore, programs literalAccounts [memberLogin, .authenticate memberToken]⟩
    (steps [(0, 5), (1, 2)])).1

/-- Nobody is revoked, and no deleted user checked. -/
private def Event.isPrudent : Event → Bool
  | .checked _ user => user.deletedAt = none
  | .revoked _ _ _ => false
  | .accepted _ => true

theorem token_safe_request : TokenSafe requestMoves := by
  refine token_safe (Machine.run_execute _ _ _) memberStore_sound rfl rfl fun m hm call _ => ?_
  have hevents : ∀ m ∈ requestMoves, ∀ event ∈ m.after.store.log, event.isPrudent = true := by
    decide
  constructor
  · intro dto user _ hlog
    have hevent := hevents m hm (.checked m.input.1 user) (by rw [hlog]; simp)
    exact of_decide_eq_true hevent
  · intro token dto id v _ hlog
    have hevent := hevents m hm (.revoked m.input.1 id v) (by rw [hlog]; simp)
    cases hevent

/-- The user is suspended between the check and the change of the password. -/
private def suspensionMoves : List Move :=
  (Machine.execute System.step
    ⟨memberStore, programs literalAccounts
      [memberLogin, .changeOwnPassword memberToken ⟨"secret".toList, "fresh".toList⟩,
        .update .owner "org".toList "user".toList ⟨.absent, .absent, .absent, .value .suspended⟩]⟩
    (steps [(0, 5), (1, 4), (2, 4), (1, 2)])).1

/-- The new token carries the version of the suspended user. -/
theorem not_token_safe_suspension :
    ¬ ∀ accounts calls store moves s, Run accounts calls store moves s → Sound store →
      store.issued = [] → store.log = [] → TokenSafe moves := by
  intro h
  have hsafe : TokenSafe suspensionMoves :=
    h literalAccounts _ memberStore _ _ (Machine.run_execute _ _ _) memberStore_sound rfl rfl
  have hlive : ∃ m ∈ suspensionMoves, ∃ user ∈ m.after.store.users, user.Down ∧
      ∃ token ∈ m.after.store.issued, token.payload.sub = user.id ∧
        token.payload.token_version = user.tokenVersion := by
    decide
  obtain ⟨m, hm, user, huser, hdown, token, htoken, hid, hversion⟩ := hlive
  exact hsafe.stale m hm user huser hdown token htoken hid hversion

end Examples

end Users
