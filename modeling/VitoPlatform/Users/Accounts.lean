import VitoPlatform.Persistence.Services

/-!
# Users and their tokens

`UsersService.create`, `update`, `softDelete` and `changeOwnPassword`, `AuthService.login` and
`JwtStrategy.validate`. Changes of roles and status lock the row of the organization, which an
insert into its users has to wait for. The log records password checks, revocations and accepted
tokens in their order; no program reads it.
-/

namespace Users

open Text Concurrent Services

inductive UserRole where
  | owner
  | admin
  | member
  | viewer
  deriving DecidableEq

inductive UserStatus where
  | active
  | invited
  | suspended
  | disabled
  deriving DecidableEq

inductive OrganizationStatus where
  | active
  | suspended
  | archived
  deriving DecidableEq

structure Organization where
  id : Str
  slug : Str
  status : OrganizationStatus

structure User where
  id : Str
  organizationId : Str
  email : Str
  firstName : Str
  lastName : Str
  role : UserRole
  status : UserStatus
  passwordHash : Option Str
  lastLoginAt : Option Int
  tokenVersion : Nat
  isMachineIdentity : Bool
  machineScope : Option Str
  deletedAt : Option Int
  deletedByUserId : Option Str

structure JwtPayload where
  sub : Str
  org_id : Str
  role : UserRole
  token_version : Nat
  deriving DecidableEq

/-- A signed token, and the call that has issued it. -/
structure Token where
  payload : JwtPayload
  session : Nat
  deriving DecidableEq

inductive Event where
  /-- The password was compared with the hash of this row, and matched. -/
  | checked (session : Nat) (user : User)
  /-- The password or the role was changed, or the user suspended or deleted. -/
  | revoked (session : Nat) (userId : Str) (tokenVersion : Nat)
  | accepted (token : Token)

structure Store where
  users : List User
  organizations : List Organization
  /-- The organizations whose rows are locked, and by which call. -/
  locks : List (Str × Nat)
  issued : List Token
  log : List Event

/-- What the services get from elsewhere. -/
structure Accounts where
  toLowerCase : Str → Str
  /-- `bcrypt.compare` of a password and a hash. -/
  compare : Str → Str → Bool
  /-- `bcrypt.hash` of a password with a salt. -/
  hash : Str → Str → Str

def Accounts.normalizeEmail (accounts : Accounts) (raw : Str) : Str :=
  accounts.toLowerCase (trim raw)

/-! ## Rows and locks -/

def Store.isLocked (s : Store) (organizationId : Str) : Bool :=
  s.locks.any fun lock => lock.1 = organizationId

/-- The end of a transaction. -/
def Store.release (s : Store) (session : Nat) : Store :=
  { s with locks := s.locks.filter fun lock => lock.2 ≠ session }

def Store.setUser (s : Store) (id : Str) (f : User → User) : Store :=
  { s with users := s.users.map fun user => if user.id = id then f user else user }

/-- `findFirst` by identifier and organization. -/
def Store.userOf (s : Store) (organizationId id : Str) : Option User :=
  s.users.find? fun user => user.id = id ∧ user.organizationId = organizationId

/-- `SELECT id FROM organizations … FOR UPDATE`: it waits while the row is locked. -/
def lockOrganization (session : Nat) (organizationId : Str) : Program Store Unit :=
  .act
    (fun c s =>
      if c.fault then some s
      else if s.isLocked organizationId then none
      else some { s with locks := s.locks ++ [(organizationId, session)] })
    fun c _ => if c.fault then .throw .database else .done ()

/-- A transaction: it rolls back when it throws. Its commit is the last step of its body. -/
def transaction {α : Type} (session : Nat) (body : Program Store α) : Program Store α :=
  body.tryCatch fun error =>
    .act (fun _ s => some (s.release session)) fun _ _ => .throw error

/-- The writes of a transaction with its commit. -/
def commit {α : Type} (session : Nat) (f : Choice → Store → Except HttpError α × Store) :
    Program Store α :=
  change fun c s =>
    match f c s with
    | (.ok a, t) => (.ok a, t.release session)
    | (.error error, _) => (.error error, s)

/-! ## Administration of users -/

structure CreateUserDto where
  email : Str
  firstName : Str
  lastName : Str
  role : DtoField UserRole
  status : DtoField UserStatus

def emailTaken : HttpError :=
  .conflict "Ein User mit dieser E-Mail existiert bereits in dieser Organization."

/-- The row that `create` inserts. -/
def CreateUserDto.user (dto : CreateUserDto) (accounts : Accounts) (organizationId id : Str) :
    User :=
  { id := id
    organizationId := organizationId
    email := accounts.normalizeEmail dto.email
    firstName := dto.firstName
    lastName := dto.lastName
    role := dto.role.set .member
    status := dto.status.set .active
    passwordHash := none
    lastLoginAt := none
    tokenVersion := 1
    isMachineIdentity := false
    machineScope := none
    deletedAt := none
    deletedByUserId := none }

/-- A row with its identifier, or with its email in the organization, is there. -/
def Store.excludes (s : Store) (user : User) : Bool :=
  s.users.any fun other => other.id = user.id ∨
    (other.organizationId = user.organizationId ∧ other.email = user.email)

/-- The insert waits for the lock of the organization; a role or status `null` is refused. -/
def create (accounts : Accounts) (organizationId : Str) (dto : CreateUserDto) :
    Program Store User :=
  let insert (c : Choice) (s : Store) : Except HttpError User × Store :=
    let user := dto.user accounts organizationId c.id
    if c.fault ∨ dto.role = .null ∨ dto.status = .null then (.error .database, s)
    else if s.excludes user then (.error emailTaken, s)
    else (.ok user, { s with users := s.users ++ [user] })
  .act (fun c s => if s.isLocked organizationId then none else some (insert c s).2) fun c s =>
    match (insert c s).1 with
    | .ok user => .done user
    | .error error => .throw error

/-- The statuses that `update` may set. -/
inductive Sprint3aUserStatus where
  | active
  | suspended
  deriving DecidableEq

def Sprint3aUserStatus.status : Sprint3aUserStatus → UserStatus
  | .active => .active
  | .suspended => .suspended

structure UpdateUserDto where
  firstName : DtoField Str
  lastName : DtoField Str
  role : DtoField UserRole
  status : DtoField Sprint3aUserStatus

namespace UpdateUserDto

variable (dto : UpdateUserDto) (existing : User)

/-- `dto.status`, as a status of users. -/
def userStatus : DtoField UserStatus :=
  match dto.status with
  | .absent => .absent
  | .null => .null
  | .value status => .value status.status

def grantsOwner : Bool := dto.role = .value .owner ∧ existing.role ≠ .owner

def revokesOwner : Bool :=
  dto.role ≠ .absent ∧ dto.role ≠ .value .owner ∧ existing.role = .owner

def roleChanged : Bool := dto.role ≠ .absent ∧ dto.role ≠ .value existing.role

def statusChanged : Bool :=
  dto.userStatus ≠ .absent ∧ dto.userStatus ≠ .value existing.status

def losesActiveOwnerStatus : Bool :=
  existing.role = .owner ∧ existing.status = .active ∧
    ((dto.roleChanged existing ∧ dto.role ≠ .value .owner) ∨
      (dto.statusChanged existing ∧ dto.userStatus ≠ .value .active))

def statusChangedToSuspended : Bool :=
  dto.userStatus = .value .suspended ∧ existing.status ≠ .suspended

def shouldBumpTokenVersion : Bool :=
  dto.roleChanged existing || dto.statusChangedToSuspended existing

/-- The columns that `update` writes, over the row that is there. -/
def apply (user : User) : User :=
  { user with
    firstName := dto.firstName.set user.firstName
    lastName := dto.lastName.set user.lastName
    role := dto.role.set user.role
    status := dto.userStatus.set user.status
    tokenVersion := user.tokenVersion + if dto.shouldBumpTokenVersion existing then 1 else 0 }

/-- No field of the body is `null`, which the columns do not take. -/
def noNull : Bool :=
  dto.firstName ≠ .null ∧ dto.lastName ≠ .null ∧ dto.role ≠ .null ∧ dto.status ≠ .null

end UpdateUserDto

/-- An owner who can act for the organization. -/
def activeOwner (organizationId : Str) (user : User) : Bool :=
  user.organizationId = organizationId ∧ user.role = .owner ∧ user.status = .active ∧
    user.deletedAt = none

def otherActiveOwners (organizationId targetUserId : Str) (s : Store) : Nat :=
  (s.users.filter fun user => activeOwner organizationId user ∧ user.id ≠ targetUserId).length

def userNotFound : HttpError := .notFound "User nicht gefunden."

/-- Whether the change of a row is a revocation. -/
def revokes (before after : User) : Bool :=
  before.role ≠ after.role ∨ (after.status = .suspended ∧ before.status ≠ .suspended)

/-- Write one row, and record it if it is a revocation. -/
def Store.writeUser (s : Store) (session : Nat) (user : User) (f : User → User)
    (revoking : Bool) : Store :=
  let t := s.setUser user.id f
  if revoking then { t with log := t.log ++ [.revoked session user.id (f user).tokenVersion] }
  else t

def update (session : Nat) (organizationId targetUserId : Str) (dto : UpdateUserDto)
    (currentUserRole : UserRole) : Program Store User :=
  transaction session do
    lockOrganization session organizationId
    let found ← query fun s => s.userOf organizationId targetUserId
    let existing ← Proc.expect found userNotFound
    Proc.require
      (currentUserRole = .owner || !(dto.grantsOwner existing || dto.revokesOwner existing))
      (.forbidden "Nur OWNER darf die OWNER-Rolle vergeben oder entziehen.")
    let others ← query fun s =>
      if dto.losesActiveOwnerStatus existing then
        some (otherActiveOwners organizationId targetUserId s)
      else none
    Proc.require (others ≠ some 0) (.conflict
      "Der letzte verbleibende OWNER dieser Organization kann nicht degradiert oder suspendiert werden.")
    commit session fun _ s =>
      match s.users.find? fun user => user.id = targetUserId with
      | none => (.error .database, s)
      | some user =>
          if dto.noNull then
            (.ok (dto.apply existing user),
              s.writeUser session user (dto.apply existing)
                (revokes user (dto.apply existing user)))
          else (.error .database, s)

/-- The columns that `softDelete` writes. -/
def softDeleted (now : Int) (currentUserId : Str) (user : User) : User :=
  { user with
    status := .disabled
    deletedAt := some now
    deletedByUserId := some currentUserId
    tokenVersion := user.tokenVersion + 1 }

def softDelete (session : Nat) (organizationId targetUserId currentUserId : Str) :
    Program Store User := do
  Proc.require (targetUserId ≠ currentUserId)
    (.forbidden "Ein User kann sich nicht selbst deaktivieren.")
  transaction session do
    lockOrganization session organizationId
    let found ← query fun s => s.userOf organizationId targetUserId
    let existing ← Proc.expect found userNotFound
    let others ← query fun s =>
      if existing.role = .owner ∧ existing.status = .active then
        some (otherActiveOwners organizationId targetUserId s)
      else none
    Proc.require (others ≠ some 0) (.conflict
      "Der letzte verbleibende OWNER dieser Organization kann nicht deaktiviert werden.")
    commit session fun c s =>
      match s.users.find? fun user => user.id = targetUserId with
      | none => (.error .database, s)
      | some user =>
          (.ok (softDeleted c.now currentUserId user),
            s.writeUser session user (softDeleted c.now currentUserId) true)

/-! ## Tokens -/

def payloadOf (user : User) : JwtPayload :=
  { sub := user.id
    org_id := user.organizationId
    role := user.role
    token_version := user.tokenVersion }

def issueTokenFor (session : Nat) (user : User) : Program Store Token :=
  change fun _ s =>
    (.ok ⟨payloadOf user, session⟩, { s with issued := s.issued ++ [⟨payloadOf user, session⟩] })

/-- `bcrypt.compare` with the hash of a row that has been read. -/
def checkPassword (accounts : Accounts) (session : Nat) (user : User) (password passwordHash : Str)
    (error : HttpError) : Program Store Unit :=
  change fun _ s =>
    if accounts.compare password passwordHash then
      (.ok (), { s with log := s.log ++ [.checked session user] })
    else (.error error, s)

/-- A hash that is there and not empty. -/
def User.hash? (user : User) : Option Str := user.passwordHash.filter (· ≠ [])

structure LoginDto where
  organizationSlug : Str
  email : Str
  password : Str

def invalidCredentials : HttpError := .unauthorized "Ungültige Zugangsdaten."

def login (accounts : Accounts) (session : Nat) (dto : LoginDto) : Program Store Token := do
  let found ← query fun s =>
    s.organizations.find? fun organization => organization.slug = dto.organizationSlug
  let organization ← Proc.expect found invalidCredentials
  Proc.require (organization.status = .active) invalidCredentials
  let found ← query fun s => s.users.find? fun user =>
    user.organizationId = organization.id ∧ user.email = accounts.normalizeEmail dto.email
  let user ← Proc.expect found invalidCredentials
  Proc.require (user.status = .active) invalidCredentials
  let passwordHash ← Proc.expect user.hash? invalidCredentials
  checkPassword accounts session user dto.password passwordHash invalidCredentials
  change fun c s => (.ok (), s.setUser user.id fun user => { user with lastLoginAt := some c.now })
  issueTokenFor session user

structure ChangePasswordDto where
  currentPassword : Str
  newPassword : Str

def wrongPassword : HttpError := .badRequest "Aktuelles Passwort ist falsch."

/-- The columns that `changeOwnPassword` writes. -/
def passwordChanged (newHash : Str) (user : User) : User :=
  { user with
    passwordHash := some newHash
    tokenVersion := user.tokenVersion + 1 }

def changeOwnPassword (accounts : Accounts) (session : Nat) (organizationId userId : Str)
    (dto : ChangePasswordDto) : Program Store Token := do
  let found ← query fun s => s.userOf organizationId userId
  let user ← Proc.expect found wrongPassword
  let passwordHash ← Proc.expect user.hash? wrongPassword
  checkPassword accounts session user dto.currentPassword passwordHash wrongPassword
  let updated ← change fun c s =>
    match s.users.find? fun user => user.id = userId with
    | none => (.error .database, s)
    | some user =>
        (.ok (passwordChanged (accounts.hash dto.newPassword c.id) user),
          s.writeUser session user (passwordChanged (accounts.hash dto.newPassword c.id)) true)
  issueTokenFor session updated

def tokenInvalid : HttpError := .unauthorized "Token nicht mehr gültig."

structure AuthenticatedUser where
  userId : Str
  organizationId : Str
  role : UserRole
  email : Str
  isMachineIdentity : Bool
  machineScope : Option Str

/-- `validate`, on what it reads of the user and the organization. -/
def validUser (s : Store) (payload : JwtPayload) : Except HttpError AuthenticatedUser :=
  match s.users.find? fun user => user.id = payload.sub with
  | none => .error tokenInvalid
  | some user =>
      if user.organizationId ≠ payload.org_id then .error tokenInvalid
      else if user.status ≠ .active then .error tokenInvalid
      else
        match s.organizations.find? fun organization => organization.id = user.organizationId with
        | none => .error tokenInvalid
        | some organization =>
            if organization.status ≠ .active then .error tokenInvalid
            else if payload.token_version ≠ user.tokenVersion then .error tokenInvalid
            else .ok
              { userId := user.id
                organizationId := user.organizationId
                role := user.role
                email := user.email
                isMachineIdentity := user.isMachineIdentity
                machineScope := user.machineScope }

/-- A request with a token: the signature holds only of tokens that have been issued. -/
def validate (token : Token) : Program Store AuthenticatedUser := do
  let signed ← query fun s => s.issued.contains token
  Proc.require signed tokenInvalid
  change fun _ s =>
    match validUser s token.payload with
    | .error error => (.error error, s)
    | .ok user => (.ok user, { s with log := s.log ++ [.accepted token] })

/-! ## Calls -/

/-- A call; the actor of an administrative one has been authenticated and may make it. -/
inductive Call where
  | create (actorRole : UserRole) (organizationId : Str) (dto : CreateUserDto)
  | update (actorRole : UserRole) (organizationId targetUserId : Str) (dto : UpdateUserDto)
  | softDelete (actorRole : UserRole) (organizationId targetUserId currentUserId : Str)
  | login (dto : LoginDto)
  | changeOwnPassword (token : Token) (dto : ChangePasswordDto)
  | authenticate (token : Token)

/-- The program of the call that runs as `session`. -/
def Call.program (accounts : Accounts) (session : Nat) : Call → Program Store Unit
  | .create _ organizationId dto => do
      let _ ← Users.create accounts organizationId dto
  | .update actorRole organizationId targetUserId dto => do
      let _ ← Users.update session organizationId targetUserId dto actorRole
  | .softDelete _ organizationId targetUserId currentUserId => do
      let _ ← Users.softDelete session organizationId targetUserId currentUserId
  | .login dto => do
      let _ ← Users.login accounts session dto
  | .changeOwnPassword token dto => do
      let user ← validate token
      let _ ← Users.changeOwnPassword accounts session user.organizationId user.userId dto
  | .authenticate token => do
      let _ ← validate token

def programs (accounts : Accounts) (calls : List Call) : List (Program Store Unit) :=
  calls.mapIdx fun session call => call.program accounts session

abbrev Move := Concurrent.Move Store Choice HttpError Unit

/-- A run of any calls from a store, with no transaction and no token under way. -/
abbrev Run (accounts : Accounts) (calls : List Call) (store : Store) (moves : List Move)
    (s : Concurrent.System Store Choice HttpError Unit) : Prop :=
  Concurrent.Run store (programs accounts calls) moves s

end Users
