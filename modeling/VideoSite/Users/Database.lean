import VideoSite.Users.Entities

/-!
# The database of users-service

The tables of `adapter/database/orm_models`, the statements that change them,
and the transaction a unit of work keeps open.

A transaction at isolation level read committed sees the committed rows and its
own writes.  `Tx.pending` are those writes, in order, and `Tx.view` is what the
transaction sees.  A write names the rows it changes and keeps the condition of
its `WHERE` clause, so that it means the same on every database that has them.

* `Write.apply` is the effect of one write, `Db.violation` the constraint it
  would break.
* `Tx.view_record` says how a recorded write changes the view, and
  `Tx.commit` is the database after the transaction.
-/

namespace VideoSite.Users

/-! ## Tables -/

structure UserRow where
  id : UserId
  email : String
  username : String
  passwordHash : String
  displayName : Option String
  isActive : Bool
  isSuperuser : Bool
  emailVerifiedAt : Option Time
  visitorId : Option String
  createdAt : Time
  updatedAt : Time
  deriving DecidableEq, Repr

structure RoleRow where
  id : RoleId
  name : String
  description : Option String
  deriving DecidableEq, Repr

/-- The columns that `SqlAlchemyUserRepository.update` assigns. -/
structure Profile where
  email : String
  username : String
  displayName : Option String
  isActive : Bool
  isSuperuser : Bool
  emailVerifiedAt : Option Time
  deriving DecidableEq, Repr

def UserRow.profile (row : UserRow) : Profile where
  email := row.email
  username := row.username
  displayName := row.displayName
  isActive := row.isActive
  isSuperuser := row.isSuperuser
  emailVerifiedAt := row.emailVerifiedAt

def User.profile (user : User) : Profile where
  email := user.email
  username := user.username
  displayName := user.displayName
  isActive := user.isActive
  isSuperuser := user.isSuperuser
  emailVerifiedAt := user.emailVerifiedAt

/-- The row with new values in the columns of `update`; `onupdate` stamps it. -/
def UserRow.withProfile (row : UserRow) (p : Profile) (stamp : Time) : UserRow :=
  { row with
    email := p.email
    username := p.username
    displayName := p.displayName
    isActive := p.isActive
    isSuperuser := p.isSuperuser
    emailVerifiedAt := p.emailVerifiedAt
    updatedAt := stamp }

/-- All tables. -/
structure Db where
  users : List UserRow
  roles : List RoleRow
  permissions : List Permission
  userRoles : List (UserId × RoleId)
  rolePermissions : List (RoleId × PermissionId)
  sessions : List AuthSession
  securityTokens : List SecurityToken
  auditLogs : List AuditEvent
  deriving DecidableEq, Repr

namespace Db

/-! ## Reading -/

/-- `role_to_entity`, with the permissions of the role loaded. -/
def roleToEntity (db : Db) (row : RoleRow) : Role where
  id := row.id
  name := row.name
  description := row.description
  permissions := db.permissions.filter fun p => (row.id, p.id) ∈ db.rolePermissions

/-- The roles assigned to an account. -/
def rolesOf (db : Db) (userId : UserId) : List Role :=
  (db.roles.filter fun r => (userId, r.id) ∈ db.userRoles).map db.roleToEntity

/-- `user_to_entity`, with the roles of the account loaded. -/
def userToEntity (db : Db) (row : UserRow) : User where
  id := row.id
  email := row.email
  username := row.username
  passwordHash := row.passwordHash
  displayName := row.displayName
  isActive := row.isActive
  isSuperuser := row.isSuperuser
  emailVerifiedAt := row.emailVerifiedAt
  visitorId := row.visitorId
  createdAt := some row.createdAt
  updatedAt := some row.updatedAt
  roles := db.rolesOf row.id

def userRow? (db : Db) (id : UserId) : Option UserRow :=
  db.users.find? fun row => row.id == id

def userById (db : Db) (id : UserId) : Option User :=
  (db.userRow? id).map db.userToEntity

def userByEmail (db : Db) (email : String) : Option User :=
  (db.users.find? fun row => row.email == email).map db.userToEntity

def userByUsername (db : Db) (username : String) : Option User :=
  (db.users.find? fun row => row.username == username).map db.userToEntity

def roleById (db : Db) (id : RoleId) : Option Role :=
  (db.roles.find? fun row => row.id == id).map db.roleToEntity

def roleByName (db : Db) (name : String) : Option Role :=
  (db.roles.find? fun row => row.name == name).map db.roleToEntity

def permissionById (db : Db) (id : PermissionId) : Option Permission :=
  db.permissions.find? fun row => row.id == id

def permissionByResourceAction (db : Db) (resource action : String) :
    Option Permission :=
  db.permissions.find? fun row => row.resource == resource && row.action == action

def sessionById (db : Db) (id : SessionId) : Option AuthSession :=
  db.sessions.find? fun row => row.id == id

def sessionByJti (db : Db) (jti : String) : Option AuthSession :=
  db.sessions.find? fun row => row.jti == jti

def tokenByHash (db : Db) (tokenHash : String) (purpose : TokenPurpose) :
    Option SecurityToken :=
  db.securityTokens.find? fun row => row.tokenHash == tokenHash && row.purpose == purpose

end Db

/-! ## Writing -/

/-- What a statement changes.  An update carries the keys of the rows it
matched and goes by its condition on them. -/
inductive Write where
  | insertUser (row : UserRow)
  | updateUser (id : UserId) (profile : Profile) (stamp : Time)
  | updatePassword (id : UserId) (passwordHash : String) (stamp : Time)
  | insertUserRole (userId : UserId) (roleId : RoleId)
  | deleteUserRole (userId : UserId) (roleId : RoleId)
  | insertRole (row : RoleRow)
  | deleteRole (id : RoleId)
  | insertPermission (row : Permission)
  | insertRolePermission (roleId : RoleId) (permissionId : PermissionId)
  | deleteRolePermission (roleId : RoleId) (permissionId : PermissionId)
  | insertSession (row : AuthSession)
  | revokeSessions (ids : List SessionId) (moment : Time)
  | insertToken (row : SecurityToken)
  | useTokens (ids : List SecurityTokenId) (moment : Time)
  | insertAudit (row : AuditEvent)
  deriving DecidableEq, Repr

/-- The row after an update of the rows `ids` that are not revoked yet. -/
def AuthSession.revokeIn (row : AuthSession) (ids : List SessionId) (moment : Time) :
    AuthSession :=
  if row.id ∈ ids ∧ row.revokedAt = none then { row with revokedAt := some moment }
  else row

/-- The row after an update of the rows `ids` that are not used yet. -/
def SecurityToken.useIn (row : SecurityToken) (ids : List SecurityTokenId)
    (moment : Time) : SecurityToken :=
  if row.id ∈ ids ∧ row.usedAt = none then { row with usedAt := some moment }
  else row

/-- The database after one write. -/
def Write.apply (db : Db) : Write → Db
  | .insertUser row => { db with users := db.users ++ [row] }
  | .updateUser id profile stamp =>
      { db with users := db.users.map fun row =>
          if row.id = id then row.withProfile profile stamp else row }
  | .updatePassword id hash stamp =>
      { db with users := db.users.map fun row =>
          if row.id = id then { row with passwordHash := hash, updatedAt := stamp }
          else row }
  | .insertUserRole u r => { db with userRoles := db.userRoles ++ [(u, r)] }
  | .deleteUserRole u r => { db with userRoles := db.userRoles.filter (· ≠ (u, r)) }
  | .insertRole row => { db with roles := db.roles ++ [row] }
  -- both association tables are declared ON DELETE CASCADE
  | .deleteRole id =>
      { db with
        roles := db.roles.filter fun row => row.id ≠ id
        userRoles := db.userRoles.filter fun link => link.2 ≠ id
        rolePermissions := db.rolePermissions.filter fun link => link.1 ≠ id }
  | .insertPermission row => { db with permissions := db.permissions ++ [row] }
  | .insertRolePermission r p =>
      { db with rolePermissions := db.rolePermissions ++ [(r, p)] }
  | .deleteRolePermission r p =>
      { db with rolePermissions := db.rolePermissions.filter (· ≠ (r, p)) }
  | .insertSession row => { db with sessions := db.sessions ++ [row] }
  | .revokeSessions ids moment =>
      { db with sessions := db.sessions.map (·.revokeIn ids moment) }
  | .insertToken row => { db with securityTokens := db.securityTokens ++ [row] }
  | .useTokens ids moment =>
      { db with securityTokens := db.securityTokens.map (·.useIn ids moment) }
  | .insertAudit row => { db with auditLogs := db.auditLogs ++ [row] }

namespace Db

/-- There is an account with this id: the target of a foreign key. -/
def hasUser (db : Db) (id : UserId) : Bool := db.users.any fun row => row.id == id

def hasRole (db : Db) (id : RoleId) : Bool := db.roles.any fun row => row.id == id

def hasPermission (db : Db) (id : PermissionId) : Bool :=
  db.permissions.any fun row => row.id == id

/-- The first of the constraints that does not hold. -/
def firstBroken (checks : List (Constraint × Bool)) : Option Constraint :=
  (checks.find? fun check => !check.2).map (·.1)

/-- The constraint a write would violate. -/
def violation (db : Db) : Write → Option Constraint
  | .insertUser row => firstBroken [
      (.usersEmail, db.users.all fun other => other.email != row.email),
      (.usersUsername, db.users.all fun other => other.username != row.username)]
  | .updateUser id profile _ => firstBroken [
      (.usersEmail, db.users.all fun other =>
        other.id == id || other.email != profile.email),
      (.usersUsername, db.users.all fun other =>
        other.id == id || other.username != profile.username)]
  | .insertUserRole u r => firstBroken [
      (.userRolesKeys, !db.userRoles.contains (u, r) && db.hasUser u && db.hasRole r)]
  | .insertRole row => firstBroken [
      (.rolesName, db.roles.all fun other => other.name != row.name)]
  | .insertPermission row => firstBroken [
      (.permissionsResourceAction, db.permissions.all fun other =>
        other.resource != row.resource || other.action != row.action)]
  | .insertRolePermission r p => firstBroken [
      (.rolePermissionsKeys, !db.rolePermissions.contains (r, p) && db.hasRole r &&
        db.hasPermission p)]
  | .insertSession row => firstBroken [
      (.sessionsJti, db.sessions.all fun other => other.jti != row.jti),
      (.sessionsUserId, db.hasUser row.userId)]
  | .insertToken row => firstBroken [
      (.securityTokenHash, db.securityTokens.all fun other =>
        other.tokenHash != row.tokenHash || other.purpose != row.purpose),
      (.securityTokensUserId, db.hasUser row.userId)]
  | .insertAudit row => firstBroken [
      (.auditLogsUserId, row.userId.all db.hasUser)]
  | _ => none

end Db

/-! ## Writes that may have nothing to do

SQLAlchemy sends an `UPDATE` only for the columns that differ, and the two
association tables get a link only if it is not there yet. -/

/-- The row with the columns of `update` assigned. -/
def UserRow.setProfile (row : UserRow) (p : Profile) (stamp : Time) : UserRow :=
  if row.profile = p then row else row.withProfile p stamp

/-- The row with a new password hash assigned. -/
def UserRow.setPassword (row : UserRow) (hash : String) (stamp : Time) : UserRow :=
  if row.passwordHash = hash then row
  else { row with passwordHash := hash, updatedAt := stamp }

@[simp] theorem UserRow.setProfile_id (row : UserRow) (p : Profile) (stamp : Time) :
    (row.setProfile p stamp).id = row.id := by
  unfold setProfile
  split <;> rfl

@[simp] theorem UserRow.setPassword_id (row : UserRow) (hash : String) (stamp : Time) :
    (row.setPassword hash stamp).id = row.id := by
  unfold setPassword
  split <;> rfl

namespace Db

def setProfile (db : Db) (row : UserRow) (p : Profile) (stamp : Time) : Db :=
  if row.profile = p then db else Write.apply db (.updateUser row.id p stamp)

def setPassword (db : Db) (row : UserRow) (hash : String) (stamp : Time) : Db :=
  if row.passwordHash = hash then db
  else Write.apply db (.updatePassword row.id hash stamp)

def linkRole (db : Db) (u : UserId) (r : RoleId) : Db :=
  if (u, r) ∈ db.userRoles then db else Write.apply db (.insertUserRole u r)

def linkPermission (db : Db) (r : RoleId) (p : PermissionId) : Db :=
  if (r, p) ∈ db.rolePermissions then db else Write.apply db (.insertRolePermission r p)

end Db

/-! ## Locks -/

/-- What a transaction holds until its end: rows, and entries of the unique
indexes. -/
inductive RowKey where
  | user (id : UserId)
  | userEmail (email : String)
  | userUsername (username : String)
  | userRole (userId : UserId) (roleId : RoleId)
  | role (id : RoleId)
  | roleName (name : String)
  | permissionKey (resource action : String)
  | rolePermission (roleId : RoleId) (permissionId : PermissionId)
  | session (id : SessionId)
  | sessionJti (jti : String)
  | token (id : SecurityTokenId)
  | tokenKey (tokenHash : String) (purpose : TokenPurpose)
  deriving DecidableEq, Repr

namespace RowKey

def sessionId? : RowKey → Option SessionId
  | .session id => some id
  | _ => none

def tokenId? : RowKey → Option SecurityTokenId
  | .token id => some id
  | _ => none

@[simp] theorem filterMap_session (ids : List SessionId) :
    (ids.map RowKey.session).filterMap sessionId? = ids := by
  induction ids with
  | nil => rfl
  | cons id rest ih => simp [sessionId?, ih]

@[simp] theorem filterMap_token (ids : List SecurityTokenId) :
    (ids.map RowKey.token).filterMap tokenId? = ids := by
  induction ids with
  | nil => rfl
  | cons id rest ih => simp [tokenId?, ih]

theorem mem_sessionId? {id : SessionId} {rows : List RowKey} :
    id ∈ rows.filterMap sessionId? ↔ RowKey.session id ∈ rows := by
  rw [List.mem_filterMap]
  constructor
  · rintro ⟨key, hkey, he⟩
    cases key with
    | session other =>
      cases he
      exact hkey
    | _ => cases he
  · intro h
    exact ⟨_, h, rfl⟩

theorem mem_tokenId? {id : SecurityTokenId} {rows : List RowKey} :
    id ∈ rows.filterMap tokenId? ↔ RowKey.token id ∈ rows := by
  rw [List.mem_filterMap]
  constructor
  · rintro ⟨key, hkey, he⟩
    cases key with
    | token other =>
      cases he
      exact hkey
    | _ => cases he
  · intro h
    exact ⟨_, h, rfl⟩

end RowKey

/-! ## Transactions -/

/-- The state of one use case call: which call it is, how many fresh values it
has drawn, and its open transaction.  `now()` in a statement is the time at
which the transaction began. -/
structure Tx where
  call : Nat
  draws : Nat
  startedAt : Option Time
  pending : List Write
  locks : List RowKey
  deriving DecidableEq, Repr

namespace Tx

/-- The call `n` before its first statement. -/
def fresh (n : Nat) : Tx where
  call := n
  draws := 0
  startedAt := none
  pending := []
  locks := []

/-- What the transaction sees. -/
def view (tx : Tx) (db : Db) : Db := tx.pending.foldl Write.apply db

/-- The transaction begins with its first statement. -/
def begin_ (tx : Tx) (t : Time) : Tx :=
  { tx with startedAt := some (tx.startedAt.getD t) }

/-- `now()`, as the database has it at time `t`. -/
def stamp (tx : Tx) (t : Time) : Time := tx.startedAt.getD t

/-- Keep a write and the locks that go with it. -/
def record (tx : Tx) (write : Write) (keys : List RowKey) : Tx :=
  { tx with pending := tx.pending ++ [write], locks := tx.locks ++ keys }

/-- One more value drawn. -/
def draw (tx : Tx) : Tx := { tx with draws := tx.draws + 1 }

/-- The transaction is over: committed, or rolled back. -/
def ended (tx : Tx) : Tx :=
  { tx with startedAt := none, pending := [], locks := [] }

@[simp] theorem fresh_call (n : Nat) : (fresh n).call = n := rfl
@[simp] theorem fresh_draws (n : Nat) : (fresh n).draws = 0 := rfl
@[simp] theorem fresh_pending (n : Nat) : (fresh n).pending = [] := rfl
@[simp] theorem fresh_locks (n : Nat) : (fresh n).locks = [] := rfl

@[simp] theorem begin_call (tx : Tx) (t : Time) : (tx.begin_ t).call = tx.call := rfl
@[simp] theorem begin_draws (tx : Tx) (t : Time) : (tx.begin_ t).draws = tx.draws := rfl
@[simp] theorem begin_pending (tx : Tx) (t : Time) :
    (tx.begin_ t).pending = tx.pending := rfl
@[simp] theorem begin_locks (tx : Tx) (t : Time) : (tx.begin_ t).locks = tx.locks := rfl
@[simp] theorem begin_view (tx : Tx) (t : Time) (db : Db) :
    (tx.begin_ t).view db = tx.view db := rfl

@[simp] theorem record_call (tx : Tx) (w : Write) (keys : List RowKey) :
    (tx.record w keys).call = tx.call := rfl
@[simp] theorem record_draws (tx : Tx) (w : Write) (keys : List RowKey) :
    (tx.record w keys).draws = tx.draws := rfl
@[simp] theorem record_pending (tx : Tx) (w : Write) (keys : List RowKey) :
    (tx.record w keys).pending = tx.pending ++ [w] := rfl
@[simp] theorem record_locks (tx : Tx) (w : Write) (keys : List RowKey) :
    (tx.record w keys).locks = tx.locks ++ keys := rfl

@[simp] theorem fresh_stamp (n : Nat) (t : Time) : (fresh n).stamp t = t := rfl
@[simp] theorem begin_stamp (tx : Tx) (t : Time) : (tx.begin_ t).stamp t = tx.stamp t := rfl
@[simp] theorem record_stamp (tx : Tx) (w : Write) (keys : List RowKey) (t : Time) :
    (tx.record w keys).stamp t = tx.stamp t := rfl
@[simp] theorem draw_stamp (tx : Tx) (t : Time) : tx.draw.stamp t = tx.stamp t := rfl
@[simp] theorem ended_stamp (tx : Tx) (t : Time) : tx.ended.stamp t = t := rfl

@[simp] theorem draw_call (tx : Tx) : tx.draw.call = tx.call := rfl
@[simp] theorem draw_draws (tx : Tx) : tx.draw.draws = tx.draws + 1 := rfl
@[simp] theorem draw_pending (tx : Tx) : tx.draw.pending = tx.pending := rfl
@[simp] theorem draw_locks (tx : Tx) : tx.draw.locks = tx.locks := rfl
@[simp] theorem draw_view (tx : Tx) (db : Db) : tx.draw.view db = tx.view db := rfl

@[simp] theorem ended_call (tx : Tx) : tx.ended.call = tx.call := rfl
@[simp] theorem ended_draws (tx : Tx) : tx.ended.draws = tx.draws := rfl
@[simp] theorem ended_pending (tx : Tx) : tx.ended.pending = [] := rfl
@[simp] theorem ended_locks (tx : Tx) : tx.ended.locks = [] := rfl

/-- A transaction without writes sees the committed rows. -/
theorem view_of_pending_nil {tx : Tx} (h : tx.pending = []) (db : Db) :
    tx.view db = db := by
  rw [view, h, List.foldl_nil]

@[simp] theorem fresh_view (n : Nat) (db : Db) : (fresh n).view db = db := rfl

@[simp] theorem ended_view (tx : Tx) (db : Db) : tx.ended.view db = db := rfl

/-- A transaction sees its own writes. -/
@[simp] theorem view_record (tx : Tx) (w : Write) (keys : List RowKey) (db : Db) :
    (tx.record w keys).view db = w.apply (tx.view db) := by
  simp [view, record]

end Tx

end VideoSite.Users
