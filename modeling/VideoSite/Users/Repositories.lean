import VideoSite.Users.Database
import VideoSite.Users.Environment
import Mathlib.Data.List.Sort

/-!
# The repositories

`adapter/database/repositories`, one statement for each method.  A statement
runs inside the transaction of its unit of work: it reads what the transaction
sees, and what it writes is kept there until the commit.

`Statement.targets` are the rows and index entries that a statement is going to
change, on what the transaction sees now, and `Statement.exec` is the method
itself, given the targets it got hold of.
-/

namespace VideoSite.Users

/-- A call of a repository method.  It is one step of its transaction: where SQLAlchemy
loads the roles and permissions of an account with further `SELECT`s, these are taken to
see what the first one sees. -/
inductive Statement where
  | usersAdd (user : User)
  | usersGetById (userId : UserId)
  | usersGetByEmail (email : String)
  | usersGetByUsername (username : String)
  | usersListAll
  | usersUpdate (user : User)
  | usersUpdatePassword (user : User)
  | usersAssignRole (userId : UserId) (roleId : RoleId)
  | usersRevokeRole (userId : UserId) (roleId : RoleId)
  | rolesAdd (name : String) (description : Option String)
  | rolesGetById (roleId : RoleId)
  | rolesGetByName (name : String)
  | rolesListAll
  | rolesDelete (roleId : RoleId)
  | rolesGrantPermission (roleId : RoleId) (permissionId : PermissionId)
  | rolesRevokePermission (roleId : RoleId) (permissionId : PermissionId)
  | permissionsAdd (resource action : String) (description : Option String)
  | permissionsGetById (permissionId : PermissionId)
  | permissionsGetByResourceAction (resource action : String)
  | permissionsListAll
  | sessionsAdd (session : AuthSession)
  | sessionsGetById (sessionId : SessionId)
  | sessionsGetByJti (jti : String)
  | sessionsListActiveForUser (userId : UserId)
  | sessionsRevoke (jti : String) (moment : Time)
  | sessionsRevokeAllForUser (userId : UserId) (moment : Time) (exceptJti : Option String)
  | tokensAdd (token : SecurityToken)
  | tokensGetByHash (tokenHash : String) (purpose : TokenPurpose)
  | tokensMarkUsed (token : SecurityToken)
  | tokensInvalidateForUser (userId : UserId) (purpose : TokenPurpose)
  | auditAdd (event : AuditEvent)
  deriving DecidableEq, Repr

namespace Statement

/-- The answer to each statement.  A statement that can fail answers with the
error it raises. -/
@[reducible] def Res : Statement → Type
  | usersAdd _ => Except Failure User
  | usersGetById _ => Option User
  | usersGetByEmail _ => Option User
  | usersGetByUsername _ => Option User
  | usersListAll => List User
  | usersUpdate _ => Except Failure User
  | usersUpdatePassword _ => Except Failure Unit
  | usersAssignRole _ _ => Except Failure Unit
  | usersRevokeRole _ _ => Unit
  | rolesAdd _ _ => Except Failure Role
  | rolesGetById _ => Option Role
  | rolesGetByName _ => Option Role
  | rolesListAll => List Role
  | rolesDelete _ => Unit
  | rolesGrantPermission _ _ => Except Failure Unit
  | rolesRevokePermission _ _ => Unit
  | permissionsAdd _ _ _ => Except Failure Permission
  | permissionsGetById _ => Option Permission
  | permissionsGetByResourceAction _ _ => Option Permission
  | permissionsListAll => List Permission
  | sessionsAdd _ => Except Failure AuthSession
  | sessionsGetById _ => Option AuthSession
  | sessionsGetByJti _ => Option AuthSession
  | sessionsListActiveForUser _ => List AuthSession
  | sessionsRevoke _ _ => Unit
  | sessionsRevokeAllForUser _ _ _ => Nat
  | tokensAdd _ => Except Failure SecurityToken
  | tokensGetByHash _ _ => Option SecurityToken
  | tokensMarkUsed _ => Unit
  | tokensInvalidateForUser _ _ => Unit
  | auditAdd _ => Except Failure AuditEvent

/-! ## The conditions of the updates -/

/-- `WHERE jti = :jti AND revoked_at IS NULL`. -/
def revokeWhere (jti : String) (row : AuthSession) : Bool :=
  row.jti == jti && row.revokedAt.isNone

/-- `WHERE user_id = :user_id AND revoked_at IS NULL [AND jti != :except_jti]`. -/
def revokeAllWhere (userId : UserId) (exceptJti : Option String) (row : AuthSession) :
    Bool :=
  row.userId == userId && row.revokedAt.isNone && exceptJti.all fun jti => row.jti != jti

/-- `WHERE id = :id AND used_at IS NULL`. -/
def markUsedWhere (id : SecurityTokenId) (row : SecurityToken) : Bool :=
  row.id == id && row.usedAt.isNone

/-- `WHERE user_id = :user_id AND purpose = :purpose AND used_at IS NULL`. -/
def invalidateWhere (userId : UserId) (purpose : TokenPurpose) (row : SecurityToken) :
    Bool :=
  row.userId == userId && row.purpose == purpose && row.usedAt.isNone

/-- The keys of the sessions that meet a condition. -/
def sessionKeys (db : Db) (cond : AuthSession → Bool) : List RowKey :=
  ((db.sessions.filter cond).map (·.id)).map RowKey.session

/-- The keys of the one-time tokens that meet a condition. -/
def tokenKeys (db : Db) (cond : SecurityToken → Bool) : List RowKey :=
  ((db.securityTokens.filter cond).map (·.id)).map RowKey.token

/-- What the statement is going to change, seen from `db`. -/
def targets (db : Db) : Statement → List RowKey
  | usersAdd user => [.userEmail user.email, .userUsername user.username]
  -- the flush of an object whose attributes did not change sends nothing
  | usersUpdate user =>
      match db.userRow? user.id with
      | some row =>
          if row.profile = user.profile then []
          else [.user user.id, .userEmail user.email, .userUsername user.username]
      | none => []
  | usersUpdatePassword user =>
      match db.userRow? user.id with
      | some row => if row.passwordHash = user.passwordHash then [] else [.user user.id]
      | none => []
  | usersAssignRole u r => if (u, r) ∈ db.userRoles then [] else [.userRole u r]
  | usersRevokeRole u r => if (u, r) ∈ db.userRoles then [.userRole u r] else []
  | rolesAdd name _ => [.roleName name]
  | rolesDelete r =>
      ((db.roles.filter (·.id = r)).map fun row => RowKey.role row.id) ++
      ((db.userRoles.filter (·.2 = r)).map fun link => RowKey.userRole link.1 link.2) ++
      ((db.rolePermissions.filter (·.1 = r)).map fun link =>
        RowKey.rolePermission link.1 link.2)
  | rolesGrantPermission r p =>
      if (r, p) ∈ db.rolePermissions then [] else [.rolePermission r p]
  | rolesRevokePermission r p =>
      if (r, p) ∈ db.rolePermissions then [.rolePermission r p] else []
  | permissionsAdd resource action _ => [.permissionKey resource action]
  | sessionsAdd session => [.sessionJti session.jti]
  | sessionsRevoke jti _ => sessionKeys db (revokeWhere jti)
  | sessionsRevokeAllForUser u _ exceptJti => sessionKeys db (revokeAllWhere u exceptJti)
  | tokensAdd token => [.tokenKey token.tokenHash token.purpose]
  | tokensMarkUsed token => tokenKeys db (markUsedWhere token.id)
  | tokensInvalidateForUser u purpose => tokenKeys db (invalidateWhere u purpose)
  | _ => []

end Statement

/-- Keep a write, unless it violates a constraint. -/
def Tx.write (tx : Tx) (db : Db) (w : Write) (keys : List RowKey) :
    Tx × Except Failure Unit :=
  match db.violation w with
  | some constraint => (tx, .error (.integrity constraint))
  | none => (tx.record w keys, .ok ())

/-- Insert a row; the answer is the row. -/
def Tx.insert {α : Type} (tx : Tx) (db : Db) (w : Write) (keys : List RowKey)
    (entity : α) : Tx × Except Failure α :=
  match tx.write db w keys with
  | (tx', .ok ()) => (tx', .ok entity)
  | (tx', .error e) => (tx', .error e)

namespace Statement

/-- `SqlAlchemyUserRepository.add`. -/
def usersAddExec (supply : Supply) (t : Time) (rows : List RowKey) (db : Db) (tx : Tx)
    (user : User) : Tx × Except Failure User :=
  let row : UserRow :=
    { id := supply.rowId tx.call tx.draws
      email := user.email
      username := user.username
      passwordHash := user.passwordHash
      displayName := user.displayName
      isActive := user.isActive
      isSuperuser := user.isSuperuser
      emailVerifiedAt := user.emailVerifiedAt
      visitorId := user.visitorId
      createdAt := tx.stamp t
      updatedAt := tx.stamp t }
  tx.draw.insert db (.insertUser row) rows (db.userToEntity row)

/-- `f"User {user.id} disappeared during update"`. -/
def disappeared (userId : UserId) : Failure :=
  .valueError s!"User {userId} disappeared during update"

/-- `SqlAlchemyUserRepository.update`: the row is fetched again and gets the
columns of the entity. -/
def usersUpdateExec (t : Time) (rows : List RowKey) (db : Db) (tx : Tx) (user : User) :
    Tx × Except Failure User :=
  match db.userRow? user.id with
  | none => (tx, .error (disappeared user.id))
  | some row =>
      if row.profile = user.profile then (tx, .ok (db.userToEntity row))
      else
        tx.insert db (.updateUser user.id user.profile (tx.stamp t)) rows
          (db.userToEntity (row.withProfile user.profile (tx.stamp t)))

/-- `SqlAlchemyUserRepository.update_password`. -/
def usersUpdatePasswordExec (t : Time) (rows : List RowKey) (db : Db) (tx : Tx)
    (user : User) : Tx × Except Failure Unit :=
  match db.userRow? user.id with
  | none => (tx, .error (disappeared user.id))
  | some row =>
      if row.passwordHash = user.passwordHash then (tx, .ok ())
      else tx.write db (.updatePassword user.id user.passwordHash (tx.stamp t)) rows

/-- Execute a statement at time `t`.  `db` is what the transaction sees and
`rows` are the targets it got hold of. -/
def exec (supply : Supply) (t : Time) (rows : List RowKey) (db : Db) (tx : Tx) :
    (s : Statement) → Tx × s.Res
  | usersAdd user => usersAddExec supply t rows db tx user
  | usersGetById userId => (tx, db.userById userId)
  | usersGetByEmail email => (tx, db.userByEmail email)
  | usersGetByUsername username => (tx, db.userByUsername username)
  | usersListAll =>
      (tx, (db.users.insertionSort fun a b => a.id ≤ b.id).map db.userToEntity)
  | usersUpdate user => usersUpdateExec t rows db tx user
  | usersUpdatePassword user => usersUpdatePasswordExec t rows db tx user
  | usersAssignRole u r =>
      if (u, r) ∈ db.userRoles then (tx, .ok ())
      else tx.write db (.insertUserRole u r) rows
  | usersRevokeRole u r => (tx.record (.deleteUserRole u r) rows, ())
  | rolesAdd name description =>
      let row : RoleRow := ⟨supply.rowId tx.call tx.draws, name, description⟩
      tx.draw.insert db (.insertRole row) rows (db.roleToEntity row)
  | rolesGetById roleId => (tx, db.roleById roleId)
  | rolesGetByName name => (tx, db.roleByName name)
  | rolesListAll =>
      (tx, (db.roles.insertionSort fun a b => a.id ≤ b.id).map db.roleToEntity)
  | rolesDelete roleId => (tx.record (.deleteRole roleId) rows, ())
  | rolesGrantPermission r p =>
      if (r, p) ∈ db.rolePermissions then (tx, .ok ())
      else tx.write db (.insertRolePermission r p) rows
  | rolesRevokePermission r p => (tx.record (.deleteRolePermission r p) rows, ())
  | permissionsAdd resource action description =>
      let row : Permission :=
        ⟨supply.rowId tx.call tx.draws, resource, action, description⟩
      tx.draw.insert db (.insertPermission row) rows row
  | permissionsGetById permissionId => (tx, db.permissionById permissionId)
  | permissionsGetByResourceAction resource action =>
      (tx, db.permissionByResourceAction resource action)
  | permissionsListAll => (tx, db.permissions.insertionSort fun a b => a.id ≤ b.id)
  | sessionsAdd session =>
      let row := session.withId (supply.rowId tx.call tx.draws)
      tx.draw.insert db (.insertSession row) rows row
  | sessionsGetById sessionId => (tx, db.sessionById sessionId)
  | sessionsGetByJti jti => (tx, db.sessionByJti jti)
  | sessionsListActiveForUser u =>
      let found := db.sessions.filter (revokeAllWhere u none)
      (tx, (found.insertionSort fun a b => b.id ≤ a.id).filter (·.isValid t))
  | sessionsRevoke _ moment =>
      (tx.record (.revokeSessions (rows.filterMap RowKey.sessionId?) moment) rows, ())
  | sessionsRevokeAllForUser _ moment _ =>
      (tx.record (.revokeSessions (rows.filterMap RowKey.sessionId?) moment) rows,
        (rows.filterMap RowKey.sessionId?).length)
  | tokensAdd token =>
      let row := token.withId (supply.rowId tx.call tx.draws)
      tx.draw.insert db (.insertToken row) rows row
  | tokensGetByHash hash purpose => (tx, db.tokenByHash hash purpose)
  | tokensMarkUsed _ =>
      (tx.record (.useTokens (rows.filterMap RowKey.tokenId?) t) rows, ())
  | tokensInvalidateForUser _ _ =>
      (tx.record (.useTokens (rows.filterMap RowKey.tokenId?) t) rows, ())
  | auditAdd event =>
      let row := event.withId (supply.rowId tx.call tx.draws)
      tx.draw.insert db (.insertAudit row) rows row

end Statement

end VideoSite.Users
