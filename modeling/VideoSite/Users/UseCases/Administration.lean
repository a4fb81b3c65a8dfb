import VideoSite.Users.UseCases.Auth

/-!
# The use cases of `application/moderation`, `application/users` and
`application/access_control`

Bans, an account's own sessions, and the roles and permissions.
-/

namespace VideoSite.Users

open Effects

/-! ## Moderation -/

/-- Deactivate the account, and say whether there was anything to change: an
inactive account gets no second audit row. -/
def BanUserUseCase.deactivate (actor : User) (targetId : UserId) (target : User)
    (reason : Option String) (device : Option DeviceInfoDTO) : UseCase (User × Bool) :=
  if target.isActive then do
    let banned ← users.update (target.withActive false)
    let moment ← now
    let revoked ← sessions.revokeAllForUser targetId moment none
    audit.record .userBanned (some targetId) device
      [("actor_id", .int actor.id), ("reason", .ofOption reason),
        ("sessions_revoked", .int revoked)]
    commit
    return (banned, true)
  else .pure (target, false)

/-- Drop the cache entry of an account that was changed. -/
def forgetIfChanged (changed : Bool) (userId : UserId) : UseCase Unit :=
  if changed then cache.delete (userCacheKey userId) else .pure ()

def banUser (actor : User) (targetId : UserId) (reason : Option String)
    (device : Option DeviceInfoDTO) : UseCase User := do
  require (actor.id != targetId) (.validation "You cannot ban your own account")
  let (user, changed) ← withUow do
    let found ← users.getById targetId
    let target ← orRaise found .userNotFound
    require (!target.isSuperuser) (.authorization "Superusers cannot be banned")
    BanUserUseCase.deactivate actor targetId target reason device
  forgetIfChanged changed targetId
  return user

def UnbanUserUseCase.reactivate (actor : User) (targetId : UserId) (target : User)
    (device : Option DeviceInfoDTO) : UseCase (User × Bool) :=
  if target.isActive then .pure (target, false)
  else do
    let restored ← users.update (target.withActive true)
    audit.record .userUnbanned (some targetId) device [("actor_id", .int actor.id)]
    commit
    return (restored, true)

def unbanUser (actor : User) (targetId : UserId) (device : Option DeviceInfoDTO) :
    UseCase User := do
  let (user, changed) ← withUow do
    let found ← users.getById targetId
    let target ← orRaise found .userNotFound
    UnbanUserUseCase.reactivate actor targetId target device
  forgetIfChanged changed targetId
  return user

/-! ## Users -/

def getUserProfile (userId : UserId) : UseCase User :=
  withUow do
    let found ← users.getById userId
    orRaise (found.filter (·.isActive)) .userNotFound

def listUserSessions (userId : UserId) : UseCase (List AuthSession) :=
  withUow do
    sessions.listActiveForUser userId

def revokeAllSessions (userId : UserId) (exceptJti : Option String)
    (device : Option DeviceInfoDTO) : UseCase Nat :=
  withUow do
    let moment ← now
    let revoked ← sessions.revokeAllForUser userId moment exceptJti
    audit.record .sessionRevoked (some userId) device
      [("scope", .str (if exceptJti.isNone then "all" else "others")),
        ("sessions_revoked", .int revoked)]
    commit
    return revoked

def revokeUserSession (userId : UserId) (sessionId : SessionId)
    (device : Option DeviceInfoDTO) : UseCase Unit :=
  withUow do
    let found ← sessions.getById sessionId
    let session ← orRaise (found.filter (·.userId == userId)) .sessionNotFound
    let moment ← now
    sessions.revoke session.jti moment
    audit.record .sessionRevoked (some userId) device
      [("scope", .str "one"), ("session_id", .int sessionId)]
    commit

/-! ## Access control -/

/-- `assert value is not None`. -/
def assertSome {α : Type} (value : Option α) : UseCase α :=
  match value with
  | some a => .pure a
  | none => .raise .assertion

def listRoles : UseCase (List Role) :=
  withUow do
    roles.listAll

def createRole (name : String) (description : Option String) : UseCase Role :=
  withUow do
    let role ← roles.add name description
    commit
    return role

def deleteRole (roleId : RoleId) : UseCase Unit :=
  withUow do
    let found ← roles.getById roleId
    let _ ← orRaise found .roleNotFound
    roles.delete roleId
    commit

def grantPermissionToRole (roleId : RoleId) (permissionId : PermissionId) :
    UseCase Role :=
  withUow do
    let found ← roles.getById roleId
    let _ ← orRaise found .roleNotFound
    let permission ← permissions.getById permissionId
    let _ ← orRaise permission .permissionNotFound
    roles.grantPermission roleId permissionId
    commit
    let role ← roles.getById roleId
    assertSome role

def revokePermissionFromRole (roleId : RoleId) (permissionId : PermissionId) :
    UseCase Role :=
  withUow do
    let found ← roles.getById roleId
    let _ ← orRaise found .roleNotFound
    roles.revokePermission roleId permissionId
    commit
    let role ← roles.getById roleId
    assertSome role

def listPermissions : UseCase (List Permission) :=
  withUow do
    permissions.listAll

def createPermission (resource action : String) (description : Option String) :
    UseCase Permission :=
  withUow do
    let existing ← permissions.getByResourceAction resource action
    require existing.isNone
      (.conflict s!"Permission {resource}:{action} already exists")
    let permission ← permissions.add resource action description
    commit
    return permission

def listUsers : UseCase (List User) :=
  withUow do
    users.listAll

def assignRoleToUser (userId : UserId) (roleId : RoleId) : UseCase User := do
  let user ← withUow do
    let found ← users.getById userId
    let _ ← orRaise found .userNotFound
    let role ← roles.getById roleId
    let _ ← orRaise role .roleNotFound
    users.assignRole userId roleId
    commit
    let user ← users.getById userId
    assertSome user
  cache.delete (userCacheKey userId)
  return user

def revokeRoleFromUser (userId : UserId) (roleId : RoleId) : UseCase User := do
  let user ← withUow do
    let found ← users.getById userId
    let _ ← orRaise found .userNotFound
    users.revokeRole userId roleId
    commit
    let user ← users.getById userId
    assertSome user
  cache.delete (userCacheKey userId)
  return user

end VideoSite.Users
