import VideoSite.Users.World

/-!
# The vocabulary of the use cases

The calls a use case makes, under the names the source has for them, the unit
of work as a context manager, and `audit.record`.
-/

namespace VideoSite.Users

open Effects

/-- One operation, answered by its result. -/
def ask (op : Op) : UseCase op.Res := Program.call op Program.pure

/-- Raise an application error. -/
def raise {α : Type} (error : ApplicationError) : UseCase α := .raise (.application error)

/-- `if value is None: raise error`. -/
def orRaise {α : Type} (value : Option α) (error : ApplicationError) : UseCase α :=
  match value with
  | some a => .pure a
  | none => raise error

/-- `if not cond: raise error`. -/
def require (cond : Bool) (error : ApplicationError) : UseCase Unit :=
  if cond then .pure () else raise error

/-- `datetime.now(UTC)`. -/
def now : UseCase Time := ask .now

/-- `uuid.uuid4().hex`. -/
def uuid4 : UseCase String := ask .uuid4

/-- `async with self._uow as uow: body`.  What was not committed is rolled back
on the way out. -/
def withUow {α : Type} (body : UseCase α) : UseCase α := body.closing .close

/-- `uow.commit()`. -/
def commit : UseCase Unit := ask .commit

/-- A statement that cannot fail. -/
def query (s : Statement) : UseCase s.Res := ask (.sql s)

namespace hasher

def hash (plain : String) : UseCase String := ask (.hashPassword plain)

def verify (plain : String) (user : User) : UseCase Bool :=
  ask (.verifyPassword plain user)

end hasher

namespace tokenService

def issueAccess (userId : UserId) (jti : String) : UseCase IssuedToken :=
  ask (.issue userId jti .access)

def issueRefresh (userId : UserId) (jti : String) : UseCase IssuedToken :=
  ask (.issue userId jti .refresh)

def decode (token : Token) : UseCase TokenPayload :=
  (ask (.decode token)).bind .ofExcept

end tokenService

/-- `one_time_tokens.generate()`. -/
def generateSecret : UseCase GeneratedSecret := ask .generateSecret

/-- `email_sender.send(message)`. -/
def sendEmail (message : EmailMessageDTO) : UseCase Unit :=
  ask (.mailSend message)

namespace limiter

def hit (key : String) (policy : RateLimitPolicy) : UseCase RateLimitDecision :=
  ask (.limiterHit key policy)

def peek (key : String) (policy : RateLimitPolicy) : UseCase RateLimitDecision :=
  ask (.limiterPeek key policy)

def reset (key : String) : UseCase Unit := ask (.limiterReset key)

end limiter

namespace cache

def get (key : String) : UseCase (Option Json) := ask (.cacheGet key)

def set (key : String) (value : Json) (ttl : Int) : UseCase Unit :=
  ask (.cacheSet key value ttl)

def delete (key : String) : UseCase Unit := ask (.cacheDelete key)

end cache

/-! ## The repositories of a unit of work -/

namespace users

def add (user : User) : UseCase User := (query (.usersAdd user)).bind .ofExcept

def getById (userId : UserId) : UseCase (Option User) := query (.usersGetById userId)

def getByEmail (email : String) : UseCase (Option User) := query (.usersGetByEmail email)

def getByUsername (username : String) : UseCase (Option User) :=
  query (.usersGetByUsername username)

def listAll : UseCase (List User) := query .usersListAll

def update (user : User) : UseCase User := (query (.usersUpdate user)).bind .ofExcept

def updatePassword (user : User) : UseCase Unit :=
  (query (.usersUpdatePassword user)).bind .ofExcept

def assignRole (userId : UserId) (roleId : RoleId) : UseCase Unit :=
  (query (.usersAssignRole userId roleId)).bind .ofExcept

def revokeRole (userId : UserId) (roleId : RoleId) : UseCase Unit :=
  query (.usersRevokeRole userId roleId)

end users

namespace roles

def add (name : String) (description : Option String) : UseCase Role :=
  (query (.rolesAdd name description)).bind .ofExcept

def getById (roleId : RoleId) : UseCase (Option Role) := query (.rolesGetById roleId)

def getByName (name : String) : UseCase (Option Role) := query (.rolesGetByName name)

def listAll : UseCase (List Role) := query .rolesListAll

def delete (roleId : RoleId) : UseCase Unit := query (.rolesDelete roleId)

def grantPermission (roleId : RoleId) (permissionId : PermissionId) : UseCase Unit :=
  (query (.rolesGrantPermission roleId permissionId)).bind .ofExcept

def revokePermission (roleId : RoleId) (permissionId : PermissionId) : UseCase Unit :=
  query (.rolesRevokePermission roleId permissionId)

end roles

namespace permissions

def add (resource action : String) (description : Option String) : UseCase Permission :=
  (query (.permissionsAdd resource action description)).bind .ofExcept

def getById (permissionId : PermissionId) : UseCase (Option Permission) :=
  query (.permissionsGetById permissionId)

def getByResourceAction (resource action : String) : UseCase (Option Permission) :=
  query (.permissionsGetByResourceAction resource action)

def listAll : UseCase (List Permission) := query .permissionsListAll

end permissions

namespace sessions

def add (session : AuthSession) : UseCase AuthSession :=
  (query (.sessionsAdd session)).bind .ofExcept

def getById (sessionId : SessionId) : UseCase (Option AuthSession) :=
  query (.sessionsGetById sessionId)

def getByJti (jti : String) : UseCase (Option AuthSession) := query (.sessionsGetByJti jti)

def listActiveForUser (userId : UserId) : UseCase (List AuthSession) :=
  query (.sessionsListActiveForUser userId)

def revoke (jti : String) (moment : Time) : UseCase Unit :=
  query (.sessionsRevoke jti moment)

def revokeAllForUser (userId : UserId) (moment : Time) (exceptJti : Option String) :
    UseCase Nat :=
  query (.sessionsRevokeAllForUser userId moment exceptJti)

end sessions

namespace securityTokens

def add (token : SecurityToken) : UseCase SecurityToken :=
  (query (.tokensAdd token)).bind .ofExcept

def getByHash (tokenHash : String) (purpose : TokenPurpose) :
    UseCase (Option SecurityToken) :=
  query (.tokensGetByHash tokenHash purpose)

def markUsed (token : SecurityToken) : UseCase Unit := query (.tokensMarkUsed token)

def invalidateForUser (userId : UserId) (purpose : TokenPurpose) : UseCase Unit :=
  query (.tokensInvalidateForUser userId purpose)

end securityTokens

namespace auditLog

def add (event : AuditEvent) : UseCase AuditEvent :=
  (query (.auditAdd event)).bind .ofExcept

end auditLog

/-- `audit.record`: append one event to the audit log. -/
def audit.record (action : AuditAction) (userId : Option UserId)
    (device : Option DeviceInfoDTO) (metadata : List (String × MetaValue)) :
    UseCase Unit := do
  let device := device.getD {}
  let createdAt ← now
  let _ ← auditLog.add
    { id := 0
      action := action
      createdAt := createdAt
      userId := userId
      ipAddress := device.ipAddress
      userAgent := device.userAgent
      metadata := metadata }
  return ()

end VideoSite.Users
