import VideoSite.Users.Sequential
import Mathlib.Logic.Relation

/-!
# What a call does

`Effect` says, for every use case that runs alone, which outcomes it has and
what it leaves of the world in each of them: the guards that held, the rows it
wrote, the counters it charged, the cache entry it dropped and the mail it
sent.  It is the inversion lemma of the service: results about sequential runs
are case analyses on it and do not look into a use case again.

* `runCall_effect` is that theorem.
-/

namespace VideoSite.Users

open Effects Program

variable (env : Env)

/-- The counters after an attempt was charged to `key`. -/
def Limits.charge (limits : Limits) (t : Time) (policy : RateLimitPolicy)
    (key : String) : Limits :=
  if policy.isEnforced then (Limits.hit env.backend limits t key policy).1 else limits

/-- The counters after a failed login. -/
def LoginUseCase.charged (limits : Limits) (t : Time) (email : String)
    (device : DeviceInfoDTO) : Limits :=
  match device.ipAddress with
  | some ip =>
      (limits.charge env t env.config.loginIpPolicy (LoginUseCase.ipKey ip)).charge env t
        env.config.loginAccountPolicy (LoginUseCase.accountKey email)
  | none =>
      limits.charge env t env.config.loginAccountPolicy (LoginUseCase.accountKey email)

/-- The account lockout lets the attempt pass. -/
def LoginUseCase.Open (limits : Limits) (t : Time) (email : String) : Prop :=
  env.config.loginAccountPolicy.isEnforced = true →
    (Limits.peek env.backend limits t (LoginUseCase.accountKey email)
      env.config.loginAccountPolicy).allowed = true

/-- The password check of a login, where there is one. -/
def LoginUseCase.tried (w : World) (t : Time) (owner : Option User) (password : String) :
    World :=
  match owner with
  | some user =>
      if user.isActive then
        w.checked ⟨t, user.id, password, env.hasher.verify password user.passwordHash⟩
      else w
  | none => w

/-- The credentials are those of an active account. -/
def LoginUseCase.Accepts (owner : Option User) (password : String) : Prop :=
  ∃ user, owner = some user ∧ user.isActive = true ∧
    env.hasher.verify password user.passwordHash = true

/-- Counters other than those of the accounts may have been charged. -/
def Charges (t : Time) : Limits → Limits → Prop :=
  Relation.ReflTransGen fun limits limits' => ∃ key policy,
    (∀ email, key ≠ LoginUseCase.accountKey email) ∧
      limits' = (Limits.hit env.backend limits t key policy).1

/-- The calls that can return without having changed a thing. -/
def Call.Observes : Call → Prop
  | .getUserProfile _ => True
  | .listUserSessions _ => True
  | .listRoles => True
  | .listPermissions => True
  | .listUsers => True
  | .forgotPassword _ _ => True
  | .unbanUser _ _ _ => True
  | _ => False

/-! ## The rows a call writes -/

namespace Db

/-- The default role is granted where there is one. -/
def grantDefault (db : Db) (userId : UserId) (role : Option Role) : Db :=
  match role with
  | some role => db.linkRole userId role.id
  | none => db

end Db

/-- The account that `Register` adds. -/
def RegisterUserUseCase.account (n k : Nat) (data : RegisterUserDTO) : User where
  id := 0
  email := env.normalize data.email
  username := env.strip data.username
  passwordHash := env.hasher.hash (env.supply.salt n k) data.password
  displayName := data.displayName
  isActive := true
  isSuperuser := false
  emailVerifiedAt := none
  visitorId := data.visitorId
  createdAt := none
  updatedAt := none
  roles := []

/-- The row of a verification link: the secret is the `k`-th value drawn by
call `n`, the id the one after it. -/
def EmailVerificationIssuer.row (t : Time) (n k : Nat) (userId : UserId) :
    SecurityToken where
  id := env.supply.rowId n (k + 1)
  userId := userId
  purpose := .emailVerification
  tokenHash := env.tokenHash (env.supply.secret n k)
  createdAt := t
  expiresAt := t + 3600 * env.config.emailVerificationTtlHours
  usedAt := none

/-- The database after `issue`: earlier links are spent, the fresh one is there. -/
def EmailVerificationIssuer.issued (t : Time) (n k : Nat) (db : Db) (userId : UserId) :
    Db :=
  (db.useWhere (Statement.invalidateWhere userId .emailVerification) t).addToken
    (EmailVerificationIssuer.row env t n k userId)

/-- The row of a reset link. -/
def ForgotPasswordUseCase.row (t : Time) (n : Nat) (userId : UserId) : SecurityToken where
  id := env.supply.rowId n 1
  userId := userId
  purpose := .passwordReset
  tokenHash := env.tokenHash (env.supply.secret n 0)
  createdAt := t
  expiresAt := t + 60 * env.config.passwordResetTtlMinutes
  usedAt := none

/-- The session that a login opens. -/
def LoginUseCase.session (t : Time) (n : Nat) (user : User) (device : DeviceInfoDTO) :
    AuthSession where
  id := env.supply.rowId n 1
  userId := user.id
  jti := env.supply.jti n 0
  createdAt := t
  expiresAt := JwtTokenService.expiresAt env.config t .refresh
  revokedAt := none
  visitorId := device.visitorId
  userAgent := device.userAgent
  ipAddress := device.ipAddress
  device := device.device
  lastSeenAt := some t

/-- The session that takes the place of another. -/
def RefreshTokenUseCase.session (t : Time) (n : Nat) (old : AuthSession) (user : User)
    (device : DeviceInfoDTO) : AuthSession :=
  (RefreshTokenUseCase.successor old user (env.supply.jti n 0)
    (JwtTokenService.issue env.config t user.id (env.supply.jti n 0) .refresh)
    device t).withId (env.supply.rowId n 1)

/-- The world after a pair of tokens was signed. -/
def World.signPair (w : World) (t : Time) (userId : UserId) (jti : String) : World :=
  (w.sign (JwtTokenService.claims env.config t userId jti .access)).sign
    (JwtTokenService.claims env.config t userId jti .refresh)

/-- The pair itself, with its account. -/
def issuedPair (t : Time) (user : User) (jti : String) : AuthResultDTO where
  tokens := tokenPair (JwtTokenService.issue env.config t user.id jti .access)
    (JwtTokenService.issue env.config t user.id jti .refresh)
  user := user

/-- `_load_user`: the account comes from the cache, or from the database and is
put into the cache. -/
inductive AuthenticateUseCase.Loads (t : Time) (w : World) (userId : UserId) :
    User → Cache → Prop
  | hit {data user} (hget : Cache.get env w.cache t (userCacheKey userId) = some data)
      (hload : UserCacheCodec.loads env.isoFormat data = .ok user) :
      Loads t w userId user w.cache
  | miss {user} (hget : Cache.get env w.cache t (userCacheKey userId) = none)
      (huser : w.db.userById userId = some user) :
      Loads t w userId user (Cache.set env w.cache t (userCacheKey userId)
        (UserCacheCodec.dumps env.isoFormat user) env.config.authCacheTtlSeconds)

/-- The account after the edits of `UpdateUser`; a new address or name is free. -/
structure UpdateUserUseCase.Edits (db : Db) (data : UpdateUserDTO) (user edited : User) :
    Prop where
  email : edited.email = ((data.email.map env.normalize).getD user.email)
  emailFree : edited.email ≠ user.email → db.userByEmail edited.email = none
  verified : edited.emailVerifiedAt =
    if edited.email = user.email then user.emailVerifiedAt else none
  username : edited.username = ((data.username.map env.strip).getD user.username)
  usernameFree : edited.username ≠ user.username → db.userByUsername edited.username = none
  displayName : edited.displayName = data.displayName.orElse fun _ => user.displayName
  rest : edited = { user with
    email := edited.email
    emailVerifiedAt := edited.emailVerifiedAt
    username := edited.username
    displayName := edited.displayName }

/-- The database after a verification stamped the account, if it had to. -/
def VerifyEmailUseCase.stamped (t : Time) (db : Db) (row : UserRow) (user : User) : Db :=
  if user.isEmailVerified then db else db.setProfile row (user.withVerifiedAt t).profile t

/-- The world after `UpdateUser` committed `db`: an unverified address gets a
fresh link. -/
def UpdateUserUseCase.finished (t : Time) (w : World) (db : Db) (updated : User) :
    World :=
  if updated.isEmailVerified then w.withDb db
  else
    (w.withDb (EmailVerificationIssuer.issued env t w.calls 0 db updated.id)).mailed
      (EmailVerificationIssuer.message env updated.email (env.supply.secret w.calls 0))

/-- The world without the cache entry of an account. -/
@[simps!] def World.forget (w : World) (userId : UserId) : World :=
  w.withCache (Cache.delete env w.cache (userCacheKey userId))

/-! ## The effect of a call -/

/-- What a call that runs alone at time `t` returns, and the world it leaves. -/
inductive Effect (t : Time) (w : World) : Call → Except Failure Answer → World → Prop
  | failed {c e limits} (hl : Charges env t w.limits limits) :
      Effect t w c (.error e) (w.withLimits limits)
  | observed {c a limits} (hc : c.Observes) (hl : Charges env t w.limits limits) :
      Effect t w c (.ok a) (w.withLimits limits)
  | registered {data device limits row a audit}
      (hl : Charges env t w.limits limits)
      (hemail : w.db.userByEmail (env.normalize data.email) = none)
      (husername : w.db.userByUsername (env.strip data.username) = none)
      (hrow : row = addedRow env t w.calls 1
        (RegisterUserUseCase.account env w.calls 0 data))
      (haudit : audit.action = .register ∧ audit.userId = some row.id)
      (ha : ∃ user, a = .user user ∧ user.id = row.id) :
      Effect t w (.register data device) (.ok a)
        (((w.withLimits limits).withDb
          ((EmailVerificationIssuer.issued env t w.calls 2
            ((w.db.addUser row).grantDefault row.id
              ((w.db.addUser row).roleByName env.config.defaultRoleName)) row.id).log
            audit)).mailed
          (EmailVerificationIssuer.message env (env.normalize data.email)
            (env.supply.secret w.calls 2)))
  | loginFailed {data device owner db e}
      (hopen : LoginUseCase.Open env w.limits t (env.normalize data.email))
      (howner : w.db.userByEmail (env.normalize data.email) = owner)
      (hbad : ¬ LoginUseCase.Accepts env owner data.password)
      (hdb : (∃ audit, audit.action = .loginFailed ∧ db = w.db.log audit ∧
          e = .application (.invalidCredentials "Invalid email or password")) ∨
        (db = w.db ∧ ∃ c, e = .integrity c)) :
      Effect t w (.login data device) (.error e)
        (((LoginUseCase.tried env w t owner data.password).withLimits
          (LoginUseCase.charged env w.limits t (env.normalize data.email)
            (device.getD {}))).withDb db)
  | loginClash {data device e user}
      (hopen : LoginUseCase.Open env w.limits t (env.normalize data.email))
      (huser : w.db.userByEmail (env.normalize data.email) = some user)
      (hactive : user.isActive = true)
      (hverify : env.hasher.verify data.password user.passwordHash = true) :
      Effect t w (.login data device) (.error e)
        ((w.checked ⟨t, user.id, data.password, true⟩).signPair env t user.id
          (env.supply.jti w.calls 0))
  | loggedIn {data device user audit}
      (hopen : LoginUseCase.Open env w.limits t (env.normalize data.email))
      (huser : w.db.userByEmail (env.normalize data.email) = some user)
      (hactive : user.isActive = true)
      (hverify : env.hasher.verify data.password user.passwordHash = true)
      (haudit : audit.action = .login ∧ audit.userId = some user.id) :
      Effect t w (.login data device)
        (.ok (.auth (issuedPair env t user (env.supply.jti w.calls 0))))
        ((((w.checked ⟨t, user.id, data.password, true⟩).signPair env t user.id
          (env.supply.jti w.calls 0)).withDb
          ((w.db.addSession (LoginUseCase.session env t w.calls user
            (device.getD {}))).log audit)).withLimits
          (Limits.reset env.backend w.limits
            (LoginUseCase.accountKey (env.normalize data.email))))
  | logoutIgnored {token device e} (h : JwtTokenService.decode w.signed t token = .error e) :
      Effect t w (.logout token device) (.ok .done) w
  | loggedOut {c device audit} (hs : c ∈ w.signed) (ht : t < c.exp)
      (haudit : audit.action = .logout ∧ audit.userId = some c.sub) :
      Effect t w (.logout (.jwt c) device) (.ok .done)
        (w.withDb ((w.db.revokeWhere (Statement.revokeWhere c.jti) t).log audit))
  | refreshClash {c device e user} (hs : c ∈ w.signed)
      (huser : w.db.userById c.sub = some user) :
      Effect t w (.refresh (.jwt c) device) (.error e)
        (w.signPair env t user.id (env.supply.jti w.calls 0))
  | refreshed {c device old user} (hs : c ∈ w.signed) (ht : t < c.exp)
      (htype : c.type = .refresh)
      (hold : w.db.sessionByJti c.jti = some old) (hvalid : old.isValid t = true)
      (huser : w.db.userById c.sub = some user) (hactive : user.isActive = true) :
      Effect t w (.refresh (.jwt c) device)
        (.ok (.auth (issuedPair env t user (env.supply.jti w.calls 0))))
        ((w.signPair env t user.id (env.supply.jti w.calls 0)).withDb
          ((w.db.revokeWhere (Statement.revokeWhere c.jti) t).addSession
            (RefreshTokenUseCase.session env t w.calls old user (device.getD {}))))
  | authenticated {c session user cache} (hs : c ∈ w.signed) (ht : t < c.exp)
      (htype : c.type = .access)
      (hsession : w.db.sessionByJti c.jti = some session)
      (hvalid : session.isValid t = true)
      (hload : AuthenticateUseCase.Loads env t w c.sub user cache)
      (hactive : user.isActive = true) :
      Effect t w (.authenticate (.jwt c)) (.ok (.user user)) (w.withCache cache)
  | authenticateInactive {c session e user cache} (hs : c ∈ w.signed)
      (hsession : w.db.sessionByJti c.jti = some session)
      (hvalid : session.isValid t = true)
      (hload : AuthenticateUseCase.Loads env t w c.sub user cache)
      (hactive : user.isActive = false) :
      Effect t w (.authenticate (.jwt c)) (.error e) (w.withCache cache)
  | passwordTried {userId data device e user}
      (hrepeat : data.newPassword = data.newPasswordRepeat)
      (huser : w.db.userById userId = some user) :
      Effect t w (.changePassword userId data device) (.error e)
        (w.checked ⟨t, user.id, data.currentPassword,
          env.hasher.verify data.currentPassword user.passwordHash⟩)
  | passwordChanged {userId data device user row audit k}
      (huser : w.db.userById userId = some user)
      (hrow : w.db.userRow? userId = some row)
      (hverify : env.hasher.verify data.currentPassword user.passwordHash = true)
      (haudit : audit.action = .passwordChanged ∧ audit.userId = some userId) :
      Effect t w (.changePassword userId data device) (.ok (.count k))
        (((w.checked ⟨t, user.id, data.currentPassword, true⟩).withDb
          ((((w.db.setPassword row
              (env.hasher.hash (env.supply.salt w.calls 0) data.newPassword) t).useWhere
            (Statement.invalidateWhere userId .passwordReset) t).revokeWhere
            (Statement.revokeAllWhere userId none) t).log audit)).forget env userId)
  | resetRequested {email device limits user} (hl : Charges env t w.limits limits)
      (huser : w.db.userByEmail (env.normalize email) = some user)
      (hactive : user.isActive = true) :
      Effect t w (.forgotPassword email device) (.ok .done)
        (((w.withLimits limits).withDb
          ((w.db.useWhere (Statement.invalidateWhere user.id .passwordReset) t).addToken
            (ForgotPasswordUseCase.row env t w.calls user.id))).mailed
          (ForgotPasswordUseCase.message env (env.normalize email)
            (env.supply.secret w.calls 0)))
  | passwordReset {data device limits token user row audit}
      (hl : Charges env t w.limits limits)
      (htoken : w.db.tokenByHash (env.tokenHash data.token) .passwordReset = some token)
      (husable : token.isUsable t = true)
      (huser : w.db.userById token.userId = some user) (hactive : user.isActive = true)
      (hrow : w.db.userRow? user.id = some row)
      (haudit : audit.action = .passwordReset ∧ audit.userId = some user.id) :
      Effect t w (.resetPassword data device) (.ok .done)
        (((w.withLimits limits).withDb
          (((((w.db.setPassword row
              (env.hasher.hash (env.supply.salt w.calls 0) data.password) t).useWhere
            (Statement.markUsedWhere token.id) t).useWhere
            (Statement.invalidateWhere user.id .passwordReset) t).revokeWhere
            (Statement.revokeAllWhere user.id none) t).log audit)).forget env user.id)
  | emailVerified {secret device token user row verified audit}
      (htoken : w.db.tokenByHash (env.tokenHash secret) .emailVerification = some token)
      (husable : token.isUsable t = true)
      (huser : w.db.userById token.userId = some user) (hactive : user.isActive = true)
      (hrow : w.db.userRow? user.id = some row)
      (hverified : verified.id = user.id)
      (haudit : audit.action = .emailVerified ∧ audit.userId = some user.id) :
      Effect t w (.verifyEmail secret device) (.ok (.user verified))
        ((w.withDb ((VerifyEmailUseCase.stamped t
          (w.db.useWhere (Statement.markUsedWhere token.id) t) row user).log audit)).forget
          env user.id)
  | userUpdated {userId data user edited row a}
      (huser : w.db.userById userId = some user)
      (hrow : w.db.userRow? userId = some row)
      (hedits : UpdateUserUseCase.Edits env w.db data user edited) :
      Effect t w (.updateUser userId data) (.ok a)
        ((UpdateUserUseCase.finished env t w (w.db.setProfile row edited.profile t)
          (w.db.userToEntity (row.setProfile edited.profile t))).forget env userId)
  | userDeleted {userId device user row audit}
      (huser : w.db.userById userId = some user)
      (hrow : w.db.userRow? userId = some row)
      (haudit : audit.action = .userBanned ∧ audit.userId = some userId ∧
        audit.id = env.supply.rowId w.calls 0) :
      Effect t w (.deleteUser userId device) (.ok .done)
        ((w.withDb (((w.db.setProfile row (user.withActive false).profile t).revokeWhere
          (Statement.revokeAllWhere userId none) t).log audit)).forget env userId)
  | banSkipped {actor targetId reason device user}
      (huser : w.db.userById targetId = some user) (hactive : user.isActive = false) :
      Effect t w (.banUser actor targetId reason device) (.ok (.user user)) w
  | userBanned {actor targetId reason device user row a audit}
      (hsuper : user.isSuperuser = false)
      (huser : w.db.userById targetId = some user) (hactive : user.isActive = true)
      (hrow : w.db.userRow? targetId = some row)
      (haudit : audit.action = .userBanned ∧ audit.userId = some targetId ∧
        audit.id = env.supply.rowId w.calls 0) :
      Effect t w (.banUser actor targetId reason device) (.ok a)
        ((w.withDb (((w.db.setProfile row (user.withActive false).profile t).revokeWhere
          (Statement.revokeAllWhere targetId none) t).log audit)).forget env targetId)
  | userUnbanned {actor targetId device user row a audit}
      (huser : w.db.userById targetId = some user) (hactive : user.isActive = false)
      (hrow : w.db.userRow? targetId = some row)
      (haudit : audit.action = .userUnbanned ∧ audit.userId = some targetId ∧
        audit.id = env.supply.rowId w.calls 0) :
      Effect t w (.unbanUser actor targetId device) (.ok a)
        ((w.withDb ((w.db.setProfile row (user.withActive true).profile t).log audit)).forget
          env targetId)
  | sessionsRevoked {userId exceptJti device k audit}
      (haudit : audit.action = .sessionRevoked ∧ audit.userId = some userId) :
      Effect t w (.revokeAllSessions userId exceptJti device) (.ok (.count k))
        (w.withDb ((w.db.revokeWhere (Statement.revokeAllWhere userId exceptJti) t).log
          audit))
  | sessionRevoked {userId sessionId device session audit}
      (hsession : w.db.sessionById sessionId = some session)
      (howner : session.userId = userId)
      (haudit : audit.action = .sessionRevoked ∧ audit.userId = some userId) :
      Effect t w (.revokeUserSession userId sessionId device) (.ok .done)
        (w.withDb ((w.db.revokeWhere (Statement.revokeWhere session.jti) t).log audit))
  | roleCreated {name description row a}
      (hrow : row = ⟨env.supply.rowId w.calls 0, name, description⟩)
      (hfree : w.db.violation (.insertRole row) = none) :
      Effect t w (.createRole name description) (.ok a)
        (w.withDb (Write.apply w.db (.insertRole row)))
  | roleDeleted {roleId role} (hrole : w.db.roleById roleId = some role) :
      Effect t w (.deleteRole roleId) (.ok .done)
        (w.withDb (Write.apply w.db (.deleteRole roleId)))
  | permissionGranted {roleId permissionId role permission a}
      (hrole : w.db.roleById roleId = some role)
      (hpermission : w.db.permissionById permissionId = some permission) :
      Effect t w (.grantPermissionToRole roleId permissionId) (.ok a)
        (w.withDb (w.db.linkPermission roleId permissionId))
  | permissionRevoked {roleId permissionId role a}
      (hrole : w.db.roleById roleId = some role) :
      Effect t w (.revokePermissionFromRole roleId permissionId) (.ok a)
        (w.withDb (Write.apply w.db (.deleteRolePermission roleId permissionId)))
  | permissionCreated {resource action description row a}
      (hrow : row = ⟨env.supply.rowId w.calls 0, resource, action, description⟩)
      (hfree : w.db.violation (.insertPermission row) = none) :
      Effect t w (.createPermission resource action description) (.ok a)
        (w.withDb (Write.apply w.db (.insertPermission row)))
  | roleAssigned {userId roleId user role a}
      (huser : w.db.userById userId = some user) (hrole : w.db.roleById roleId = some role) :
      Effect t w (.assignRoleToUser userId roleId) (.ok a)
        ((w.withDb (w.db.linkRole userId roleId)).forget env userId)
  | roleRevoked {userId roleId user a} (huser : w.db.userById userId = some user) :
      Effect t w (.revokeRoleFromUser userId roleId) (.ok a)
        ((w.withDb (Write.apply w.db (.deleteUserRole userId roleId))).forget env userId)

end VideoSite.Users
