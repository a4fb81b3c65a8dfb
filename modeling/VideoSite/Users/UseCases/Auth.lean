import VideoSite.Users.UseCases.Support

/-!
# The use cases of `application/auth`

Signing up, logging in and out, rotating tokens, authenticating a request, and
the life of an account's password, email and profile.  Each definition follows
the `__call__` of its class; the private helpers of a class keep their names.
-/

namespace VideoSite.Users

open Effects

variable (env : Env)

/-! ## EmailVerificationIssuer -/

/-- Store a fresh token inside the caller's transaction; return the secret. -/
def EmailVerificationIssuer.issue (userId : UserId) : UseCase String := do
  securityTokens.invalidateForUser userId .emailVerification
  let secret ← generateSecret
  let moment ← now
  let _ ← securityTokens.add
    { id := 0
      userId := userId
      purpose := .emailVerification
      tokenHash := secret.hashed
      createdAt := moment
      expiresAt := moment + 3600 * env.config.emailVerificationTtlHours
      usedAt := none }
  return secret.plain

/-- The mail with a confirmation link. -/
def EmailVerificationIssuer.message (email secret : String) : EmailMessageDTO where
  sendTo := email
  subject := "Confirm your email address"
  body :=
    "Confirm your email address to finish setting up your account:\n\n" ++
    s!"{env.config.emailVerificationUrl.format secret}\n\n" ++
    s!"The link expires in {env.config.emailVerificationTtlHours} hours."

/-- Mail the link. -/
def EmailVerificationIssuer.send (email secret : String) : UseCase Unit :=
  sendEmail (EmailVerificationIssuer.message env email secret)

/-! ## Rate limits

Four use cases charge a counter at their start and refuse when it is used up. -/

/-- Charge `key` and refuse once the policy is used up. -/
def chargeOrRefuse (policy : RateLimitPolicy) (key : String) (message : String) :
    UseCase Unit := do
  if policy.isEnforced then
    let decision ← limiter.hit key policy
    require decision.allowed (.rateLimited decision.retryAfterSeconds message)

/-- `f"<scope>:ip:{device.ip_address}"`. -/
def scopedIpKey (scope ip : String) : String := s!"{scope}:ip:{ip}"

/-- The same for a key made from the caller's address, where it is known. -/
def chargeIpOrRefuse (policy : RateLimitPolicy) (scope : String)
    (device : DeviceInfoDTO) (message : String) : UseCase Unit :=
  match device.ipAddress with
  | some ip => chargeOrRefuse policy (scopedIpKey scope ip) message
  | none => .pure ()

/-- `RateLimitedError`'s own message. -/
def tooManyRequests : String := "Too many requests"

/-! ## Register -/

def RegisterUserUseCase.checkRateLimit (device : DeviceInfoDTO) : UseCase Unit :=
  chargeIpOrRefuse env.config.registerIpPolicy "register" device
    "Too many accounts created from this address"

/-- Grant the default role, where there is one. -/
def RegisterUserUseCase.grantDefault (created : User) (defaultRole : Option Role) :
    UseCase Unit :=
  match defaultRole with
  | some role => users.assignRole created.id role.id
  | none => .pure ()

def registerUser (data : RegisterUserDTO) (device : Option DeviceInfoDTO) :
    UseCase User := do
  let device := device.getD {}
  RegisterUserUseCase.checkRateLimit env device
  require (data.password == data.passwordRepeat) .passwordMismatch
  let email := env.normalize data.email
  let username := env.strip data.username
  let (stored, created, secret) ← withUow do
    let sameEmail ← users.getByEmail email
    require sameEmail.isNone .emailAlreadyExists
    let sameUsername ← users.getByUsername username
    require sameUsername.isNone .usernameAlreadyExists
    let passwordHash ← hasher.hash data.password
    let created ← users.add
      { id := 0
        email := email
        username := username
        passwordHash := passwordHash
        displayName := data.displayName
        isActive := true
        isSuperuser := false
        emailVerifiedAt := none
        visitorId := data.visitorId
        createdAt := none
        updatedAt := none
        roles := [] }
    let defaultRole ← roles.getByName env.config.defaultRoleName
    RegisterUserUseCase.grantDefault created defaultRole
    let secret ← EmailVerificationIssuer.issue env created.id
    audit.record .register (some created.id) (some device)
      [("username", .str username), ("visitor_id", .ofOption data.visitorId)]
    commit
    let stored ← users.getById created.id
    return (stored, created, secret)
  EmailVerificationIssuer.send env email secret
  return stored.getD created

/-! ## Login -/

/-- `_account_key`. -/
def LoginUseCase.accountKey (email : String) : String := s!"login:user:{email}"

/-- The key of the counter of one address. -/
def LoginUseCase.ipKey (ip : String) : String := s!"login:ip:{ip}"

theorem LoginUseCase.accountKey_injective :
    Function.Injective LoginUseCase.accountKey := by
  intro a b h
  have hlist := congrArg String.toList h
  simpa [LoginUseCase.accountKey, toString, String.toList_inj] using hlist

theorem LoginUseCase.ipKey_ne_accountKey (ip email : String) :
    LoginUseCase.ipKey ip ≠ LoginUseCase.accountKey email := by
  intro h
  have hlist := congrArg String.toList h
  simp [LoginUseCase.accountKey, LoginUseCase.ipKey, toString] at hlist

def LoginUseCase.guardIp (device : DeviceInfoDTO) : UseCase Unit := do
  if env.config.loginIpPolicy.isEnforced then
    match device.ipAddress with
    | some ip =>
        let decision ← limiter.peek (LoginUseCase.ipKey ip) env.config.loginIpPolicy
        require decision.allowed (.rateLimited decision.retryAfterSeconds
          "Too many login attempts from this address")
    | none => pure ()

def LoginUseCase.guardAccount (email : String) : UseCase Unit := do
  if env.config.loginAccountPolicy.isEnforced then
    let decision ← limiter.peek (LoginUseCase.accountKey email)
      env.config.loginAccountPolicy
    require decision.allowed (.accountLocked decision.retryAfterSeconds)

/-- Charge a key, whatever the verdict. -/
def LoginUseCase.charge (policy : RateLimitPolicy) (key : String) : UseCase Unit := do
  if policy.isEnforced then
    let _ ← limiter.hit key policy
    return ()

/-- Charge a failed attempt to both counters. -/
def LoginUseCase.countFailure (email : String) (device : DeviceInfoDTO) :
    UseCase Unit := do
  match device.ipAddress with
  | some ip =>
      LoginUseCase.charge env.config.loginIpPolicy (LoginUseCase.ipKey ip)
      LoginUseCase.charge env.config.loginAccountPolicy (LoginUseCase.accountKey email)
  | none =>
      LoginUseCase.charge env.config.loginAccountPolicy (LoginUseCase.accountKey email)

/-- Why a login failed, as the audit row has it. -/
def LoginUseCase.reason (user : Option User) : String :=
  match user with
  | none => "unknown_account"
  | some user => if user.isActive then "bad_password" else "inactive"

/-- The pair handed to the client. -/
def tokenPair (access refresh : IssuedToken) : AuthTokenDTO where
  accessToken := access.token
  refreshToken := refresh.token
  tokenType := "bearer"
  accessExpiresAt := access.expiresAt
  refreshExpiresAt := refresh.expiresAt

/-- `user is not None and user.is_active and verify(password, user.password_hash)`:
the password is looked at only for an active account. -/
def LoginUseCase.valid (user : Option User) (password : String) : UseCase Bool :=
  match user with
  | some user => if user.isActive then hasher.verify password user else .pure false
  | none => .pure false

/-- The branch of a failed attempt: it is charged, logged and refused. -/
def LoginUseCase.fail (email : String) (user : Option User) (device : DeviceInfoDTO) :
    UseCase (User × IssuedToken × IssuedToken) := do
  LoginUseCase.countFailure env email device
  audit.record .loginFailed (user.map (·.id)) (some device)
    [("email", .str email), ("reason", .str (LoginUseCase.reason user))]
  commit
  raise (.invalidCredentials "Invalid email or password")

/-- The branch of a successful attempt: one session row is written. -/
def LoginUseCase.succeed (user : User) (device : DeviceInfoDTO) :
    UseCase (User × IssuedToken × IssuedToken) := do
  let jti ← uuid4
  let access ← tokenService.issueAccess user.id jti
  let refresh ← tokenService.issueRefresh user.id jti
  let moment ← now
  let _ ← sessions.add
    { id := 0
      userId := user.id
      jti := jti
      createdAt := moment
      expiresAt := refresh.expiresAt
      revokedAt := none
      visitorId := device.visitorId
      userAgent := device.userAgent
      ipAddress := device.ipAddress
      device := device.device
      lastSeenAt := some moment }
  audit.record .login (some user.id) (some device)
    [("visitor_id", .ofOption device.visitorId)]
  commit
  return (user, access, refresh)

def login (data : LoginDTO) (device : Option DeviceInfoDTO) : UseCase AuthResultDTO := do
  let device := device.getD {}
  let email := env.normalize data.email
  LoginUseCase.guardIp env device
  LoginUseCase.guardAccount env email
  let (user, access, refresh) ← withUow do
    let user ← users.getByEmail email
    let valid ← LoginUseCase.valid user data.password
    match user, valid with
    | some user, true => LoginUseCase.succeed user device
    | user, _ => LoginUseCase.fail env email user device
  limiter.reset (LoginUseCase.accountKey email)
  return ⟨tokenPair access refresh, user⟩

/-! ## Logout -/

def logout (token : Token) (device : Option DeviceInfoDTO) : UseCase Unit := do
  match ← ask (.decode token) with
  | .error _ => pure ()
  | .ok payload =>
      withUow do
        let moment ← now
        sessions.revoke payload.jti moment
        audit.record .logout (some payload.userId) device []
        commit

/-! ## Refresh -/

/-- `new or old` for a detail of the device. -/
def inherit (new old : Option String) : Option String := pyOr new old

/-- The session that takes the place of `session`. -/
def RefreshTokenUseCase.successor (session : AuthSession) (user : User) (jti : String)
    (refresh : IssuedToken) (device : DeviceInfoDTO) (moment : Time) : AuthSession where
  id := 0
  userId := user.id
  jti := jti
  createdAt := session.createdAt
  expiresAt := refresh.expiresAt
  revokedAt := none
  visitorId := inherit device.visitorId session.visitorId
  userAgent := inherit device.userAgent session.userAgent
  ipAddress := inherit device.ipAddress session.ipAddress
  device := inherit device.device session.device
  lastSeenAt := some moment

def refreshToken (token : Token) (device : Option DeviceInfoDTO) :
    UseCase AuthResultDTO := do
  let device := device.getD {}
  let payload ← tokenService.decode token
  require (payload.tokenType == .refresh) (.authentication "A refresh token is required")
  withUow do
    let found ← sessions.getByJti payload.jti
    let moment ← now
    let session ← orRaise (found.filter (·.isValid moment))
      (.authentication "Refresh session is no longer valid")
    let owner ← users.getById payload.userId
    let user ← orRaise (owner.filter (·.isActive))
      (.authentication "User is inactive or missing")
    let moment ← now
    sessions.revoke payload.jti moment
    let newJti ← uuid4
    let access ← tokenService.issueAccess user.id newJti
    let refresh ← tokenService.issueRefresh user.id newJti
    let _ ← sessions.add
      (RefreshTokenUseCase.successor session user newJti refresh device moment)
    commit
    return ⟨tokenPair access refresh, user⟩

/-! ## Authenticate -/

def AuthenticateUseCase.loadUser (userId : UserId) : UseCase (Option User) := do
  let key := userCacheKey userId
  match ← cache.get key with
  | some cached =>
      let user ← (Program.ofExcept (UserCacheCodec.loads env.isoFormat cached) :
        UseCase User)
      return some user
  | none =>
      match ← users.getById userId with
      | some user =>
          cache.set key (UserCacheCodec.dumps env.isoFormat user)
            env.config.authCacheTtlSeconds
          return some user
      | none => return none

def authenticate (token : Token) : UseCase User := do
  let payload ← tokenService.decode token
  require (payload.tokenType == .access) (.authentication "An access token is required")
  withUow do
    let found ← sessions.getByJti payload.jti
    let moment ← now
    let _ ← orRaise (found.filter (·.isValid moment))
      (.authentication "Session is no longer valid")
    let owner ← AuthenticateUseCase.loadUser env payload.userId
    orRaise (owner.filter (·.isActive)) (.authentication "User is inactive or missing")

/-! ## Password -/

def changePassword (userId : UserId) (data : ChangePasswordDTO)
    (device : Option DeviceInfoDTO) : UseCase Nat := do
  require (data.newPassword == data.newPasswordRepeat) .passwordMismatch
  let revoked ← withUow do
    let found ← users.getById userId
    let user ← orRaise found .userNotFound
    let ok ← hasher.verify data.currentPassword user
    require ok (.invalidCredentials "Current password is incorrect")
    require (data.currentPassword != data.newPassword)
      (.validation "The new password must differ from the current one")
    let passwordHash ← hasher.hash data.newPassword
    users.updatePassword (user.withPasswordHash passwordHash)
    securityTokens.invalidateForUser userId .passwordReset
    let moment ← now
    let revoked ← sessions.revokeAllForUser userId moment none
    audit.record .passwordChanged (some userId) device
      [("sessions_revoked", .int revoked)]
    commit
    return revoked
  cache.delete (userCacheKey userId)
  return revoked

def ForgotPasswordUseCase.checkRateLimits (address : String) (device : DeviceInfoDTO) :
    UseCase Unit := do
  chargeOrRefuse env.config.forgotPasswordEmailPolicy s!"forgot-password:{address}"
    tooManyRequests
  chargeIpOrRefuse env.config.forgotPasswordIpPolicy "forgot-password" device
    tooManyRequests

/-- The mail with a reset link. -/
def ForgotPasswordUseCase.message (email secret : String) : EmailMessageDTO where
  sendTo := email
  subject := "Reset your password"
  body :=
    "Someone asked to reset the password for this account.\n\n" ++
    s!"{env.config.passwordResetUrl.format secret}\n\n" ++
    s!"The link expires in {env.config.passwordResetTtlMinutes} minutes. " ++
    "If this was not you, you can ignore this email — nothing has changed."

/-- Replace the account's reset links by a fresh one.  For an address without an
active account nothing happens, with the same visible outcome. -/
def ForgotPasswordUseCase.issue (owner : Option User) :
    UseCase (Option GeneratedSecret) :=
  match owner with
  | none => .pure none
  | some user => do
      securityTokens.invalidateForUser user.id .passwordReset
      let secret ← generateSecret
      let moment ← now
      let _ ← securityTokens.add
        { id := 0
          userId := user.id
          purpose := .passwordReset
          tokenHash := secret.hashed
          createdAt := moment
          expiresAt := moment + 60 * env.config.passwordResetTtlMinutes
          usedAt := none }
      commit
      return some secret

/-- Mail the link, if one was issued. -/
def ForgotPasswordUseCase.sendIssued (address : String)
    (issued : Option GeneratedSecret) : UseCase Unit :=
  match issued with
  | some secret => sendEmail (ForgotPasswordUseCase.message env address secret.plain)
  | none => .pure ()

def forgotPassword (email : String) (device : Option DeviceInfoDTO) : UseCase Unit := do
  let device := device.getD {}
  let address := env.normalize email
  ForgotPasswordUseCase.checkRateLimits env address device
  let issued ← withUow do
    let found ← users.getByEmail address
    ForgotPasswordUseCase.issue env (found.filter (·.isActive))
  ForgotPasswordUseCase.sendIssued env address issued

def ResetPasswordUseCase.checkRateLimit (device : DeviceInfoDTO) : UseCase Unit :=
  chargeIpOrRefuse env.config.resetPasswordIpPolicy "reset-password" device
    tooManyRequests

def resetPassword (data : ResetPasswordDTO) (device : Option DeviceInfoDTO) :
    UseCase Unit := do
  let device := device.getD {}
  ResetPasswordUseCase.checkRateLimit env device
  require (data.password == data.passwordRepeat) .passwordMismatch
  let tokenHash := env.tokenHash data.token
  let userId ← withUow do
    let found ← securityTokens.getByHash tokenHash .passwordReset
    let moment ← now
    let stored ← orRaise (found.filter (·.isUsable moment)) .invalidToken
    let owner ← users.getById stored.userId
    let user ← orRaise (owner.filter (·.isActive)) .invalidToken
    let moment ← now
    let passwordHash ← hasher.hash data.password
    users.updatePassword (user.withPasswordHash passwordHash)
    securityTokens.markUsed stored
    securityTokens.invalidateForUser user.id .passwordReset
    let revoked ← sessions.revokeAllForUser user.id moment none
    audit.record .passwordReset (some user.id) (some device)
      [("sessions_revoked", .int revoked)]
    commit
    return user.id
  cache.delete (userCacheKey userId)

/-! ## Email and profile -/

/-- An account that is verified already keeps its timestamp. -/
def VerifyEmailUseCase.stamp (user : User) : UseCase User :=
  if user.isEmailVerified then .pure user
  else do
    let moment ← now
    users.update (user.withVerifiedAt moment)

def verifyEmail (token : String) (device : Option DeviceInfoDTO) : UseCase User := do
  let tokenHash := env.tokenHash token
  let user ← withUow do
    let found ← securityTokens.getByHash tokenHash .emailVerification
    let moment ← now
    let stored ← orRaise (found.filter (·.isUsable moment)) .invalidToken
    let owner ← users.getById stored.userId
    let user ← orRaise (owner.filter (·.isActive)) .invalidToken
    securityTokens.markUsed stored
    let user ← VerifyEmailUseCase.stamp user
    audit.record .emailVerified (some user.id) device [("email", .str user.email)]
    commit
    return user
  cache.delete (userCacheKey user.id)
  return user

/-- Take over the new address, if it is one and is free. -/
def UpdateUserUseCase.changeEmail (user : User) (email : Option String) :
    UseCase User := do
  match email with
  | none => pure user
  | some email =>
      let email := env.normalize email
      if email = user.email then pure user
      else
        let clash ← users.getByEmail email
        require clash.isNone .emailAlreadyExists
        return user.withNewEmail email

def UpdateUserUseCase.changeUsername (user : User) (username : Option String) :
    UseCase User := do
  match username with
  | none => pure user
  | some username =>
      let username := env.strip username
      if username = user.username then pure user
      else
        let clash ← users.getByUsername username
        require clash.isNone .usernameAlreadyExists
        return user.withUsername username

def UpdateUserUseCase.changeDisplayName (user : User) (displayName : Option String) :
    User :=
  match displayName with
  | some name => user.withDisplayName name
  | none => user

/-- An unverified address gets a fresh link. -/
def UpdateUserUseCase.issueIfUnverified (updated : User) :
    UseCase (Option (String × String)) :=
  if updated.isEmailVerified then .pure none
  else do
    let secret ← EmailVerificationIssuer.issue env updated.id
    return some (updated.email, secret)

/-- `if pending_verification is not None: send(*pending_verification)`. -/
def UpdateUserUseCase.sendPending (pending : Option (String × String)) : UseCase Unit :=
  match pending with
  | some (email, secret) => EmailVerificationIssuer.send env email secret
  | none => .pure ()

def updateUser (userId : UserId) (data : UpdateUserDTO) : UseCase User := do
  let (updated, pendingVerification) ← withUow do
    let found ← users.getById userId
    let user ← orRaise found .userNotFound
    let user ← UpdateUserUseCase.changeEmail env user data.email
    let user ← UpdateUserUseCase.changeUsername env user data.username
    let user := UpdateUserUseCase.changeDisplayName user data.displayName
    let updated ← users.update user
    let pendingVerification ← UpdateUserUseCase.issueIfUnverified env updated
    commit
    return (updated, pendingVerification)
  cache.delete (userCacheKey userId)
  UpdateUserUseCase.sendPending env pendingVerification
  return updated

def deleteUser (userId : UserId) (device : Option DeviceInfoDTO) : UseCase Unit := do
  withUow do
    let found ← users.getById userId
    let user ← orRaise found .userNotFound
    let _ ← users.update (user.withActive false)
    let moment ← now
    let revoked ← sessions.revokeAllForUser userId moment none
    audit.record .userBanned (some userId) device
      [("reason", .str "self_deactivated"), ("sessions_revoked", .int revoked)]
    commit
  cache.delete (userCacheKey userId)

end VideoSite.Users
