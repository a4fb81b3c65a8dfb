import VideoSite.Users.Concurrent

/-!
# What a call asks for

`Call.Asks` is an inventory: whether a call may write to the audit log, the counters that
it may touch, and whether it has to do with one-time links.  What it says of a call holds
whatever the operations answer, so that results about calls side by side can rest on it.

* `Call.asks` shows that no call makes an operation outside its inventory.
-/

namespace VideoSite.Users

open Effects Program Protocol

variable {env : Env}

/-- The calls that may write a row to the audit log. -/
def Call.logs : Call → Bool
  | .register _ _ | .login _ _ | .logout _ _ | .changePassword _ _ _ | .resetPassword _ _
  | .verifyEmail _ _ | .deleteUser _ _ | .banUser _ _ _ _ | .unbanUser _ _ _
  | .revokeAllSessions _ _ _ | .revokeUserSession _ _ _ => true
  | _ => false

/-- The counters that a call asks about or changes. -/
def Call.Counts (env : Env) : Call → String → Prop
  | .register _ device, key =>
      ∃ ip, (device.getD {}).ipAddress = some ip ∧ key = scopedIpKey "register" ip
  | .login data device, key => key = LoginUseCase.accountKey (env.normalize data.email) ∨
      ∃ ip, (device.getD {}).ipAddress = some ip ∧ key = LoginUseCase.ipKey ip
  | .forgotPassword email device, key => key = s!"forgot-password:{env.normalize email}" ∨
      ∃ ip, (device.getD {}).ipAddress = some ip ∧ key = scopedIpKey "forgot-password" ip
  | .resetPassword _ device, key =>
      ∃ ip, (device.getD {}).ipAddress = some ip ∧ key = scopedIpKey "reset-password" ip
  | _, _ => False

/-- The calls that mail a one-time link. -/
def Call.mailsLinks : Call → Bool
  | .register _ _ | .updateUser _ _ | .forgotPassword _ _ => true
  | _ => false

/-- The calls that put an account into the cache. -/
def Call.fillsCache : Call → Bool
  | .authenticate _ => true
  | _ => false

/-- What a call may ask for. -/
def Call.Asks (env : Env) (c : Call) : Op → Prop
  | .sql (.auditAdd _) => c.logs = true
  | .limiterHit key _ | .limiterPeek key _ | .limiterReset key => c.Counts env key
  | .generateSecret | .sql (.tokensAdd _) | .mailSend _ => c.mailsLinks = true
  | .cacheSet _ _ _ => c.fillsCache = true
  | _ => True

/-! ## Login -/

section Login

variable (data : LoginDTO) (device : Option DeviceInfoDTO)

theorem LoginUseCase.guardIp_asks : (LoginUseCase.guardIp env (device.getD {})).Only
    ((Call.login data device).Asks env) := by
  unfold LoginUseCase.guardIp
  refine only_ite (fun _ => ?_) fun _ => trivial
  cases hip : (device.getD {}).ipAddress with
  | none => trivial
  | some ip => exact ⟨.inr ⟨ip, hip, rfl⟩, fun _ => only_require _ _⟩

theorem LoginUseCase.guardAccount_asks :
    (LoginUseCase.guardAccount env (env.normalize data.email)).Only
      ((Call.login data device).Asks env) :=
  only_ite (fun _ => ⟨.inl rfl, fun _ => only_require _ _⟩) fun _ => trivial

theorem LoginUseCase.countFailure_asks :
    (LoginUseCase.countFailure env (env.normalize data.email) (device.getD {})).Only
      ((Call.login data device).Asks env) := by
  have hcharge (policy : RateLimitPolicy) {key : String}
      (hkey : (Call.login data device).Counts env key) :
      (LoginUseCase.charge policy key).Only ((Call.login data device).Asks env) :=
    only_ite (fun _ => ⟨hkey, fun _ => trivial⟩) fun _ => trivial
  unfold LoginUseCase.countFailure
  cases hip : (device.getD {}).ipAddress with
  | none => exact hcharge _ (.inl rfl)
  | some ip =>
    exact Only.bind (hcharge _ (.inr ⟨ip, hip, rfl⟩)) fun _ => hcharge _ (.inl rfl)

theorem LoginUseCase.fail_asks (owner : Option User) :
    (LoginUseCase.fail env (env.normalize data.email) owner (device.getD {})).Only
      ((Call.login data device).Asks env) := by
  refine Only.bind (LoginUseCase.countFailure_asks data device) fun _ => only_of_follows ?_
  simp [audit.record, Call.Asks, Call.logs]

theorem LoginUseCase.succeed_asks (owner : User) :
    (LoginUseCase.succeed owner (device.getD {})).Only ((Call.login data device).Asks env) := by
  apply only_of_follows
  simp [LoginUseCase.succeed, audit.record, Call.Asks, Call.logs]

theorem login_asks :
    (login env data device).Only ((Call.login data device).Asks env) := by
  have hvalid (owner : Option User) :
      (LoginUseCase.valid owner data.password).Only ((Call.login data device).Asks env) := by
    cases owner with
    | none => trivial
    | some user => exact only_ite (fun _ => ⟨trivial, fun _ => trivial⟩) fun _ => trivial
  unfold login
  refine Only.bind (LoginUseCase.guardIp_asks data device) fun _ =>
    Only.bind (LoginUseCase.guardAccount_asks data device) fun _ =>
      Only.bind (Only.closing ?_ trivial) fun _ => ⟨.inl rfl, fun _ => trivial⟩
  refine Only.bind ⟨trivial, fun _ => trivial⟩ fun owner => Only.bind (hvalid owner) fun valid => ?_
  cases owner with
  | none => exact LoginUseCase.fail_asks data device none
  | some user =>
    cases valid with
    | false => exact LoginUseCase.fail_asks data device (some user)
    | true => exact LoginUseCase.succeed_asks data device user

end Login

/-! ## Every call -/

theorem authenticate_asks (token : Token) :
    (authenticate env token).Only ((Call.authenticate token).Asks env) := by
  have hloads (data : Json) : (Program.ofExcept (UserCacheCodec.loads env.isoFormat data) :
      UseCase User).Only ((Call.authenticate token).Asks env) := by
    cases UserCacheCodec.loads env.isoFormat data <;> trivial
  have hload (userId : UserId) : (AuthenticateUseCase.loadUser env userId).Only
      ((Call.authenticate token).Asks env) := by
    refine Only.bind ⟨trivial, fun _ => trivial⟩ fun cached => ?_
    cases cached with
    | some data => exact Only.bind (hloads data) fun _ => trivial
    | none =>
      refine Only.bind ⟨trivial, fun _ => trivial⟩ fun owner => ?_
      cases owner with
      | none => trivial
      | some user => exact ⟨rfl, fun _ => trivial⟩
  have hfound {β : Type} (found : Option β) (e : ApplicationError) :
      (orRaise found e).Only ((Call.authenticate token).Asks env) := by
    cases found <;> trivial
  have hdecode : (tokenService.decode token).Only ((Call.authenticate token).Asks env) := by
    apply only_of_follows
    simp [Call.Asks]
  refine Only.bind hdecode fun payload => Only.bind (only_require _ _) fun _ =>
    Only.closing ?_ trivial
  exact Only.bind ⟨trivial, fun _ => trivial⟩ fun _ => Only.bind ⟨trivial, fun _ => trivial⟩
    fun _ => Only.bind (hfound _ _) fun _ => Only.bind (hload _) fun _ => hfound _ _

theorem forgotPassword_asks (email : String) (device : Option DeviceInfoDTO) :
    (forgotPassword env email device).Only ((Call.forgotPassword email device).Asks env) := by
  have hlimits : (ForgotPasswordUseCase.checkRateLimits env (env.normalize email)
      (device.getD {})).Only ((Call.forgotPassword email device).Asks env) := by
    refine Only.bind (only_chargeOrRefuse (.inl rfl) _) fun _ => ?_
    unfold chargeIpOrRefuse
    cases hip : (device.getD {}).ipAddress with
    | none => trivial
    | some ip => exact only_chargeOrRefuse (.inr ⟨ip, hip, rfl⟩) _
  have hissue (owner : Option User) : (ForgotPasswordUseCase.issue env owner).Only
      ((Call.forgotPassword email device).Asks env) := by
    cases owner with
    | none => trivial
    | some user =>
      apply only_of_follows
      simp [ForgotPasswordUseCase.issue, Call.Asks, Call.mailsLinks]
  have hsend (issued : Option GeneratedSecret) :
      (ForgotPasswordUseCase.sendIssued env (env.normalize email) issued).Only
        ((Call.forgotPassword email device).Asks env) := by
    cases issued with
    | none => trivial
    | some secret => exact ⟨rfl, fun _ => trivial⟩
  refine Only.bind hlimits fun _ => Only.bind (Only.closing ?_ trivial) fun issued => hsend issued
  exact ⟨trivial, fun owner => hissue _⟩

/-- A call makes no operation outside its inventory. -/
theorem Call.asks (c : Call) : (c.program env).Only (c.Asks env) := by
  have hmap {α : Type} {p : UseCase α} (f : α → Answer) (hp : p.Only (c.Asks env)) :
      (p.map f).Only (c.Asks env) := Only.bind hp fun _ => trivial
  cases c with
  | login data device => exact hmap _ (login_asks data device)
  | authenticate token => exact hmap _ (authenticate_asks token)
  | forgotPassword email device => exact hmap _ (forgotPassword_asks email device)
  | logout token device =>
    refine hmap _ (p := Users.logout token device) ⟨trivial, fun out => only_of_follows ?_⟩
    cases out <;> simp [audit.record, Call.Asks, Call.logs]
  | register data device =>
    apply only_of_follows
    rcases hip : (device.getD {}).ipAddress with - | ip <;>
      simp [registerUser, RegisterUserUseCase.checkRateLimit, chargeIpOrRefuse, hip,
        chargeOrRefuse, RegisterUserUseCase.grantDefault, EmailVerificationIssuer.issue,
        EmailVerificationIssuer.send, audit.record, Call.Asks, Call.logs, Call.Counts,
        Call.mailsLinks, Option.forall]
  | updateUser userId data =>
    apply only_of_follows
    rcases hemail : data.email with - | email <;> rcases hname : data.username with - | name <;>
      simp [Users.updateUser, UpdateUserUseCase.changeEmail, UpdateUserUseCase.changeUsername,
        UpdateUserUseCase.issueIfUnverified, EmailVerificationIssuer.issue,
        UpdateUserUseCase.sendPending, EmailVerificationIssuer.send, Call.Asks, Call.mailsLinks,
        hemail, hname]
  | resetPassword data device =>
    apply only_of_follows
    rcases hip : (device.getD {}).ipAddress with - | ip <;>
      simp [Users.resetPassword, audit.record, ResetPasswordUseCase.checkRateLimit,
        chargeIpOrRefuse, chargeOrRefuse, hip, Call.Asks, Call.logs, Call.Counts]
  | refresh => exact only_of_follows (by simp [refreshToken, Call.Asks])
  | changePassword =>
    exact only_of_follows (by simp [Users.changePassword, audit.record, Call.Asks, Call.logs])
  | verifyEmail =>
    exact only_of_follows (by simp [Users.verifyEmail, VerifyEmailUseCase.stamp, audit.record,
      Call.Asks, Call.logs])
  | deleteUser =>
    exact only_of_follows (by simp [Users.deleteUser, audit.record, Call.Asks, Call.logs])
  | banUser =>
    exact only_of_follows (by simp [Users.banUser, BanUserUseCase.deactivate, forgetIfChanged,
      audit.record, Call.Asks, Call.logs])
  | unbanUser =>
    exact only_of_follows (by simp [Users.unbanUser, UnbanUserUseCase.reactivate,
      forgetIfChanged, audit.record, Call.Asks, Call.logs])
  | revokeAllSessions =>
    exact only_of_follows (by simp [Users.revokeAllSessions, audit.record, Call.Asks, Call.logs])
  | revokeUserSession =>
    exact only_of_follows (by simp [Users.revokeUserSession, audit.record, Call.Asks, Call.logs])
  | getUserProfile => exact only_of_follows (by simp [Users.getUserProfile, Call.Asks])
  | listUserSessions => exact only_of_follows (by simp [Users.listUserSessions, Call.Asks])
  | listRoles => exact only_of_follows (by simp [Users.listRoles, Call.Asks])
  | createRole => exact only_of_follows (by simp [Users.createRole, Call.Asks])
  | deleteRole => exact only_of_follows (by simp [Users.deleteRole, Call.Asks])
  | grantPermissionToRole =>
    exact only_of_follows (by simp [Users.grantPermissionToRole, Call.Asks])
  | revokePermissionFromRole =>
    exact only_of_follows (by simp [Users.revokePermissionFromRole, Call.Asks])
  | listPermissions => exact only_of_follows (by simp [Users.listPermissions, Call.Asks])
  | createPermission => exact only_of_follows (by simp [Users.createPermission, Call.Asks])
  | listUsers => exact only_of_follows (by simp [Users.listUsers, Call.Asks])
  | assignRoleToUser => exact only_of_follows (by simp [Users.assignRoleToUser, Call.Asks])
  | revokeRoleFromUser => exact only_of_follows (by simp [Users.revokeRoleFromUser, Call.Asks])

end VideoSite.Users
