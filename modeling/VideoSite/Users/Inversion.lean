import VideoSite.Users.Effect

/-!
# Every call has its effect

The proof of `runCall_effect`, one lemma for each use case.  A lemma runs the
use case with the rules of `VideoSite.Users.Rules` and names what is left: the
paths that end in an error before anything was written fall away with
`Effect.refused`, and each of the others is a constructor of `Effect`.
-/

namespace VideoSite.Users

open Effects Program Tx

variable {env : Env} {t : Time} {w : World} {tx : Tx}

/-! ## Rules of the shared helpers -/

/-- The attempt that was just charged to `key` is refused. -/
def Limits.refuses (env : Env) (limits : Limits) (t : Time) (policy : RateLimitPolicy)
    (key : String) : Prop :=
  policy.isEnforced = true ∧ (Limits.hit env.backend limits t key policy).2.allowed = false

@[simp] theorem wp_chargeOrRefuse (policy : RateLimitPolicy) (key message : String)
    (Q : Post Unit) :
    wp (handler env t) (chargeOrRefuse policy key message) Q (w, tx) ↔
      (¬ w.limits.refuses env t policy key →
        Q (w.withLimits (w.limits.charge env t policy key), tx) (.ok ())) ∧
      (w.limits.refuses env t policy key →
        Q (w.withLimits (w.limits.charge env t policy key), tx)
          (.error (.application (.rateLimited
            (Limits.hit env.backend w.limits t key policy).2.retryAfterSeconds
            message)))) := by
  unfold chargeOrRefuse Limits.refuses Limits.charge
  by_cases he : policy.isEnforced = true
  · cases ha : (Limits.hit env.backend w.limits t key policy).2.allowed <;>
      simp [he, ha]
  · simp [he]
    rfl

/-- The counters after an attempt was charged to the caller's address. -/
def Limits.chargeIp (env : Env) (limits : Limits) (t : Time) (policy : RateLimitPolicy)
    (scope : String) (device : DeviceInfoDTO) : Limits :=
  match device.ipAddress with
  | some ip => limits.charge env t policy (scopedIpKey scope ip)
  | none => limits

theorem wp_chargeIpOrRefuse {policy : RateLimitPolicy} {scope : String}
    {device : DeviceInfoDTO} {message : String} {Q : Post Unit}
    (hok : Q (w.withLimits (w.limits.chargeIp env t policy scope device), tx) (.ok ()))
    (herr : ∀ e, Q (w.withLimits (w.limits.chargeIp env t policy scope device), tx)
      (.error (.application e))) :
    wp (handler env t) (chargeIpOrRefuse policy scope device message) Q (w, tx) := by
  unfold chargeIpOrRefuse
  unfold Limits.chargeIp at hok herr
  cases hip : device.ipAddress with
  | none =>
    rw [hip] at hok
    exact hok
  | some ip =>
    rw [hip] at hok herr
    exact (wp_chargeOrRefuse _ _ _ _).2 ⟨fun _ => hok, fun _ => herr _⟩

/-- A key that does not begin like the counter of an account is not one. -/
theorem ne_accountKey {key : String} (h : key.toList.head? ≠ some 'l') (email : String) :
    key ≠ LoginUseCase.accountKey email := by
  rintro rfl
  simp [LoginUseCase.accountKey, toString] at h

theorem charges_charge (limits : Limits) (policy : RateLimitPolicy) {key : String}
    (h : ∀ email, key ≠ LoginUseCase.accountKey email) :
    Charges env t limits (limits.charge env t policy key) := by
  unfold Limits.charge
  split
  · exact .single ⟨key, policy, h, rfl⟩
  · exact .refl

theorem charges_chargeIp (limits : Limits) (policy : RateLimitPolicy) {scope : String}
    (device : DeviceInfoDTO) (h : ∀ ip, (scopedIpKey scope ip).toList.head? ≠ some 'l') :
    Charges env t limits (limits.chargeIp env t policy scope device) := by
  unfold Limits.chargeIp
  split
  · exact charges_charge _ _ (ne_accountKey (h _))
  · exact .refl

/-- An error that leaves the world as it was. -/
@[simp] theorem Effect.refused {c : Call} {e : Failure} : Effect env t w c (.error e) w :=
  show Effect env t w c (.error e) (w.withLimits w.limits) from .failed .refl

theorem Effect.seen {c : Call} {a : Answer} (hc : c.Observes) :
    Effect env t w c (.ok a) w :=
  show Effect env t w c (.ok a) (w.withLimits w.limits) from .observed hc .refl

/-- Issuing a link: the earlier ones are spent and the fresh one is there. -/
theorem wp_issueLink {userId : UserId} {Q : Post String}
    (hok : ∀ tx', tx'.call = tx.call → tx'.draws = tx.draws + 2 →
      tx'.view w.db =
        EmailVerificationIssuer.issued env t tx.call tx.draws (tx.view w.db) userId →
      Q (w, tx') (.ok (env.supply.secret tx.call tx.draws)))
    (herr : ∀ tx' e, Q (w, tx') (.error e)) :
    wp (handler env t) (EmailVerificationIssuer.issue env userId) Q (w, tx) := by
  unfold EmailVerificationIssuer.issue
  simp only [monad_bind, monad_pure, wp_bind, wp_tokensInvalidateForUser, andThen_ok,
    wp_generateSecret, wp_now, wp_tokensAdd, andThen_error, wp_pure]
  refine ⟨fun _ => ?_, fun _ _ => herr _ _⟩
  apply hok
  · rfl
  · rfl
  · simp [EmailVerificationIssuer.issued, EmailVerificationIssuer.row,
      SecurityToken.withId, generatedSecret]

/-- `_load_user` finds the account, or fails on a document that does not load,
or does not find it. -/
theorem wp_loadUser {userId : UserId} {Q : Post (Option User)}
    (hview : tx.view w.db = w.db)
    (hok : ∀ user cache, AuthenticateUseCase.Loads env t w userId user cache →
      ∀ tx', Q (w.withCache cache, tx') (.ok (some user)))
    (herr : ∀ data e tx', Cache.get env w.cache t (userCacheKey userId) = some data →
      UserCacheCodec.loads env.isoFormat data = .error e → Q (w, tx') (.error e))
    (hnone : ∀ tx', w.db.userById userId = none → Q (w, tx') (.ok none)) :
    wp (handler env t) (AuthenticateUseCase.loadUser env userId) Q (w, tx) := by
  unfold AuthenticateUseCase.loadUser
  simp only [monad_bind, wp_bind, wp_cacheGet, andThen_ok]
  cases hget : Cache.get env w.cache t (userCacheKey userId) with
  | some cached =>
    simp only [wp_bind, wp_ofExcept]
    cases hload : UserCacheCodec.loads env.isoFormat cached with
    | error e => exact herr cached e tx hget hload
    | ok user => exact hok user w.cache (.hit hget hload) tx
  | none =>
    simp only [wp_bind, wp_usersGetById, andThen_ok, hview]
    cases huser : w.db.userById userId with
    | none => exact hnone _ huser
    | some user => exact hok user _ (.miss hget huser) _

/-! ## Looking a row up again -/

/-- A role is found again as long as the table of roles is the same. -/
theorem roleById_ne_none {db db' : Db} (h : db'.roles = db.roles) {id : RoleId} {role : Role}
    (hrole : db.roleById id = some role) : db'.roleById id ≠ none := by
  intro hnone
  simp only [Db.roleById, h, Option.map_eq_none_iff] at hnone
  simp [Db.roleById, hnone] at hrole

theorem userById_ne_none {db db' : Db} (h : db'.users = db.users) {id : UserId} {user : User}
    (huser : db.userById id = some user) : db'.userById id ≠ none := by
  intro hnone
  simp only [Db.userById, Db.userRow?, h, Option.map_eq_none_iff] at hnone
  simp [Db.userById, Db.userRow?, hnone] at huser

theorem linkRole_users (db : Db) (u : UserId) (r : RoleId) :
    (db.linkRole u r).users = db.users := by
  unfold Db.linkRole
  split <;> rfl

theorem linkPermission_roles (db : Db) (r : RoleId) (p : PermissionId) :
    (db.linkPermission r p).roles = db.roles := by
  unfold Db.linkPermission
  split <;> rfl

/-! ## Reading -/

theorem getUserProfile_effect (userId : UserId) :
    wp (handler env t) ((Call.getUserProfile userId).program env)
      (fun s out => Effect env t w (.getUserProfile userId) out s.1)
      (w, Tx.fresh w.calls) := by
  simp only [Call.program, getUserProfile]
  simp [Except.map]
  exact fun _ _ _ => .seen trivial

theorem listUserSessions_effect (userId : UserId) :
    wp (handler env t) ((Call.listUserSessions userId).program env)
      (fun s out => Effect env t w (.listUserSessions userId) out s.1)
      (w, Tx.fresh w.calls) := by
  simp only [Call.program, listUserSessions]
  simp [Except.map]
  exact .seen trivial

theorem listRoles_effect :
    wp (handler env t) (Call.listRoles.program env)
      (fun s out => Effect env t w .listRoles out s.1) (w, Tx.fresh w.calls) := by
  simp only [Call.program, listRoles]
  simp [Except.map]
  exact .seen trivial

theorem listPermissions_effect :
    wp (handler env t) (Call.listPermissions.program env)
      (fun s out => Effect env t w .listPermissions out s.1) (w, Tx.fresh w.calls) := by
  simp only [Call.program, listPermissions]
  simp [Except.map]
  exact .seen trivial

theorem listUsers_effect :
    wp (handler env t) (Call.listUsers.program env)
      (fun s out => Effect env t w .listUsers out s.1) (w, Tx.fresh w.calls) := by
  simp only [Call.program, listUsers]
  simp [Except.map]
  exact .seen trivial

/-! ## Sessions -/

theorem refresh_effect (token : Token) (device : Option DeviceInfoDTO) :
    wp (handler env t) ((Call.refresh token device).program env)
      (fun s out => Effect env t w (.refresh token device) out s.1)
      (w, Tx.fresh w.calls) := by
  simp only [Call.program, refreshToken]
  simp [Except.map]
  rintro c rfl hs ht htype old hold hvalid user huser hactive
  exact ⟨fun _ => .refreshed hs ht htype hold hvalid huser hactive,
    fun _ _ => .refreshClash hs huser⟩

theorem logout_effect (token : Token) (device : Option DeviceInfoDTO) :
    wp (handler env t) ((Call.logout token device).program env)
      (fun s out => Effect env t w (.logout token device) out s.1)
      (w, Tx.fresh w.calls) := by
  simp only [Call.program, Users.logout, monad_bind, wp_map, wp_bind]
  rw [wp_ask, andThen_ok]
  cases hdecode : JwtTokenService.decode w.signed t token with
  | error e =>
    simp only [Machine.alone, perform, hdecode]
    exact .logoutIgnored hdecode
  | ok payload =>
    obtain ⟨c, rfl, hs, ht, rfl⟩ := decode_eq_ok.1 hdecode
    simp only [Machine.alone, perform, hdecode]
    simp [Except.map]
    exact fun _ => .loggedOut hs ht ⟨rfl, rfl⟩

theorem revokeAllSessions_effect (userId : UserId) (exceptJti : Option String)
    (device : Option DeviceInfoDTO) :
    wp (handler env t) ((Call.revokeAllSessions userId exceptJti device).program env)
      (fun s out => Effect env t w (.revokeAllSessions userId exceptJti device) out s.1)
      (w, Tx.fresh w.calls) := by
  simp only [Call.program, revokeAllSessions]
  simp [Except.map]
  exact fun _ => .sessionsRevoked ⟨rfl, rfl⟩

theorem revokeUserSession_effect (userId : UserId) (sessionId : SessionId)
    (device : Option DeviceInfoDTO) :
    wp (handler env t) ((Call.revokeUserSession userId sessionId device).program env)
      (fun s out => Effect env t w (.revokeUserSession userId sessionId device) out s.1)
      (w, Tx.fresh w.calls) := by
  simp only [Call.program, revokeUserSession]
  simp [Except.map]
  exact fun session hsession howner _ => .sessionRevoked hsession howner ⟨rfl, rfl⟩

theorem authenticate_effect (token : Token) :
    wp (handler env t) ((Call.authenticate token).program env)
      (fun s out => Effect env t w (.authenticate token) out s.1)
      (w, Tx.fresh w.calls) := by
  simp only [Call.program, Users.authenticate]
  simp [Except.map]
  rintro c rfl hs ht htype session hsession hvalid
  refine wp_loadUser rfl (fun user cache hload tx' => ?_) (fun _ _ _ _ _ => .refused)
    fun _ _ => ?_
  · simp
    cases hactive : user.isActive with
    | false => simpa using .authenticateInactive hs hsession hvalid hload hactive
    | true => simpa using .authenticated hs ht htype hsession hvalid hload hactive
  · simp

/-! ## Roles -/

theorem createRole_effect (name : String) (description : Option String) :
    wp (handler env t) ((Call.createRole name description).program env)
      (fun s out => Effect env t w (.createRole name description) out s.1)
      (w, Tx.fresh w.calls) := by
  simp only [Call.program, createRole]
  simp [Except.map]
  exact fun hfree => .roleCreated rfl hfree

theorem deleteRole_effect (roleId : RoleId) :
    wp (handler env t) ((Call.deleteRole roleId).program env)
      (fun s out => Effect env t w (.deleteRole roleId) out s.1)
      (w, Tx.fresh w.calls) := by
  simp only [Call.program, deleteRole]
  simp [Except.map]
  exact fun role hrole => .roleDeleted hrole

theorem grantPermissionToRole_effect (roleId : RoleId) (permissionId : PermissionId) :
    wp (handler env t) ((Call.grantPermissionToRole roleId permissionId).program env)
      (fun s out => Effect env t w (.grantPermissionToRole roleId permissionId) out s.1)
      (w, Tx.fresh w.calls) := by
  simp only [Call.program, grantPermissionToRole]
  simp [Except.map]
  intro role hrole permission hpermission _
  refine ⟨fun _ _ => .permissionGranted hrole hpermission, fun hnone => ?_⟩
  exact absurd hnone (roleById_ne_none (linkPermission_roles _ _ _) hrole)

theorem revokePermissionFromRole_effect (roleId : RoleId) (permissionId : PermissionId) :
    wp (handler env t) ((Call.revokePermissionFromRole roleId permissionId).program env)
      (fun s out => Effect env t w (.revokePermissionFromRole roleId permissionId) out s.1)
      (w, Tx.fresh w.calls) := by
  simp only [Call.program, revokePermissionFromRole]
  simp [Except.map]
  intro role hrole
  refine ⟨fun _ _ => .permissionRevoked hrole, fun hnone => ?_⟩
  have hroles : (Write.apply w.db (.deleteRolePermission roleId permissionId)).roles =
      w.db.roles := rfl
  exact absurd hnone (roleById_ne_none hroles hrole)

theorem createPermission_effect (resource action : String) (description : Option String) :
    wp (handler env t) ((Call.createPermission resource action description).program env)
      (fun s out => Effect env t w (.createPermission resource action description) out s.1)
      (w, Tx.fresh w.calls) := by
  simp only [Call.program, createPermission]
  simp [Except.map]
  exact fun _ hfree => .permissionCreated rfl hfree

theorem assignRoleToUser_effect (userId : UserId) (roleId : RoleId) :
    wp (handler env t) ((Call.assignRoleToUser userId roleId).program env)
      (fun s out => Effect env t w (.assignRoleToUser userId roleId) out s.1)
      (w, Tx.fresh w.calls) := by
  simp only [Call.program, assignRoleToUser]
  simp [Except.map]
  intro user huser role hrole _
  refine ⟨fun _ _ => .roleAssigned huser hrole, fun hnone => ?_⟩
  exact absurd hnone (userById_ne_none (linkRole_users _ _ _) huser)

theorem revokeRoleFromUser_effect (userId : UserId) (roleId : RoleId) :
    wp (handler env t) ((Call.revokeRoleFromUser userId roleId).program env)
      (fun s out => Effect env t w (.revokeRoleFromUser userId roleId) out s.1)
      (w, Tx.fresh w.calls) := by
  simp only [Call.program, revokeRoleFromUser]
  simp [Except.map]
  intro user huser
  refine ⟨fun _ _ => .roleRevoked huser, fun hnone => ?_⟩
  have husers : (Write.apply w.db (.deleteUserRole userId roleId)).users = w.db.users := rfl
  exact absurd hnone (userById_ne_none husers huser)

/-! ## Accounts -/

/-- The account that is loaded by an id has that id, and its row is there. -/
theorem userById_row {db : Db} {id : UserId} {user : User}
    (h : db.userById id = some user) :
    user.id = id ∧ ∃ row, db.userRow? id = some row ∧ user = db.userToEntity row := by
  obtain ⟨row, hrow, rfl⟩ := Option.map_eq_some_iff.1 h
  exact ⟨userRow?_id hrow, row, hrow, rfl⟩

/-- Loading an account again does not change whose it is. -/
theorem userById_getD_id {db : Db} {id : UserId} {user : User} (h : user.id = id) :
    ((db.userById id).getD user).id = id := by
  cases hload : db.userById id with
  | none => exact h
  | some found => exact (userById_row hload).1

theorem changePassword_effect (userId : UserId) (data : ChangePasswordDTO)
    (device : Option DeviceInfoDTO) :
    wp (handler env t) ((Call.changePassword userId data device).program env)
      (fun s out => Effect env t w (.changePassword userId data device) out s.1)
      (w, Tx.fresh w.calls) := by
  simp only [Call.program, Users.changePassword]
  simp [Except.map]
  intro hrepeat user huser
  obtain ⟨hid, -⟩ := userById_row huser
  have htried (e : Failure) : Effect env t w (.changePassword userId data device) (.error e)
      (w.checked ⟨t, user.id, data.currentPassword,
        env.hasher.verify data.currentPassword user.passwordHash⟩) :=
    .passwordTried hrepeat huser
  refine ⟨fun hverify => ⟨fun _ => ⟨fun _ => htried _, fun row hrow =>
    ⟨fun _ => ?_, fun _ _ => htried _⟩⟩, fun _ => htried _⟩, fun _ => htried _⟩
  rw [hverify]
  exact .passwordChanged huser (hid ▸ hrow) hverify ⟨rfl, rfl⟩

theorem deleteUser_effect (userId : UserId) (device : Option DeviceInfoDTO) :
    wp (handler env t) ((Call.deleteUser userId device).program env)
      (fun s out => Effect env t w (.deleteUser userId device) out s.1)
      (w, Tx.fresh w.calls) := by
  simp only [Call.program, Users.deleteUser]
  simp [Except.map]
  intro user huser row hrow _ _
  obtain ⟨hid, -⟩ := userById_row huser
  exact .userDeleted huser (hid ▸ hrow) ⟨rfl, rfl, rfl⟩

theorem banUser_effect (actor : User) (targetId : UserId) (reason : Option String)
    (device : Option DeviceInfoDTO) :
    wp (handler env t) ((Call.banUser actor targetId reason device).program env)
      (fun s out => Effect env t w (.banUser actor targetId reason device) out s.1)
      (w, Tx.fresh w.calls) := by
  simp only [Call.program, Users.banUser, BanUserUseCase.deactivate, forgetIfChanged]
  simp [Except.map]
  intro _ user huser hsuper
  refine ⟨fun hactive row hrow _ _ => ?_, fun hactive => .banSkipped huser hactive⟩
  obtain ⟨hid, -⟩ := userById_row huser
  exact .userBanned hsuper huser hactive (hid ▸ hrow) ⟨rfl, rfl, rfl⟩

theorem unbanUser_effect (actor : User) (targetId : UserId)
    (device : Option DeviceInfoDTO) :
    wp (handler env t) ((Call.unbanUser actor targetId device).program env)
      (fun s out => Effect env t w (.unbanUser actor targetId device) out s.1)
      (w, Tx.fresh w.calls) := by
  simp only [Call.program, Users.unbanUser, UnbanUserUseCase.reactivate, forgetIfChanged]
  simp [Except.map]
  intro user huser
  refine ⟨fun _ => .seen trivial, fun hactive row hrow _ _ => ?_⟩
  obtain ⟨hid, -⟩ := userById_row huser
  exact .userUnbanned huser hactive (hid ▸ hrow) ⟨rfl, rfl, rfl⟩

theorem forgotPassword_effect (email : String) (device : Option DeviceInfoDTO) :
    wp (handler env t) ((Call.forgotPassword email device).program env)
      (fun s out => Effect env t w (.forgotPassword email device) out s.1)
      (w, Tx.fresh w.calls) := by
  have hkey (other : String) :
      s!"forgot-password:{env.normalize email}" ≠ LoginUseCase.accountKey other :=
    ne_accountKey (by simp [toString]) other
  have hscope (ip : String) :
      (scopedIpKey "forgot-password" ip).toList.head? ≠ some 'l' := by
    simp [scopedIpKey, toString]
  have hl₁ : Charges env t w.limits _ :=
    charges_charge w.limits env.config.forgotPasswordEmailPolicy hkey
  have hl := hl₁.trans (charges_chargeIp _ env.config.forgotPasswordIpPolicy
    (device.getD {}) hscope)
  simp only [Call.program, Users.forgotPassword, ForgotPasswordUseCase.checkRateLimits]
  simp [Except.map]
  refine ⟨fun _ => ?_, fun _ => .failed hl₁⟩
  refine wp_chargeIpOrRefuse ?_ fun e => .failed hl
  simp
  cases howner : (w.db.userByEmail (env.normalize email)).filter (·.isActive) with
  | none =>
    simp [ForgotPasswordUseCase.issue, ForgotPasswordUseCase.sendIssued]
    exact .observed trivial hl
  | some user =>
    obtain ⟨huser, hactive⟩ := Option.filter_eq_some_iff.1 howner
    simp [ForgotPasswordUseCase.issue, ForgotPasswordUseCase.sendIssued]
    exact ⟨fun _ => .resetRequested hl huser hactive, fun _ _ => .failed hl⟩

theorem resetPassword_effect (data : ResetPasswordDTO) (device : Option DeviceInfoDTO) :
    wp (handler env t) ((Call.resetPassword data device).program env)
      (fun s out => Effect env t w (.resetPassword data device) out s.1)
      (w, Tx.fresh w.calls) := by
  have hscope (ip : String) :
      (scopedIpKey "reset-password" ip).toList.head? ≠ some 'l' := by
    simp [scopedIpKey, toString]
  have hl : Charges env t w.limits _ :=
    charges_chargeIp w.limits env.config.resetPasswordIpPolicy (device.getD {}) hscope
  have hfail (e : Failure) :
      Effect env t w (.resetPassword data device) (.error e) (w.withLimits _) := .failed hl
  simp only [Call.program, Users.resetPassword, ResetPasswordUseCase.checkRateLimit, monad_bind,
    wp_map, wp_bind]
  refine wp_chargeIpOrRefuse ?_ fun e => hfail _
  simp [Except.map, hfail]
  intro _ token htoken husable user huser hactive row hrow _
  exact .passwordReset hl htoken husable huser hactive hrow ⟨rfl, rfl⟩

theorem verifyEmail_effect (secret : String) (device : Option DeviceInfoDTO) :
    wp (handler env t) ((Call.verifyEmail secret device).program env)
      (fun s out => Effect env t w (.verifyEmail secret device) out s.1)
      (w, Tx.fresh w.calls) := by
  simp only [Call.program, Users.verifyEmail, VerifyEmailUseCase.stamp]
  simp [Except.map]
  intro token htoken husable user huser hactive
  obtain ⟨hid, row, hrow, -⟩ := userById_row huser
  refine ⟨fun hverified _ => ?_, fun hverified found hfound _ _ => ?_⟩
  · have hstamped : VerifyEmailUseCase.stamped t
        (w.db.useWhere (Statement.markUsedWhere token.id) t) row user =
          w.db.useWhere (Statement.markUsedWhere token.id) t := if_pos hverified
    rw [← hstamped]
    exact .emailVerified htoken husable huser hactive (hid ▸ hrow) rfl ⟨rfl, rfl⟩
  · have hfound' : w.db.userRow? user.id = some found := hfound
    have hstamped : VerifyEmailUseCase.stamped t
        (w.db.useWhere (Statement.markUsedWhere token.id) t) found user =
          (w.db.useWhere (Statement.markUsedWhere token.id) t).setProfile found
            (user.withVerifiedAt t).profile t := if_neg (by simp [hverified])
    have hkey : ((w.db.useWhere (Statement.markUsedWhere token.id) t).userToEntity
        (found.setProfile (user.withVerifiedAt t).profile t)).id = user.id :=
      (UserRow.setProfile_id _ _ _).trans (userRow?_id hfound')
    rw [hkey, ← hstamped]
    exact .emailVerified htoken husable huser hactive hfound' hkey ⟨rfl, rfl⟩

/-- The result of `changeEmail`, on what the transaction sees. -/
def UpdateUserUseCase.EmailChange (env : Env) (db : Db) (email : Option String)
    (user edited : User) : Prop :=
  (edited = user ∧ (email.map env.normalize).getD user.email = user.email) ∨
    ∃ new, edited = user.withNewEmail new ∧ email.map env.normalize = some new ∧
      new ≠ user.email ∧ db.userByEmail new = none

/-- The result of `changeUsername`. -/
def UpdateUserUseCase.UsernameChange (env : Env) (db : Db) (username : Option String)
    (user edited : User) : Prop :=
  (edited = user ∧ (username.map env.strip).getD user.username = user.username) ∨
    ∃ new, edited = user.withUsername new ∧ username.map env.strip = some new ∧
      new ≠ user.username ∧ db.userByUsername new = none

theorem wp_changeEmail {user : User} {email : Option String} {Q : Post User}
    (hok : ∀ edited tx', (tx' = tx ∨ tx' = tx.begin_ t) →
      UpdateUserUseCase.EmailChange env (tx.view w.db) email user edited →
      Q (w, tx') (.ok edited))
    (herr : ∀ tx' e, Q (w, tx') (.error (.application e))) :
    wp (handler env t) (UpdateUserUseCase.changeEmail env user email) Q (w, tx) := by
  unfold UpdateUserUseCase.changeEmail
  cases email with
  | none => exact hok _ _ (.inl rfl) (.inl ⟨rfl, rfl⟩)
  | some email =>
    by_cases hsame : env.normalize email = user.email
    · simp only [hsame, if_true]
      exact hok _ _ (.inl rfl) (.inl ⟨rfl, hsame⟩)
    · simp [hsame]
      refine ⟨fun hfree => ?_, fun _ => herr _ _⟩
      exact hok _ _ (.inr rfl) (.inr ⟨_, rfl, rfl, hsame, hfree⟩)

theorem wp_changeUsername {user : User} {username : Option String} {Q : Post User}
    (hok : ∀ edited tx', (tx' = tx ∨ tx' = tx.begin_ t) →
      UpdateUserUseCase.UsernameChange env (tx.view w.db) username user edited →
      Q (w, tx') (.ok edited))
    (herr : ∀ tx' e, Q (w, tx') (.error (.application e))) :
    wp (handler env t) (UpdateUserUseCase.changeUsername env user username) Q (w, tx) := by
  unfold UpdateUserUseCase.changeUsername
  cases username with
  | none => exact hok _ _ (.inl rfl) (.inl ⟨rfl, rfl⟩)
  | some username =>
    by_cases hsame : env.strip username = user.username
    · simp only [hsame, if_true]
      exact hok _ _ (.inl rfl) (.inl ⟨rfl, hsame⟩)
    · simp [hsame]
      refine ⟨fun hfree => ?_, fun _ => herr _ _⟩
      exact hok _ _ (.inr rfl) (.inr ⟨_, rfl, rfl, hsame, hfree⟩)

/-- The three changes one after another are the edits of the call. -/
theorem UpdateUserUseCase.edits {db : Db} {data : UpdateUserDTO} {user a b : User}
    (ha : UpdateUserUseCase.EmailChange env db data.email user a)
    (hb : UpdateUserUseCase.UsernameChange env db data.username a b) :
    UpdateUserUseCase.Edits env db data user
      (UpdateUserUseCase.changeDisplayName b data.displayName) := by
  obtain ⟨username, displayName, email⟩ := data
  rcases ha with ⟨rfl, hemail⟩ | ⟨new, rfl, hnew, hne, hfree⟩ <;>
  rcases hb with ⟨rfl, hname⟩ | ⟨name, rfl, hname, hnne, hnfree⟩ <;>
  cases displayName <;>
  constructor <;>
  simp_all [-Option.map_eq_some_iff, UpdateUserUseCase.changeDisplayName, User.withNewEmail,
    User.withUsername, User.withDisplayName]

theorem updateUser_effect (userId : UserId) (data : UpdateUserDTO) :
    wp (handler env t) ((Call.updateUser userId data).program env)
      (fun s out => Effect env t w (.updateUser userId data) out s.1)
      (w, Tx.fresh w.calls) := by
  simp only [Call.program, Users.updateUser]
  simp [Except.map]
  intro user huser
  obtain ⟨hid, row, hrow, -⟩ := userById_row huser
  refine wp_changeEmail (fun a tx₁ htx₁ ha => ?_) fun tx' e => by simp
  simp
  refine wp_changeUsername (fun b tx₂ htx₂ hb => ?_) fun tx' e => by simp
  obtain ⟨hcall, hdraws, hview, hstamp⟩ : tx₂.call = w.calls ∧ tx₂.draws = 0 ∧
      tx₂.view w.db = w.db ∧ tx₂.stamp t = t := by
    rcases htx₁ with rfl | rfl <;> rcases htx₂ with rfl | rfl <;> exact ⟨rfl, rfl, rfl, rfl⟩
  have hedits : UpdateUserUseCase.Edits env w.db data user
      (UpdateUserUseCase.changeDisplayName b data.displayName) := by
    refine UpdateUserUseCase.edits ha ?_
    rcases htx₁ with rfl | rfl <;> exact hb
  rw [andThen_ok]
  generalize UpdateUserUseCase.changeDisplayName b data.displayName = edited at hedits ⊢
  simp [hview, hstamp]
  intro found hfound _
  have hfound' : w.db.userRow? userId = some found := by
    have hsame : edited.id = userId := by
      rw [hedits.rest]
      exact hid
    rwa [hsame] at hfound
  have hdone : Effect env t w (.updateUser userId data)
      (.ok (.user (w.db.userToEntity (found.setProfile edited.profile t)))) _ :=
    .userUpdated huser hfound' hedits
  simp [UpdateUserUseCase.issueIfUnverified]
  refine ⟨fun hverified => ?_, fun hverified => ?_⟩
  · simp [UpdateUserUseCase.finished, hverified] at hdone
    simp [UpdateUserUseCase.sendPending, hview, hstamp]
    exact hdone
  · simp [UpdateUserUseCase.finished, hverified] at hdone
    refine wp_issueLink (fun tx' hcall' hdraws' hview' => ?_) fun tx' e => by simp
    simp [UpdateUserUseCase.sendPending, EmailVerificationIssuer.send, hview', hcall,
      hdraws, hview, hstamp]
    exact hdone

/-! ## Signing up and logging in -/

theorem wp_grantDefault {created : User} {role : Option Role} {Q : Post Unit}
    (hok : ∀ tx', tx'.call = tx.call → tx'.draws = tx.draws →
      tx'.view w.db = (tx.view w.db).grantDefault created.id role → Q (w, tx') (.ok ()))
    (herr : ∀ tx' e, Q (w, tx') (.error e)) :
    wp (handler env t) (RegisterUserUseCase.grantDefault created role) Q (w, tx) := by
  cases role with
  | none => exact hok tx rfl rfl rfl
  | some role =>
    refine (wp_usersAssignRole _ _ _).2 ⟨fun _ => ?_, fun c _ _ => herr _ _⟩
    exact hok _ (by simp) (by simp) (by simp [Db.grantDefault])

theorem register_effect (data : RegisterUserDTO) (device : Option DeviceInfoDTO) :
    wp (handler env t) ((Call.register data device).program env)
      (fun s out => Effect env t w (.register data device) out s.1)
      (w, Tx.fresh w.calls) := by
  have hscope (ip : String) :
      (scopedIpKey "register" ip).toList.head? ≠ some 'l' := by
    simp [scopedIpKey, toString]
  have hl : Charges env t w.limits _ :=
    charges_chargeIp w.limits env.config.registerIpPolicy (device.getD {}) hscope
  have hfail (e : Failure) :
      Effect env t w (.register data device) (.error e) (w.withLimits _) := .failed hl
  simp only [Call.program, registerUser, RegisterUserUseCase.checkRateLimit, monad_bind,
    wp_map, wp_bind]
  refine wp_chargeIpOrRefuse ?_ fun e => hfail _
  simp [Except.map, hfail]
  intro _ hemail husername _
  refine wp_grantDefault (fun tx₁ hcall₁ hdraws₁ hview₁ => ?_) fun tx' e => by simp [hfail]
  simp only [andThen_ok, wp_bind]
  refine wp_issueLink (fun tx₂ hcall₂ hdraws₂ hview₂ => ?_) fun tx' e => by simp [hfail]
  simp at hcall₁ hdraws₁ hview₁ hcall₂ hdraws₂ hview₂
  simp [hcall₁, hdraws₁, hview₁, hcall₂, hdraws₂, hview₂, EmailVerificationIssuer.send, hfail]
  exact fun _ => .registered hl hemail husername rfl ⟨rfl, rfl⟩
    ⟨_, rfl, userById_getD_id rfl⟩

/-- The guard on the caller's address looks at a counter and may refuse. -/
theorem wp_guardIp {device : DeviceInfoDTO} {Q : Post Unit} (hok : Q (w, tx) (.ok ()))
    (herr : ∀ e, Q (w, tx) (.error e)) :
    wp (handler env t) (LoginUseCase.guardIp env device) Q (w, tx) := by
  unfold LoginUseCase.guardIp
  cases device.ipAddress with
  | none => simp [hok]
  | some ip => simp [hok, herr]

/-- The guard on the account lets the attempt pass, or refuses it. -/
theorem wp_guardAccount {email : String} {Q : Post Unit}
    (hok : LoginUseCase.Open env w.limits t email → Q (w, tx) (.ok ()))
    (herr : ∀ e, Q (w, tx) (.error e)) :
    wp (handler env t) (LoginUseCase.guardAccount env email) Q (w, tx) := by
  unfold LoginUseCase.guardAccount
  simp [herr]
  exact ⟨fun _ h => hok fun _ => h, fun h => hok fun h' => by simp [h] at h'⟩

/-- Whether the credentials are those of an active account. -/
def LoginUseCase.accepts (env : Env) (owner : Option User) (password : String) : Bool :=
  match owner with
  | some user => user.isActive && env.hasher.verify password user.passwordHash
  | none => false

theorem LoginUseCase.accepts_iff (owner : Option User) (password : String) :
    LoginUseCase.accepts env owner password = true ↔
      LoginUseCase.Accepts env owner password := by
  cases owner with
  | none => simp [accepts, Accepts]
  | some user => simp [accepts, Accepts]

@[simp] theorem wp_valid (owner : Option User) (password : String) (Q : Post Bool) :
    wp (handler env t) (LoginUseCase.valid owner password) Q (w, tx) ↔
      Q (LoginUseCase.tried env w t owner password, tx)
        (.ok (LoginUseCase.accepts env owner password)) := by
  unfold LoginUseCase.valid LoginUseCase.tried LoginUseCase.accepts
  cases owner with
  | none => rfl
  | some user => cases hactive : user.isActive <;> simp [hactive]

@[simp] theorem wp_charge (policy : RateLimitPolicy) (key : String) (Q : Post Unit) :
    wp (handler env t) (LoginUseCase.charge policy key) Q (w, tx) ↔
      Q (w.withLimits (w.limits.charge env t policy key), tx) (.ok ()) := by
  unfold LoginUseCase.charge Limits.charge
  by_cases he : policy.isEnforced = true
  · simp [he]
  · simp [he]
    rfl

@[simp] theorem wp_countFailure (email : String) (device : DeviceInfoDTO)
    (Q : Post Unit) :
    wp (handler env t) (LoginUseCase.countFailure env email device) Q (w, tx) ↔
      Q (w.withLimits (LoginUseCase.charged env w.limits t email device), tx) (.ok ()) := by
  unfold LoginUseCase.countFailure LoginUseCase.charged
  cases device.ipAddress <;> simp

@[simp] theorem LoginUseCase.tried_db (owner : Option User) (password : String) :
    (LoginUseCase.tried env w t owner password).db = w.db := by
  unfold tried
  split
  · split <;> rfl
  · rfl

@[simp] theorem LoginUseCase.tried_limits (owner : Option User) (password : String) :
    (LoginUseCase.tried env w t owner password).limits = w.limits := by
  unfold tried
  split
  · split <;> rfl
  · rfl

/-- Nothing committed is the same as what was there committed again. -/
theorem LoginUseCase.withDb_tried_charged (owner : Option User) (password : String)
    (limits : Limits) :
    ((LoginUseCase.tried env w t owner password).withLimits limits).withDb w.db =
      (LoginUseCase.tried env w t owner password).withLimits limits := by
  have hdb : w.db = (LoginUseCase.tried env w t owner password).db :=
    (LoginUseCase.tried_db owner password).symm
  exact congrArg (World.withDb _) hdb

theorem login_effect (data : LoginDTO) (device : Option DeviceInfoDTO) :
    wp (handler env t) ((Call.login data device).program env)
      (fun s out => Effect env t w (.login data device) out s.1)
      (w, Tx.fresh w.calls) := by
  simp only [Call.program, Users.login, monad_bind, wp_map, wp_bind]
  refine wp_guardIp ?_ fun e => .refused
  simp only [andThen_ok, wp_bind]
  refine wp_guardAccount (fun hopen => ?_) fun e => .refused
  simp [Except.map]
  cases haccepts : LoginUseCase.accepts env (w.db.userByEmail (env.normalize data.email))
      data.password with
  | true =>
    obtain ⟨user, huser, hactive, hverify⟩ := (LoginUseCase.accepts_iff _ _).1 haccepts
    have hclash (e : Failure) : Effect env t w (.login data device) (.error e)
        ((w.checked ⟨t, user.id, data.password, true⟩).signPair env t user.id
          (env.supply.jti w.calls 0)) := .loginClash hopen huser hactive hverify
    simp [huser, LoginUseCase.succeed, LoginUseCase.tried, hactive, hverify]
    refine ⟨fun _ => ⟨fun _ => ?_, fun _ _ => hclash _⟩, fun _ _ => hclash _⟩
    exact .loggedIn hopen huser hactive hverify ⟨rfl, rfl⟩
  | false =>
    have hbad : ¬ LoginUseCase.Accepts env (w.db.userByEmail (env.normalize data.email))
        data.password := fun h => by simp [(LoginUseCase.accepts_iff _ _).2 h] at haccepts
    simp [LoginUseCase.fail]
    refine ⟨fun _ => ?_, fun c _ => ?_⟩
    · exact .loginFailed hopen rfl hbad (.inl ⟨_, rfl, rfl, rfl⟩)
    · rw [← LoginUseCase.withDb_tried_charged]
      exact .loginFailed hopen rfl hbad (.inr ⟨rfl, c, rfl⟩)

/-! ## Every call -/

/-- The effect of a call that runs alone. -/
theorem runCall_effect (env : Env) (w : World) (t : Time) (c : Call) :
    ∃ w', Effect env t w c (runCall env w t c).2 w' ∧ (runCall env w t c).1 = w'.nextCall := by
  have h : wp (handler env t) (c.program env) (fun s out => Effect env t w c out s.1)
      (w, Tx.fresh w.calls) := by
    cases c with
    | register data device => exact register_effect data device
    | login data device => exact login_effect data device
    | logout token device => exact logout_effect token device
    | refresh token device => exact refresh_effect token device
    | authenticate token => exact authenticate_effect token
    | changePassword userId data device => exact changePassword_effect userId data device
    | forgotPassword email device => exact forgotPassword_effect email device
    | resetPassword data device => exact resetPassword_effect data device
    | verifyEmail token device => exact verifyEmail_effect token device
    | updateUser userId data => exact updateUser_effect userId data
    | deleteUser userId device => exact deleteUser_effect userId device
    | banUser actor targetId reason device => exact banUser_effect actor targetId reason device
    | unbanUser actor targetId device => exact unbanUser_effect actor targetId device
    | getUserProfile userId => exact getUserProfile_effect userId
    | listUserSessions userId => exact listUserSessions_effect userId
    | revokeAllSessions userId exceptJti device =>
      exact revokeAllSessions_effect userId exceptJti device
    | revokeUserSession userId sessionId device =>
      exact revokeUserSession_effect userId sessionId device
    | listRoles => exact listRoles_effect
    | createRole name description => exact createRole_effect name description
    | deleteRole roleId => exact deleteRole_effect roleId
    | grantPermissionToRole roleId permissionId =>
      exact grantPermissionToRole_effect roleId permissionId
    | revokePermissionFromRole roleId permissionId =>
      exact revokePermissionFromRole_effect roleId permissionId
    | listPermissions => exact listPermissions_effect
    | createPermission resource action description =>
      exact createPermission_effect resource action description
    | listUsers => exact listUsers_effect
    | assignRoleToUser userId roleId => exact assignRoleToUser_effect userId roleId
    | revokeRoleFromUser userId roleId => exact revokeRoleFromUser_effect userId roleId
  exact ⟨_, h, rfl⟩

end VideoSite.Users
