import VideoSite.Gateway.Http
import VideoSite.Users.Conflicts
import VideoSite.Users.StoredHashes

/-!
# Strings and the columns they are stored in

The columns of `adapter/database/orm_models` declare how long a string may be.  The bodies of
requests are checked before a use case sees them.  The `User-Agent`, the visitor cookie and the
address of the caller are not: `get_device_info` hands them on as they are.

* `Call.RowsFit` says that every row a call sends to the database fits its columns.
* `registerUser_rowsFit_iff`, `login_rowsFit_iff` and `refresh_rowsFit_iff` say for each use
  case what that takes.
* `header_lengths_iff` is the result about requests.

What the validation of an e-mail address lets through is a parameter, and so are `str.strip`,
`str.lower` and SHA-256, with what is used of them as hypotheses.
-/

namespace VideoSite.Users

open Effects Program

variable {env : Env} {t : Time} {w : World} {tx : Tx} {c : Call}

/-! ## Where a request comes from -/

/-- The settings that `get_device_info` and `VisitorMiddleware` look at. -/
structure DeviceConfig where
  visitorCookieName : String := "visitor_id"
  trustProxyHeaders : Bool := false

/-- `request.state.visitor_id` behind `VisitorMiddleware`: the cookie, or `minted`, a fresh
`str(uuid.uuid4())`. -/
def VisitorMiddleware.visitorId (cookieParser : String → List (String × String))
    (config : DeviceConfig) (minted : String) (request : Gateway.Request) : String :=
  (Gateway.truthy ((request.cookies cookieParser).get? config.visitorCookieName)).getD minted

def getDeviceInfo (cookieParser : String → List (String × String)) (config : DeviceConfig)
    (minted : String) (request : Gateway.Request) : DeviceInfoDTO where
  visitorId := some (VisitorMiddleware.visitorId cookieParser config minted request)
  userAgent := request.headers.get? "user-agent"
  ipAddress := Gateway.callerAddress config.trustProxyHeaders request

/-! ## The columns -/

/-- A value of a nullable `String(limit)` column. -/
def FitsColumn (limit : Nat) (value : Option String) : Prop :=
  ∀ text ∈ value, text.length ≤ limit

instance (limit : Nat) (value : Option String) : Decidable (FitsColumn limit value) :=
  inferInstanceAs (Decidable (∀ text ∈ value, text.length ≤ limit))

/-- The value of an `AuditAction`. -/
def AuditAction.value : AuditAction → String
  | register => "REGISTER"
  | login => "LOGIN"
  | loginFailed => "LOGIN_FAILED"
  | logout => "LOGOUT"
  | passwordChanged => "PASSWORD_CHANGED"
  | passwordReset => "PASSWORD_RESET"
  | emailVerified => "EMAIL_VERIFIED"
  | sessionRevoked => "SESSION_REVOKED"
  | userBanned => "USER_BANNED"
  | userUnbanned => "USER_UNBANNED"

/-- The value of a `TokenPurpose`. -/
def TokenPurpose.value : TokenPurpose → String
  | emailVerification => "email_verification"
  | passwordReset => "password_reset"

/-- The columns of `UserORM`. -/
structure User.Fits (user : User) : Prop where
  email : user.email.length ≤ 320
  username : user.username.length ≤ 50
  passwordHash : user.passwordHash.length ≤ 255
  displayName : FitsColumn 100 user.displayName
  visitorId : FitsColumn 36 user.visitorId

/-- The columns of `SessionORM`. -/
structure AuthSession.Fits (session : AuthSession) : Prop where
  jti : session.jti.length ≤ 64
  visitorId : FitsColumn 36 session.visitorId
  userAgent : FitsColumn 400 session.userAgent
  ipAddress : FitsColumn 45 session.ipAddress
  device : FitsColumn 100 session.device

/-- The columns of `SecurityTokenORM`. -/
structure SecurityToken.Fits (token : SecurityToken) : Prop where
  purpose : token.purpose.value.length ≤ 32
  tokenHash : token.tokenHash.length ≤ 64

/-- The columns of `AuditEventORM`. -/
structure AuditEvent.Fits (event : AuditEvent) : Prop where
  action : event.action.value.length ≤ 32
  ipAddress : FitsColumn 45 event.ipAddress
  userAgent : FitsColumn 400 event.userAgent

/-- The row that is sent, if one is, fits its columns. -/
def Op.Fits : Op → Prop
  | .sql (.usersAdd user) => user.Fits
  | .sql (.sessionsAdd session) => session.Fits
  | .sql (.tokensAdd token) => token.Fits
  | .sql (.auditAdd event) => event.Fits
  | _ => True

/-- Every row that the call sends as it runs alone fits its columns. -/
def Call.RowsFit (env : Env) (w : World) (t : Time) (c : Call) : Prop :=
  (c.program env).Meets (handler env t) Op.Fits (w, Tx.fresh w.calls)

/-- The parts of a device that audit rows have. -/
structure DeviceInfoDTO.AuditFits (device : DeviceInfoDTO) : Prop where
  ipAddress : FitsColumn 45 device.ipAddress
  userAgent : FitsColumn 400 device.userAgent

@[simp] theorem fitsColumn_none (limit : Nat) : FitsColumn limit none := by
  intro text htext
  cases htext

@[simp] theorem fitsColumn_some {limit : Nat} {text : String} :
    FitsColumn limit (some text) ↔ text.length ≤ limit := by
  simp [FitsColumn]

theorem AuditAction.value_length (action : AuditAction) : action.value.length ≤ 32 := by
  cases action <;> decide

theorem TokenPurpose.value_length (purpose : TokenPurpose) : purpose.value.length ≤ 32 := by
  cases purpose <;> decide

/-! ## What the calls of a use case send -/

section Rows

variable {α : Type} {s : World × Tx}

/-- The rows that a use case sends fit. -/
abbrev SendsFit (env : Env) (t : Time) (p : UseCase α) (s : World × Tx) : Prop :=
  p.Meets (handler env t) Op.Fits s

theorem sendsFit_ask (op : Op) : SendsFit env t (ask op) s ↔ op.Fits := by
  show op.Fits ∧ True ↔ op.Fits
  rw [and_true]

/-- A call that sends no row. -/
theorem sendsFit_silent {op : Op} (h : op.Fits) : SendsFit env t (ask op) s ↔ True := by
  rw [sendsFit_ask, iff_true]
  exact h

/-- A statement that may fail. -/
theorem sendsFit_answer {o : Op} (f : o.Res → Except Failure α) :
    SendsFit env t ((ask o).bind fun r => .ofExcept (f r)) s ↔ o.Fits := by
  show o.Fits ∧ (Program.ofExcept _ : UseCase α).Meets _ _ _ ↔ o.Fits
  rw [meets_ofExcept, and_true]

@[simp] theorem sendsFit_now : SendsFit env t now s ↔ True := sendsFit_silent trivial

@[simp] theorem sendsFit_uuid4 : SendsFit env t uuid4 s ↔ True := sendsFit_silent trivial

@[simp] theorem sendsFit_generateSecret : SendsFit env t generateSecret s ↔ True :=
  sendsFit_silent trivial

@[simp] theorem sendsFit_hash (plain : String) : SendsFit env t (hasher.hash plain) s ↔ True :=
  sendsFit_silent trivial

@[simp] theorem sendsFit_commit : SendsFit env t commit s ↔ True := sendsFit_silent trivial

@[simp] theorem sendsFit_sendEmail (message : EmailMessageDTO) :
    SendsFit env t (sendEmail message) s ↔ True := sendsFit_silent trivial

@[simp] theorem sendsFit_verify (plain : String) (user : User) :
    SendsFit env t (hasher.verify plain user) s ↔ True := sendsFit_silent trivial

@[simp] theorem sendsFit_hit (key : String) (policy : RateLimitPolicy) :
    SendsFit env t (limiter.hit key policy) s ↔ True := sendsFit_silent trivial

@[simp] theorem sendsFit_peek (key : String) (policy : RateLimitPolicy) :
    SendsFit env t (limiter.peek key policy) s ↔ True := sendsFit_silent trivial

@[simp] theorem sendsFit_reset (key : String) : SendsFit env t (limiter.reset key) s ↔ True :=
  sendsFit_silent trivial

@[simp] theorem sendsFit_issueAccess (u : UserId) (jti : String) :
    SendsFit env t (tokenService.issueAccess u jti) s ↔ True := sendsFit_silent trivial

@[simp] theorem sendsFit_issueRefresh (u : UserId) (jti : String) :
    SendsFit env t (tokenService.issueRefresh u jti) s ↔ True := sendsFit_silent trivial

@[simp] theorem sendsFit_decode (token : Token) :
    SendsFit env t (tokenService.decode token) s ↔ True := by
  unfold tokenService.decode
  exact (sendsFit_answer (o := .decode token) fun r => r).trans (iff_true_intro trivial)

@[simp] theorem sendsFit_usersAdd (user : User) :
    SendsFit env t (users.add user) s ↔ user.Fits :=
  sendsFit_answer (o := .sql (.usersAdd user)) fun r => r

@[simp] theorem sendsFit_usersGetByEmail (email : String) :
    SendsFit env t (users.getByEmail email) s ↔ True := sendsFit_silent trivial

@[simp] theorem sendsFit_usersGetByUsername (username : String) :
    SendsFit env t (users.getByUsername username) s ↔ True := sendsFit_silent trivial

@[simp] theorem sendsFit_usersGetById (u : UserId) :
    SendsFit env t (users.getById u) s ↔ True := sendsFit_silent trivial

@[simp] theorem sendsFit_usersAssignRole (u : UserId) (r : RoleId) :
    SendsFit env t (users.assignRole u r) s ↔ True :=
  (sendsFit_answer (o := .sql (.usersAssignRole u r)) fun r => r).trans (iff_true_intro trivial)

@[simp] theorem sendsFit_rolesGetByName (name : String) :
    SendsFit env t (roles.getByName name) s ↔ True := sendsFit_silent trivial

@[simp] theorem sendsFit_sessionsGetByJti (jti : String) :
    SendsFit env t (sessions.getByJti jti) s ↔ True := sendsFit_silent trivial

@[simp] theorem sendsFit_sessionsRevoke (jti : String) (moment : Time) :
    SendsFit env t (sessions.revoke jti moment) s ↔ True := sendsFit_silent trivial

@[simp] theorem sendsFit_sessionsAdd (session : AuthSession) :
    SendsFit env t (sessions.add session) s ↔ session.Fits :=
  sendsFit_answer (o := .sql (.sessionsAdd session)) fun r => r

@[simp] theorem sendsFit_tokensInvalidateForUser (u : UserId) (purpose : TokenPurpose) :
    SendsFit env t (securityTokens.invalidateForUser u purpose) s ↔ True :=
  sendsFit_silent trivial

@[simp] theorem sendsFit_tokensAdd (token : SecurityToken) :
    SendsFit env t (securityTokens.add token) s ↔ token.Fits :=
  sendsFit_answer (o := .sql (.tokensAdd token)) fun r => r

@[simp] theorem sendsFit_auditLogAdd (event : AuditEvent) :
    SendsFit env t (auditLog.add event) s ↔ event.Fits :=
  sendsFit_answer (o := .sql (.auditAdd event)) fun r => r

@[simp] theorem sendsFit_require (cond : Bool) (e : ApplicationError) :
    SendsFit env t (require cond e) s ↔ True := iff_true_intro (only_require cond e).meets

@[simp] theorem sendsFit_orRaise (value : Option α) (e : ApplicationError) :
    SendsFit env t (orRaise value e) s ↔ True := by
  cases value <;> exact Iff.rfl

@[simp] theorem sendsFit_withUow (body : UseCase α) :
    SendsFit env t (withUow body) s ↔ SendsFit env t body s := by
  unfold withUow
  rw [SendsFit, meets_closing]
  exact and_iff_left trivial

@[simp] theorem sendsFit_chargeIpOrRefuse (policy : RateLimitPolicy) (scope : String)
    (device : DeviceInfoDTO) (message : String) :
    SendsFit env t (chargeIpOrRefuse policy scope device message) s ↔ True :=
  iff_true_intro (only_chargeIpOrRefuse (fun _ => trivial) scope device message).meets

@[simp] theorem sendsFit_grantDefault (created : User) (role : Option Role) :
    SendsFit env t (RegisterUserUseCase.grantDefault created role) s ↔ True := by
  cases role with
  | none => exact Iff.rfl
  | some role => exact sendsFit_usersAssignRole _ _

end Rows

section Parts

/-- An audit row fits if the parts of the device on it do. -/
@[simp] theorem sendsFit_auditRecord (action : AuditAction) (u : Option UserId)
    (device : Option DeviceInfoDTO) (metadata : List (String × MetaValue)) :
    SendsFit env t (audit.record action u device metadata) (w, tx) ↔
      (device.getD {}).AuditFits := by
  unfold audit.record
  simp
  constructor
  · intro h
    exact ⟨h.ipAddress, h.userAgent⟩
  · intro h
    exact ⟨AuditAction.value_length _, h.ipAddress, h.userAgent⟩

@[simp] theorem sendsFit_guardIp (device : DeviceInfoDTO) :
    SendsFit env t (LoginUseCase.guardIp env device) (w, tx) ↔ True := by
  unfold LoginUseCase.guardIp
  cases device.ipAddress with
  | none => simp
  | some ip => simp

@[simp] theorem sendsFit_guardAccount (email : String) :
    SendsFit env t (LoginUseCase.guardAccount env email) (w, tx) ↔ True := by
  unfold LoginUseCase.guardAccount
  simp

@[simp] theorem sendsFit_valid (owner : Option User) (password : String) :
    SendsFit env t (LoginUseCase.valid owner password) (w, tx) ↔ True := by
  unfold LoginUseCase.valid
  cases owner with
  | none => simp
  | some user => simp

@[simp] theorem sendsFit_charge (policy : RateLimitPolicy) (key : String) :
    SendsFit env t (LoginUseCase.charge policy key) (w, tx) ↔ True := by
  unfold LoginUseCase.charge
  simp

@[simp] theorem sendsFit_countFailure (email : String) (device : DeviceInfoDTO) :
    SendsFit env t (LoginUseCase.countFailure env email device) (w, tx) ↔ True := by
  unfold LoginUseCase.countFailure
  cases device.ipAddress with
  | none => simp
  | some ip => simp

end Parts

/-! ## Register -/

/-- A one-time token is accepted just if no stored one of its purpose has its hash. -/
theorem Db.accepts_token_iff {db : Db} {cond : SecurityToken → Bool} {moment : Time}
    {row : SecurityToken} (huser : db.hasUser row.userId = true) :
    (db.useWhere cond moment).violation (.insertToken row) = none ↔
      ∀ token ∈ db.securityTokens, token.purpose = row.purpose →
        token.tokenHash ≠ row.tokenHash := by
  have hkept : (db.useWhere cond moment).hasUser row.userId = true := huser
  have hsame (token : SecurityToken) :
      (token.useIn (tokenIds db cond) moment).tokenHash = token.tokenHash ∧
        (token.useIn (tokenIds db cond) moment).purpose = token.purpose := by
    unfold SecurityToken.useIn
    split <;> exact ⟨rfl, rfl⟩
  have hall : ((db.useWhere cond moment).securityTokens.all fun other =>
      other.tokenHash != row.tokenHash || other.purpose != row.purpose) = true ↔
        ∀ token ∈ db.securityTokens, token.purpose = row.purpose →
          token.tokenHash ≠ row.tokenHash := by
    rw [Db.useWhere_tokens, List.all_map, List.all_eq_true]
    refine forall₂_congr fun token _ => ?_
    simp [(hsame token).1, (hsame token).2]
    tauto
  rw [← hall]
  simp only [violation, firstBroken, hkept]
  cases (db.useWhere cond moment).securityTokens.all fun other =>
    other.tokenHash != row.tokenHash || other.purpose != row.purpose <;> simp

/-- The hash of the link that `Register` is going to mail is not stored yet. -/
def RegisterUserUseCase.LinkNew (env : Env) (w : World) : Prop :=
  ∀ token ∈ w.db.securityTokens, token.purpose = .emailVerification →
    token.tokenHash ≠ env.tokenHash (env.supply.secret w.calls 2)

/-- What follows the issue of a link is reached just if the link is accepted. -/
theorem sendsFit_issue {α : Type} {u : UserId} {f : String → UseCase α} {C : Prop}
    (hu : (tx.view w.db).hasUser u = true)
    (hhash : (env.tokenHash (env.supply.secret tx.call tx.draws)).length ≤ 64)
    (hf : ∀ plain tx', SendsFit env t (f plain) (w, tx') ↔ C) :
    SendsFit env t ((EmailVerificationIssuer.issue env u).bind f) (w, tx) ↔
      ((∀ token ∈ (tx.view w.db).securityTokens, token.purpose = .emailVerification →
        token.tokenHash ≠ env.tokenHash (env.supply.secret tx.call tx.draws)) → C) := by
  unfold EmailVerificationIssuer.issue
  simp
  rw [and_iff_right ⟨TokenPurpose.value_length _, hhash⟩, Db.accepts_token_iff (by exact hu)]
  exact imp_congr Iff.rfl (hf _ _)

/-- `Register` sends the row of an account as soon as it has passed its checks, and an audit
row at the end. -/
theorem registerUser_rowsFit_iff {data : RegisterUserDTO} {device : Option DeviceInfoDTO}
    (htoken : (env.tokenHash (env.supply.secret w.calls 2)).length ≤ 64)
    (huser : (RegisterUserUseCase.account env w.calls 0 data).Fits ↔
      FitsColumn 36 data.visitorId) :
    (Call.register data device).RowsFit env w t ↔
      (RegisterUserUseCase.Passes env w t data device →
        FitsColumn 36 data.visitorId ∧
          (RegisterUserUseCase.LinkNew env w → (device.getD {}).AuditFits)) := by
  have hmail (stored : Option User × User × String) :
      ((EmailVerificationIssuer.send env (env.normalize data.email) stored.2.2).bind fun _ =>
        (Pure.pure (stored.1.getD stored.2.1) : UseCase User)).Only Op.Fits :=
    ⟨trivial, fun _ => trivial⟩
  simp only [Call.RowsFit, Call.program, registerUser, RegisterUserUseCase.checkRateLimit,
    monad_bind, meets_map]
  rw [meets_bind, wp_chargeIpOrRefuse_refusal, meetsThen_ok, meets_bind, wp_require,
    meetsThen_ok, meets_bind_of_only hmail]
  by_cases hpasses : RegisterUserUseCase.Passes env w t data device
  · have hrepeated : (data.password == data.passwordRepeat) = true :=
      beq_iff_eq.2 hpasses.repeated
    rw [forall_prop_of_true hpasses, ← huser]
    simp [hpasses.allowed, hrepeated, hpasses.emailFree, hpasses.usernameFree]
    refine and_congr Iff.rfl ?_
    generalize hrow : addedRow env t w.calls 1 _ = row
    have haccepted : w.db.violation (.insertUser row) = none := by
      subst hrow
      exact Db.accepts_user hpasses.emailFree hpasses.usernameFree
    have hknown : (w.db.addUser row).hasUser row.id = true := by
      rw [Db.hasUser_iff]
      exact List.mem_map_of_mem (List.mem_append_right _ (List.mem_singleton_self _))
    rw [forall_prop_of_true haccepted]
    refine wp_iff_of (R := fun s out => s.1.db = w.db ∧ s.2.call = w.calls ∧ s.2.draws = 2 ∧
      s.2.view w.db = (w.db.addUser row).grantDefault row.id
        ((w.db.addUser row).roleByName env.config.defaultRoleName) ∧ out = .ok ()) ?_ ?_
    · refine wp_grantFound (by simp; exact hknown) (fun found hfound => ?_)
        fun tx₁ hcall₁ hdraws₁ hview₁ => ⟨rfl, hcall₁, hdraws₁, hview₁, rfl⟩
      simpa using Db.hasRole_of_roleByName hfound
    · rintro ⟨w₁, tx₁⟩ out ⟨hdb₁, hcall₁, hdraws₁, hview₁, rfl⟩
      have hknown₁ : (tx₁.view w₁.db).hasUser row.id = true := by
        rw [hdb₁, hview₁]
        refine (Db.hasUser_congr ?_ row.id).trans hknown
        rw [(Db.grantDefault_frame _ _ _).1]
      have htokens₁ : (tx₁.view w₁.db).securityTokens = w.db.securityTokens := by
        rw [hdb₁, hview₁, (Db.grantDefault_frame _ _ _).2.2]
        rfl
      rw [meetsThen_ok]
      refine (sendsFit_issue (C := (device.getD {}).AuditFits) hknown₁ ?_ ?_).trans ?_
      · rw [hcall₁, hdraws₁]
        exact htoken
      · intro plain tx'
        simp
      · rw [htokens₁, hcall₁, hdraws₁]
        exact Iff.rfl
  · refine iff_of_true ?_ fun h => absurd h hpasses
    simp
    intro hallowed hrepeated hemail husername
    exact absurd ⟨hallowed, hrepeated, hemail, husername⟩ hpasses

/-! ## Login -/

/-- `Login` that is not refused sends an audit row, and before it the row of a session if the
credentials are accepted. -/
theorem login_rowsFit_iff (hw : w.Wf env) {data : LoginDTO} {device : Option DeviceInfoDTO}
    (hjti : (env.supply.jti w.calls 0).length ≤ 64) :
    (Call.login data device).RowsFit env w t ↔
      (LoginUseCase.ipRefusal env w.limits t (device.getD {}) = none →
        LoginUseCase.accountRefusal env w.limits t (env.normalize data.email) = none →
          (device.getD {}).AuditFits ∧
            (LoginUseCase.Accepts env (w.db.userByEmail (env.normalize data.email))
                data.password →
              FitsColumn 36 (device.getD {}).visitorId ∧
                FitsColumn 100 (device.getD {}).device)) := by
  have hreset (issued : User × IssuedToken × IssuedToken) :
      ((limiter.reset (LoginUseCase.accountKey (env.normalize data.email))).bind fun _ =>
        (Pure.pure ⟨tokenPair issued.2.1 issued.2.2, issued.1⟩ :
          UseCase AuthResultDTO)).Only Op.Fits :=
    ⟨trivial, fun _ => trivial⟩
  have hknown {user : User}
      (huser : w.db.userByEmail (env.normalize data.email) = some user) :
      w.db.hasUser user.id = true :=
    Db.hasUser_of_userById (hw.db.userById_of_userByEmail huser).1
  simp only [Call.RowsFit, Call.program, Users.login, monad_bind, meets_map]
  rw [meets_bind, wp_guardIp_refusal, meetsThen_ok, meets_bind, wp_guardAccount_refusal,
    meetsThen_ok, meets_bind_of_only hreset]
  simp
  refine imp_congr_right fun _ => imp_congr_right fun _ => ?_
  rw [← LoginUseCase.accepts_iff]
  cases haccepts : LoginUseCase.accepts env
      (w.db.userByEmail (env.normalize data.email)) data.password with
  | true =>
    obtain ⟨user, huser, -⟩ := (LoginUseCase.accepts_iff _ _).1 haccepts
    simp [huser, LoginUseCase.succeed]
    rw [forall_prop_of_true (hw.db.accepts_drawn_session (hknown huser) rfl rfl)]
    constructor
    · rintro ⟨hsession, haudit⟩
      exact ⟨haudit, hsession.visitorId, hsession.device⟩
    · rintro ⟨haudit, hvisitor, hdevice⟩
      exact ⟨⟨hjti, hvisitor, haudit.userAgent, haudit.ipAddress, hdevice⟩, haudit⟩
  | false =>
    simp [LoginUseCase.fail]
    exact fun _ _ => trivial

/-! ## Refresh -/

/-- The strings of a device that a new session takes over from the old one where the request
has none. -/
structure RefreshTokenUseCase.InheritsFit (device : DeviceInfoDTO) (session : AuthSession) :
    Prop where
  visitorId : FitsColumn 36 (inherit device.visitorId session.visitorId)
  userAgent : FitsColumn 400 (inherit device.userAgent session.userAgent)
  ipAddress : FitsColumn 45 (inherit device.ipAddress session.ipAddress)
  device : FitsColumn 100 (inherit device.device session.device)

/-- What `Refresh` looks at before it replaces a session. -/
structure RefreshTokenUseCase.Passes (w : World) (t : Time) (token : Token)
    (session : AuthSession) (payload : TokenPayload) : Prop where
  decoded : JwtTokenService.decode w.signed t token = .ok payload
  refresh : payload.tokenType = .refresh
  found : w.db.sessionByJti payload.jti = some session
  valid : session.isValid t = true
  active : ∃ user, w.db.userById payload.userId = some user ∧ user.isActive = true

/-- `Refresh` sends the row of the session that takes the place of a valid one. -/
theorem refresh_rowsFit_iff {token : Token} {device : Option DeviceInfoDTO}
    (hjti : (env.supply.jti w.calls 0).length ≤ 64) :
    (Call.refresh token device).RowsFit env w t ↔
      ∀ session payload, RefreshTokenUseCase.Passes w t token session payload →
        RefreshTokenUseCase.InheritsFit (device.getD {}) session := by
  simp only [Call.RowsFit, Call.program, Users.refreshToken]
  simp
  constructor
  · rintro h session payload ⟨hdecode, htype, hfound, hvalid, user, huser, hactive⟩
    obtain ⟨c, rfl, hs, ht, rfl⟩ := decode_eq_ok.1 hdecode
    have hrow := h c rfl hs ht htype session hfound hvalid user huser hactive
    exact ⟨hrow.visitorId, hrow.userAgent, hrow.ipAddress, hrow.device⟩
  · intro h c htoken hs ht htype session hfound hvalid user huser hactive
    have hdecode := decode_eq_ok.2 ⟨c, htoken, hs, ht, rfl⟩
    have hinherits := h session _ ⟨hdecode, htype, hfound, hvalid, user, huser, hactive⟩
    exact ⟨hjti, hinherits.visitorId, hinherits.userAgent, hinherits.ipAddress,
      hinherits.device⟩

/-! ## The bodies of requests -/

/-- `^[a-zA-Z0-9_]{3,30}$`. -/
def matchesUsername (text : String) : Bool :=
  3 ≤ text.length && text.length ≤ 30 && text.toList.all fun c => c.isAlphanum || c = '_'

/-- The body validates as a `RegisterRequest`; `isEmail` is what `EmailStr` lets through. -/
structure RegisterRequest.Accepted (isEmail : String → Prop) (body : RegisterRequest) : Prop where
  email : isEmail body.email
  username : matchesUsername body.username = true
  password : 8 ≤ body.password.length ∧ body.password.length ≤ 128
  passwordRepeat : 8 ≤ body.passwordRepeat.length ∧ body.passwordRepeat.length ≤ 128
  displayName : FitsColumn 100 body.displayName

/-- What is used of the functions of the libraries. -/
structure TextFunctions (env : Env) (isEmail : String → Prop) : Prop where
  /-- `strip` takes characters away at both ends. -/
  strip : ∀ text, (env.strip text).toList <:+: text.toList
  /-- `lower` makes two characters of `İ` and one of every other. -/
  lower : ∀ text, (env.lower text).length ≤ text.length + text.toList.count 'İ'
  /-- An address has at most 254 characters, and no `İ` behind its at most 64 local ones. -/
  email : ∀ text, isEmail text → text.length ≤ 254 ∧ text.toList.count 'İ' ≤ 64
  /-- `hashlib.sha256(..).hexdigest()`. -/
  tokenHash : ∀ plain, (env.tokenHash plain).length = 64
  /-- Argon2 with its defaults writes 97 characters; `PBKDF2PasswordHasher` with its own has
  16 bytes of salt and a digest of 32. -/
  passwordHash : ∀ salt plain, (env.hasher.hash salt plain).length = 97 ∨
    ∃ saltBytes digest, saltBytes.length = 16 ∧ digest.length = 32 ∧
      env.hasher.hash salt plain = PBKDF2PasswordHasher.format 390000 saltBytes digest

theorem hex_length (bytes : List UInt8) : (PythonText.hex bytes).length = 2 * bytes.length := by
  induction bytes with
  | nil => rfl
  | cons byte rest ih =>
    have hpair : (PythonText.hexPair byte).length = 2 := rfl
    show (PythonText.hexPair byte ++ PythonText.hex rest).length = _
    rw [List.length_append, hpair, ih, List.length_cons]
    omega

theorem PBKDF2PasswordHasher.format_length (salt digest : List UInt8) :
    (format 390000 salt digest).length = 22 + 2 * salt.length + 2 * digest.length := by
  have halgorithm : algorithm.length = 13 := by decide
  have hiterations : (Nat.repr 390000).length = 6 := by decide
  have hdollar : "$".length = 1 := by decide
  simp [format, toString, hex_length, halgorithm, hiterations, hdollar]
  omega

section Accepted

variable {isEmail : String → Prop} {body : RegisterRequest}

theorem TextFunctions.normalize_length (h : TextFunctions env isEmail) {email : String}
    (hemail : isEmail email) : (env.normalize email).length ≤ 318 := by
  have hinfix := h.strip email
  have hlength : (env.strip email).length ≤ email.length := by
    rw [← String.length_toList, ← String.length_toList]
    exact hinfix.length_le
  have hcount : (env.strip email).toList.count 'İ' ≤ email.toList.count 'İ' :=
    hinfix.sublist.count_le 'İ'
  have hlower := h.lower (env.strip email)
  obtain ⟨hlong, hlocal⟩ := h.email email hemail
  unfold Env.normalize
  omega

theorem TextFunctions.strip_username (h : TextFunctions env isEmail) {username : String}
    (husername : matchesUsername username = true) : (env.strip username).length ≤ 30 := by
  have hlength : (env.strip username).length ≤ username.length := by
    rw [← String.length_toList, ← String.length_toList]
    exact (h.strip username).length_le
  simp only [matchesUsername, Bool.and_eq_true, decide_eq_true_eq] at husername
  omega

theorem TextFunctions.hash_length (h : TextFunctions env isEmail) (salt plain : String) :
    (env.hasher.hash salt plain).length ≤ 255 := by
  rcases h.passwordHash salt plain with hargon | ⟨saltBytes, digest, hsalt, hdigest, hformat⟩
  · omega
  · rw [hformat, PBKDF2PasswordHasher.format_length]
    omega

/-- Of the account that an accepted body asks for, only the visitor id may be too long. -/
theorem RegisterRequest.Accepted.fits_iff (h : TextFunctions env isEmail)
    (hbody : body.Accepted isEmail) {data : RegisterUserDTO} (hemail : data.email = body.email)
    (husername : data.username = body.username) (hname : data.displayName = body.displayName)
    (n k : Nat) :
    (RegisterUserUseCase.account env n k data).Fits ↔ FitsColumn 36 data.visitorId := by
  constructor
  · intro hfits
    exact hfits.visitorId
  · intro hvisitor
    have haddress := h.normalize_length hbody.email
    have hlogin := h.strip_username hbody.username
    constructor
    · show (env.normalize data.email).length ≤ 320
      rw [hemail]
      omega
    · show (env.strip data.username).length ≤ 50
      rw [husername]
      omega
    · exact h.hash_length _ _
    · show FitsColumn 100 data.displayName
      rw [hname]
      exact hbody.displayName
    · exact hvisitor

end Accepted

/-! ## Requests -/

/-- The headers fit the columns that they are stored in. -/
structure HeadersFit (config : DeviceConfig) (request : Gateway.Request) : Prop where
  userAgent : FitsColumn 400 (request.headers.get? "user-agent")
  address : FitsColumn 45 (Gateway.callerAddress config.trustProxyHeaders request)

/-- The visitor cookie, if there is one, is not longer than a UUID. -/
def VisitorCookieFits (cookieParser : String → List (String × String)) (config : DeviceConfig)
    (request : Gateway.Request) : Prop :=
  FitsColumn 36 (Gateway.truthy ((request.cookies cookieParser).get? config.visitorCookieName))

section Device

variable {cookieParser : String → List (String × String)} {config : DeviceConfig}
  {minted : String} {request : Gateway.Request}

theorem auditFits_getDeviceInfo :
    (getDeviceInfo cookieParser config minted request).AuditFits ↔ HeadersFit config request := by
  constructor
  · rintro ⟨haddress, hagent⟩
    exact ⟨hagent, haddress⟩
  · rintro ⟨hagent, haddress⟩
    exact ⟨haddress, hagent⟩

theorem fitsColumn_visitorId (hminted : minted.length = 36) :
    FitsColumn 36 (getDeviceInfo cookieParser config minted request).visitorId ↔
      VisitorCookieFits cookieParser config request := by
  unfold getDeviceInfo VisitorMiddleware.visitorId VisitorCookieFits
  rw [fitsColumn_some]
  cases Gateway.truthy ((request.cookies cookieParser).get? config.visitorCookieName) with
  | none => simp [hminted]
  | some cookie => simp

/-- A new session has the visitor of the request, who always has an id. -/
theorem inherit_visitorId (hminted : minted.length = 36) (old : Option String) :
    inherit (getDeviceInfo cookieParser config minted request).visitorId old =
      (getDeviceInfo cookieParser config minted request).visitorId := by
  apply if_neg
  show VisitorMiddleware.visitorId cookieParser config minted request ≠ ""
  unfold VisitorMiddleware.visitorId
  cases hcookie : Gateway.truthy
      ((request.cookies cookieParser).get? config.visitorCookieName) with
  | none =>
    rintro rfl
    cases hminted
  | some cookie =>
    unfold Gateway.truthy at hcookie
    rw [Option.filter_eq_some_iff] at hcookie
    simpa using hcookie.2

/-- What a request adds to a session that is replaced. -/
theorem inheritsFit_iff (hminted : minted.length = 36) {session : AuthSession} :
    RefreshTokenUseCase.InheritsFit (getDeviceInfo cookieParser config minted request) session ↔
      VisitorCookieFits cookieParser config request ∧
        FitsColumn 400 (inherit (request.headers.get? "user-agent") session.userAgent) ∧
        FitsColumn 45 (inherit (Gateway.callerAddress config.trustProxyHeaders request)
          session.ipAddress) ∧
        FitsColumn 100 session.device := by
  constructor
  · rintro ⟨hvisitor, hagent, haddress, hdevice⟩
    rw [inherit_visitorId hminted, fitsColumn_visitorId hminted] at hvisitor
    exact ⟨hvisitor, hagent, haddress, hdevice⟩
  · rintro ⟨hvisitor, hagent, haddress, hdevice⟩
    refine ⟨?_, hagent, haddress, hdevice⟩
    rw [inherit_visitorId hminted, fitsColumn_visitorId hminted]
    exact hvisitor

end Device

/-- In every reachable state, and for every request whose body is accepted: the rows that
`Register`, `Login`, `Refresh` and `audit.record` send fit their columns just if the headers
and the visitor cookie do, as far as the call comes to send them; a session that is replaced
stands in for the headers that are missing. -/
theorem header_lengths_iff (env : Env) (isEmail : String → Prop)
    (hlib : TextFunctions env isEmail) (w₀ : World) (hinit : Initial env w₀) (calls : Calls)
    (hjti : (env.supply.jti (runCalls env w₀ calls).calls 0).length ≤ 64)
    (cookieParser : String → List (String × String)) (config : DeviceConfig) (minted : String)
    (hminted : minted.length = 36) (request : Gateway.Request) :
    let w := runCalls env w₀ calls
    let device := getDeviceInfo cookieParser config minted request
    (∀ t body data, body.Accepted isEmail →
      (PublicEndpoint.register body).call device = .ok (.register data device) →
        ((Call.register data device).RowsFit env w t ↔
          (RegisterUserUseCase.Passes env w t data device →
            VisitorCookieFits cookieParser config request ∧
              (RegisterUserUseCase.LinkNew env w → HeadersFit config request)))) ∧
    (∀ t body, (Call.login body device).RowsFit env w t ↔
      (LoginUseCase.ipRefusal env w.limits t device = none →
        LoginUseCase.accountRefusal env w.limits t (env.normalize body.email) = none →
          HeadersFit config request ∧
            (LoginUseCase.Accepts env (w.db.userByEmail (env.normalize body.email))
                body.password →
              VisitorCookieFits cookieParser config request))) ∧
    (∀ t token, (Call.refresh token device).RowsFit env w t ↔
      ∀ session payload, RefreshTokenUseCase.Passes w t token session payload →
        VisitorCookieFits cookieParser config request ∧
          FitsColumn 400 (inherit (request.headers.get? "user-agent") session.userAgent) ∧
          FitsColumn 45 (inherit (Gateway.callerAddress config.trustProxyHeaders request)
            session.ipAddress) ∧
          FitsColumn 100 session.device) ∧
    ∀ t s action u metadata,
      SendsFit env t (audit.record action u (some device) metadata) s ↔
        HeadersFit config request := by
  intro w device
  have hw : w.Wf env := runCalls_wf hinit.wf calls
  have hdevice : FitsColumn 100 device.device := fitsColumn_none _
  refine ⟨?_, ?_, ?_, ?_⟩
  · intro t body data hbody hcall
    injection hcall with hcall
    injection hcall with hdata
    have huser : (RegisterUserUseCase.account env w.calls 0 data).Fits ↔
        FitsColumn 36 data.visitorId := by
      subst hdata
      exact hbody.fits_iff hlib rfl rfl rfl _ _
    have htoken : (env.tokenHash (env.supply.secret w.calls 2)).length ≤ 64 :=
      (hlib.tokenHash _).le
    have hvisitor : data.visitorId = device.visitorId := by rw [← hdata]
    rw [registerUser_rowsFit_iff htoken huser, hvisitor, fitsColumn_visitorId hminted,
      Option.getD_some, auditFits_getDeviceInfo]
  · intro t body
    rw [login_rowsFit_iff hw hjti, Option.getD_some, fitsColumn_visitorId hminted,
      auditFits_getDeviceInfo, and_iff_left hdevice]
  · intro t token
    rw [refresh_rowsFit_iff hjti, Option.getD_some]
    refine forall₃_congr fun session payload _ => ?_
    exact inheritsFit_iff hminted
  · intro t s action u metadata
    obtain ⟨w', tx⟩ := s
    rw [sendsFit_auditRecord, Option.getD_some, auditFits_getDeviceInfo]

namespace Sample

/-- The first characters of a text, filled up with zeros. -/
def padded (n : Nat) (text : String) : String :=
  String.ofList ((text.toList ++ List.replicate n '0').take n)

/-- The same deployment with hashes that are as long as the real ones. -/
def longHashes : Env :=
  { Sample.env with
    hasher := {
      hash := fun _ plain => padded 97 plain
      verify := fun plain hash => padded 97 plain == hash }
    tokenHash := padded 64 }

theorem padded_length (n : Nat) (text : String) : (padded n text).length = n := by
  simp [padded]

theorem textFunctions : TextFunctions longHashes fun text => text = "bob@example.com" where
  strip := fun _ => List.infix_rfl
  lower := fun _ => Nat.le_add_right _ _
  email := by
    rintro _ rfl
    decide +kernel
  tokenHash := fun _ => padded_length 64 _
  passwordHash := fun _ _ => .inl (padded_length 97 _)

/-- A request with a `User-Agent` and a visitor cookie. -/
def visit (userAgent cookie : String) : Gateway.Request where
  headers := .receive [("User-Agent", userAgent), ("Cookie", "visitor_id=" ++ cookie)]
  scheme := "https"
  client := some "10.0.0.9"

/-- What `get_device_info` makes of it, with a parser that finds the cookie. -/
def deviceOf (userAgent cookie : String) : DeviceInfoDTO :=
  getDeviceInfo (fun _ => [("visitor_id", cookie)]) {} (padded 36 "") (visit userAgent cookie)

theorem deviceOf_userAgent (userAgent cookie : String) :
    (deviceOf userAgent cookie).userAgent = some userAgent := by
  have hname : Gateway.lower "User-Agent" = Gateway.lower "user-agent" := by decide +kernel
  simp [deviceOf, getDeviceInfo, visit, Gateway.Headers.get?, Gateway.Headers.values,
    Gateway.Headers.receive, List.filter_cons, hname]

/-- Bob's form. -/
def form : RegisterRequest where
  email := "bob@example.com"
  username := "bob"
  password := "long enough"
  passwordRepeat := "long enough"

/-- What the endpoint makes of it. -/
def asked (device : DeviceInfoDTO) : RegisterUserDTO where
  email := form.email
  username := form.username
  password := form.password
  passwordRepeat := form.passwordRepeat
  displayName := form.displayName
  visitorId := device.visitorId

theorem asked_email_free (device : DeviceInfoDTO) :
    world.db.userByEmail (longHashes.normalize (asked device).email) = none := by
  have hfree : world.db.userByEmail "bob@example.com" = none := by decide +kernel
  exact hfree

theorem asked_username_free (device : DeviceInfoDTO) :
    world.db.userByUsername (longHashes.strip (asked device).username) = none := by
  have hfree : world.db.userByUsername "bob" = none := by decide +kernel
  exact hfree

theorem form_accepted : form.Accepted fun text => text = "bob@example.com" where
  email := rfl
  username := by decide +kernel
  password := by decide +kernel
  passwordRepeat := by decide +kernel
  displayName := fitsColumn_none _

end Sample

/-- A failed login with short headers. -/
theorem header_lengths_short :
    (Call.login ⟨"alice", "wrong"⟩ (Sample.deviceOf "curl/8.5" "abc")).RowsFit
      Sample.longHashes Sample.world 10 := by
  have hcookie : VisitorCookieFits (fun _ => [("visitor_id", "abc")]) {}
      (Sample.visit "curl/8.5" "abc") := by
    unfold VisitorCookieFits
    decide +kernel
  refine ((header_lengths_iff Sample.longHashes _ Sample.textFunctions Sample.world
    { Sample.initial with } [] (by decide +kernel) (fun _ => [("visitor_id", "abc")]) {} _
    (Sample.padded_length 36 "") (Sample.visit "curl/8.5" "abc")).2.1 10 _).2 ?_
  intro _ _
  exact ⟨⟨by decide +kernel, by decide +kernel⟩, fun _ => hcookie⟩

/-- A `User-Agent` of 401 characters fails the login of an account that does not exist, and a
visitor cookie of 37 characters fails a registration. -/
theorem headers_overlong :
    let agent := Sample.padded 401 "curl/8.5"
    let device := Sample.deviceOf "curl/8.5" (Sample.padded 37 "")
    ¬ (Call.login ⟨"nobody", "wrong"⟩ (Sample.deviceOf agent "abc")).RowsFit
        Sample.longHashes Sample.world 10 ∧
      (PublicEndpoint.register Sample.form).call device =
        .ok (.register (Sample.asked device) device) ∧
      ¬ (Call.register (Sample.asked device) device).RowsFit
        Sample.longHashes Sample.world 10 := by
  intro agent device
  have hinit : Initial Sample.longHashes Sample.world := { Sample.initial with }
  refine ⟨?_, rfl, ?_⟩
  · intro h
    have hjti : (Sample.longHashes.supply.jti Sample.world.calls 0).length ≤ 64 := by
      decide +kernel
    have hfits := (login_rowsFit_iff hinit.wf hjti).1 h
    have hrefusal : LoginUseCase.ipRefusal Sample.longHashes Sample.world.limits 10
        (Sample.deviceOf agent "abc") = none := by decide +kernel
    have hagent : FitsColumn 400 (Sample.deviceOf agent "abc").userAgent :=
      (hfits hrefusal (by decide +kernel)).1.userAgent
    rw [Sample.deviceOf_userAgent, fitsColumn_some, Sample.padded_length] at hagent
    omega
  · intro h
    have hpasses : RegisterUserUseCase.Passes Sample.longHashes Sample.world 10
        (Sample.asked device) device :=
      ⟨by decide +kernel, rfl, Sample.asked_email_free device, Sample.asked_username_free device⟩
    have huser : (RegisterUserUseCase.account Sample.longHashes 0 0
        (Sample.asked device)).Fits ↔ FitsColumn 36 device.visitorId :=
      Sample.form_accepted.fits_iff Sample.textFunctions rfl rfl rfl 0 0
    have htoken : (Sample.longHashes.tokenHash
        (Sample.longHashes.supply.secret Sample.world.calls 2)).length ≤ 64 :=
      (Sample.padded_length 64 _).le
    have hvisitor := (registerUser_rowsFit_iff htoken huser).1 h hpasses
    have hcookie : ¬ FitsColumn 36 device.visitorId := by decide +kernel
    exact hcookie hvisitor.1

end VideoSite.Users
