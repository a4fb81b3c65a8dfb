import VideoSite.Users.Reachable

/-!
# Requests

The routers of `infrastructure/api`: what each endpoint asks of its caller, and
which use case it then calls.  A request to an endpoint of an account runs
`Authenticate` on the access token it carries, checks the permission the route
asks for, and only then calls its use case, for the account that was
authenticated.

* `Request.serve` serves one request, `serveAll` a run of them.
* `Served` is the inversion lemma: what a request can have done.
* `serveAll_induction` is the induction over a run of requests.
* `Accepted` is what `Authenticate` has found out about the caller.
-/

namespace VideoSite.Users

open Effects Program

variable {env : Env} {w w' : World}

/-- `require_permission(resource, action)` on the account that was authenticated. -/
def requirePermission (resource action : String) (user : User) : Except Failure User :=
  if user.hasPermission resource action then .ok user
  else .error (.application
    (.authorization s!"Missing required permission: {resource}:{action}"))

theorem requirePermission_eq_ok {resource action : String} {user user' : User} :
    requirePermission resource action user = .ok user' ↔
      user.hasPermission resource action = true ∧ user' = user := by
  unfold requirePermission
  split_ifs with h
  · simp [h, eq_comm]
  · simp [h]

/-- `RegisterRequest`. -/
structure RegisterRequest where
  email : String
  username : String
  password : String
  passwordRepeat : String
  displayName : Option String := none
  deriving DecidableEq, Repr

/-- The endpoints that anybody may use: most of `/auth` and the public profile.
`refresh` has the token that the cookie or the body carries. -/
inductive PublicEndpoint where
  | register (body : RegisterRequest)
  | login (body : LoginDTO)
  | refresh (token : Option Token)
  | verifyEmail (token : String)
  | forgotPassword (email : String)
  | resetPassword (body : ResetPasswordDTO)
  | readUser (userId : UserId)

/-- The endpoints for an account: `logout`, `/users/me`, moderation and `/admin`. -/
inductive AccountEndpoint where
  | logout
  | readMe
  | updateMe (body : UpdateUserDTO)
  | changeMyPassword (body : ChangePasswordDTO)
  | deleteMe
  | listMySessions
  | revokeMySessions (keepCurrent : Bool)
  | revokeMySession (sessionId : SessionId)
  | banUser (userId : UserId) (reason : Option String)
  | unbanUser (userId : UserId)
  | listPermissions
  | createPermission (resource action : String) (description : Option String)
  | listRoles
  | createRole (name : String) (description : Option String)
  | deleteRole (roleId : RoleId)
  | grantPermissionToRole (roleId : RoleId) (permissionId : PermissionId)
  | revokePermissionFromRole (roleId : RoleId) (permissionId : PermissionId)
  | listUsers
  | assignRoleToUser (userId : UserId) (roleId : RoleId)
  | revokeRoleFromUser (userId : UserId) (roleId : RoleId)

/-- The use case behind a public endpoint.  `refresh` needs a token. -/
def PublicEndpoint.call (device : DeviceInfoDTO) : PublicEndpoint → Except Failure Call
  | .register body => .ok (.register
      { email := body.email
        username := body.username
        password := body.password
        passwordRepeat := body.passwordRepeat
        displayName := body.displayName
        visitorId := device.visitorId } device)
  | .login body => .ok (.login body device)
  | .refresh (some token) => .ok (.refresh token device)
  | .refresh none => .error (.application (.authentication "Missing refresh token"))
  | .verifyEmail token => .ok (.verifyEmail token device)
  | .forgotPassword email => .ok (.forgotPassword email device)
  | .resetPassword body => .ok (.resetPassword body device)
  | .readUser userId => .ok (.getUserProfile userId)

namespace AccountEndpoint

/-- The permission the route asks for. -/
def permission : AccountEndpoint → Option (String × String)
  | .logout | .readMe | .updateMe _ | .changeMyPassword _ | .deleteMe | .listMySessions
  | .revokeMySessions _ | .revokeMySession _ => none
  | .banUser _ _ | .unbanUser _ => some ("users", "ban")
  | .listPermissions | .createPermission _ _ _ | .listRoles | .createRole _ _ | .deleteRole _
  | .grantPermissionToRole _ _ | .revokePermissionFromRole _ _ | .listUsers
  | .assignRoleToUser _ _ | .revokeRoleFromUser _ _ => some ("users", "manage")

/-- Whether the route has `get_current_jti` among its dependencies. -/
def needsJti : AccountEndpoint → Bool
  | .listMySessions | .revokeMySessions _ => true
  | _ => false

/-- The use case behind an endpoint, for the account `user` with the access token
`token` and its `jti`.  `read_me` answers with the account itself. -/
def call (user : User) (token : Token) (jti : String) (device : DeviceInfoDTO) :
    AccountEndpoint → Option Call
  | .logout => some (.logout token device)
  | .readMe => none
  | .updateMe body => some (.updateUser user.id body)
  | .changeMyPassword body => some (.changePassword user.id body device)
  | .deleteMe => some (.deleteUser user.id device)
  | .listMySessions => some (.listUserSessions user.id)
  | .revokeMySessions keepCurrent =>
      some (.revokeAllSessions user.id (if keepCurrent then some jti else none) device)
  | .revokeMySession sessionId => some (.revokeUserSession user.id sessionId device)
  | .banUser userId reason => some (.banUser user userId reason device)
  | .unbanUser userId => some (.unbanUser user userId device)
  | .listPermissions => some .listPermissions
  | .createPermission resource action description =>
      some (.createPermission resource action description)
  | .listRoles => some .listRoles
  | .createRole name description => some (.createRole name description)
  | .deleteRole roleId => some (.deleteRole roleId)
  | .grantPermissionToRole roleId permissionId =>
      some (.grantPermissionToRole roleId permissionId)
  | .revokePermissionFromRole roleId permissionId =>
      some (.revokePermissionFromRole roleId permissionId)
  | .listUsers => some .listUsers
  | .assignRoleToUser userId roleId => some (.assignRoleToUser userId roleId)
  | .revokeRoleFromUser userId roleId => some (.revokeRoleFromUser userId roleId)

/-- `require_permission`, where the route has one. -/
def authorize (endpoint : AccountEndpoint) (user : User) : Except Failure User :=
  match endpoint.permission with
  | some (resource, action) => requirePermission resource action user
  | none => .ok user

/-- `get_current_jti`, where the route has it: the token is decoded once more. -/
def currentJti (endpoint : AccountEndpoint) (w : World) (t : Time) (token : Token) :
    Except Failure String :=
  if endpoint.needsJti then (JwtTokenService.decode w.signed t token).map (·.jti)
  else .ok ""

end AccountEndpoint

/-- A request: an endpoint, where the request comes from, and the access token that
`get_access_token` finds on it. -/
inductive Request where
  | guest (endpoint : PublicEndpoint) (device : DeviceInfoDTO)
  | account (endpoint : AccountEndpoint) (token : Option Token) (device : DeviceInfoDTO)

/-- What follows once a request was authenticated as `user`: the permission of the
route, the other dependencies, and the use case at time `t`. -/
def AccountEndpoint.serve (env : Env) (w : World) (t : Time) (endpoint : AccountEndpoint)
    (user : User) (token : Token) (device : DeviceInfoDTO) : World × Except Failure Answer :=
  match endpoint.authorize user with
  | .error e => (w, .error e)
  | .ok user =>
      match endpoint.currentJti w t token with
      | .error e => (w, .error e)
      | .ok jti =>
          match endpoint.call user token jti device with
          | some c => runCall env w t c
          | none => (w, .ok (.user user))

/-- Serve a request: `Authenticate` runs at time `t`, the use case at time `t'`. -/
def Request.serve (env : Env) (w : World) (t t' : Time) :
    Request → World × Except Failure Answer
  | .guest endpoint device =>
      match endpoint.call device with
      | .ok c => runCall env w t' c
      | .error e => (w, .error e)
  | .account _ none _ =>
      (w, .error (.application (.authentication "Missing access token")))
  | .account endpoint (some token) device =>
      match runCall env w t (.authenticate token) with
      | (w', .ok (.user user)) => endpoint.serve env w' t' user token device
      | (w', out) => (w', out)

/-- A request with the times at which it is authenticated and carried out. -/
abbrev Requests := List (Time × Time × Request)

/-- Serve requests one after another. -/
def serveAll (env : Env) (w : World) (requests : Requests) : World :=
  requests.foldl (fun w s => (s.2.2.serve env w s.1 s.2.1).1) w

@[simp] theorem serveAll_nil (env : Env) (w : World) : serveAll env w [] = w := rfl

@[simp] theorem serveAll_cons (env : Env) (w : World) (s : Time × Time × Request)
    (rest : Requests) :
    serveAll env w (s :: rest) = serveAll env (s.2.2.serve env w s.1 s.2.1).1 rest := rfl

theorem serveAll_append (env : Env) (w : World) (a b : Requests) :
    serveAll env w (a ++ b) = serveAll env (serveAll env w a) b := by
  simp [serveAll, List.foldl_append]

/-- The request is authenticated as `user`. -/
def Request.AuthenticatedAs (env : Env) (w : World) (t : Time) (user : User) :
    Request → Prop
  | .account _ (some token) _ =>
      (runCall env w t (.authenticate token)).2 = .ok (.user user)
  | _ => False

/-- What a request has done: nothing, one use case that anybody may call, a check of
its credentials, or the use case of an account after such a check, whose answer it has. -/
inductive Served (env : Env) (t t' : Time) (w : World) : Request → World → Prop
  | refused {r} : Served env t t' w r w
  | opened {endpoint device c} (hcall : endpoint.call device = .ok c) :
      Served env t t' w (.guest endpoint device) (runCall env w t' c).1
  | checked {endpoint token device} :
      Served env t t' w (.account endpoint (some token) device)
        (runCall env w t (.authenticate token)).1
  | called {endpoint token device user jti c}
      (hauth : (runCall env w t (.authenticate token)).2 = .ok (.user user))
      (hpermission : ∀ resource action, endpoint.permission = some (resource, action) →
        user.hasPermission resource action = true)
      (hcall : endpoint.call user token jti device = some c)
      (hanswer : ((Request.account endpoint (some token) device).serve env w t t').2 =
        (runCall env (runCall env w t (.authenticate token)).1 t' c).2) :
      Served env t t' w (.account endpoint (some token) device)
        (runCall env (runCall env w t (.authenticate token)).1 t' c).1

theorem AccountEndpoint.authorize_eq_ok {endpoint : AccountEndpoint} {user user' : User}
    (h : endpoint.authorize user = .ok user') :
    user' = user ∧ ∀ resource action, endpoint.permission = some (resource, action) →
      user.hasPermission resource action = true := by
  unfold authorize at h
  cases hp : endpoint.permission with
  | none =>
    rw [hp] at h
    cases h
    exact ⟨rfl, by simp⟩
  | some asked =>
    rw [hp] at h
    obtain ⟨hright, rfl⟩ := requirePermission_eq_ok.1 h
    refine ⟨rfl, fun resource action he => ?_⟩
    cases he
    exact hright

/-- The inversion of `Request.serve`. -/
theorem served (env : Env) (w : World) (t t' : Time) (r : Request) :
    Served env t t' w r (r.serve env w t t').1 := by
  cases r with
  | guest endpoint device =>
    simp only [Request.serve]
    cases hcall : endpoint.call device with
    | ok c => exact .opened hcall
    | error e => exact .refused
  | account endpoint token device =>
    cases token with
    | none => exact .refused
    | some token =>
      have hchecked : Served env t t' w (.account endpoint (some token) device)
          (runCall env w t (.authenticate token)).1 := .checked
      simp only [Request.serve]
      split
      · rename_i w₁ user hrun
        have hauth : (runCall env w t (.authenticate token)).2 = .ok (.user user) := by
          rw [hrun]
        have hworld : (runCall env w t (.authenticate token)).1 = w₁ := by rw [hrun]
        rw [hworld] at hchecked
        unfold AccountEndpoint.serve
        cases hallowed : endpoint.authorize user with
        | error e => exact hchecked
        | ok user' =>
          obtain ⟨rfl, hpermission⟩ := AccountEndpoint.authorize_eq_ok hallowed
          cases hjti : endpoint.currentJti w₁ t' token with
          | error e => simpa [hjti] using hchecked
          | ok jti =>
            cases hcall : endpoint.call user' token jti device with
            | none => simpa [hjti, hcall] using hchecked
            | some c =>
              simp only [hcall]
              rw [← hworld]
              refine .called hauth hpermission hcall ?_
              simp [Request.serve, AccountEndpoint.serve, hrun, hallowed, hjti, hcall]
      · rename_i hrun
        rw [hrun] at hchecked
        exact hchecked

/-! ## The caller -/

/-- What holds when `Authenticate` has accepted `token` as one of `user`, and what it
leaves of the world. -/
structure Accepted (env : Env) (w : World) (token : Token) (user : User) (w' : World) :
    Prop where
  world : ∃ cache, w' = (w.withCache cache).nextCall
  signed : ∃ c ∈ w.signed, token = .jwt c ∧ c.sub = user.id
  known : w.db.hasUser user.id = true
  active : ∀ row ∈ w.db.users, row.id = user.id → row.isActive = true

theorem Accepted.db {token : Token} {user : User} (h : Accepted env w token user w') :
    w'.db = w.db := by
  obtain ⟨cache, rfl⟩ := h.world
  rfl

theorem accepted_of_authenticate (hw : w.Wf env) {t : Time} {token : Token} {user : User}
    (hauth : (runCall env w t (.authenticate token)).2 = .ok (.user user)) :
    Accepted env w token user (runCall env w t (.authenticate token)).1 := by
  obtain ⟨w', h, he⟩ := runCall_effect env w t (.authenticate token)
  rw [hauth] at h
  rw [he]
  cases h with
  | observed hc => exact hc.elim
  | @authenticated c session user cache hs ht htype hsession hvalid hload hactive =>
    have hmem : session ∈ w.db.sessions := List.mem_of_find?_eq_some hsession
    have hjti : session.jti = c.jti := by simpa using List.find?_some hsession
    have howner : session.userId = c.sub := hw.signedOwner c hs session hmem hjti
    have hlive : session.revokedAt = none := by
      simp [AuthSession.isValid, AuthSession.isRevoked] at hvalid
      exact hvalid.1
    -- a cached account is stored under its own id
    have hsub : c.sub = user.id := by
      cases hload with
      | miss hget huser => exact (userById_row huser).1.symm
      | hit hget hloads =>
        obtain ⟨cached, hkey, hvalue, -⟩ := hw.cached _ _ _ hget
        rw [hvalue, UserCacheCodec.loads_dumps] at hloads
        cases hloads
        exact userCacheKey_injective hkey
    refine ⟨⟨cache, rfl⟩, ⟨c, hs, rfl, hsub⟩, ?_, fun row hrow hid => ?_⟩
    · rw [← hsub, ← howner]
      exact hw.db.sessionOwners session hmem
    · exact hw.owned session hmem hlive row hrow (by rw [hid, howner, hsub])

/-! ## Runs of requests -/

/-- A request leaves a well-formed world. -/
theorem serve_wf (hw : w.Wf env) (t t' : Time) (r : Request) :
    (r.serve env w t t').1.Wf env := by
  have hserved := served env w t t' r
  generalize (r.serve env w t t').1 = w' at hserved ⊢
  cases hserved with
  | refused => exact hw
  | opened => exact runCall_wf hw _ _
  | checked => exact runCall_wf hw _ _
  | called => exact runCall_wf (runCall_wf hw _ _) _ _

/-- What every request preserves holds after a run of requests. -/
theorem serveAll_induction {I : World → Prop}
    (hstep : ∀ (w : World) (t t' : Time) (r : Request), w.Wf env → I w →
      I (r.serve env w t t').1) (hw : w.Wf env) (h₀ : I w)
    (requests : Requests) :
    (serveAll env w requests).Wf env ∧ I (serveAll env w requests) := by
  induction requests generalizing w with
  | nil => exact ⟨hw, h₀⟩
  | cons s rest ih => exact ih (serve_wf hw s.1 s.2.1 s.2.2) (hstep _ _ _ _ hw h₀)

/-- Every request of the run from `w` meets `C` in the world before it. -/
def AlongRequests (env : Env) (C : World → Time → Time → Request → Prop) :
    Requests → World → Prop
  | [], _ => True
  | s :: rest, w =>
      C w s.1 s.2.1 s.2.2 ∧ AlongRequests env C rest (s.2.2.serve env w s.1 s.2.1).1

theorem alongRequests_append {C : World → Time → Time → Request → Prop} {a b : Requests} :
    AlongRequests env C (a ++ b) w ↔
      AlongRequests env C a w ∧ AlongRequests env C b (serveAll env w a) := by
  induction a generalizing w with
  | nil => simp [AlongRequests]
  | cons s rest ih => simp [AlongRequests, ih, and_assoc]

end VideoSite.Users
