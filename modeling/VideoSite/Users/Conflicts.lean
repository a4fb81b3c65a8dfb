import VideoSite.Users.Atomicity
import VideoSite.Users.Enumeration
import VideoSite.Users.Api

/-!
# Conflicts are found before the database finds them

A use case looks for the address, the name, the permission or the link it is about to
insert, and answers with an error of the application when it is there.  So no statement
runs into a constraint of the schema.  `CreateRole` is the exception: it inserts the role
without looking for its name, and the second role of one name ends in an error that nothing
handles.

* `World.Ready` is the invariant: names are used once, and tokens are for known accounts.
* `Call.handled_of_admitted` says which calls end with a value or an error of the
  application, and `Call.outcome_of_broken` that a statement which a constraint refuses is
  the end of its call.
* `conflicts_found_early` is the result, for runs of requests.
-/

namespace VideoSite.Users

open Effects Program Tx

variable {env : Env} {t t' s : Time} {w w' v : World} {tx : Tx} {c : Call} {α β : Type}
  {out : Except Failure Answer}

/-! ## Rows that no constraint stands against -/

namespace Db

variable {db : Db}

section HasUser

variable (db) (u : UserId)

@[simp] theorem hasUser_useWhere (cond : SecurityToken → Bool) (moment : Time) :
    (db.useWhere cond moment).hasUser u = db.hasUser u := rfl

@[simp] theorem hasUser_revokeWhere (cond : AuthSession → Bool) (moment : Time) :
    (db.revokeWhere cond moment).hasUser u = db.hasUser u := rfl

@[simp] theorem hasUser_setProfile (row : UserRow) (p : Profile) (stamp : Time) :
    (db.setProfile row p stamp).hasUser u = db.hasUser u := by
  refine hasUser_congr ?_ u
  unfold setProfile
  split_ifs
  · rfl
  · simp only [Write.apply, List.map_map]
    refine List.map_congr_left fun other _ => ?_
    dsimp only [Function.comp]
    split <;> rfl

@[simp] theorem hasUser_setPassword (row : UserRow) (hash : String) (stamp : Time) :
    (db.setPassword row hash stamp).hasUser u = db.hasUser u := by
  refine hasUser_congr ?_ u
  unfold setPassword
  split_ifs
  · rfl
  · simp only [Write.apply, List.map_map]
    refine List.map_congr_left fun other _ => ?_
    dsimp only [Function.comp]
    split <;> rfl

end HasUser

/-- A link between an account and a role that are there. -/
theorem accepts_userRole {u : UserId} {r : RoleId} (hu : db.hasUser u = true)
    (hr : db.hasRole r = true) (hnew : (u, r) ∉ db.userRoles) :
    db.violation (.insertUserRole u r) = none := by
  simp [violation, firstBroken, hu, hr, hnew]

theorem accepts_rolePermission {r : RoleId} {p : PermissionId} (hr : db.hasRole r = true)
    (hp : db.hasPermission p = true) (hnew : (r, p) ∉ db.rolePermissions) :
    db.violation (.insertRolePermission r p) = none := by
  simp [violation, firstBroken, hr, hp, hnew]

/-- A role is accepted unless there is one of that name. -/
theorem violation_insertRole (db : Db) (row : RoleRow) :
    db.violation (.insertRole row) =
      if row.name ∈ db.roles.map (·.name) then some .rolesName else none := by
  have hall : (db.roles.all fun other => other.name != row.name) =
      !decide (row.name ∈ db.roles.map (·.name)) := by
    rw [Bool.eq_iff_iff, List.all_eq_true]
    simp
  simp only [violation, firstBroken, hall]
  split_ifs with h <;> simp [h]

/-- A permission that was looked for and not found. -/
theorem accepts_permission {row : Permission}
    (hnone : db.permissionByResourceAction row.resource row.action = none) :
    db.violation (.insertPermission row) = none := by
  have hall : (db.permissions.all fun other =>
      other.resource != row.resource || other.action != row.action) = true := by
    rw [List.all_eq_true]
    intro other hother
    have hne := List.find?_eq_none.1 hnone other hother
    simp at hne ⊢
    by_cases hresource : other.resource = row.resource
    · exact .inr (hne hresource)
    · exact .inl hresource
  simp [violation, firstBroken, hall]

/-- An address that was looked for and not found. -/
theorem email_free {email : String} (hnone : db.userByEmail email = none) {row : UserRow}
    (hrow : row ∈ db.users) : row.email ≠ email := by
  simpa using List.find?_eq_none.1 (Option.map_eq_none_iff.1 hnone) row hrow

theorem username_free {username : String} (hnone : db.userByUsername username = none)
    {row : UserRow} (hrow : row ∈ db.users) : row.username ≠ username := by
  simpa using List.find?_eq_none.1 (Option.map_eq_none_iff.1 hnone) row hrow

/-- An account whose address and name were looked for and not found. -/
theorem accepts_user {row : UserRow} (hemail : db.userByEmail row.email = none)
    (husername : db.userByUsername row.username = none) :
    db.violation (.insertUser row) = none := by
  have hemails : (db.users.all fun other => other.email != row.email) = true := by
    rw [List.all_eq_true]
    intro other hother
    simpa using email_free hemail hother
  have husernames : (db.users.all fun other => other.username != row.username) = true := by
    rw [List.all_eq_true]
    intro other hother
    simpa using username_free husername hother
  simp [violation, firstBroken, hemails, husernames]

/-- An account that keeps its address and its name, or takes over free ones. -/
theorem accepts_profile {supply : Supply} {n : Nat} (h : db.Sound supply n)
    (husernames : (db.users.map (·.username)).Nodup) {row : UserRow} (hrow : row ∈ db.users)
    {p : Profile} (hemail : p.email ≠ row.email → db.userByEmail p.email = none)
    (husername : p.username ≠ row.username → db.userByUsername p.username = none)
    (stamp : Time) : db.violation (.updateUser row.id p stamp) = none := by
  have hemails : (db.users.all fun other =>
      other.id == row.id || other.email != p.email) = true := by
    rw [List.all_eq_true]
    intro other hother
    by_cases hsame : p.email = row.email
    · by_cases he : other.email = p.email
      · simp [h.email_unique hother hrow (he.trans hsame)]
      · simp [he]
    · have hne := email_free (hemail hsame) hother
      simp [hne]
  have hnames : (db.users.all fun other =>
      other.id == row.id || other.username != p.username) = true := by
    rw [List.all_eq_true]
    intro other hother
    by_cases hsame : p.username = row.username
    · by_cases he : other.username = p.username
      · simp [List.inj_on_of_nodup_map husernames hother hrow (he.trans hsame)]
      · simp [he]
    · have hne := username_free (husername hsame) hother
      simp [hne]
  simp [violation, firstBroken, hemails, hnames]

/-- An audit row about an account that is there. -/
theorem accepts_audit_of_known {row : AuditEvent} {u : UserId} (hu : db.hasUser u = true)
    (hrow : row.userId = some u) : db.violation (.insertAudit row) = none := by
  refine accepts_audit fun v hv => ?_
  rw [hrow] at hv
  obtain rfl := Option.some.inj hv
  exact hu

/-- The row of an account that was loaded. -/
theorem userRow?_ne_none {u : UserId} {user : User} (huser : db.userById u = some user) :
    db.userRow? user.id ≠ none := by
  obtain ⟨hid, row, hrow, -⟩ := userById_row huser
  rw [hid, hrow]
  exact nofun

theorem hasUser_of_loaded {u : UserId} {user : User} (huser : db.userById u = some user) :
    db.hasUser user.id = true := by
  rw [(userById_row huser).1]
  exact hasUser_of_userById huser

end Db

/-! ## Names of accounts, and tokens of known accounts -/

@[simp] theorem UserRow.setProfile_username (row : UserRow) (p : Profile) (stamp : Time) :
    (row.setProfile p stamp).username = p.username := by
  unfold setProfile
  split_ifs with h
  · exact congrArg Profile.username h
  · rfl

/-- The name an account gets is its own or is free. -/
theorem Db.Sound.usernames_setProfile {db : Db} {supply : Supply} {n : Nat}
    (h : db.Sound supply n) (husernames : (db.users.map (·.username)).Nodup) {row : UserRow}
    (hrow : row ∈ db.users) {p : Profile}
    (husername : p.username ≠ row.username → db.userByUsername p.username = none)
    (stamp : Time) : ((db.setProfile row p stamp).users.map (·.username)).Nodup := by
  have howner {other : UserRow} (hother : other ∈ db.users)
      (he : other.username = p.username) : other = row := by
    by_cases hsame : p.username = row.username
    · exact List.inj_on_of_nodup_map husernames hother hrow (he.trans hsame)
    · exact absurd he (Db.username_free (husername hsame) hother)
  rw [h.setProfile_users hrow, List.map_map]
  refine (List.nodup_map_iff_inj_on h.userIds.of_map).2 fun a ha b hb hab => ?_
  dsimp only [Function.comp] at hab
  split_ifs at hab with hia hib hib
  · exact h.row_unique ha hb (hia.trans hib.symm)
  · rw [UserRow.setProfile_username] at hab
    exact absurd (congrArg UserRow.id (howner hb hab.symm)) hib
  · rw [UserRow.setProfile_username] at hab
    exact absurd (congrArg UserRow.id (howner ha hab)) hia
  · exact List.inj_on_of_nodup_map husernames ha hb hab

theorem Db.usernames_setPassword (db : Db) (row : UserRow) (hash : String) (stamp : Time) :
    (db.setPassword row hash stamp).users.map (·.username) = db.users.map (·.username) := by
  unfold setPassword
  split_ifs
  · rfl
  · simp only [Write.apply, List.map_map]
    refine List.map_congr_left fun other _ => ?_
    dsimp only [Function.comp]
    split <;> rfl

/-- An update of one account goes by the table of accounts. -/
theorem Db.setProfile_users_congr {db db' : Db} (h : db.users = db'.users) (row : UserRow)
    (p : Profile) (stamp : Time) :
    (db.setProfile row p stamp).users = (db'.setProfile row p stamp).users := by
  unfold setProfile
  split_ifs
  · exact h
  · simp only [Write.apply, h]

/-- Every account keeps its own name. -/
theorem Effect.usernames (hw : w.Wf env) (husernames : (w.db.users.map (·.username)).Nodup)
    (h : Effect env t w c out w') : (w'.db.users.map (·.username)).Nodup := by
  have hactive {u : UserId} {user : User} {row : UserRow} {active : Bool}
      (huser : w.db.userById u = some user) (hrow : w.db.userRow? u = some row) :
      ((w.db.setProfile row (user.withActive active).profile t).users.map
        (·.username)).Nodup := by
    have he := userById_of_row huser hrow
    subst he
    exact hw.db.usernames_setProfile husernames (Db.mem_of_userRow? hrow)
      (fun hne => absurd rfl hne) t
  cases h with
  | failed | observed | loginClash | loggedIn | logoutIgnored | loggedOut | refreshClash
  | refreshed | authenticated | authenticateInactive | passwordTried | resetRequested
  | banSkipped | sessionsRevoked | sessionRevoked | roleCreated | roleDeleted
  | permissionRevoked | permissionCreated | roleRevoked => exact husernames
  | permissionGranted | roleAssigned => simpa using husernames
  | loginFailed hopen howner hbad hdb =>
    rcases hdb with ⟨audit, -, rfl, -⟩ | ⟨rfl, -⟩ <;> exact husernames
  | @registered data device limits row a audit hl hemail husername hrow haudit ha =>
    have hfree : row.username ∉ w.db.users.map (·.username) := by
      intro hmem
      obtain ⟨other, hother, he⟩ := List.mem_map.1 hmem
      subst hrow
      exact Db.username_free husername hother he
    have happend : ((w.db.users ++ [row]).map (·.username)).Nodup := by
      rw [List.map_append]
      exact husernames.append (List.nodup_singleton _) (by simpa using hfree)
    change (((w.db.addUser row).grantDefault _ _).users.map (·.username)).Nodup
    rw [(Db.grantDefault_frame _ _ _).1]
    exact happend
  | @passwordChanged userId data device user row audit k huser hrow hverify haudit =>
    rw [← Db.usernames_setPassword w.db row
      (env.hasher.hash (env.supply.salt w.calls 0) data.newPassword) t] at husernames
    simpa using husernames
  | @passwordReset data device limits token user row audit hl htoken husable huser hactive hrow
      haudit =>
    rw [← Db.usernames_setPassword w.db row
      (env.hasher.hash (env.supply.salt w.calls 0) data.password) t] at husernames
    simpa using husernames
  | @emailVerified secret device token user row verified audit htoken husable huser hactive hrow
      hself haudit =>
    have he := userById_of_row huser ((userById_row huser).1 ▸ hrow)
    change ((VerifyEmailUseCase.stamped t _ row user).users.map (·.username)).Nodup
    unfold VerifyEmailUseCase.stamped
    split_ifs with hverified
    · exact husernames
    · have hkeep : (w.db.useWhere (Statement.markUsedWhere token.id) t).users = w.db.users := rfl
      rw [Db.setProfile_users_congr hkeep]
      subst he
      exact hw.db.usernames_setProfile husernames (Db.mem_of_userRow? hrow)
        (fun hne => absurd rfl hne) t
  | @userUpdated userId data user edited row a huser hrow hedits =>
    have he := userById_of_row huser hrow
    subst he
    change ((UpdateUserUseCase.finished env t w _ _).db.users.map (·.username)).Nodup
    rw [(UpdateUserUseCase.finished_frame _ _ _).1]
    exact hw.db.usernames_setProfile husernames (Db.mem_of_userRow? hrow)
      (fun hne => hedits.usernameFree hne) t
  | userDeleted huser hrow haudit => exact hactive huser hrow
  | userBanned hsuper huser _ hrow haudit => exact hactive huser hrow
  | userUnbanned huser _ hrow haudit => exact hactive huser hrow

/-- A call signs tokens for an account that it has found. -/
theorem Effect.signed_known (hw : w.Wf env) (h : Effect env t w c out w') {claims : Claims}
    (hmem : claims ∈ w'.signed) : claims ∈ w.signed ∨ w.db.hasUser claims.sub = true := by
  have hpair {u : UserId} {jti : String} (hu : w.db.hasUser u = true)
      (hsigned : claims ∈ (w.signPair env t u jti).signed) :
      claims ∈ w.signed ∨ w.db.hasUser claims.sub = true := by
    rcases mem_signPair.1 hsigned with hold | rfl | rfl
    · exact .inl hold
    · exact .inr hu
    · exact .inr hu
  cases h with
  | loginClash hopen huser hactive hverify | loggedIn hopen huser hactive hverify haudit =>
    exact hpair (Db.hasUser_of_userById (hw.db.userById_of_userByEmail huser).1) hmem
  | refreshClash hs huser => exact hpair (Db.hasUser_of_loaded huser) hmem
  | refreshed hs ht htype hold hvalid huser hactive =>
    exact hpair (Db.hasUser_of_loaded huser) hmem
  | loginFailed =>
    refine .inl ?_
    unfold LoginUseCase.tried at hmem
    split at hmem
    · split at hmem <;> exact hmem
    · exact hmem
  | userUpdated =>
    refine .inl ?_
    unfold UpdateUserUseCase.finished World.forget at hmem
    split at hmem <;> exact hmem
  | _ => exact .inl hmem

/-- A consistent state in which every name is used once, and every token is for an account
that is there. -/
structure World.Ready (env : Env) (w : World) : Prop where
  consistent : w.Consistent env
  usernames : (w.db.users.map (·.username)).Nodup
  signedKnown : ∀ c ∈ w.signed, w.db.hasUser c.sub = true

namespace World.Ready

theorem wf (h : w.Ready env) : w.Wf env := h.consistent.wf

/-- A call leaves a ready state. -/
theorem runCall (h : w.Ready env) (t : Time) (c : Call) :
    (runCall env w t c).1.Ready env := by
  obtain ⟨w', heffect, he⟩ := runCall_effect env w t c
  have husernames : (w'.db.users.map (·.username)).Nodup := heffect.usernames h.wf h.usernames
  have hknown : ∀ claims ∈ w'.signed, w'.db.hasUser claims.sub = true := by
    intro claims hmem
    refine heffect.hasUser h.wf ?_
    rcases heffect.signed_known h.wf hmem with hold | hnew
    · exact h.signedKnown claims hold
    · exact hnew
  refine ⟨h.consistent.runCall t c, ?_, ?_⟩
  · rw [he]
    exact husernames
  · rw [he]
    exact hknown

/-- A run of calls leaves a ready state. -/
theorem runCalls (h : w.Ready env) (calls : Calls) : (Users.runCalls env w calls).Ready env := by
  induction calls generalizing w with
  | nil => exact h
  | cons s rest ih => exact ih (h.runCall s.1 s.2)

/-- A request leaves a ready state. -/
theorem serve (h : w.Ready env) (t t' : Time) (r : Request) :
    (r.serve env w t t').1.Ready env := by
  have hserved := served env w t t' r
  generalize (r.serve env w t t').1 = w' at hserved ⊢
  cases hserved with
  | refused => exact h
  | opened => exact h.runCall _ _
  | checked => exact h.runCall _ _
  | called => exact (h.runCall _ _).runCall _ _

end World.Ready

theorem Initial.ready (h : Initial env w) : w.Ready env where
  consistent := h.consistent
  usernames := h.usernames
  signedKnown := by simp [h.signed]

/-! ## How a call may end -/

/-- The outcome is a value or an error of the application. -/
def handled : Except Failure α → Bool
  | .ok _ => true
  | .error (.application _) => true
  | .error _ => false

@[simp] theorem handled_ok (a : α) : handled (.ok a) = true := rfl

@[simp] theorem handled_application (e : ApplicationError) :
    handled (.error (.application e) : Except Failure α) = true := rfl

@[simp] theorem handled_map (f : α → β) (out : Except Failure α) :
    handled (out.map f) = handled out := by
  cases out with
  | ok a => rfl
  | error e => cases e <;> rfl

/-- What a caller sees of an outcome shows whether it was handled. -/
theorem handled_of_seen {shown : Except Failure Unit} (h : seen out = shown)
    (hshown : handled shown = true) : handled out = true := by
  rw [← hshown, ← h]
  exact (handled_map _ _).symm

/-- A token that is not accepted. -/
theorem handled_decode {token : Token} {e : Failure}
    (h : JwtTokenService.decode w.signed t token = .error e) :
    handled (.error e : Except Failure α) = true := by
  unfold JwtTokenService.decode at h
  split at h
  · split_ifs at h <;> cases h <;> rfl
  · cases h
    rfl

/-- A call is handled if its program is. -/
theorem handled_of_wp (h : wp (handler env t) (c.program env)
    (fun _ out => handled out = true) (w, Tx.fresh w.calls)) :
    handled (runCall env w t c).2 = true := h

/-- A statement that is accepted does not fail. -/
theorem handled_of_accepted {db : Db} {write : Write} {constraint : Constraint}
    {out : Except Failure α} (haccepts : db.violation write = none)
    (hbroken : db.violation write = some constraint) : handled out = true := by
  rw [haccepts] at hbroken
  cases hbroken

/-! ## Parts that several use cases have -/

/-- A link with a new hash for an account that is there. -/
theorem wp_issueFresh {u : UserId} {Q : Post String} (hu : (tx.view w.db).hasUser u = true)
    (hfresh : ∀ token ∈ (tx.view w.db).securityTokens,
      token.tokenHash ≠ env.tokenHash (env.supply.secret tx.call tx.draws))
    (hok : ∀ tx', tx'.call = tx.call → tx'.view w.db =
        EmailVerificationIssuer.issued env t tx.call tx.draws (tx.view w.db) u →
      Q (w, tx') (.ok (env.supply.secret tx.call tx.draws))) :
    wp (handler env t) (EmailVerificationIssuer.issue env u) Q (w, tx) := by
  unfold EmailVerificationIssuer.issue
  simp
  refine ⟨fun _ => hok _ rfl ?_, fun broken hbroken => ?_⟩
  · simp [EmailVerificationIssuer.issued, EmailVerificationIssuer.row,
      SecurityToken.withId, generatedSecret]
  · rw [Db.accepts_token (by exact hu) (by exact hfresh)] at hbroken
    cases hbroken

/-- The default role, for an account that is there. -/
theorem wp_grantFound {created : User} {role : Option Role} {Q : Post Unit}
    (hu : (tx.view w.db).hasUser created.id = true)
    (hr : ∀ found, role = some found → (tx.view w.db).hasRole found.id = true)
    (hok : ∀ tx', tx'.call = tx.call → tx'.draws = tx.draws →
      tx'.view w.db = (tx.view w.db).grantDefault created.id role → Q (w, tx') (.ok ())) :
    wp (handler env t) (RegisterUserUseCase.grantDefault created role) Q (w, tx) := by
  cases role with
  | none => exact hok tx rfl rfl rfl
  | some role =>
    refine (wp_usersAssignRole _ _ _).2 ⟨fun _ => ?_, fun broken hnew hbroken => ?_⟩
    · exact hok _ (by simp) (by simp) (by simp [Db.grantDefault])
    · rw [Db.accepts_userRole hu (hr role rfl) hnew] at hbroken
      cases hbroken

/-- An account that keeps its address and its name. -/
theorem World.Ready.accepts_kept (h : w.Ready env) {u : UserId} {user edited : User}
    (huser : w.db.userById u = some user) (hid : edited.id = user.id)
    (hemail : edited.email = user.email) (husername : edited.username = user.username)
    (stamp : Time) : w.db.violation (.updateUser edited.id edited.profile stamp) = none := by
  obtain ⟨-, row, hrow, rfl⟩ := userById_row huser
  rw [hid]
  exact Db.accepts_profile h.wf.db h.usernames (Db.mem_of_userRow? hrow)
    (fun hne => absurd hemail hne) (fun hne => absurd husername hne) stamp

/-- The checks of `Register`, in its order. -/
structure RegisterUserUseCase.Passes (env : Env) (w : World) (t : Time)
    (data : RegisterUserDTO) (device : Option DeviceInfoDTO) : Prop where
  allowed : w.limits.refusalIp env t env.config.registerIpPolicy "register" (device.getD {})
    "Too many accounts created from this address" = none
  repeated : data.password = data.passwordRepeat
  emailFree : w.db.userByEmail (env.normalize data.email) = none
  usernameFree : w.db.userByUsername (env.strip data.username) = none

/-! ## Calls that look before they write -/

/-- A registration that does not pass its checks is refused. -/
theorem register_refused {data : RegisterUserDTO} {device : Option DeviceInfoDTO}
    (hfails : ¬ RegisterUserUseCase.Passes env w t data device) :
    ∃ e, (runCall env w t (.register data device)).2 = .error (.application e) := by
  have hrun : wp (handler env t) ((Call.register data device).program env)
      (fun _ out => ∃ e, out = .error (.application e)) (w, Tx.fresh w.calls) := by
    simp only [Call.program, registerUser, RegisterUserUseCase.checkRateLimit, monad_bind,
      wp_map, wp_bind]
    rw [wp_chargeIpOrRefuse_refusal]
    refine ⟨fun hallowed => ?_, fun e _ => by simp [Except.map]⟩
    simp [Except.map]
    intro hrepeated hemail husername
    exact absurd ⟨hallowed, hrepeated, hemail, husername⟩ hfails
  exact hrun

section Secrets

variable (hhash : ∀ n k m j, env.tokenHash (env.supply.secret n k) =
  env.tokenHash (env.supply.secret m j) → env.supply.secret n k = env.supply.secret m j)

include hhash

/-- A registration that passes its checks succeeds. -/
theorem register_succeeds (h : w.Ready env) {data : RegisterUserDTO}
    {device : Option DeviceInfoDTO} (hpasses : RegisterUserUseCase.Passes env w t data device) :
    ∃ user, (runCall env w t (.register data device)).2 = .ok (.user user) := by
  have hrun : wp (handler env t) ((Call.register data device).program env)
      (fun _ out => ∃ user, out = .ok (.user user)) (w, Tx.fresh w.calls) := by
    simp only [Call.program, registerUser, RegisterUserUseCase.checkRateLimit, monad_bind,
      wp_map, wp_bind]
    rw [wp_chargeIpOrRefuse_refusal]
    simp [Except.map, hpasses.allowed, hpasses.repeated, hpasses.emailFree, hpasses.usernameFree]
    generalize hrow : addedRow env t w.calls 1 _ = row
    have hknown : (w.db.addUser row).hasUser row.id = true := by
      rw [Db.hasUser_iff]
      exact List.mem_map_of_mem (List.mem_append_right _ (List.mem_singleton_self _))
    refine ⟨fun _ => ?_, fun broken => ?_⟩
    · refine wp_grantFound (by simp; exact hknown) (fun found hfound => ?_)
        fun tx₁ hcall₁ hdraws₁ hview₁ => ?_
      · simpa using Db.hasRole_of_roleByName hfound
      · simp at hcall₁ hdraws₁ hview₁
        have husers : (tx₁.view w.db).hasUser row.id = true := by
          rw [hview₁]
          refine (Db.hasUser_congr ?_ row.id).trans hknown
          rw [(Db.grantDefault_frame _ _ _).1]
        simp only [andThen_ok, wp_bind]
        refine wp_issueFresh husers ?_ fun tx₂ hcall₂ hview₂ => ?_
        · intro token htoken
          rw [World.withLimits_db, hview₁, (Db.grantDefault_frame _ _ _).2.2] at htoken
          rw [hcall₁]
          exact h.consistent.hashes.fresh hhash _ htoken
        · have haudited : (tx₂.view w.db).hasUser row.id = true := by
            rw [World.withLimits_db] at hview₂
            rw [hview₂]
            exact husers
          simp [EmailVerificationIssuer.send]
          intro broken
          rw [Db.accepts_audit_of_known haudited rfl]
          exact Option.some_ne_none broken ∘ Eq.symm
    · subst hrow
      rw [Db.accepts_user hpasses.emailFree hpasses.usernameFree]
      exact Option.some_ne_none broken ∘ Eq.symm
  exact hrun

theorem register_handled (h : w.Ready env) (data : RegisterUserDTO)
    (device : Option DeviceInfoDTO) :
    handled (runCall env w t (.register data device)).2 = true := by
  by_cases hpasses : RegisterUserUseCase.Passes env w t data device
  · obtain ⟨user, hok⟩ := register_succeeds hhash h hpasses
    rw [hok]
    rfl
  · obtain ⟨e, herror⟩ := register_refused hpasses
    rw [herror]
    rfl

theorem forgotPassword_handled (h : w.Ready env) (email : String)
    (device : Option DeviceInfoDTO) :
    handled (runCall env w t (.forgotPassword email device)).2 = true := by
  refine handled_of_seen
    (forgotPassword_shows (t := t) h.wf h.consistent.hashes hhash email device).seen ?_
  simp only [ForgotPasswordUseCase.shown]
  cases Limits.refusal env w.limits t env.config.forgotPasswordEmailPolicy _ _ with
  | some e => rfl
  | none =>
    dsimp only
    cases Limits.refusalIp env _ t env.config.forgotPasswordIpPolicy _ _ _ <;> rfl

theorem updateUser_handled (h : w.Ready env) (u : UserId) (data : UpdateUserDTO) :
    handled (runCall env w t (.updateUser u data)).2 = true := by
  apply handled_of_wp
  simp only [Call.program, Users.updateUser]
  simp
  intro user huser
  obtain ⟨hid, old, hold, he⟩ := userById_row huser
  refine wp_changeEmail (fun a tx₁ htx₁ ha => ?_) fun tx' e => by simp
  simp
  refine wp_changeUsername (fun b tx₂ htx₂ hb => ?_) fun tx' e => by simp
  obtain ⟨hcall, hdraws, hview, hstamp⟩ : tx₂.call = w.calls ∧ tx₂.draws = 0 ∧
      tx₂.view w.db = w.db ∧ tx₂.stamp t = t := by
    rcases htx₁ with rfl | rfl <;> rcases htx₂ with rfl | rfl <;> exact ⟨rfl, rfl, rfl, rfl⟩
  have hedits : UpdateUserUseCase.Edits env w.db data user
      (UpdateUserUseCase.changeDisplayName b data.displayName) := by
    refine UpdateUserUseCase.edits ha ?_
    rcases htx₁ with rfl | rfl <;> exact hb
  rw [andThen_ok]
  generalize UpdateUserUseCase.changeDisplayName b data.displayName = edited at hedits ⊢
  simp [hview, hstamp]
  have hsame : edited.id = user.id := by rw [hedits.rest]
  have haccepts : w.db.violation (.updateUser edited.id edited.profile t) = none := by
    have hrow : edited.id = old.id := by
      rw [hsame, he]
      rfl
    rw [hrow]
    subst he
    exact Db.accepts_profile h.wf.db h.usernames (Db.mem_of_userRow? hold)
      hedits.emailFree hedits.usernameFree t
  refine ⟨fun hnone => ?_, fun row hrow => ⟨fun _ => ?_, fun broken _ hbroken =>
    handled_of_accepted haccepts hbroken⟩⟩
  · rw [hsame] at hnone
    exact (Db.userRow?_ne_none huser hnone).elim
  · -- an address that is not verified gets a fresh link
    simp [UpdateUserUseCase.issueIfUnverified]
    refine ⟨fun _ => by simp [UpdateUserUseCase.sendPending], fun _ => ?_⟩
    refine wp_issueFresh ?_ ?_ fun tx' _ _ => by
      simp [UpdateUserUseCase.sendPending, EmailVerificationIssuer.send]
    · have hknown : (row.setProfile edited.profile t).id = u := by
        rw [UserRow.setProfile_id, userRow?_id hrow, hsame, hid]
      simp [hview]
      rw [Db.userToEntity, hknown]
      exact Db.hasUser_of_userById huser
    · intro token htoken
      simp [hview, hcall, hdraws] at htoken ⊢
      exact h.consistent.hashes.fresh hhash 0 htoken

end Secrets

theorem login_handled (h : w.Ready env) (data : LoginDTO) (device : Option DeviceInfoDTO) :
    handled (runCall env w t (.login data device)).2 = true := by
  refine handled_of_seen (login_shows (t := t) h.wf data device).seen ?_
  unfold LoginUseCase.shown
  split
  · rfl
  · split
    · rfl
    · split <;> rfl

theorem logout_handled (h : w.Ready env) (token : Token) (device : Option DeviceInfoDTO) :
    handled (runCall env w t (.logout token device)).2 = true := by
  apply handled_of_wp
  simp only [Call.program, Users.logout, monad_bind, wp_map, wp_bind]
  rw [wp_ask, andThen_ok]
  cases hdecode : JwtTokenService.decode w.signed t token with
  | error e =>
    simp only [Machine.alone, perform, hdecode]
    rfl
  | ok payload =>
    obtain ⟨c, rfl, hs, ht, rfl⟩ := decode_eq_ok.1 hdecode
    simp only [Machine.alone, perform, hdecode]
    simp
    intro broken hbroken
    have hknown := h.signedKnown c hs
    exact handled_of_accepted
      (Db.accepts_audit_of_known (u := c.sub) (by simpa using hknown) rfl) hbroken

theorem refresh_handled (h : w.Ready env) (token : Token) (device : Option DeviceInfoDTO) :
    handled (runCall env w t (.refresh token device)).2 = true := by
  apply handled_of_wp
  simp only [Call.program, Users.refreshToken]
  simp
  refine ⟨fun c _ hs _ _ session hsession _ user huser _ broken hbroken => ?_,
    fun e he => handled_decode he⟩
  have hfree : ∀ other ∈ (w.db.revokeWhere (Statement.revokeWhere c.jti) t).sessions,
      other.jti ≠ env.supply.jti w.calls 0 := by
    intro other hother he
    obtain ⟨old, hold, rfl⟩ := List.mem_map.1 hother
    rw [AuthSession.revokeIn_jti] at he
    exact lt_irrefl _ (h.wf.db.jtisDrawn old hold _ _ he.symm)
  exact handled_of_accepted (Db.violation_insertSession hfree (Db.hasUser_of_loaded huser))
    hbroken

theorem authenticate_handled (h : w.Ready env) (token : Token) :
    handled (runCall env w t (.authenticate token)).2 = true := by
  apply handled_of_wp
  simp only [Call.program, Users.authenticate]
  simp
  refine ⟨fun c _ _ _ _ session _ _ => ?_, fun e he => handled_decode he⟩
  refine wp_loadUser rfl (fun user cache hload tx' => by simp)
    (fun data e tx' hget hload => ?_) fun tx' hnone => by simp
  -- what is cached can be read
  obtain ⟨cached, -, hvalue, -⟩ := h.wf.cached _ _ _ hget
  rw [hvalue, UserCacheCodec.loads_dumps] at hload
  cases hload

theorem changePassword_handled (u : UserId) (data : ChangePasswordDTO)
    (device : Option DeviceInfoDTO) :
    handled (runCall env w t (.changePassword u data device)).2 = true := by
  apply handled_of_wp
  simp only [Call.program, changePassword]
  simp
  intro _ user huser _ _
  refine ⟨fun hnone => (Db.userRow?_ne_none huser hnone).elim, fun row hrow broken hbroken => ?_⟩
  have hknown := Db.hasUser_of_userById huser
  exact handled_of_accepted (Db.accepts_audit_of_known (by simpa using hknown) rfl) hbroken

theorem resetPassword_handled (data : ResetPasswordDTO) (device : Option DeviceInfoDTO) :
    handled (runCall env w t (.resetPassword data device)).2 = true := by
  apply handled_of_wp
  simp only [Call.program, resetPassword, ResetPasswordUseCase.checkRateLimit, monad_bind,
    wp_map, wp_bind]
  refine wp_chargeIpOrRefuse ?_ fun e => by simp
  simp
  intro _ token _ _ user huser _
  refine ⟨fun hnone => (Db.userRow?_ne_none huser hnone).elim, fun row hrow broken hbroken => ?_⟩
  have hknown := Db.hasUser_of_loaded huser
  exact handled_of_accepted (Db.accepts_audit_of_known (by simpa using hknown) rfl) hbroken

theorem verifyEmail_handled (h : w.Ready env) (secret : String)
    (device : Option DeviceInfoDTO) :
    handled (runCall env w t (.verifyEmail secret device)).2 = true := by
  apply handled_of_wp
  simp only [Call.program, verifyEmail, VerifyEmailUseCase.stamp]
  simp
  intro token _ _ user huser _
  have hknown := Db.hasUser_of_loaded huser
  refine ⟨fun _ broken hbroken => ?_, fun _ =>
    ⟨fun hnone => (Db.userRow?_ne_none huser hnone).elim,
      fun row hrow => ⟨fun _ broken hbroken => ?_, fun broken _ hbroken => ?_⟩⟩⟩
  · exact handled_of_accepted (Db.accepts_audit_of_known (by simpa using hknown) rfl) hbroken
  · have hid : (row.setProfile (user.withVerifiedAt t).profile t).id = user.id :=
      (UserRow.setProfile_id _ _ _).trans (userRow?_id hrow)
    exact handled_of_accepted
      (Db.accepts_audit_of_known (by simpa using hknown) (congrArg some hid)) hbroken
  · exact handled_of_accepted (h.accepts_kept huser rfl rfl rfl t) hbroken

theorem banUser_handled (h : w.Ready env) (actor : User) (u : UserId)
    (reason : Option String) (device : Option DeviceInfoDTO) :
    handled (runCall env w t (.banUser actor u reason device)).2 = true := by
  apply handled_of_wp
  simp only [Call.program, banUser, BanUserUseCase.deactivate, forgetIfChanged]
  simp
  intro _ user huser _ _
  have hknown := Db.hasUser_of_userById huser
  refine ⟨fun hnone => (Db.userRow?_ne_none huser hnone).elim,
    fun row hrow => ⟨fun _ broken hbroken => ?_, fun broken _ hbroken => ?_⟩⟩
  · exact handled_of_accepted (Db.accepts_audit_of_known (by simpa using hknown) rfl) hbroken
  · exact handled_of_accepted (h.accepts_kept huser rfl rfl rfl t) hbroken

theorem unbanUser_handled (h : w.Ready env) (actor : User) (u : UserId)
    (device : Option DeviceInfoDTO) :
    handled (runCall env w t (.unbanUser actor u device)).2 = true := by
  apply handled_of_wp
  simp only [Call.program, unbanUser, UnbanUserUseCase.reactivate, forgetIfChanged]
  simp
  intro user huser _
  have hknown := Db.hasUser_of_userById huser
  refine ⟨fun hnone => (Db.userRow?_ne_none huser hnone).elim,
    fun row hrow => ⟨fun _ broken hbroken => ?_, fun broken _ hbroken => ?_⟩⟩
  · exact handled_of_accepted (Db.accepts_audit_of_known (by simpa using hknown) rfl) hbroken
  · exact handled_of_accepted (h.accepts_kept huser rfl rfl rfl t) hbroken

theorem deleteUser_handled (h : w.Ready env) (u : UserId) (device : Option DeviceInfoDTO) :
    handled (runCall env w t (.deleteUser u device)).2 = true := by
  apply handled_of_wp
  simp only [Call.program, deleteUser]
  simp
  intro user huser
  have hknown := Db.hasUser_of_userById huser
  refine ⟨fun hnone => (Db.userRow?_ne_none huser hnone).elim,
    fun row hrow => ⟨fun _ broken hbroken => ?_, fun broken _ hbroken => ?_⟩⟩
  · exact handled_of_accepted (Db.accepts_audit_of_known (by simpa using hknown) rfl) hbroken
  · exact handled_of_accepted (h.accepts_kept huser rfl rfl rfl t) hbroken

theorem revokeAllSessions_handled {u : UserId} (hu : w.db.hasUser u = true)
    (exceptJti : Option String) (device : Option DeviceInfoDTO) :
    handled (runCall env w t (.revokeAllSessions u exceptJti device)).2 = true := by
  apply handled_of_wp
  simp only [Call.program, revokeAllSessions]
  simp
  intro broken hbroken
  exact handled_of_accepted (Db.accepts_audit_of_known (u := u) (by simpa using hu) rfl) hbroken

theorem revokeUserSession_handled (h : w.Ready env) (u : UserId) (id : SessionId)
    (device : Option DeviceInfoDTO) :
    handled (runCall env w t (.revokeUserSession u id device)).2 = true := by
  apply handled_of_wp
  simp only [Call.program, revokeUserSession]
  simp
  intro session hsession howner broken hbroken
  have hknown := h.wf.db.sessionOwners session (List.mem_of_find?_eq_some hsession)
  rw [howner] at hknown
  exact handled_of_accepted (Db.accepts_audit_of_known (by simpa using hknown) rfl) hbroken

theorem createPermission_handled (resource action : String) (description : Option String) :
    handled (runCall env w t (.createPermission resource action description)).2 = true := by
  apply handled_of_wp
  simp only [Call.program, createPermission]
  simp
  intro hnone broken hbroken
  exact handled_of_accepted (Db.accepts_permission hnone) hbroken

theorem grantPermissionToRole_handled (r : RoleId) (p : PermissionId) :
    handled (runCall env w t (.grantPermissionToRole r p)).2 = true := by
  apply handled_of_wp
  simp only [Call.program, grantPermissionToRole]
  simp
  intro role hrole permission hpermission
  refine ⟨fun _ hnone => absurd hnone (roleById_ne_none (linkPermission_roles _ _ _) hrole),
    fun broken hnew hbroken => ?_⟩
  exact handled_of_accepted (Db.accepts_rolePermission (Db.hasRole_of_roleById hrole)
    (Db.hasPermission_of_permissionById hpermission) hnew) hbroken

theorem assignRoleToUser_handled (u : UserId) (r : RoleId) :
    handled (runCall env w t (.assignRoleToUser u r)).2 = true := by
  apply handled_of_wp
  simp only [Call.program, assignRoleToUser]
  simp
  intro user huser role hrole
  refine ⟨fun _ hnone => absurd hnone (userById_ne_none (linkRole_users _ _ _) huser),
    fun broken hnew hbroken => ?_⟩
  exact handled_of_accepted (Db.accepts_userRole (Db.hasUser_of_userById huser)
    (Db.hasRole_of_roleById hrole) hnew) hbroken

theorem revokePermissionFromRole_handled (r : RoleId) (p : PermissionId) :
    handled (runCall env w t (.revokePermissionFromRole r p)).2 = true := by
  apply handled_of_wp
  simp only [Call.program, revokePermissionFromRole]
  simp
  have hkept : (Write.apply w.db (.deleteRolePermission r p)).roles = w.db.roles := rfl
  exact fun role hrole hnone => absurd hnone (roleById_ne_none hkept hrole)

theorem revokeRoleFromUser_handled (u : UserId) (r : RoleId) :
    handled (runCall env w t (.revokeRoleFromUser u r)).2 = true := by
  apply handled_of_wp
  simp only [Call.program, revokeRoleFromUser]
  simp
  have hkept : (Write.apply w.db (.deleteUserRole u r)).users = w.db.users := rfl
  exact fun user huser hnone => absurd hnone (userById_ne_none hkept huser)

theorem createRole_handled (name : String) (description : Option String)
    (hfree : name ∉ w.db.roles.map (·.name)) :
    handled (runCall env w t (.createRole name description)).2 = true := by
  apply handled_of_wp
  simp only [Call.program, createRole]
  simp [-List.mem_map, Db.violation_insertRole, hfree]

/-- What a call needs of its arguments: an account that may be named in the audit log, and
a name that no role has. -/
def Call.Admitted (w : World) : Call → Prop
  | .revokeAllSessions u _ _ => w.db.hasUser u = true
  | .createRole name _ => name ∉ w.db.roles.map (·.name)
  | _ => True

/-- A call that looks before it writes ends with a value or an error of the application. -/
theorem Call.handled_of_admitted
    (hhash : ∀ n k m j, env.tokenHash (env.supply.secret n k) =
      env.tokenHash (env.supply.secret m j) → env.supply.secret n k = env.supply.secret m j)
    (h : w.Ready env) (hc : c.Admitted w) : handled (runCall env w t c).2 = true := by
  cases c with
  | register data device => exact register_handled hhash h data device
  | login data device => exact login_handled h data device
  | logout token device => exact logout_handled h token device
  | refresh token device => exact refresh_handled h token device
  | authenticate token => exact authenticate_handled h token
  | changePassword u data device => exact changePassword_handled u data device
  | forgotPassword email device => exact forgotPassword_handled hhash h email device
  | resetPassword data device => exact resetPassword_handled data device
  | verifyEmail secret device => exact verifyEmail_handled h secret device
  | updateUser u data => exact updateUser_handled hhash h u data
  | deleteUser u device => exact deleteUser_handled h u device
  | banUser actor u reason device => exact banUser_handled h actor u reason device
  | unbanUser actor u device => exact unbanUser_handled h actor u device
  | revokeAllSessions u exceptJti device => exact revokeAllSessions_handled hc exceptJti device
  | revokeUserSession u id device => exact revokeUserSession_handled h u id device
  | createRole name description => exact createRole_handled name description hc
  | grantPermissionToRole r p => exact grantPermissionToRole_handled r p
  | revokePermissionFromRole r p => exact revokePermissionFromRole_handled r p
  | createPermission resource action description =>
    exact createPermission_handled resource action description
  | assignRoleToUser u r => exact assignRoleToUser_handled u r
  | revokeRoleFromUser u r => exact revokeRoleFromUser_handled u r
  | deleteRole r =>
    apply handled_of_wp
    simp only [Call.program, Users.deleteRole]
    simp
  | getUserProfile u =>
    apply handled_of_wp
    simp only [Call.program, Users.getUserProfile]
    simp
  | listUserSessions | listRoles | listPermissions | listUsers => rfl

/-! ## Statements that a constraint refuses -/

/-- The constraint behind an error. -/
def Failure.constraint? : Failure → Option Constraint
  | .integrity constraint => some constraint
  | _ => none

/-- The constraint that an answer of the database names. -/
def Op.broken? : (op : Op) → op.Res → Option Constraint
  | .sql s, r => (s.failure? r).bind Failure.constraint?
  | _, _ => none

/-- The constraint that the next statement of a call violates, after the first `k` of its
operations. -/
def Call.broken? (env : Env) (w : World) (t : Time) (c : Call) (k : Nat) :
    Option Constraint :=
  let stopped := (c.program env).cut (fun _ => handler env t) k (w, Tx.fresh w.calls)
  stopped.1.nextOp?.bind fun op => op.broken? (handler env t op stopped.2).2

open Atomicity Protocol

/-- Once a statement has failed, a use case closes its transaction and ends with the error
of the statement. -/
theorem Call.outcome_of_failed {e : Failure} {s : World × Tx} {p : UseCase Answer}
    (hp : protocol.Follows p (Settled c) (State.failed e)) :
    (p.exec (fun _ => handler env t) s).2 = .error e := by
  obtain ⟨q, hsettled, hq⟩ := hp.exec (I := fun q _ => q = State.failed e)
    (h := fun _ => handler env t) (fun _ q op s hmay hq => by
      rw [hq] at hmay ⊢
      cases op with
      | sql s =>
        exfalso
        simp only [Atomicity.may] at hmay
        split at hmay <;> cases hmay
      | close => exact ⟨trivial, rfl⟩
      | _ => cases hmay) (s := s) rfl
  rw [hq] at hsettled
  exact hsettled

/-- A statement that a constraint refuses is the end of the call. -/
theorem Call.outcome_of_broken {k : Nat} {constraint : Constraint}
    (h : c.broken? env w t k = some constraint) :
    (runCall env w t c).2 = .error (.integrity constraint) := by
  obtain ⟨q, hrest, -, hboth⟩ := (follows env c).cut_both (R := Both w.db)
    (h := fun _ => handler env t) (g := fun _ => direct env t)
    (fun m q op s s' hmay hboth => hboth.step hmay) (both_fresh w) k
  have hrun := exec_cut (fun _ => handler env t) (c.program env) k (w, Tx.fresh w.calls)
  unfold Call.broken? at h
  have hout : (runCall env w t c).2 =
      ((c.program env).exec (fun _ => handler env t) (w, Tx.fresh w.calls)).2 := rfl
  rw [hout, ← hrun]
  generalize (c.program env).cut (fun _ => handler env t) k (w, Tx.fresh w.calls) = stopped
    at h hrest hboth ⊢
  obtain ⟨rest, s⟩ := stopped
  cases rest with
  | pure a => cases h
  | raise e => cases h
  | call op next =>
    have hbroken : op.broken? (handler env t op s).2 = some constraint := h
    obtain ⟨hexpects, -, -⟩ := hboth.step hrest.1
    have hnext := hrest.2 _ hexpects
    cases op with
    | sql statement =>
      obtain ⟨e, hfailure, hconstraint⟩ := Option.bind_eq_some_iff.1 hbroken
      have he : e = .integrity constraint := by
        cases e with
        | integrity other => rw [Option.some.inj hconstraint]
        | _ => cases hconstraint
      have hfailed : protocol.next q (.sql statement) (handler env t (.sql statement) s).2 =
          State.failed (.integrity constraint) := by
        simp only [Atomicity.next, hfailure, he]
      rw [hfailed] at hnext
      rw [exec_call]
      exact Call.outcome_of_failed hnext
    | _ => cases hbroken

/-- `CreateRole` for a name that a role has: the insert is the first statement. -/
theorem Call.broken?_createRole {name : String} {description : Option String}
    (h : name ∈ w.db.roles.map (·.name)) :
    (Call.createRole name description).broken? env w t 0 = some .rolesName := by
  have hrefused : w.db.violation
      (.insertRole ⟨env.supply.rowId w.calls 0, name, description⟩) = some .rolesName := by
    rw [Db.violation_insertRole, if_pos h]
  have hfails : (handler env t (.sql (.rolesAdd name description)) (w, Tx.fresh w.calls)).2 =
      .error (.integrity .rolesName) := by
    change (Tx.insert _ w.db (.insertRole ⟨env.supply.rowId w.calls 0, name, description⟩)
      _ _).2 = _
    simp only [Tx.insert, Tx.write, hrefused]
  have hbroken : (Call.createRole name description).broken? env w t 0 =
      Op.broken? (.sql (.rolesAdd name description))
        (handler env t (.sql (.rolesAdd name description)) (w, Tx.fresh w.calls)).2 := rfl
  rw [hbroken, hfails]
  rfl

/-! ## Requests -/

/-- The calls that a request makes, each with the world and the time it is made in. -/
inductive Request.Makes (env : Env) (w : World) (t t' : Time) :
    Request → World → Time → Call → Prop
  | opened {endpoint device} {c : Call} (hcall : endpoint.call device = .ok c) :
      Makes env w t t' (.guest endpoint device) w t' c
  | checked {endpoint token device} :
      Makes env w t t' (.account endpoint (some token) device) w t (.authenticate token)
  | called {endpoint token device user jti} {c : Call}
      (hauth : (runCall env w t (.authenticate token)).2 = .ok (.user user))
      (hallowed : endpoint.authorize user = .ok user)
      (hjti : endpoint.currentJti (runCall env w t (.authenticate token)).1 t' token = .ok jti)
      (hcall : endpoint.call user token jti device = some c) :
      Makes env w t t' (.account endpoint (some token) device)
        (runCall env w t (.authenticate token)).1 t' c

/-- The request is answered with a value or an error of the application, and no constraint
refuses one of its statements. -/
def Request.Proper (env : Env) (w : World) (t t' : Time) (r : Request) : Prop :=
  handled (r.serve env w t t').2 = true ∧
    ∀ v s c, r.Makes env w t t' v s c → ∀ k, c.broken? env v s k = none

/-- The request creates a role under the name of a role that is there. -/
def Request.CreatesTaken (env : Env) (w : World) (t t' : Time) (r : Request) : Prop :=
  ∃ v s name description, r.Makes env w t t' v s (.createRole name description) ∧
    name ∈ v.db.roles.map (·.name)

/-- A public endpoint that misses its token. -/
theorem PublicEndpoint.call_handled {endpoint : PublicEndpoint} {device : DeviceInfoDTO}
    {e : Failure} (h : endpoint.call device = .error e) :
    handled (.error e : Except Failure α) = true := by
  cases endpoint with
  | refresh token =>
    cases token with
    | none =>
      cases h
      rfl
    | some token => cases h
  | _ => cases h

/-- An account without the permission of the route. -/
theorem AccountEndpoint.authorize_handled {endpoint : AccountEndpoint} {user : User}
    {e : Failure} (h : endpoint.authorize user = .error e) :
    handled (.error e : Except Failure α) = true := by
  unfold authorize requirePermission at h
  split at h
  · split_ifs at h
    cases h
    rfl
  · cases h

/-- A token that has expired since it was accepted. -/
theorem AccountEndpoint.currentJti_handled {endpoint : AccountEndpoint} {token : Token}
    {e : Failure} (h : endpoint.currentJti w t token = .error e) :
    handled (.error e : Except Failure α) = true := by
  unfold currentJti at h
  split_ifs at h
  cases hdecode : JwtTokenService.decode w.signed t token with
  | ok payload =>
    rw [hdecode] at h
    cases h
  | error e' =>
    rw [hdecode] at h
    cases h
    exact handled_decode hdecode

namespace Request

variable {r : Request}

/-- A request is answered by a call it makes, or with an error of the application. -/
theorem serve_handled
    (h : ∀ v s c, r.Makes env w t t' v s c → handled (runCall env v s c).2 = true) :
    handled (r.serve env w t t').2 = true := by
  cases r with
  | guest endpoint device =>
    cases hcall : endpoint.call device with
    | ok c =>
      have hc := h _ _ _ (.opened hcall)
      simpa only [serve, hcall] using hc
    | error e =>
      simp only [serve, hcall]
      exact PublicEndpoint.call_handled hcall
  | account endpoint token device =>
    cases token with
    | none => rfl
    | some token =>
      have hchecked := h _ _ _ .checked
      simp only [serve]
      split
      · rename_i v user hrun
        have hauth : (runCall env w t (.authenticate token)).2 = .ok (.user user) := by
          rw [hrun]
        have hworld : (runCall env w t (.authenticate token)).1 = v := by rw [hrun]
        unfold AccountEndpoint.serve
        cases hallowed : endpoint.authorize user with
        | error e => exact AccountEndpoint.authorize_handled hallowed
        | ok user' =>
          obtain ⟨rfl, -⟩ := AccountEndpoint.authorize_eq_ok hallowed
          cases hjti : endpoint.currentJti v t' token with
          | error e =>
            simp only
            exact AccountEndpoint.currentJti_handled hjti
          | ok jti =>
            cases hcall : endpoint.call user' token jti device with
            | none => simp [hcall]
            | some c =>
              have hc := h _ _ _ (.called hauth hallowed (hworld ▸ hjti) hcall)
              rw [hworld] at hc
              simpa only [hcall] using hc
      · rename_i hrun
        rw [hrun] at hchecked
        exact hchecked

theorem Makes.ready (hmakes : r.Makes env w t t' v s c) (h : w.Ready env) : v.Ready env := by
  cases hmakes with
  | opened => exact h
  | checked => exact h
  | called => exact h.runCall _ _

/-- The calls of a request are for the account that was authenticated. -/
theorem Makes.admitted (hmakes : r.Makes env w t t' v s c) (h : w.Ready env)
    (hnew : ¬ r.CreatesTaken env w t t') : c.Admitted v := by
  cases hmakes with
  | @opened endpoint device c hcall =>
    cases endpoint with
    | refresh token =>
      cases token with
      | none => cases hcall
      | some token =>
        cases hcall
        trivial
    | _ =>
      cases hcall
      trivial
  | checked => trivial
  | @called endpoint token device user jti c hauth hallowed hjti hcall =>
    have haccepted := accepted_of_authenticate h.wf hauth
    cases endpoint with
    | readMe => cases hcall
    | revokeMySessions keepCurrent =>
      cases hcall
      rw [Call.Admitted, haccepted.db]
      exact haccepted.known
    | createRole name description =>
      cases hcall
      exact fun htaken => hnew ⟨_, _, _, _, .called hauth hallowed hjti rfl, htaken⟩
    | _ =>
      cases hcall
      trivial

/-- A request is proper unless it creates a role under the name of another. -/
theorem proper_iff
    (hhash : ∀ n k m j, env.tokenHash (env.supply.secret n k) =
      env.tokenHash (env.supply.secret m j) → env.supply.secret n k = env.supply.secret m j)
    (h : w.Ready env) : r.Proper env w t t' ↔ ¬ r.CreatesTaken env w t t' := by
  constructor
  · rintro ⟨-, hunbroken⟩ ⟨v, s, name, description, hmakes, htaken⟩
    have hnone := hunbroken v s _ hmakes 0
    rw [Call.broken?_createRole htaken] at hnone
    cases hnone
  · intro hnew
    have hcalls (v s c) (hmakes : r.Makes env w t t' v s c) :
        handled (runCall env v s c).2 = true :=
      Call.handled_of_admitted hhash (hmakes.ready h) (hmakes.admitted h hnew)
    refine ⟨serve_handled hcalls, fun v s c hmakes k => ?_⟩
    cases hbroken : c.broken? env v s k with
    | none => rfl
    | some constraint =>
      have hhandled := hcalls v s c hmakes
      rw [Call.outcome_of_broken hbroken] at hhandled
      cases hhandled

end Request

/-- In a run of requests every answer is a value or an error of the application, and no
statement of a call runs into a constraint, exactly if no request that is carried out creates
a role under a name that a role has at that moment. -/
theorem conflicts_found_early (h : Initial env w)
    (hhash : ∀ n k m j, env.tokenHash (env.supply.secret n k) =
      env.tokenHash (env.supply.secret m j) → env.supply.secret n k = env.supply.secret m j)
    (requests : Requests) :
    AlongRequests env (fun w t t' r => r.Proper env w t t') requests w ↔
      AlongRequests env (fun w t t' r => ¬ r.CreatesTaken env w t t') requests w := by
  have hready := h.ready
  clear h
  induction requests generalizing w with
  | nil => exact Iff.rfl
  | cons s rest ih =>
    exact and_congr (Request.proper_iff hhash hready) (ih (hready.serve s.1 s.2.1 s.2.2))

/-- The same service with Alice as its superuser. -/
def Sample.superuserWorld : World :=
  { Sample.world with
    db := { Sample.db with users := [{ Sample.account 1 "alice" with isSuperuser := true }] } }

theorem Sample.superuserWorld_initial : Initial Sample.env Sample.superuserWorld :=
  { Sample.initial with
    userIds := by decide
    userEmails := by decide
    usernames := by decide
    freshUserIds := by
      intro row hrow n k
      rw [List.mem_singleton.1 hrow]
      exact Sample.rowId_ne_one n k
    userRoles := by decide }

/-- Alice logs in and creates a role. -/
def Sample.creates (name : String) : Requests :=
  [(10, 10, .guest (.login ⟨"alice", "secret"⟩) {}),
    (11, 12, .account (.createRole name none) (some Sample.access) {})]

/-- A role with a new name. -/
theorem conflicts_found_early_editor :
    AlongRequests Sample.env (fun w t t' r => r.Proper Sample.env w t t')
      (Sample.creates "editor") Sample.superuserWorld := by
  refine (conflicts_found_early Sample.superuserWorld_initial (fun _ _ _ _ h => h) _).2
    ⟨?_, ?_, trivial⟩
  · rintro ⟨v, s, name, description, hmakes, -⟩
    cases hmakes with
    | opened hcall => cases hcall
  · rintro ⟨v, s, name, description, hmakes, htaken⟩
    cases hmakes with
    | called hauth hallowed hjti hcall =>
      cases hcall
      revert htaken
      decide +kernel

/-- A second role `reader` ends in an error that nothing handles. -/
theorem conflicts_found_early_reader :
    Initial Sample.env Sample.superuserWorld ∧
    ¬ AlongRequests Sample.env (fun w t t' r => r.Proper Sample.env w t t')
      (Sample.creates "reader") Sample.superuserWorld := by
  refine ⟨Sample.superuserWorld_initial, fun h => ?_⟩
  have hhandled := h.2.1.1
  revert hhandled
  decide +kernel

end VideoSite.Users
