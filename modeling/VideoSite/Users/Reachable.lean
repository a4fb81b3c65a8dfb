import VideoSite.Users.Inversion
import VideoSite.Users.Schema

/-!
# The worlds a sequential run reaches

`World.Wf` gathers what holds between any two calls: the schema of the database,
an active owner behind every session that is not revoked, tokens that belong to
the owner of their session, and a cache that holds active accounts only.

* `runCall_wf` says that a call keeps it, `runCalls_wf` that a run does.
* `Effect.sessions` says which sessions a call revokes and which it opens.
-/

namespace VideoSite.Users

open Effects Program

variable {env : Env} {t : Time} {w w' : World} {c : Call} {out : Except Failure Answer}

/-! ## Tables that a change leaves alone -/

/-- The account of an entity is its row. -/
theorem userById_of_row {db : Db} {id : UserId} {user : User} {row : UserRow}
    (huser : db.userById id = some user) (hrow : db.userRow? id = some row) :
    user = db.userToEntity row := by
  have he := huser
  rw [Db.userById, hrow] at he
  exact (Option.some.inj he).symm

@[simp] theorem Db.grantDefault_frame (db : Db) (userId : UserId) (role : Option Role) :
    (db.grantDefault userId role).users = db.users ∧
      (db.grantDefault userId role).sessions = db.sessions ∧
      (db.grantDefault userId role).securityTokens = db.securityTokens := by
  cases role with
  | none => exact ⟨rfl, rfl, rfl⟩
  | some r => exact Db.linkRole_frame db userId r.id

@[simp] theorem EmailVerificationIssuer.issued_frame (n k : Nat) (db : Db)
    (userId : UserId) :
    (EmailVerificationIssuer.issued env t n k db userId).users = db.users ∧
      (EmailVerificationIssuer.issued env t n k db userId).sessions = db.sessions ∧
      (EmailVerificationIssuer.issued env t n k db userId).rbac = db.rbac :=
  ⟨rfl, rfl, rfl⟩

@[simp] theorem VerifyEmailUseCase.stamped_frame (db : Db) (row : UserRow) (user : User) :
    (VerifyEmailUseCase.stamped t db row user).sessions = db.sessions ∧
      (VerifyEmailUseCase.stamped t db row user).securityTokens = db.securityTokens ∧
      (VerifyEmailUseCase.stamped t db row user).rbac = db.rbac := by
  unfold stamped
  split
  · exact ⟨rfl, rfl, rfl⟩
  · exact Db.setProfile_frame _ _ _ _

@[simp] theorem UpdateUserUseCase.finished_frame (w : World) (db : Db) (updated : User) :
    (UpdateUserUseCase.finished env t w db updated).db.users = db.users ∧
      (UpdateUserUseCase.finished env t w db updated).db.sessions = db.sessions ∧
      (UpdateUserUseCase.finished env t w db updated).db.rbac = db.rbac ∧
      (UpdateUserUseCase.finished env t w db updated).cache = w.cache := by
  unfold finished
  split <;> exact ⟨rfl, rfl, rfl, rfl⟩

/-! ## The cache -/

@[simp] theorem Cache.get_empty (t : Time) (key : String) :
    Cache.get env (fun _ => none) t key = none := by
  unfold get
  cases env.backend <;> rfl

/-- What is left in the cache was there. -/
theorem Cache.get_delete {cache : Cache} {key other : String} {data : Json}
    (h : Cache.get env (Cache.delete env cache key) t other = some data) :
    other ≠ key ∧ Cache.get env cache t other = some data := by
  unfold get delete at *
  cases hb : env.backend with
  | memory => simp [hb] at h
  | redis =>
    simp only [hb] at h ⊢
    by_cases he : other = key
    · rw [he, Function.update_self] at h
      cases h
    · rw [Function.update_of_ne he] at h
      exact ⟨he, h⟩

/-- What is in the cache was there or was put there just now. -/
theorem Cache.get_set {cache : Cache} {now : Time} {key other : String} {value data : Json}
    {ttl : Int} (h : Cache.get env (Cache.set env cache now key value ttl) t other = some data) :
    Cache.get env cache t other = some data ∨ other = key ∧ data = value := by
  unfold get set at *
  cases hb : env.backend with
  | memory => simp [hb] at h
  | redis =>
    simp only [hb] at h ⊢
    by_cases he : other = key
    · rw [he, Function.update_self] at h
      obtain ⟨entry, hentry, rfl⟩ := Option.map_eq_some_iff.1 h
      obtain ⟨hvalue, -⟩ := Option.filter_eq_some_iff.1 hentry
      cases hvalue
      exact .inr ⟨he, rfl⟩
    · rw [Function.update_of_ne he] at h
      exact .inl h

/-- What is in the cache was there at any earlier time. -/
theorem Cache.get_of_le {cache : Cache} {now : Time} {key : String} {data : Json}
    (h : Cache.get env cache t key = some data) (hle : now ≤ t) :
    Cache.get env cache now key = some data := by
  unfold get at *
  cases hb : env.backend with
  | memory => simp [hb] at h
  | redis =>
    simp only [hb] at h ⊢
    obtain ⟨entry, hentry, rfl⟩ := Option.map_eq_some_iff.1 h
    obtain ⟨hkey, hlive⟩ := Option.filter_eq_some_iff.1 hentry
    have hlive' : decide (now < entry.expireAt) = true := by
      simpa using hle.trans_lt (by simpa using hlive)
    rw [Option.filter_eq_some_iff.2 ⟨hkey, hlive'⟩, Option.map_some]

/-! ## Owners of sessions -/

/-- Every session that is not revoked belongs to an active account. -/
def Db.Owned (db : Db) : Prop :=
  ∀ s ∈ db.sessions, s.revokedAt = none → ∀ row ∈ db.users, row.id = s.userId →
    row.isActive = true

namespace Db.Owned

variable {db : Db}

/-- Other tables do not matter. -/
theorem congr {db' : Db} (h : db.Owned) (husers : db'.users = db.users)
    (hsessions : db'.sessions = db.sessions) : db'.Owned := by
  unfold Owned
  rw [husers, hsessions]
  exact h

theorem useWhere (h : db.Owned) (cond : SecurityToken → Bool) (moment : Time) :
    (db.useWhere cond moment).Owned := h

theorem log (h : db.Owned) (row : AuditEvent) : (db.log row).Owned := h

theorem revokeWhere (h : db.Owned) (cond : AuthSession → Bool) (moment : Time) :
    (db.revokeWhere cond moment).Owned := by
  intro s hs hlive row hrow hid
  obtain ⟨old, hold, rfl⟩ := List.mem_map.1 hs
  obtain ⟨hsame, hnone⟩ := AuthSession.revokedAt_of_revokeIn _ _ _ hlive
  rw [hsame] at hid
  exact h old hold hnone row hrow hid

theorem addSession (h : db.Owned) {s : AuthSession}
    (hactive : ∀ row ∈ db.users, row.id = s.userId → row.isActive = true) :
    (db.addSession s).Owned := by
  intro other hother hlive row hrow hid
  rcases List.mem_append.1 hother with hold | hnew
  · exact h other hold hlive row hrow hid
  · obtain rfl := List.mem_singleton.1 hnew
    exact hactive row hrow hid

theorem addUser (h : db.Owned) {row : UserRow} (hactive : row.isActive = true) :
    (db.addUser row).Owned := by
  intro s hs hlive other hother hid
  rcases List.mem_append.1 hother with hold | hnew
  · exact h s hs hlive other hold hid
  · obtain rfl := List.mem_singleton.1 hnew
    exact hactive

/-- An update that leaves every account it touches active, or as it was. -/
theorem setProfile (h : db.Owned) {row : UserRow} {p : Profile} {stamp : Time}
    (hrow : row ∈ db.users) (hp : p.isActive = true ∨ p.isActive = row.isActive) :
    (db.setProfile row p stamp).Owned := by
  unfold Db.setProfile
  split_ifs with hsame
  · exact h
  intro s hs hlive other hother hid
  obtain ⟨old, hold, rfl⟩ := List.mem_map.1 hother
  split_ifs at hid ⊢ with heq
  · rcases hp with hp | hp
    · exact hp
    · exact hp.trans (h s hs hlive row hrow (heq.symm.trans hid))
  · exact h s hs hlive old hold hid

theorem setPassword (h : db.Owned) (row : UserRow) (hash : String) (stamp : Time) :
    (db.setPassword row hash stamp).Owned := by
  unfold Db.setPassword
  split_ifs with hsame
  · exact h
  intro s hs hlive other hother hid
  obtain ⟨old, hold, rfl⟩ := List.mem_map.1 hother
  split_ifs at hid ⊢ with heq
  · exact h s hs hlive old hold hid
  · exact h s hs hlive old hold hid

/-- Deactivating an account goes with revoking its sessions. -/
theorem deactivate (h : db.Owned) {supply : Supply} {n : Nat} (hs : db.Sound supply n)
    {id : UserId} {user : User} {row : UserRow} (huser : db.userById id = some user)
    (hrow : db.userRow? id = some row) (stamp moment : Time) :
    ((db.setProfile row (user.withActive false).profile stamp).revokeWhere
      (Statement.revokeAllWhere id none) moment).Owned := by
  intro s hmem hlive other hother hid
  have hrowid : row.id = id := userRow?_id hrow
  have hsound : (db.setProfile row (user.withActive false).profile stamp).Sound supply n := by
    refine hs.setProfile (mem_of_userRow? hrow) fun hne => absurd ?_ hne
    rw [userById_of_row huser hrow]
    rfl
  obtain ⟨old, hold, rfl⟩ := List.mem_map.1 hmem
  have hrevoked := AuthSession.revokeIn_of_sound hsound hold
    (Statement.revokeAllWhere id none) moment
  obtain ⟨hsame, hnone⟩ := AuthSession.revokedAt_of_revokeIn _ _ _ hlive
  rw [hsame] at hid
  have hne : old.userId ≠ row.id := by
    intro howner
    rw [hlive, if_pos ⟨by simp [Statement.revokeAllWhere, howner, hrowid, hnone], hnone⟩]
      at hrevoked
    cases hrevoked
  -- the rows of other accounts are as they were
  have husers : other ∈ db.users := by
    have hother' : other ∈ (db.setProfile row (user.withActive false).profile stamp).users :=
      hother
    rw [hs.setProfile_users (mem_of_userRow? hrow)] at hother'
    obtain ⟨before, hbefore, rfl⟩ := List.mem_map.1 hother'
    split_ifs at hid ⊢ with heq
    · rw [UserRow.setProfile_id] at hid
      exact absurd (hid.symm.trans heq) hne
    · exact hbefore
  rw [(Db.setProfile_frame _ _ _ _).1] at hold
  exact h old hold hnone other husers hid

end Db.Owned

/-! ## Well-formed worlds -/

/-- What holds between two calls. -/
structure World.Wf (env : Env) (w : World) : Prop where
  db : w.db.Sound env.supply w.calls
  owned : w.db.Owned
  signedDrawn : ∀ c ∈ w.signed, ∀ n k, env.supply.jti n k = c.jti → n < w.calls
  signedUnique : ∀ c ∈ w.signed, ∀ c' ∈ w.signed, c.jti = c'.jti → c.type = c'.type → c = c'
  signedOwner : ∀ c ∈ w.signed, ∀ s ∈ w.db.sessions, s.jti = c.jti → s.userId = c.sub
  cached : ∀ t key data, Cache.get env w.cache t key = some data → ∃ user : User,
    key = userCacheKey user.id ∧ data = UserCacheCodec.dumps env.isoFormat user ∧
      user.isActive = true ∧ w.db.hasUser user.id = true
  timed : w.limits.Timed

/-- A starting world is well formed. -/
theorem Initial.wf (h : Initial env w) : w.Wf env where
  db :=
    { userIds := h.userIds
      userEmails := h.userEmails
      sessionIds := by simp [h.sessions]
      sessionJtis := by simp [h.sessions]
      usersDrawn := fun row hrow c k hk => absurd hk (h.freshUserIds row hrow c k)
      rolesDrawn := fun row hrow c k hk => absurd hk (h.freshRoleIds row hrow c k)
      permissionsDrawn := fun row hrow c k hk => absurd hk (h.freshPermissionIds row hrow c k)
      sessionsDrawn := by simp [h.sessions]
      jtisDrawn := by simp [h.sessions]
      userRoles := h.userRoles
      rolePermissions := h.rolePermissions
      sessionOwners := by simp [h.sessions]
      tokenOwners := by simp [h.securityTokens] }
  owned := by simp [Db.Owned, h.sessions]
  signedDrawn := by simp [h.signed]
  signedUnique := by simp [h.signed]
  signedOwner := by simp [h.signed]
  cached := by
    intro t key data hget
    rw [h.cache, Cache.get_empty] at hget
    cases hget
  timed := by
    rw [h.limits]
    exact Limits.timed_empty

/-! ## What a call leaves of it -/

/-- A fresh link keeps the schema. -/
theorem Db.Sound.issued {db : Db} {supply : Supply} {n m k : Nat} {userId : UserId}
    (h : db.Sound supply n) (howner : db.hasUser userId = true) :
    (EmailVerificationIssuer.issued env t m k db userId).Sound supply n :=
  (h.useWhere _ _).addToken howner

theorem Db.Sound.grantDefault {db : Db} {supply : Supply} {n : Nat} {userId : UserId}
    {role : Option Role} (h : db.Sound supply n) (howner : db.hasUser userId = true)
    (hrole : ∀ r, role = some r → db.hasRole r.id = true) :
    (db.grantDefault userId role).Sound supply n := by
  cases role with
  | none => exact h
  | some r => exact h.linkRole howner (hrole r rfl)

/-- The schema holds after every call. -/
theorem Effect.sound (hw : w.Wf env) (h : Effect env t w c out w') :
    w'.db.Sound env.supply (w.calls + 1) := by
  have hdb := hw.db
  have hnext : w.db.Sound env.supply (w.calls + 1) := hdb.mono (Nat.le_succ _)
  cases h with
  | failed | observed | loginClash | logoutIgnored | refreshClash | authenticated
  | authenticateInactive | passwordTried | banSkipped => exact hnext
  | @registered data device limits row a audit hl hemail husername hrow haudit ha =>
    have hadded : (w.db.addUser row).Sound env.supply (w.calls + 1) := by
      subst hrow
      exact hdb.addUser rfl hemail
    have hself : (w.db.addUser row).hasUser row.id = true := by
      rw [Db.hasUser_iff]
      exact List.mem_map_of_mem (List.mem_append_right _ (List.mem_singleton_self _))
    refine ((hadded.grantDefault hself fun r hr => ?_).issued ?_).log _
    · exact Db.hasRole_of_roleByName hr
    · rwa [Db.hasUser_iff, (Db.grantDefault_frame _ _ _).1, ← Db.hasUser_iff]
  | loginFailed hopen howner hbad hdb' =>
    rcases hdb' with ⟨audit, -, rfl, -⟩ | ⟨rfl, -⟩
    · exact hnext.log _
    · exact hnext
  | loggedIn hopen huser hactive hverify haudit =>
    refine (hdb.addSession rfl rfl ?_).log _
    obtain ⟨row, hrow, rfl⟩ := Option.map_eq_some_iff.1 huser
    rw [Db.hasUser_iff]
    exact List.mem_map_of_mem (List.mem_of_find?_eq_some hrow)
  | loggedOut hs ht haudit => exact (hnext.revokeWhere _ _).log _
  | refreshed hs ht htype hold hvalid huser hactive =>
    refine (hdb.revokeWhere _ _).addSession rfl rfl ?_
    obtain ⟨hid, -⟩ := userById_row huser
    have howner := Db.hasUser_of_userById huser
    rw [← hid] at howner
    exact howner
  | passwordChanged huser hrow hverify haudit =>
    exact (((hnext.setPassword _ _ _).useWhere _ _).revokeWhere _ _).log _
  | resetRequested hl huser hactive =>
    refine (hnext.useWhere _ _).addToken ?_
    obtain ⟨row, hrow, rfl⟩ := Option.map_eq_some_iff.1 huser
    change w.db.hasUser row.id = true
    rw [Db.hasUser_iff]
    exact List.mem_map_of_mem (List.mem_of_find?_eq_some hrow)
  | passwordReset hl htoken husable huser hactive hrow haudit =>
    exact ((((hnext.setPassword _ _ _).useWhere _ _).useWhere _ _).revokeWhere _ _).log _
  | @emailVerified secret device token user row verified audit htoken husable huser hactive hrow
      hself haudit =>
    have hused := hnext.useWhere (Statement.markUsedWhere token.id) t
    obtain ⟨hid, -⟩ := userById_row huser
    have he := userById_of_row huser (hid ▸ hrow)
    refine Db.Sound.log ?_ _
    unfold VerifyEmailUseCase.stamped
    split_ifs with hverified
    · exact hused
    · refine hused.setProfile (Db.mem_of_userRow? hrow) fun hne => absurd ?_ hne
      rw [he]
      rfl
  | @userUpdated userId data user edited row a huser hrow hedits =>
    have he := userById_of_row huser hrow
    have hset : (w.db.setProfile row edited.profile t).Sound env.supply (w.calls + 1) := by
      refine hnext.setProfile (Db.mem_of_userRow? hrow) fun hne => hedits.emailFree ?_
      rw [he]
      exact hne
    unfold UpdateUserUseCase.finished
    split_ifs with hverified
    · exact hset
    · refine hset.issued ?_
      rw [Db.hasUser_congr]
      · change w.db.hasUser (row.setProfile edited.profile t).id = true
        rw [UserRow.setProfile_id, userRow?_id hrow]
        exact Db.hasUser_of_userRow? hrow
      · unfold Db.setProfile
        split_ifs with hsame
        · rfl
        · change (List.map _ (List.map _ _)) = _
          rw [List.map_map]
          refine List.map_congr_left fun other _ => ?_
          dsimp only [Function.comp]
          split <;> rfl
  | userDeleted huser hrow haudit =>
    have he := userById_of_row huser hrow
    refine ((hnext.setProfile (Db.mem_of_userRow? hrow) fun hne => absurd ?_ hne).revokeWhere
      _ _).log _
    rw [he]
    rfl
  | userBanned hsuper huser hactive hrow haudit =>
    have he := userById_of_row huser hrow
    refine ((hnext.setProfile (Db.mem_of_userRow? hrow) fun hne => absurd ?_ hne).revokeWhere
      _ _).log _
    rw [he]
    rfl
  | userUnbanned huser hactive hrow haudit =>
    have he := userById_of_row huser hrow
    refine (hnext.setProfile (Db.mem_of_userRow? hrow) fun hne => absurd ?_ hne).log _
    rw [he]
    rfl
  | sessionsRevoked haudit => exact (hnext.revokeWhere _ _).log _
  | sessionRevoked hsession howner haudit => exact (hnext.revokeWhere _ _).log _
  | roleCreated hrow hfree =>
    subst hrow
    exact hdb.insertRole rfl
  | roleDeleted hrole => exact hnext.deleteRole _
  | permissionGranted hrole hpermission =>
    exact hnext.linkPermission (Db.hasRole_of_roleById hrole)
      (Db.hasPermission_of_permissionById hpermission)
  | permissionRevoked hrole => exact hnext.deleteRolePermission _ _
  | permissionCreated hrow hfree =>
    subst hrow
    exact hdb.insertPermission rfl
  | roleAssigned huser hrole =>
    exact hnext.linkRole (Db.hasUser_of_userById huser) (Db.hasRole_of_roleById hrole)
  | roleRevoked huser => exact hnext.deleteUserRole _ _

/-! ## Which sessions a call revokes and opens -/

/-- The call, if it succeeds, revokes the session `s`. -/
def Call.Revokes (env : Env) (w : World) (t : Time) (s : AuthSession) : Call → Prop
  | .logout token _ => ∃ c ∈ w.signed, token = .jwt c ∧ t < c.exp ∧ s.jti = c.jti
  | .refresh token _ => ∃ c ∈ w.signed, token = .jwt c ∧ c.type = .refresh ∧ s.jti = c.jti
  | .changePassword u _ _ => s.userId = u
  | .resetPassword data _ => ∃ token,
      w.db.tokenByHash (env.tokenHash data.token) .passwordReset = some token ∧
        s.userId = token.userId
  | .deleteUser u _ => s.userId = u
  | .banUser _ u _ _ => s.userId = u
  | .revokeAllSessions u exceptJti _ =>
      s.userId = u ∧ ∀ jti, exceptJti = some jti → s.jti ≠ jti
  | .revokeUserSession u sessionId _ => s.userId = u ∧ s.id = sessionId
  | _ => False

/-- The call issued a pair of tokens and opened the session `s` for it. -/
structure Opens (env : Env) (t : Time) (w : World) (out : Except Failure Answer)
    (w' : World) (s : AuthSession) : Prop where
  answer : ∃ user, w.db.userById s.userId = some user ∧ user.isActive = true ∧
    out = .ok (.auth (issuedPair env t user s.jti))
  jti : s.jti = env.supply.jti w.calls 0
  expiresAt : s.expiresAt = JwtTokenService.expiresAt env.config t .refresh
  live : s.revokedAt = none
  users : w'.db.users = w.db.users
  signed : w'.signed = (w.signPair env t s.userId s.jti).signed

/-- The sessions after a call: those that meet a condition are revoked, which are
the ones the call is said to revoke, and a pair of tokens comes with a new one. -/
structure SessionsStep (env : Env) (t : Time) (w : World) (c : Call)
    (out : Except Failure Answer) (w' : World) (cond : AuthSession → Bool)
    (new : List AuthSession) : Prop where
  sessions : w'.db.sessions = (w.db.revokeWhere cond t).sessions ++ new
  revokes : ∀ s ∈ w.db.sessions, s.revokedAt = none →
    (cond s = true ↔ out.isOk = true ∧ c.Revokes env w t s)
  opens : ∀ s ∈ new, Opens env t w out w' s

theorem SessionsStep.same (hsame : w'.db.sessions = w.db.sessions)
    (hkeeps : ∀ s ∈ w.db.sessions, s.revokedAt = none →
      ¬ (out.isOk = true ∧ c.Revokes env w t s)) :
    SessionsStep env t w c out w' (fun _ => false) [] where
  sessions := by rw [Db.revokeWhere_false, List.append_nil, hsame]
  revokes := fun s hs hlive => by simpa using hkeeps s hs hlive
  opens := by simp

theorem SessionsStep.revoked (cond : AuthSession → Bool)
    (hw' : w'.db.sessions = (w.db.revokeWhere cond t).sessions)
    (hcond : ∀ s ∈ w.db.sessions, s.revokedAt = none →
      (cond s = true ↔ out.isOk = true ∧ c.Revokes env w t s)) :
    SessionsStep env t w c out w' cond [] where
  sessions := by
    rw [List.append_nil, hw']
  revokes := hcond
  opens := by simp

/-- A condition of the bulk revocation, on a session that is not revoked. -/
theorem revokeAllWhere_iff {u : UserId} {exceptJti : Option String} {s : AuthSession}
    (hlive : s.revokedAt = none) :
    Statement.revokeAllWhere u exceptJti s = true ↔
      s.userId = u ∧ ∀ jti, exceptJti = some jti → s.jti ≠ jti := by
  cases exceptJti <;> simp [Statement.revokeAllWhere, hlive]

theorem revokeWhere_iff {jti : String} {s : AuthSession} (hlive : s.revokedAt = none) :
    Statement.revokeWhere jti s = true ↔ s.jti = jti := by
  simp [Statement.revokeWhere, hlive]

theorem SessionsStep.revokedAll (u : UserId)
    (hw' : w'.db.sessions =
      (w.db.revokeWhere (Statement.revokeAllWhere u none) t).sessions)
    (hcall : ∀ s, out.isOk = true ∧ c.Revokes env w t s ↔ s.userId = u) :
    SessionsStep env t w c out w' (Statement.revokeAllWhere u none) [] := by
  refine .revoked _ hw' fun s _ hlive => ?_
  rw [hcall, revokeAllWhere_iff hlive]
  simp

theorem Call.Observes.not_revokes (h : c.Observes) (s : AuthSession) :
    ¬ c.Revokes env w t s := by
  cases c <;> simp [Observes, Revokes] at h ⊢

/-- The account that an address finds is found by its id as well. -/
theorem Db.Sound.userById_of_userByEmail {db : Db} {supply : Supply} {n : Nat}
    (h : db.Sound supply n) {email : String} {user : User}
    (huser : db.userByEmail email = some user) :
    db.userById user.id = some user ∧ user.email = email := by
  obtain ⟨row, hrow, rfl⟩ := Option.map_eq_some_iff.1 huser
  have hemail : row.email = email := by simpa using List.find?_some hrow
  refine ⟨?_, hemail⟩
  change (db.userRow? row.id).map db.userToEntity = _
  rw [h.userRow?_of_mem (List.mem_of_find?_eq_some hrow), Option.map_some]

/-- The inversion of `Effect` for the table of sessions. -/
theorem Effect.sessions (hw : w.Wf env) (h : Effect env t w c out w') :
    ∃ cond new, SessionsStep env t w c out w' cond new := by
  cases h with
  | failed | loginClash | refreshClash | authenticateInactive | passwordTried =>
    exact ⟨_, _, .same rfl fun s _ _ hr => by cases hr.1⟩
  | observed hc hl => exact ⟨_, _, .same rfl fun s _ _ hr => hc.not_revokes s hr.2⟩
  | registered hl hemail husername hrow haudit ha =>
    exact ⟨_, _, .same (by simp) fun s _ _ hr => hr.2⟩
  | loginFailed hopen howner hbad hdb =>
    refine ⟨_, _, .same ?_ fun s _ _ hr => hr.2⟩
    rcases hdb with ⟨audit, -, rfl, -⟩ | ⟨rfl, -⟩ <;> rfl
  | @loggedIn data device user audit hopen huser hactive hverify haudit =>
    refine ⟨fun _ => false, [LoginUseCase.session env t w.calls user (device.getD {})],
      ?_, fun s _ _ => ?_, fun s hs => ?_⟩
    · rw [Db.revokeWhere_false]
      rfl
    · simp [Call.Revokes]
    · obtain rfl := List.mem_singleton.1 hs
      obtain ⟨hfound, -⟩ := hw.db.userById_of_userByEmail huser
      exact ⟨⟨user, hfound, hactive, rfl⟩, rfl, rfl, rfl, rfl, rfl⟩
  | logoutIgnored hdecode =>
    refine ⟨_, _, .same rfl fun s _ _ hr => ?_⟩
    obtain ⟨-, c, hs, rfl, ht, -⟩ := hr
    simp [JwtTokenService.decode, hs, ht] at hdecode
  | @loggedOut claims device audit hs ht haudit =>
    refine ⟨_, _, .revoked _ rfl fun s _ hlive => (revokeWhere_iff hlive).trans ?_⟩
    constructor
    · intro hjti
      exact ⟨rfl, claims, hs, rfl, ht, hjti⟩
    · rintro ⟨-, c, -, hc, -, hjti⟩
      cases hc
      exact hjti
  | @refreshed claims device old user hs ht htype hold hvalid huser hactive =>
    obtain ⟨hid, -⟩ := userById_row huser
    refine ⟨Statement.revokeWhere claims.jti,
      [RefreshTokenUseCase.session env t w.calls old user (device.getD {})], rfl,
      fun s _ hlive => (revokeWhere_iff hlive).trans ?_, fun s hmem => ?_⟩
    · constructor
      · intro hjti
        exact ⟨rfl, claims, hs, rfl, htype, hjti⟩
      · rintro ⟨-, c, -, hc, -, hjti⟩
        cases hc
        exact hjti
    · obtain rfl := List.mem_singleton.1 hmem
      have hfound : w.db.userById user.id = some user := by rwa [hid]
      exact ⟨⟨user, hfound, hactive, rfl⟩, rfl, rfl, rfl, rfl, rfl⟩
  | authenticated | roleCreated | roleDeleted | permissionRevoked | permissionCreated
  | roleRevoked => exact ⟨_, _, .same rfl fun s _ _ hr => hr.2⟩
  | resetRequested | permissionGranted | roleAssigned | userUnbanned | emailVerified
  | userUpdated => exact ⟨_, _, .same (by simp) fun s _ _ hr => hr.2⟩
  | @passwordChanged userId data device user row audit k huser hrow hverify haudit =>
    refine ⟨_, _, .revokedAll userId ?_ fun s => ?_⟩
    · simp [Db.revokeWhere_sessions, sessionIds]
    · simp [Call.Revokes, Except.isOk, Except.toBool]
  | @passwordReset data device limits token user row audit hl htoken husable huser hactive hrow
      haudit =>
    obtain ⟨hid, -⟩ := userById_row huser
    refine ⟨_, _, .revokedAll user.id ?_ fun s => ?_⟩
    · simp [Db.revokeWhere_sessions, sessionIds]
    · simp [Call.Revokes, Except.isOk, Except.toBool, htoken, hid]
  | @userDeleted userId device user row audit huser hrow haudit =>
    refine ⟨_, _, .revokedAll userId ?_ fun s => ?_⟩
    · simp [Db.revokeWhere_sessions, sessionIds]
    · simp [Call.Revokes, Except.isOk, Except.toBool]
  | @banSkipped actor targetId reason device user huser hactive =>
    refine ⟨_, _, .same rfl fun s hs hlive hr => ?_⟩
    obtain ⟨hid, row, hrow, rfl⟩ := userById_row huser
    have hon := hw.owned s hs hlive row (Db.mem_of_userRow? hrow) (hid.trans hr.2.symm)
    rw [show (w.db.userToEntity row).isActive = row.isActive from rfl, hon] at hactive
    cases hactive
  | @userBanned actor targetId reason device user row a audit hsuper huser hactive hrow haudit =>
    refine ⟨_, _, .revokedAll targetId ?_ fun s => ?_⟩
    · simp [Db.revokeWhere_sessions, sessionIds]
    · simp [Call.Revokes, Except.isOk, Except.toBool]
  | sessionsRevoked haudit =>
    refine ⟨_, _, .revoked _ rfl fun s _ hlive => ?_⟩
    rw [revokeAllWhere_iff hlive]
    simp [Call.Revokes, Except.isOk, Except.toBool]
  | @sessionRevoked userId sessionId device session audit hsession howner haudit =>
    refine ⟨_, _, .revoked _ rfl fun s hs hlive => (revokeWhere_iff hlive).trans ?_⟩
    have hmem : session ∈ w.db.sessions := List.mem_of_find?_eq_some hsession
    have hid : session.id = sessionId := by simpa using List.find?_some hsession
    constructor
    · intro hjti
      obtain rfl := hw.db.jti_unique hs hmem hjti
      exact ⟨rfl, howner, hid⟩
    · rintro ⟨-, -, hsid⟩
      rw [hw.db.session_unique hs hmem (hsid.trans hid.symm)]

/-! ## Which accounts a call changes -/

/-- The call is a `VerifyEmail` that succeeded for the account `u`. -/
def Call.Verifies (env : Env) (t : Time) (w : World) (out : Except Failure Answer)
    (u : UserId) (c : Call) : Prop :=
  ∃ secret device token verified, c = .verifyEmail secret device ∧
    out = .ok (.user verified) ∧ verified.id = u ∧
    w.db.tokenByHash (env.tokenHash secret) .emailVerification = some token ∧
    token.isUsable t = true ∧ token.userId = u

/-- The call is an `UpdateUser` that gives the account `u` another address: one that
is free, along with a username that is free or its own. -/
def Call.Readdresses (env : Env) (w : World) (u : UserId) (c : Call) : Prop :=
  ∃ data email user, c = .updateUser u data ∧ w.db.userById u = some user ∧
    data.email = some email ∧ w.db.userByEmail (env.normalize email) = none ∧
    ∀ name, data.username = some name → env.strip name = user.username ∨
      w.db.userByUsername (env.strip name) = none

/-- The accounts after a call: each keeps its id and its rank, only `UpdateUser`
changes an address and only `VerifyEmail` verifies one, and a new account has an id
of its own. -/
structure UsersStep (env : Env) (t : Time) (w : World) (c : Call)
    (out : Except Failure Answer) (w' : World) (edit : UserRow → UserRow)
    (new : List UserRow) : Prop where
  users : w'.db.users = w.db.users.map edit ++ new
  id : ∀ row ∈ w.db.users, (edit row).id = row.id
  isSuperuser : ∀ row ∈ w.db.users, (edit row).isSuperuser = row.isSuperuser
  email : ∀ row ∈ w.db.users, (edit row).email ≠ row.email →
    c.Readdresses env w row.id
  verified : ∀ row ∈ w.db.users, (edit row).emailVerifiedAt ≠ none →
    (edit row).email = row.email ∧
      (row.emailVerifiedAt ≠ none ∨ c.Verifies env t w out row.id)
  fresh : ∀ row ∈ new, row.id = env.supply.rowId w.calls 1 ∧ row.isActive = true ∧
    row.emailVerifiedAt = none

theorem UsersStep.same (h : w'.db.users = w.db.users) :
    UsersStep env t w c out w' (fun row => row) [] where
  users := by rw [h, List.map_id', List.append_nil]
  id := fun _ _ => rfl
  isSuperuser := fun _ _ => rfl
  email := fun _ _ hne => absurd rfl hne
  verified := fun _ _ h => ⟨rfl, .inl h⟩
  fresh := by simp

theorem UserRow.setProfile_isSuperuser (row : UserRow) (p : Profile) (stamp : Time)
    (h : p.isSuperuser = row.isSuperuser) :
    (row.setProfile p stamp).isSuperuser = row.isSuperuser := by
  unfold setProfile
  split
  · rfl
  · exact h

theorem UserRow.setProfile_email (row : UserRow) (p : Profile) (stamp : Time) :
    (row.setProfile p stamp).email = p.email := by
  unfold setProfile
  split_ifs with h
  · exact congrArg Profile.email h
  · rfl

theorem UserRow.setProfile_emailVerifiedAt (row : UserRow) (p : Profile) (stamp : Time) :
    (row.setProfile p stamp).emailVerifiedAt = p.emailVerifiedAt := by
  unfold setProfile
  split_ifs with h
  · exact congrArg Profile.emailVerifiedAt h
  · rfl

theorem UsersStep.profile {db : Db} {row : UserRow} {p : Profile} (hw : w.Wf env)
    (hdb : db.users = w.db.users) (hrow : row ∈ w.db.users)
    (hw' : w'.db.users = (db.setProfile row p t).users)
    (hsuper : p.isSuperuser = row.isSuperuser)
    (hemail : p.email ≠ row.email → c.Readdresses env w row.id)
    (hverified : p.emailVerifiedAt ≠ none → p.email = row.email ∧
      (row.emailVerifiedAt ≠ none ∨ c.Verifies env t w out row.id)) :
    UsersStep env t w c out w'
      (fun other => if other.id = row.id then other.setProfile p t else other) [] where
  users := by
    have hcongr : (db.setProfile row p t).users = (w.db.setProfile row p t).users := by
      unfold Db.setProfile
      split
      · exact hdb
      · simp only [Write.apply, hdb]
    rw [hw', hcongr, hw.db.setProfile_users hrow, List.append_nil]
  id := by
    intro other _
    split_ifs with hid
    · rw [UserRow.setProfile_id]
    · rfl
  isSuperuser := by
    intro other hother
    split_ifs with hid
    · obtain rfl := hw.db.row_unique hother hrow hid
      exact UserRow.setProfile_isSuperuser _ _ _ hsuper
    · rfl
  email := by
    intro other hother hne
    split_ifs at hne with hid
    · obtain rfl := hw.db.row_unique hother hrow hid
      rw [UserRow.setProfile_email] at hne
      exact hemail hne
    · exact absurd rfl hne
  verified := by
    intro other hother hset
    split_ifs at hset ⊢ with hid
    · obtain rfl := hw.db.row_unique hother hrow hid
      rw [UserRow.setProfile_emailVerifiedAt] at hset
      rw [UserRow.setProfile_email]
      exact hverified hset
    · exact ⟨rfl, .inl hset⟩
  fresh := by simp

/-- Deactivating or reactivating an account changes nothing else. -/
theorem UsersStep.active {id : UserId} {user : User} {row : UserRow} {active : Bool}
    (hw : w.Wf env) (huser : w.db.userById id = some user)
    (hrow : w.db.userRow? id = some row)
    (hw' : w'.db.users = (w.db.setProfile row (user.withActive active).profile t).users) :
    UsersStep env t w c out w' (fun other =>
      if other.id = row.id then other.setProfile (user.withActive active).profile t
      else other) [] := by
  have he := userById_of_row huser hrow
  subst he
  exact .profile hw rfl (Db.mem_of_userRow? hrow) hw' rfl (fun hne => absurd rfl hne)
    fun hset => ⟨rfl, .inl hset⟩

theorem UsersStep.password (row : UserRow) (hash : String) (hw : w.Wf env)
    (hrow : row ∈ w.db.users) (hw' : w'.db.users = (w.db.setPassword row hash t).users) :
    UsersStep env t w c out w'
      (fun other => if other.id = row.id then other.setPassword hash t else other) [] where
  users := by rw [hw', hw.db.setPassword_users hrow, List.append_nil]
  id := by
    intro other _
    split_ifs with hid
    · rw [UserRow.setPassword_id]
    · rfl
  isSuperuser := by
    intro other _
    unfold UserRow.setPassword
    split_ifs <;> rfl
  email := by
    intro other _ hne
    refine absurd ?_ hne
    unfold UserRow.setPassword
    split_ifs <;> rfl
  verified := by
    intro other _ hset
    unfold UserRow.setPassword at hset ⊢
    split_ifs at hset ⊢ <;> exact ⟨rfl, .inl hset⟩
  fresh := by simp

/-- An edit of the address takes a free one from the request. -/
theorem UpdateUserUseCase.Edits.readdresses {userId : UserId} {data : UpdateUserDTO}
    {user edited : User} (h : UpdateUserUseCase.Edits env w.db data user edited)
    (huser : w.db.userById userId = some user) (hne : edited.email ≠ user.email) :
    (Call.updateUser userId data).Readdresses env w userId := by
  have hfree := h.emailFree hne
  have hemail := h.email
  cases hdata : data.email with
  | none =>
    rw [hdata] at hemail
    exact absurd hemail hne
  | some email =>
    rw [hdata] at hemail
    have hnormal : edited.email = env.normalize email := hemail
    refine ⟨data, email, user, rfl, huser, hdata, hnormal ▸ hfree, fun name hname => ?_⟩
    have husername := h.username
    rw [hname] at husername
    have hstrip : edited.username = env.strip name := husername
    by_cases hsame : edited.username = user.username
    · exact .inl (hstrip ▸ hsame)
    · exact .inr (hstrip ▸ h.usernameFree hsame)

/-- The inversion of `Effect` for the table of accounts. -/
theorem Effect.users (hw : w.Wf env) (h : Effect env t w c out w') :
    ∃ edit new, UsersStep env t w c out w' edit new := by
  cases h with
  | failed | observed | loginClash | loggedIn | logoutIgnored | loggedOut | refreshClash
  | refreshed | authenticated | authenticateInactive | passwordTried | resetRequested
  | banSkipped | sessionsRevoked | sessionRevoked | roleCreated | roleDeleted
  | permissionRevoked | permissionCreated | roleRevoked => exact ⟨_, _, .same rfl⟩
  | permissionGranted | roleAssigned => exact ⟨_, _, .same (by simp)⟩
  | loginFailed hopen howner hbad hdb =>
    refine ⟨_, _, .same ?_⟩
    rcases hdb with ⟨audit, -, rfl, -⟩ | ⟨rfl, -⟩ <;> rfl
  | @registered data device limits row a audit hl hemail husername hrow haudit ha =>
    refine ⟨fun row => row, [row], ?_, fun _ _ => rfl, fun _ _ => rfl,
      fun _ _ hne => absurd rfl hne, fun _ _ h => ⟨rfl, .inl h⟩, fun other hother => ?_⟩
    · rw [List.map_id']
      simp
      rfl
    · obtain rfl := List.mem_singleton.1 hother
      subst hrow
      exact ⟨rfl, rfl, rfl⟩
  | @passwordChanged userId data device user row audit k huser hrow hverify haudit =>
    exact ⟨_, _, .password row (env.hasher.hash (env.supply.salt w.calls 0) data.newPassword)
      hw (Db.mem_of_userRow? hrow) (by simp)⟩
  | @passwordReset data device limits token user row audit hl htoken husable huser hactive hrow
      haudit =>
    exact ⟨_, _, .password row (env.hasher.hash (env.supply.salt w.calls 0) data.password)
      hw (Db.mem_of_userRow? hrow) (by simp)⟩
  | @emailVerified secret device token user row verified audit htoken husable huser hactive hrow
      hself haudit =>
    obtain ⟨hid, -⟩ := userById_row huser
    have he := userById_of_row huser (hid ▸ hrow)
    by_cases hverified : user.isEmailVerified = true
    · refine ⟨_, _, .same ?_⟩
      change (VerifyEmailUseCase.stamped _ _ _ _).users = w.db.users
      rw [VerifyEmailUseCase.stamped, if_pos hverified]
      rfl
    · have hstamped : (VerifyEmailUseCase.stamped t
          (w.db.useWhere (Statement.markUsedWhere token.id) t) row user).users =
            ((w.db.useWhere (Statement.markUsedWhere token.id) t).setProfile row
              (user.withVerifiedAt t).profile t).users := by
        rw [VerifyEmailUseCase.stamped, if_neg hverified]
      have hkeep : (w.db.useWhere (Statement.markUsedWhere token.id) t).users =
          w.db.users := rfl
      refine ⟨_, _, .profile hw hkeep (Db.mem_of_userRow? hrow) hstamped
        ?_ (fun hne => absurd ?_ hne) fun _ => ⟨?_, .inr ?_⟩⟩
      · rw [he]
        rfl
      · rw [he]
        rfl
      · rw [he]
        rfl
      · rw [userRow?_id hrow]
        exact ⟨secret, device, token, verified, rfl, rfl, hself, htoken, husable, hid.symm⟩
  | @userUpdated userId data user edited row a huser hrow hedits =>
    have he := userById_of_row huser hrow
    refine ⟨_, _, .profile hw rfl (Db.mem_of_userRow? hrow)
      (UpdateUserUseCase.finished_frame _ _ _).1 ?_ (fun hne => ?_) fun hset => ?_⟩
    · rw [hedits.rest, he]
      rfl
    · rw [userRow?_id hrow]
      exact hedits.readdresses huser fun hkept => hne (hkept.trans (congrArg User.email he))
    · have hsame : edited.email = user.email := by
        by_contra hne
        have hnone : edited.emailVerifiedAt = none := by rw [hedits.verified, if_neg hne]
        exact hset hnone
      have hkept : edited.emailVerifiedAt = user.emailVerifiedAt := by
        rw [hedits.verified, if_pos hsame]
      subst he
      exact ⟨hsame, .inl fun hnone => hset (hkept.trans hnone)⟩
  | userDeleted huser hrow haudit => exact ⟨_, _, .active hw huser hrow rfl⟩
  | userBanned hsuper huser hactive hrow haudit => exact ⟨_, _, .active hw huser hrow rfl⟩
  | userUnbanned huser hactive hrow haudit => exact ⟨_, _, .active hw huser hrow rfl⟩

/-- An account stays. -/
theorem Effect.hasUser (hw : w.Wf env) (h : Effect env t w c out w') {id : UserId}
    (hid : w.db.hasUser id = true) : w'.db.hasUser id = true := by
  obtain ⟨edit, new, hstep⟩ := h.users hw
  rw [Db.hasUser_iff] at hid ⊢
  obtain ⟨row, hrow, rfl⟩ := List.mem_map.1 hid
  rw [hstep.users, List.map_append, ← hstep.id row hrow]
  exact List.mem_append_left _ (List.mem_map_of_mem (List.mem_map_of_mem hrow))

/-! ## A call keeps the world well formed -/

/-- Every session that is not revoked has an active owner after the call. -/
theorem Effect.owned (hw : w.Wf env) (h : Effect env t w c out w') : w'.db.Owned := by
  have howned := hw.owned
  -- an entity that was loaded by its id stands for the row with that id
  have hactiveRow {id : UserId} {user : User} (huser : w.db.userById id = some user)
      (hactive : user.isActive = true) :
      ∀ row ∈ w.db.users, row.id = id → row.isActive = true := by
    intro row hrow hid
    have he := userById_of_row huser (hid ▸ hw.db.userRow?_of_mem hrow)
    rw [he] at hactive
    exact hactive
  cases h with
  | failed | observed | loginClash | logoutIgnored | refreshClash | authenticated
  | authenticateInactive | passwordTried | banSkipped | resetRequested | roleCreated
  | roleDeleted | permissionRevoked | permissionCreated | roleRevoked => exact howned
  | @registered data device limits row a audit hl hemail husername hrow haudit ha =>
    have hadded : (w.db.addUser row).Owned := howned.addUser (by rw [hrow]; rfl)
    exact hadded.congr (by simp) (by simp)
  | loginFailed hopen howner hbad hdb =>
    rcases hdb with ⟨audit, -, rfl, -⟩ | ⟨rfl, -⟩ <;> exact howned
  | loggedIn hopen huser hactive hverify haudit =>
    obtain ⟨hfound, -⟩ := hw.db.userById_of_userByEmail huser
    exact (howned.addSession (hactiveRow hfound hactive)).log _
  | @refreshed claims device old user hs ht htype hold hvalid huser hactive =>
    obtain ⟨hid, -⟩ := userById_row huser
    have hfound : w.db.userById user.id = some user := by rwa [hid]
    exact (howned.revokeWhere _ _).addSession (hactiveRow hfound hactive)
  | loggedOut => exact (howned.revokeWhere _ _).log _
  | passwordChanged =>
    exact (((howned.setPassword _ _ _).useWhere _ _).revokeWhere _ _).log _
  | passwordReset =>
    exact ((((howned.setPassword _ _ _).useWhere _ _).useWhere _ _).revokeWhere _ _).log _
  | sessionsRevoked | sessionRevoked => exact (howned.revokeWhere _ _).log _
  | permissionGranted =>
    exact howned.congr (by simp) (by simp)
  | roleAssigned =>
    exact howned.congr (by simp) (by simp)
  | @emailVerified secret device token user row verified audit htoken husable huser hactive hrow
      hself haudit =>
    obtain ⟨hid, -⟩ := userById_row huser
    have he := userById_of_row huser (hid ▸ hrow)
    have hused : (w.db.useWhere (Statement.markUsedWhere token.id) t).Owned := howned
    change (VerifyEmailUseCase.stamped t
      (w.db.useWhere (Statement.markUsedWhere token.id) t) row user).Owned
    unfold VerifyEmailUseCase.stamped
    split
    · exact hused
    · refine hused.setProfile (Db.mem_of_userRow? hrow) (.inr ?_)
      rw [he]
      rfl
  | @userUpdated userId data user edited row a huser hrow hedits =>
    have he := userById_of_row huser hrow
    have hset : (w.db.setProfile row edited.profile t).Owned := by
      refine howned.setProfile (Db.mem_of_userRow? hrow) (.inr ?_)
      rw [hedits.rest, he]
      rfl
    exact hset.congr (UpdateUserUseCase.finished_frame _ _ _).1
      (UpdateUserUseCase.finished_frame _ _ _).2.1
  | userDeleted huser hrow => exact (howned.deactivate hw.db huser hrow t t).log _
  | userBanned hsuper huser hactive hrow =>
    exact (howned.deactivate hw.db huser hrow t t).log _
  | userUnbanned huser hactive hrow haudit =>
    exact howned.setProfile (Db.mem_of_userRow? hrow) (.inl rfl)

/-! ## Tokens, cache and counters -/

/-- A call signs nothing, or one pair of tokens with a `jti` of its own. -/
theorem Effect.signed (h : Effect env t w c out w') :
    w'.signed = w.signed ∨
      ∃ u, w'.signed = (w.signPair env t u (env.supply.jti w.calls 0)).signed := by
  cases h with
  | loginClash | loggedIn | refreshClash | refreshed => exact .inr ⟨_, rfl⟩
  | loginFailed =>
    refine .inl ?_
    unfold LoginUseCase.tried
    split
    · split <;> rfl
    · rfl
  | userUpdated =>
    refine .inl ?_
    unfold UpdateUserUseCase.finished World.forget
    split <;> rfl
  | _ => exact .inl rfl

/-- The two tokens of a pair. -/
theorem mem_signPair {u : UserId} {jti : String} {claims : Claims} :
    claims ∈ (w.signPair env t u jti).signed ↔
      claims ∈ w.signed ∨ claims = JwtTokenService.claims env.config t u jti .access ∨
        claims = JwtTokenService.claims env.config t u jti .refresh := by
  simp [World.signPair]

/-- A token that was not signed before the call has the `jti` of the call. -/
theorem Effect.mem_signed (h : Effect env t w c out w') {claims : Claims}
    (hmem : claims ∈ w'.signed) :
    claims ∈ w.signed ∨ claims.jti = env.supply.jti w.calls 0 := by
  rcases h.signed with he | ⟨u, he⟩
  · exact .inl (he ▸ hmem)
  · rw [he, mem_signPair] at hmem
    rcases hmem with hold | rfl | rfl
    · exact .inl hold
    · exact .inr rfl
    · exact .inr rfl

/-- What was signed stays signed. -/
theorem Effect.signed_mono (h : Effect env t w c out w') {claims : Claims}
    (hmem : claims ∈ w.signed) : claims ∈ w'.signed := by
  rcases h.signed with he | ⟨u, he⟩
  · exact he ▸ hmem
  · rw [he, mem_signPair]
    exact .inl hmem

/-- A session that is not revoked belongs to the active account its tokens name. -/
theorem World.Wf.active_of_session (hw : w.Wf env) {claims : Claims} {session : AuthSession}
    {user : User} (hs : claims ∈ w.signed)
    (hsession : w.db.sessionByJti claims.jti = some session)
    (hvalid : session.isValid t = true) (huser : w.db.userById claims.sub = some user) :
    user.isActive = true := by
  have hmem : session ∈ w.db.sessions := List.mem_of_find?_eq_some hsession
  have hjti : session.jti = claims.jti := by simpa using List.find?_some hsession
  have hlive : session.revokedAt = none := by
    simp [AuthSession.isValid, AuthSession.isRevoked] at hvalid
    exact hvalid.1
  obtain ⟨hid, row, hrow, rfl⟩ := userById_row huser
  have howner := hw.signedOwner claims hs session hmem hjti
  exact hw.owned session hmem hlive row (Db.mem_of_userRow? hrow) (hid.trans howner.symm)

/-- The call changes which roles the account `u` has. -/
def Call.Relinks (u : UserId) : Call → Prop
  | .assignRoleToUser v _ => v = u
  | .revokeRoleFromUser v _ => v = u
  | _ => False

/-- What is in the cache after a call was there before, and the call has not changed
the roles of its account; or it is an active account as the database has it. -/
theorem Effect.cache (hw : w.Wf env) (h : Effect env t w c out w') {now : Time}
    {key : String} {data : Json} (hget : Cache.get env w'.cache now key = some data) :
    (Cache.get env w.cache now key = some data ∧
        ∀ u, key = userCacheKey u → c.Relinks u → out.isOk = false) ∨
      ∃ user, w.db.userById user.id = some user ∧ user.isActive = true ∧
        w'.db = w.db ∧ key = userCacheKey user.id ∧
        data = UserCacheCodec.dumps env.isoFormat user := by
  have hloads {claims : Claims} {session : AuthSession} {user : User} {cache : Cache}
      (hs : claims ∈ w.signed) (hsession : w.db.sessionByJti claims.jti = some session)
      (hvalid : session.isValid t = true)
      (hload : AuthenticateUseCase.Loads env t w claims.sub user cache)
      (hcache : Cache.get env cache now key = some data) :
      Cache.get env w.cache now key = some data ∨
        ∃ user, w.db.userById user.id = some user ∧ user.isActive = true ∧
          key = userCacheKey user.id ∧ data = UserCacheCodec.dumps env.isoFormat user := by
    cases hload with
    | hit => exact .inl hcache
    | miss _ huser =>
      rcases Cache.get_set hcache with hold | ⟨hkey, rfl⟩
      · exact .inl hold
      · obtain ⟨hid, -⟩ := userById_row huser
        exact .inr ⟨user, by rwa [hid], hw.active_of_session hs hsession hvalid huser,
          by rwa [hid], rfl⟩
  cases h with
  | failed => exact .inl ⟨hget, fun _ _ _ => rfl⟩
  | observed hc =>
    refine .inl ⟨hget, fun u _ hr => ?_⟩
    cases c <;> simp [Call.Relinks, Call.Observes] at hc hr
  | authenticated hs ht htype hsession hvalid hload hactive =>
    rcases hloads hs hsession hvalid hload hget with hold | ⟨user, huser, hon, hkey, hdata⟩
    · exact .inl ⟨hold, fun _ _ hr => hr.elim⟩
    · exact .inr ⟨user, huser, hon, rfl, hkey, hdata⟩
  | authenticateInactive hs hsession hvalid hload hactive =>
    rcases hloads hs hsession hvalid hload hget with hold | ⟨user, huser, hon, hkey, hdata⟩
    · exact .inl ⟨hold, fun _ _ hr => hr.elim⟩
    · exact .inr ⟨user, huser, hon, rfl, hkey, hdata⟩
  | roleAssigned | roleRevoked =>
    obtain ⟨hne, hold⟩ := Cache.get_delete hget
    exact .inl ⟨hold, fun u hkey hr => absurd (hr ▸ hkey) hne⟩
  | passwordChanged | passwordReset | emailVerified | userDeleted | userBanned
  | userUnbanned => exact .inl ⟨(Cache.get_delete hget).2, fun _ _ hr => hr.elim⟩
  | userUpdated =>
    have hkept := (Cache.get_delete hget).2
    rw [(UpdateUserUseCase.finished_frame _ _ _).2.2.2] at hkept
    exact .inl ⟨hkept, fun _ _ hr => hr.elim⟩
  | loginFailed =>
    refine .inl ⟨?_, fun _ _ hr => hr.elim⟩
    change Cache.get env (LoginUseCase.tried _ _ _ _ _).cache now key = some data at hget
    unfold LoginUseCase.tried at hget
    split at hget
    · split at hget <;> exact hget
    · exact hget
  | _ => exact .inl ⟨hget, fun _ _ hr => hr.elim⟩

theorem Charges.timed {limits limits' : Limits} (h : Charges env t limits limits')
    (ht : limits.Timed) : limits'.Timed := by
  induction h with
  | refl => exact ht
  | tail _ hstep ih =>
    obtain ⟨key, policy, -, rfl⟩ := hstep
    exact Limits.timed_hit ih _ _ _

theorem LoginUseCase.timed_charged {limits : Limits} (ht : limits.Timed) (email : String)
    (device : DeviceInfoDTO) : (LoginUseCase.charged env limits t email device).Timed := by
  have hcharge (policy : RateLimitPolicy) (key : String) {limits : Limits}
      (h : limits.Timed) : (limits.charge env t policy key).Timed := by
    unfold Limits.charge
    split
    · exact Limits.timed_hit h _ _ _
    · exact h
  unfold charged
  split
  · exact hcharge _ _ (hcharge _ _ ht)
  · exact hcharge _ _ ht

theorem Effect.timed (hw : w.Wf env) (h : Effect env t w c out w') : w'.limits.Timed := by
  have ht := hw.timed
  cases h with
  | failed hl => exact hl.timed ht
  | observed hc hl => exact hl.timed ht
  | registered hl => exact hl.timed ht
  | resetRequested hl => exact hl.timed ht
  | passwordReset hl => exact hl.timed ht
  | loginFailed => exact LoginUseCase.timed_charged ht _ _
  | loggedIn => exact Limits.timed_reset ht _
  | userUpdated =>
    unfold UpdateUserUseCase.finished
    split <;> exact ht
  | _ => exact ht

/-- A call is counted when it has returned. -/
theorem Effect.calls (h : Effect env t w c out w') : w'.calls = w.calls := by
  cases h with
  | loginFailed =>
    unfold LoginUseCase.tried
    split
    · split <;> rfl
    · rfl
  | userUpdated =>
    unfold UpdateUserUseCase.finished
    split <;> rfl
  | _ => rfl

/-! ## Every call, every run -/

/-- A call leaves a well-formed world. -/
theorem Effect.wf (hw : w.Wf env) (h : Effect env t w c out w') : w'.nextCall.Wf env := by
  obtain ⟨cond, new, hstep⟩ := h.sessions hw
  -- a session after the call was there before, or has the `jti` of this call
  have hcases {s : AuthSession} (hs : s ∈ w'.db.sessions) :
      (∃ old ∈ w.db.sessions, old.jti = s.jti ∧ old.userId = s.userId) ∨
        Opens env t w out w' s := by
    rw [hstep.sessions] at hs
    rcases List.mem_append.1 hs with hold | hnew
    · obtain ⟨old, hmem, rfl⟩ := List.mem_map.1 hold
      exact .inl ⟨old, hmem, by simp⟩
    · exact .inr (hstep.opens s hnew)
  have hcalls : w'.calls = w.calls := h.calls
  have hfresh {claims : Claims} (hmem : claims ∈ w.signed) :
      claims.jti ≠ env.supply.jti w.calls 0 := fun he =>
    lt_irrefl _ (hw.signedDrawn claims hmem _ _ he.symm)
  have howned : w'.db.Owned := h.owned hw
  have htimed : w'.limits.Timed := h.timed hw
  refine ⟨?_, howned, ?_, ?_, ?_, ?_, htimed⟩
  · change w'.db.Sound env.supply (w'.calls + 1)
    rw [hcalls]
    exact h.sound hw
  · intro claims hmem n k hk
    change n < w'.calls + 1
    rw [hcalls]
    rcases h.mem_signed hmem with hold | hnew
    · exact (hw.signedDrawn claims hold n k hk).trans (Nat.lt_succ_self _)
    · have := (env.supply.jti_injective (hk.trans hnew)).1
      omega
  · intro a ha b hb hjti htype
    rcases h.signed with he | ⟨u, he⟩
    · exact hw.signedUnique a (he ▸ ha) b (he ▸ hb) hjti htype
    · change a ∈ w'.signed at ha
      change b ∈ w'.signed at hb
      rw [he, mem_signPair] at ha hb
      rcases ha with ha | rfl | rfl <;> rcases hb with hb | rfl | rfl
      · exact hw.signedUnique a ha b hb hjti htype
      · exact absurd hjti (hfresh ha)
      · exact absurd hjti (hfresh ha)
      · exact absurd hjti.symm (hfresh hb)
      · rfl
      · cases htype
      · exact absurd hjti.symm (hfresh hb)
      · cases htype
      · rfl
  · intro claims hmem s hs hjti
    rcases hcases hs with ⟨old, hold, hoj, hou⟩ | hopen
    · rcases h.mem_signed hmem with hkept | hnew
      · exact hou.symm.trans (hw.signedOwner claims hkept old hold (hoj.trans hjti))
      · have := hw.db.jtisDrawn old hold w.calls 0 (by rw [hoj, hjti, hnew])
        omega
    · change claims ∈ w'.signed at hmem
      rw [hopen.signed, mem_signPair] at hmem
      rcases hmem with hkept | rfl | rfl
      · exact absurd (hjti.symm.trans hopen.jti) (hfresh hkept)
      · rfl
      · rfl
  · intro now key data hget
    rcases h.cache hw hget with ⟨hold, -⟩ | ⟨user, hfound, hactive, -, hkey, hvalue⟩
    · obtain ⟨user, hkey, hvalue, hactive, hu⟩ := hw.cached now key data hold
      exact ⟨user, hkey, hvalue, hactive, h.hasUser hw hu⟩
    · exact ⟨user, hkey, hvalue, hactive, h.hasUser hw (Db.hasUser_of_userById hfound)⟩

/-- A call that runs alone leaves a well-formed world. -/
theorem runCall_wf (hw : w.Wf env) (t : Time) (c : Call) : (runCall env w t c).1.Wf env := by
  obtain ⟨w', h, he⟩ := runCall_effect env w t c
  rw [he]
  exact h.wf hw

/-- Every world a sequential run reaches is well formed. -/
theorem runCalls_wf (hw : w.Wf env) (calls : Calls) : (runCalls env w calls).Wf env := by
  induction calls generalizing w with
  | nil => exact hw
  | cons s rest ih => exact ih (runCall_wf hw s.1 s.2)

end VideoSite.Users
