import VideoSite.Users.UseCases.Administration

/-!
# The rules of the use cases' vocabulary

One weakest-precondition rule for every call a use case makes, when the use
case runs alone at time `t`.  The state is the shared world with the
transaction of the call.  Repository rules speak about what the transaction
sees, `tx.view w.db`, so that a proof about a use case follows its text from
call to call.
-/

namespace VideoSite.Users

open Effects Program Tx

variable {env : Env} {t : Time} {w : World} {tx : Tx} {α β : Type}

/-- A postcondition of a use case. -/
abbrev Post (α : Type) := World × Tx → Except Failure α → Prop

theorem wp_ask (op : Op) (Q : Post op.Res) :
    wp (handler env t) (ask op) Q (w, tx) ↔
      Q (handler env t op (w, tx)).1 (.ok (handler env t op (w, tx)).2) := Iff.rfl

/-! ## Control -/

@[simp] theorem wp_raiseError (e : ApplicationError) (Q : Post α) :
    wp (handler env t) (Users.raise e) Q (w, tx) ↔ Q (w, tx) (.error (.application e)) := Iff.rfl

@[simp] theorem wp_require (cond : Bool) (e : ApplicationError) (Q : Post Unit) :
    wp (handler env t) (require cond e) Q (w, tx) ↔
      (cond = true → Q (w, tx) (.ok ())) ∧
      (cond = false → Q (w, tx) (.error (.application e))) := by
  cases cond <;> simp [require]

@[simp] theorem wp_orRaise (value : Option α) (e : ApplicationError) (Q : Post α) :
    wp (handler env t) (orRaise value e) Q (w, tx) ↔
      (∀ a, value = some a → Q (w, tx) (.ok a)) ∧
      (value = none → Q (w, tx) (.error (.application e))) := by
  cases value <;> simp [orRaise]

@[simp] theorem wp_assertSome (value : Option α) (Q : Post α) :
    wp (handler env t) (assertSome value) Q (w, tx) ↔
      (∀ a, value = some a → Q (w, tx) (.ok a)) ∧
      (value = none → Q (w, tx) (.error .assertion)) := by
  cases value <;> simp [assertSome]

/-- An answer that may be an error. -/
theorem wp_answer (out : Except Failure α) (Q : Post α) (s : World × Tx) :
    Q s out ↔ (∀ a, out = .ok a → Q s (.ok a)) ∧ (∀ e, out = .error e → Q s (.error e)) := by
  cases out <;> simp

@[simp] theorem wp_withUow (body : UseCase α) (Q : Post α) :
    wp (handler env t) (withUow body) Q (w, tx) ↔
      wp (handler env t) body (fun s out => Q (s.1, s.2.ended) out) (w, tx) :=
  wp_closing _ _ _

/-! ## Clock, randomness, tokens -/

@[simp] theorem wp_now (Q : Post Time) :
    wp (handler env t) now Q (w, tx) ↔ Q (w, tx) (.ok t) := Iff.rfl

@[simp] theorem wp_uuid4 (Q : Post String) :
    wp (handler env t) uuid4 Q (w, tx) ↔
      Q (w, tx.draw) (.ok (env.supply.jti tx.call tx.draws)) := Iff.rfl

@[simp] theorem wp_generateSecret (Q : Post GeneratedSecret) :
    wp (handler env t) generateSecret Q (w, tx) ↔
      Q (w, tx.draw)
        (.ok (generatedSecret env (env.supply.secret tx.call tx.draws))) := Iff.rfl

@[simp] theorem wp_hash (plain : String) (Q : Post String) :
    wp (handler env t) (hasher.hash plain) Q (w, tx) ↔
      Q (w, tx.draw)
        (.ok (env.hasher.hash (env.supply.salt tx.call tx.draws) plain)) := Iff.rfl

@[simp] theorem wp_verify (plain : String) (user : User) (Q : Post Bool) :
    wp (handler env t) (hasher.verify plain user) Q (w, tx) ↔
      Q (w.checked ⟨t, user.id, plain, env.hasher.verify plain user.passwordHash⟩, tx)
        (.ok (env.hasher.verify plain user.passwordHash)) := Iff.rfl

@[simp] theorem wp_issueAccess (userId : UserId) (jti : String) (Q : Post IssuedToken) :
    wp (handler env t) (tokenService.issueAccess userId jti) Q (w, tx) ↔
      Q (w.sign (JwtTokenService.claims env.config t userId jti .access), tx)
        (.ok (JwtTokenService.issue env.config t userId jti .access)) := Iff.rfl

@[simp] theorem wp_issueRefresh (userId : UserId) (jti : String) (Q : Post IssuedToken) :
    wp (handler env t) (tokenService.issueRefresh userId jti) Q (w, tx) ↔
      Q (w.sign (JwtTokenService.claims env.config t userId jti .refresh), tx)
        (.ok (JwtTokenService.issue env.config t userId jti .refresh)) := Iff.rfl

/-- What decodes was issued and has not run out. -/
theorem decode_eq_ok {signed : List Claims} {token : Token} {payload : TokenPayload} :
    JwtTokenService.decode signed t token = .ok payload ↔
      ∃ c, token = .jwt c ∧ c ∈ signed ∧ t < c.exp ∧
        payload = JwtTokenService.payload c := by
  cases token with
  | text raw => simp [JwtTokenService.decode]
  | jwt c =>
    by_cases hs : c ∈ signed
    · by_cases ht : t < c.exp
      · simp [JwtTokenService.decode, hs, ht, eq_comm]
      · simp [JwtTokenService.decode, hs, ht]
    · simp [JwtTokenService.decode, hs]

@[simp] theorem wp_decode (token : Token) (Q : Post TokenPayload) :
    wp (handler env t) (tokenService.decode token) Q (w, tx) ↔
      (∀ c, token = .jwt c → c ∈ w.signed → t < c.exp →
        Q (w, tx) (.ok (JwtTokenService.payload c))) ∧
      (∀ e, JwtTokenService.decode w.signed t token = .error e →
        Q (w, tx) (.error e)) := by
  unfold tokenService.decode
  rw [wp_bind, wp_ask, andThen_ok, wp_ofExcept, wp_answer _ Q]
  refine and_congr_left fun _ => ?_
  constructor
  · intro h c hc hs ht
    exact h _ (decode_eq_ok.2 ⟨c, hc, hs, ht, rfl⟩)
  · intro h payload hp
    obtain ⟨c, hc, hs, ht, rfl⟩ := decode_eq_ok.1 hp
    exact h c hc hs ht

/-! ## Limiter, cache, mail -/

@[simp] theorem wp_hit (key : String) (policy : RateLimitPolicy)
    (Q : Post RateLimitDecision) :
    wp (handler env t) (limiter.hit key policy) Q (w, tx) ↔
      Q (w.withLimits (Limits.hit env.backend w.limits t key policy).1, tx)
        (.ok (Limits.hit env.backend w.limits t key policy).2) := Iff.rfl

@[simp] theorem wp_peek (key : String) (policy : RateLimitPolicy)
    (Q : Post RateLimitDecision) :
    wp (handler env t) (limiter.peek key policy) Q (w, tx) ↔
      Q (w, tx) (.ok (Limits.peek env.backend w.limits t key policy)) := Iff.rfl

@[simp] theorem wp_reset (key : String) (Q : Post Unit) :
    wp (handler env t) (limiter.reset key) Q (w, tx) ↔
      Q (w.withLimits (Limits.reset env.backend w.limits key), tx) (.ok ()) := Iff.rfl

@[simp] theorem wp_cacheGet (key : String) (Q : Post (Option Json)) :
    wp (handler env t) (cache.get key) Q (w, tx) ↔
      Q (w, tx) (.ok (Cache.get env w.cache t key)) := Iff.rfl

@[simp] theorem wp_cacheSet (key : String) (value : Json) (ttl : Int) (Q : Post Unit) :
    wp (handler env t) (cache.set key value ttl) Q (w, tx) ↔
      Q (w.withCache (Cache.set env w.cache t key value ttl), tx) (.ok ()) := Iff.rfl

@[simp] theorem wp_cacheDelete (key : String) (Q : Post Unit) :
    wp (handler env t) (cache.delete key) Q (w, tx) ↔
      Q (w.withCache (Cache.delete env w.cache key), tx) (.ok ()) := Iff.rfl

@[simp] theorem wp_sendEmail (message : EmailMessageDTO) (Q : Post Unit) :
    wp (handler env t) (sendEmail message) Q (w, tx) ↔ Q (w.mailed message, tx) (.ok ()) := Iff.rfl

/-! ## Statements -/

/-- The sessions that meet a condition, as the statement that revokes them names
them. -/
def sessionIds (db : Db) (cond : AuthSession → Bool) : List SessionId :=
  (db.sessions.filter cond).map (·.id)

/-- The one-time tokens that meet a condition. -/
def tokenIds (db : Db) (cond : SecurityToken → Bool) : List SecurityTokenId :=
  (db.securityTokens.filter cond).map (·.id)

namespace Db

/-- `UPDATE sessions SET revoked_at = :moment WHERE cond`. -/
def revokeWhere (db : Db) (cond : AuthSession → Bool) (moment : Time) : Db :=
  Write.apply db (.revokeSessions (sessionIds db cond) moment)

/-- `UPDATE security_tokens SET used_at = :moment WHERE cond`. -/
def useWhere (db : Db) (cond : SecurityToken → Bool) (moment : Time) : Db :=
  Write.apply db (.useTokens (tokenIds db cond) moment)

def addSession (db : Db) (row : AuthSession) : Db := Write.apply db (.insertSession row)

def addToken (db : Db) (row : SecurityToken) : Db := Write.apply db (.insertToken row)

def addUser (db : Db) (row : UserRow) : Db := Write.apply db (.insertUser row)

def log (db : Db) (row : AuditEvent) : Db := Write.apply db (.insertAudit row)

end Db

section Fold

variable (db : Db)

@[simp] theorem apply_revokeSessions (cond : AuthSession → Bool) (moment : Time) :
    Write.apply db (.revokeSessions (sessionIds db cond) moment) =
      db.revokeWhere cond moment := rfl

@[simp] theorem apply_useTokens (cond : SecurityToken → Bool) (moment : Time) :
    Write.apply db (.useTokens (tokenIds db cond) moment) = db.useWhere cond moment := rfl

@[simp] theorem apply_insertSession (row : AuthSession) :
    Write.apply db (.insertSession row) = db.addSession row := rfl

@[simp] theorem apply_insertToken (row : SecurityToken) :
    Write.apply db (.insertToken row) = db.addToken row := rfl

@[simp] theorem apply_insertUser (row : UserRow) :
    Write.apply db (.insertUser row) = db.addUser row := rfl

@[simp] theorem apply_insertAudit (row : AuditEvent) :
    Write.apply db (.insertAudit row) = db.log row := rfl

end Fold

@[simp] theorem wp_commit (Q : Post Unit) :
    wp (handler env t) Users.commit Q (w, tx) ↔ Q (w.withDb (tx.view w.db), tx.ended) (.ok ()) :=
  Iff.rfl

@[simp] theorem wp_query (s : Statement) (Q : Post s.Res) :
    wp (handler env t) (query s) Q (w, tx) ↔
      Q (w, (s.exec env.supply t (s.targets (tx.view w.db)) (tx.view w.db)
          (tx.begin_ t)).1)
        (.ok (s.exec env.supply t (s.targets (tx.view w.db)) (tx.view w.db)
          (tx.begin_ t)).2) := Iff.rfl

/-- Keeping a write succeeds unless it violates a constraint. -/
theorem post_write (db : Db) (write : Write) (keys : List RowKey) (Q : Post Unit) :
    Q (w, (tx.write db write keys).1) (tx.write db write keys).2 ↔
      (db.violation write = none → Q (w, tx.record write keys) (.ok ())) ∧
      (∀ c, db.violation write = some c → Q (w, tx) (.error (.integrity c))) := by
  unfold Tx.write
  cases db.violation write <;> simp

theorem post_insert (db : Db) (write : Write) (keys : List RowKey) (entity : α)
    (Q : Post α) :
    Q (w, (tx.insert db write keys entity).1) (tx.insert db write keys entity).2 ↔
      (db.violation write = none → Q (w, tx.record write keys) (.ok entity)) ∧
      (∀ c, db.violation write = some c → Q (w, tx) (.error (.integrity c))) := by
  unfold Tx.insert Tx.write
  cases db.violation write <;> simp

/-! ### Users -/

@[simp] theorem wp_usersGetById (userId : UserId) (Q : Post (Option User)) :
    wp (handler env t) (users.getById userId) Q (w, tx) ↔
      Q (w, tx.begin_ t) (.ok ((tx.view w.db).userById userId)) := Iff.rfl

@[simp] theorem wp_usersGetByEmail (email : String) (Q : Post (Option User)) :
    wp (handler env t) (users.getByEmail email) Q (w, tx) ↔
      Q (w, tx.begin_ t) (.ok ((tx.view w.db).userByEmail email)) := Iff.rfl

@[simp] theorem wp_usersGetByUsername (username : String) (Q : Post (Option User)) :
    wp (handler env t) (users.getByUsername username) Q (w, tx) ↔
      Q (w, tx.begin_ t) (.ok ((tx.view w.db).userByUsername username)) := Iff.rfl

@[simp] theorem wp_usersListAll (Q : Post (List User)) :
    wp (handler env t) users.listAll Q (w, tx) ↔
      Q (w, tx.begin_ t) (.ok (((tx.view w.db).users.insertionSort
        fun a b => a.id ≤ b.id).map (tx.view w.db).userToEntity)) := Iff.rfl

/-- The row that `users.add` inserts, as the `k`-th value drawn by call `n`. -/
def addedRow (env : Env) (stamp : Time) (n k : Nat) (user : User) : UserRow where
  id := env.supply.rowId n k
  email := user.email
  username := user.username
  passwordHash := user.passwordHash
  displayName := user.displayName
  isActive := user.isActive
  isSuperuser := user.isSuperuser
  emailVerifiedAt := user.emailVerifiedAt
  visitorId := user.visitorId
  createdAt := stamp
  updatedAt := stamp

@[simp] theorem wp_usersAdd (user : User) (Q : Post User) :
    wp (handler env t) (users.add user) Q (w, tx) ↔
      ((tx.view w.db).violation
          (.insertUser (addedRow env (tx.stamp t) tx.call tx.draws user)) = none →
        Q (w, (tx.begin_ t).draw.record
            (.insertUser (addedRow env (tx.stamp t) tx.call tx.draws user))
            [.userEmail user.email, .userUsername user.username])
          (.ok ((tx.view w.db).userToEntity
            (addedRow env (tx.stamp t) tx.call tx.draws user)))) ∧
      (∀ c, (tx.view w.db).violation
          (.insertUser (addedRow env (tx.stamp t) tx.call tx.draws user)) = some c →
        Q (w, (tx.begin_ t).draw) (.error (.integrity c))) := by
  unfold users.add
  rw [wp_bind, wp_query, andThen_ok, wp_ofExcept]
  exact post_insert _ _ _ _ _

/-- The transaction after a write that is made only where `c` does not hold. -/
def Tx.recordUnless (tx : Tx) (c : Prop) [Decidable c] (write : Write)
    (keys : List RowKey) : Tx :=
  if c then tx else tx.record write keys

section RecordUnless

variable (c : Prop) [Decidable c] (write : Write) (keys : List RowKey)

@[simp] theorem Tx.recordUnless_call : (tx.recordUnless c write keys).call = tx.call := by
  unfold Tx.recordUnless
  split <;> rfl

@[simp] theorem Tx.recordUnless_draws :
    (tx.recordUnless c write keys).draws = tx.draws := by
  unfold Tx.recordUnless
  split <;> rfl

@[simp] theorem Tx.recordUnless_stamp :
    (tx.recordUnless c write keys).stamp t = tx.stamp t := by
  unfold Tx.recordUnless
  split <;> rfl

@[simp] theorem Tx.recordUnless_view (db : Db) :
    (tx.recordUnless c write keys).view db =
      if c then tx.view db else write.apply (tx.view db) := by
  unfold Tx.recordUnless
  split <;> simp

end RecordUnless

/-- The transaction after `update` found `row`. -/
def Tx.setProfile (tx : Tx) (t : Time) (row : UserRow) (user : User) : Tx :=
  (tx.begin_ t).recordUnless (row.profile = user.profile)
    (.updateUser row.id user.profile (tx.stamp t))
    [.user user.id, .userEmail user.email, .userUsername user.username]

@[simp] theorem Tx.setProfile_call (row : UserRow) (user : User) :
    (tx.setProfile t row user).call = tx.call := Tx.recordUnless_call ..

@[simp] theorem Tx.setProfile_draws (row : UserRow) (user : User) :
    (tx.setProfile t row user).draws = tx.draws := Tx.recordUnless_draws ..

@[simp] theorem Tx.setProfile_stamp (row : UserRow) (user : User) :
    (tx.setProfile t row user).stamp t = tx.stamp t := Tx.recordUnless_stamp ..

@[simp] theorem Tx.setProfile_view (row : UserRow) (user : User) (db : Db) :
    (tx.setProfile t row user).view db =
      (tx.view db).setProfile row user.profile (tx.stamp t) :=
  Tx.recordUnless_view ..

/-- The transaction after `update_password` found `row`. -/
def Tx.setPassword (tx : Tx) (t : Time) (row : UserRow) (user : User) : Tx :=
  (tx.begin_ t).recordUnless (row.passwordHash = user.passwordHash)
    (.updatePassword row.id user.passwordHash (tx.stamp t)) [.user user.id]

@[simp] theorem Tx.setPassword_call (row : UserRow) (user : User) :
    (tx.setPassword t row user).call = tx.call := Tx.recordUnless_call ..

@[simp] theorem Tx.setPassword_draws (row : UserRow) (user : User) :
    (tx.setPassword t row user).draws = tx.draws := Tx.recordUnless_draws ..

@[simp] theorem Tx.setPassword_stamp (row : UserRow) (user : User) :
    (tx.setPassword t row user).stamp t = tx.stamp t := Tx.recordUnless_stamp ..

@[simp] theorem Tx.setPassword_view (row : UserRow) (user : User) (db : Db) :
    (tx.setPassword t row user).view db =
      (tx.view db).setPassword row user.passwordHash (tx.stamp t) :=
  Tx.recordUnless_view ..

/-- The transaction after `assign_role`. -/
def Tx.linkRole (tx : Tx) (t : Time) (db : Db) (u : UserId) (r : RoleId) : Tx :=
  (tx.begin_ t).recordUnless ((u, r) ∈ (tx.view db).userRoles) (.insertUserRole u r)
    [.userRole u r]

@[simp] theorem Tx.linkRole_call (db : Db) (u : UserId) (r : RoleId) :
    (tx.linkRole t db u r).call = tx.call := Tx.recordUnless_call ..

@[simp] theorem Tx.linkRole_draws (db : Db) (u : UserId) (r : RoleId) :
    (tx.linkRole t db u r).draws = tx.draws := Tx.recordUnless_draws ..

@[simp] theorem Tx.linkRole_stamp (db : Db) (u : UserId) (r : RoleId) :
    (tx.linkRole t db u r).stamp t = tx.stamp t := Tx.recordUnless_stamp ..

@[simp] theorem Tx.linkRole_view (db : Db) (u : UserId) (r : RoleId) :
    (tx.linkRole t db u r).view db = (tx.view db).linkRole u r :=
  Tx.recordUnless_view ..

/-- The transaction after `grant_permission`. -/
def Tx.linkPermission (tx : Tx) (t : Time) (db : Db) (r : RoleId) (p : PermissionId) :
    Tx :=
  (tx.begin_ t).recordUnless ((r, p) ∈ (tx.view db).rolePermissions)
    (.insertRolePermission r p) [.rolePermission r p]

@[simp] theorem Tx.linkPermission_view (db : Db) (r : RoleId) (p : PermissionId) :
    (tx.linkPermission t db r p).view db = (tx.view db).linkPermission r p :=
  Tx.recordUnless_view ..

theorem userRow?_id {db : Db} {id : UserId} {row : UserRow}
    (h : db.userRow? id = some row) : row.id = id := by
  simpa using List.find?_some h

/-- `update` writes the columns of the entity over the row, if they differ. -/
@[simp] theorem wp_usersUpdate (user : User) (Q : Post User) :
    wp (handler env t) (users.update user) Q (w, tx) ↔
      ((tx.view w.db).userRow? user.id = none →
        Q (w, tx.begin_ t) (.error (Statement.disappeared user.id))) ∧
      (∀ row, (tx.view w.db).userRow? user.id = some row →
        (row.profile = user.profile ∨
            (tx.view w.db).violation
              (.updateUser user.id user.profile (tx.stamp t)) = none →
          Q (w, tx.setProfile t row user)
            (.ok ((tx.view w.db).userToEntity
              (row.setProfile user.profile (tx.stamp t))))) ∧
        (∀ c, row.profile ≠ user.profile →
          (tx.view w.db).violation
            (.updateUser user.id user.profile (tx.stamp t)) = some c →
          Q (w, tx.begin_ t) (.error (.integrity c)))) := by
  unfold users.update
  rw [wp_bind, wp_query, andThen_ok, wp_ofExcept]
  simp only [Statement.exec, Statement.usersUpdateExec, Statement.targets, begin_stamp]
  cases hrow : (tx.view w.db).userRow? user.id with
  | none => simp
  | some row =>
    have hid : row.id = user.id := userRow?_id hrow
    by_cases hp : row.profile = user.profile
    · simp [hp, UserRow.setProfile, Tx.setProfile, Tx.recordUnless]
    · simp only [if_neg hp]
      refine (post_insert _ _ _ _ Q).trans ?_
      simp [hp, hid, UserRow.setProfile, Tx.setProfile, Tx.recordUnless]

@[simp] theorem wp_usersUpdatePassword (user : User) (Q : Post Unit) :
    wp (handler env t) (users.updatePassword user) Q (w, tx) ↔
      ((tx.view w.db).userRow? user.id = none →
        Q (w, tx.begin_ t) (.error (Statement.disappeared user.id))) ∧
      (∀ row, (tx.view w.db).userRow? user.id = some row →
        Q (w, tx.setPassword t row user) (.ok ())) := by
  unfold users.updatePassword
  rw [wp_bind, wp_query, andThen_ok, wp_ofExcept]
  simp only [Statement.exec, Statement.usersUpdatePasswordExec, Statement.targets,
    begin_stamp]
  cases hrow : (tx.view w.db).userRow? user.id with
  | none => simp
  | some row =>
    have hid : row.id = user.id := userRow?_id hrow
    by_cases hp : row.passwordHash = user.passwordHash
    · simp [hp, Tx.setPassword, Tx.recordUnless]
    · simp [hp, hid, Tx.write, Db.violation, Tx.setPassword, Tx.recordUnless]

@[simp] theorem wp_usersAssignRole (u : UserId) (r : RoleId) (Q : Post Unit) :
    wp (handler env t) (users.assignRole u r) Q (w, tx) ↔
      ((u, r) ∈ (tx.view w.db).userRoles ∨
          (tx.view w.db).violation (.insertUserRole u r) = none →
        Q (w, tx.linkRole t w.db u r) (.ok ())) ∧
      (∀ c, (u, r) ∉ (tx.view w.db).userRoles →
        (tx.view w.db).violation (.insertUserRole u r) = some c →
        Q (w, tx.begin_ t) (.error (.integrity c))) := by
  unfold users.assignRole
  rw [wp_bind, wp_query, andThen_ok, wp_ofExcept]
  simp only [Statement.exec, Statement.targets]
  by_cases h : (u, r) ∈ (tx.view w.db).userRoles
  · simp [h, Tx.linkRole, Tx.recordUnless]
  · simp only [if_neg h]
    refine (post_write _ _ _ Q).trans ?_
    simp [h, Tx.linkRole, Tx.recordUnless]

@[simp] theorem wp_usersRevokeRole (u : UserId) (r : RoleId) (Q : Post Unit) :
    wp (handler env t) (users.revokeRole u r) Q (w, tx) ↔
      Q (w, (tx.begin_ t).record (.deleteUserRole u r)
          (Statement.targets (tx.view w.db) (.usersRevokeRole u r))) (.ok ()) := Iff.rfl

/-! ### Roles and permissions -/

@[simp] theorem wp_rolesGetById (roleId : RoleId) (Q : Post (Option Role)) :
    wp (handler env t) (roles.getById roleId) Q (w, tx) ↔
      Q (w, tx.begin_ t) (.ok ((tx.view w.db).roleById roleId)) := Iff.rfl

@[simp] theorem wp_rolesGetByName (name : String) (Q : Post (Option Role)) :
    wp (handler env t) (roles.getByName name) Q (w, tx) ↔
      Q (w, tx.begin_ t) (.ok ((tx.view w.db).roleByName name)) := Iff.rfl

@[simp] theorem wp_rolesListAll (Q : Post (List Role)) :
    wp (handler env t) roles.listAll Q (w, tx) ↔
      Q (w, tx.begin_ t) (.ok (((tx.view w.db).roles.insertionSort
        fun a b => a.id ≤ b.id).map (tx.view w.db).roleToEntity)) := Iff.rfl

@[simp] theorem wp_permissionsListAll (Q : Post (List Permission)) :
    wp (handler env t) permissions.listAll Q (w, tx) ↔
      Q (w, tx.begin_ t) (.ok ((tx.view w.db).permissions.insertionSort
        fun a b => a.id ≤ b.id)) := Iff.rfl

@[simp] theorem wp_rolesAdd (name : String) (description : Option String)
    (Q : Post Role) :
    wp (handler env t) (roles.add name description) Q (w, tx) ↔
      ((tx.view w.db).violation
          (.insertRole ⟨env.supply.rowId tx.call tx.draws, name, description⟩) = none →
        Q (w, (tx.begin_ t).draw.record
            (.insertRole ⟨env.supply.rowId tx.call tx.draws, name, description⟩)
            [.roleName name])
          (.ok ((tx.view w.db).roleToEntity
            ⟨env.supply.rowId tx.call tx.draws, name, description⟩))) ∧
      (∀ c, (tx.view w.db).violation
          (.insertRole ⟨env.supply.rowId tx.call tx.draws, name, description⟩) = some c →
        Q (w, (tx.begin_ t).draw) (.error (.integrity c))) := by
  unfold roles.add
  rw [wp_bind, wp_query, andThen_ok, wp_ofExcept]
  exact post_insert _ _ _ _ _

@[simp] theorem wp_rolesDelete (roleId : RoleId) (Q : Post Unit) :
    wp (handler env t) (roles.delete roleId) Q (w, tx) ↔
      Q (w, (tx.begin_ t).record (.deleteRole roleId)
          (Statement.targets (tx.view w.db) (.rolesDelete roleId))) (.ok ()) := Iff.rfl

@[simp] theorem wp_rolesGrantPermission (r : RoleId) (p : PermissionId) (Q : Post Unit) :
    wp (handler env t) (roles.grantPermission r p) Q (w, tx) ↔
      ((r, p) ∈ (tx.view w.db).rolePermissions ∨
          (tx.view w.db).violation (.insertRolePermission r p) = none →
        Q (w, tx.linkPermission t w.db r p) (.ok ())) ∧
      (∀ c, (r, p) ∉ (tx.view w.db).rolePermissions →
        (tx.view w.db).violation (.insertRolePermission r p) = some c →
        Q (w, tx.begin_ t) (.error (.integrity c))) := by
  unfold roles.grantPermission
  rw [wp_bind, wp_query, andThen_ok, wp_ofExcept]
  simp only [Statement.exec, Statement.targets]
  by_cases h : (r, p) ∈ (tx.view w.db).rolePermissions
  · simp [h, Tx.linkPermission, Tx.recordUnless]
  · simp only [if_neg h]
    refine (post_write _ _ _ Q).trans ?_
    simp [h, Tx.linkPermission, Tx.recordUnless]

@[simp] theorem wp_rolesRevokePermission (r : RoleId) (p : PermissionId) (Q : Post Unit) :
    wp (handler env t) (roles.revokePermission r p) Q (w, tx) ↔
      Q (w, (tx.begin_ t).record (.deleteRolePermission r p)
          (Statement.targets (tx.view w.db) (.rolesRevokePermission r p))) (.ok ()) :=
  Iff.rfl

@[simp] theorem wp_permissionsGetById (permissionId : PermissionId)
    (Q : Post (Option Permission)) :
    wp (handler env t) (permissions.getById permissionId) Q (w, tx) ↔
      Q (w, tx.begin_ t) (.ok ((tx.view w.db).permissionById permissionId)) := Iff.rfl

@[simp] theorem wp_permissionsGetByResourceAction (resource action : String)
    (Q : Post (Option Permission)) :
    wp (handler env t) (permissions.getByResourceAction resource action) Q (w, tx) ↔
      Q (w, tx.begin_ t)
        (.ok ((tx.view w.db).permissionByResourceAction resource action)) := Iff.rfl

@[simp] theorem wp_permissionsAdd (resource action : String) (description : Option String)
    (Q : Post Permission) :
    wp (handler env t) (permissions.add resource action description) Q (w, tx) ↔
      ((tx.view w.db).violation (.insertPermission
          ⟨env.supply.rowId tx.call tx.draws, resource, action, description⟩) = none →
        Q (w, (tx.begin_ t).draw.record (.insertPermission
            ⟨env.supply.rowId tx.call tx.draws, resource, action, description⟩)
            [.permissionKey resource action])
          (.ok ⟨env.supply.rowId tx.call tx.draws, resource, action, description⟩)) ∧
      (∀ c, (tx.view w.db).violation (.insertPermission
          ⟨env.supply.rowId tx.call tx.draws, resource, action, description⟩) = some c →
        Q (w, (tx.begin_ t).draw) (.error (.integrity c))) := by
  unfold permissions.add
  rw [wp_bind, wp_query, andThen_ok, wp_ofExcept]
  exact post_insert _ _ _ _ _

/-! ### Sessions -/

@[simp] theorem wp_sessionsGetById (sessionId : SessionId) (Q : Post (Option AuthSession)) :
    wp (handler env t) (sessions.getById sessionId) Q (w, tx) ↔
      Q (w, tx.begin_ t) (.ok ((tx.view w.db).sessionById sessionId)) := Iff.rfl

@[simp] theorem wp_sessionsGetByJti (jti : String) (Q : Post (Option AuthSession)) :
    wp (handler env t) (sessions.getByJti jti) Q (w, tx) ↔
      Q (w, tx.begin_ t) (.ok ((tx.view w.db).sessionByJti jti)) := Iff.rfl

@[simp] theorem wp_sessionsListActiveForUser (u : UserId) (Q : Post (List AuthSession)) :
    wp (handler env t) (sessions.listActiveForUser u) Q (w, tx) ↔
      Q (w, tx.begin_ t) (.ok ((((tx.view w.db).sessions.filter
        (Statement.revokeAllWhere u none)).insertionSort
          fun a b => b.id ≤ a.id).filter (·.isValid t))) := Iff.rfl

@[simp] theorem wp_sessionsAdd (session : AuthSession) (Q : Post AuthSession) :
    wp (handler env t) (sessions.add session) Q (w, tx) ↔
      ((tx.view w.db).violation
          (.insertSession (session.withId (env.supply.rowId tx.call tx.draws))) = none →
        Q (w, (tx.begin_ t).draw.record
            (.insertSession (session.withId (env.supply.rowId tx.call tx.draws)))
            [.sessionJti session.jti])
          (.ok (session.withId (env.supply.rowId tx.call tx.draws)))) ∧
      (∀ c, (tx.view w.db).violation
          (.insertSession (session.withId (env.supply.rowId tx.call tx.draws))) = some c →
        Q (w, (tx.begin_ t).draw) (.error (.integrity c))) := by
  unfold sessions.add
  rw [wp_bind, wp_query, andThen_ok, wp_ofExcept]
  exact post_insert _ _ _ _ _

@[simp] theorem filterMap_sessionKeys (db : Db) (cond : AuthSession → Bool) :
    (Statement.sessionKeys db cond).filterMap RowKey.sessionId? = sessionIds db cond :=
  RowKey.filterMap_session _

@[simp] theorem filterMap_tokenKeys (db : Db) (cond : SecurityToken → Bool) :
    (Statement.tokenKeys db cond).filterMap RowKey.tokenId? = tokenIds db cond :=
  RowKey.filterMap_token _

@[simp] theorem wp_sessionsRevoke (jti : String) (moment : Time) (Q : Post Unit) :
    wp (handler env t) (sessions.revoke jti moment) Q (w, tx) ↔
      Q (w, (tx.begin_ t).record
          (.revokeSessions (sessionIds (tx.view w.db) (Statement.revokeWhere jti)) moment)
          (Statement.sessionKeys (tx.view w.db) (Statement.revokeWhere jti)))
        (.ok ()) := by
  unfold sessions.revoke
  rw [wp_query]
  simp only [Statement.exec, Statement.targets, filterMap_sessionKeys]

@[simp] theorem wp_sessionsRevokeAllForUser (u : UserId) (moment : Time)
    (exceptJti : Option String) (Q : Post Nat) :
    wp (handler env t) (sessions.revokeAllForUser u moment exceptJti) Q (w, tx) ↔
      Q (w, (tx.begin_ t).record
          (.revokeSessions
            (sessionIds (tx.view w.db) (Statement.revokeAllWhere u exceptJti)) moment)
          (Statement.sessionKeys (tx.view w.db) (Statement.revokeAllWhere u exceptJti)))
        (.ok (sessionIds (tx.view w.db)
          (Statement.revokeAllWhere u exceptJti)).length) := by
  unfold sessions.revokeAllForUser
  rw [wp_query]
  simp only [Statement.exec, Statement.targets, filterMap_sessionKeys]

/-! ### One-time tokens and the audit log -/

@[simp] theorem wp_tokensGetByHash (tokenHash : String) (purpose : TokenPurpose)
    (Q : Post (Option SecurityToken)) :
    wp (handler env t) (securityTokens.getByHash tokenHash purpose) Q (w, tx) ↔
      Q (w, tx.begin_ t) (.ok ((tx.view w.db).tokenByHash tokenHash purpose)) := Iff.rfl

@[simp] theorem wp_tokensAdd (token : SecurityToken) (Q : Post SecurityToken) :
    wp (handler env t) (securityTokens.add token) Q (w, tx) ↔
      ((tx.view w.db).violation
          (.insertToken (token.withId (env.supply.rowId tx.call tx.draws))) = none →
        Q (w, (tx.begin_ t).draw.record
            (.insertToken (token.withId (env.supply.rowId tx.call tx.draws)))
            [.tokenKey token.tokenHash token.purpose])
          (.ok (token.withId (env.supply.rowId tx.call tx.draws)))) ∧
      (∀ c, (tx.view w.db).violation
          (.insertToken (token.withId (env.supply.rowId tx.call tx.draws))) = some c →
        Q (w, (tx.begin_ t).draw) (.error (.integrity c))) := by
  unfold securityTokens.add
  rw [wp_bind, wp_query, andThen_ok, wp_ofExcept]
  exact post_insert _ _ _ _ _

@[simp] theorem wp_tokensMarkUsed (token : SecurityToken) (Q : Post Unit) :
    wp (handler env t) (securityTokens.markUsed token) Q (w, tx) ↔
      Q (w, (tx.begin_ t).record
          (.useTokens (tokenIds (tx.view w.db) (Statement.markUsedWhere token.id)) t)
          (Statement.tokenKeys (tx.view w.db) (Statement.markUsedWhere token.id)))
        (.ok ()) := by
  unfold securityTokens.markUsed
  rw [wp_query]
  simp only [Statement.exec, Statement.targets, filterMap_tokenKeys]

@[simp] theorem wp_tokensInvalidateForUser (u : UserId) (purpose : TokenPurpose)
    (Q : Post Unit) :
    wp (handler env t) (securityTokens.invalidateForUser u purpose) Q (w, tx) ↔
      Q (w, (tx.begin_ t).record
          (.useTokens (tokenIds (tx.view w.db) (Statement.invalidateWhere u purpose)) t)
          (Statement.tokenKeys (tx.view w.db) (Statement.invalidateWhere u purpose)))
        (.ok ()) := by
  unfold securityTokens.invalidateForUser
  rw [wp_query]
  simp only [Statement.exec, Statement.targets, filterMap_tokenKeys]

/-- The row that `audit.record` appends, as the `k`-th value drawn by call `n`. -/
def auditRow (env : Env) (t : Time) (n k : Nat) (action : AuditAction)
    (userId : Option UserId) (device : Option DeviceInfoDTO)
    (metadata : List (String × MetaValue)) : AuditEvent where
  id := env.supply.rowId n k
  action := action
  createdAt := t
  userId := userId
  ipAddress := (device.getD {}).ipAddress
  userAgent := (device.getD {}).userAgent
  metadata := metadata

@[simp] theorem wp_auditRecord (action : AuditAction) (userId : Option UserId)
    (device : Option DeviceInfoDTO) (metadata : List (String × MetaValue))
    (Q : Post Unit) :
    wp (handler env t) (audit.record action userId device metadata) Q (w, tx) ↔
      ((tx.view w.db).violation (.insertAudit
          (auditRow env t tx.call tx.draws action userId device metadata)) = none →
        Q (w, (tx.begin_ t).draw.record (.insertAudit
            (auditRow env t tx.call tx.draws action userId device metadata)) [])
          (.ok ())) ∧
      (∀ c, (tx.view w.db).violation (.insertAudit
          (auditRow env t tx.call tx.draws action userId device metadata)) = some c →
        Q (w, (tx.begin_ t).draw) (.error (.integrity c))) := by
  unfold audit.record auditLog.add
  simp only [monad_bind, monad_pure, wp_bind, wp_now, andThen_ok]
  rw [wp_query, andThen_ok, wp_ofExcept]
  refine (post_insert _ _ _ _ _).trans ?_
  simp only [andThen_ok, andThen_error, wp_pure]
  rfl

end VideoSite.Users
