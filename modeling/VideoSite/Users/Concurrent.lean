import VideoSite.Lib.Protocol
import VideoSite.Users.Reachable

/-!
# Calls side by side

`World.pool` puts calls next to each other over one world.  One step of the pool is
one operation of one call, a repository call among them, so that every interleaving at
that granularity is a schedule.

* `perform_extends` says that a statement adds one write at most to its transaction,
  `perform_reads` that an operation that only reads leaves the database and the
  transaction alone, and `perform_db` that only a commit changes the database.
* The `follows_` lemmas are the rules by which a use case is shown to follow a
  protocol.
-/

namespace VideoSite.Users

open Effects Program Protocol

variable {env : Env} {t : Time} {w : World} {tx : Tx} {rows : List RowKey} {op : Op}
  {n : Nat} {α : Type}

/-- The calls that start in `w` side by side.  Call `i` is the `i`-th from now on. -/
def World.pool (env : Env) (w : World) (calls : Fin n → Call) :
    Pool (machine env) n Failure Answer where
  shared := w
  procs := fun i => Proc.start ((calls i).program env) (Tx.fresh (w.calls + i))

@[simp] theorem World.pool_shared (calls : Fin n → Call) :
    (w.pool env calls).shared = w := rfl

@[simp] theorem World.pool_prog (calls : Fin n → Call) (i : Fin n) :
    ((w.pool env calls).procs i).prog = (calls i).program env := rfl

@[simp] theorem World.pool_loc (calls : Fin n → Call) (i : Fin n) :
    ((w.pool env calls).procs i).loc = Tx.fresh (w.calls + i) := rfl

@[simp] theorem World.pool_states (P : Protocol sig) (start : Fin n → P.State)
    (calls : Fin n → Call) : (w.pool env calls).states P start = start := rfl

/-! ## What an operation leaves alone -/

/-- The statement writes nothing. -/
def Statement.reads : Statement → Bool
  | .usersGetById _ | .usersGetByEmail _ | .usersGetByUsername _ | .usersListAll
  | .rolesGetById _ | .rolesGetByName _ | .rolesListAll
  | .permissionsGetById _ | .permissionsGetByResourceAction _ _ | .permissionsListAll
  | .sessionsGetById _ | .sessionsGetByJti _ | .sessionsListActiveForUser _
  | .tokensGetByHash _ _ => true
  | _ => false

/-- The operation neither writes to the database nor ends a transaction. -/
def Op.reads : Op → Bool
  | .sql s => s.reads
  | .commit | .close => false
  | _ => true

/-- What may be said of an answer in any world: a token that decodes carries its own
claims. -/
def Op.expects : (op : Op) → op.Res → Prop
  | .decode token, r => ∀ payload, r = .ok payload →
      ∃ c, token = .jwt c ∧ payload = JwtTokenService.payload c
  | _, _ => True

theorem perform_expects : Op.expects op (perform env t op rows w tx).2 := by
  cases op with
  | decode token =>
    intro payload hpayload
    obtain ⟨c, hc, -, -, he⟩ := decode_eq_ok.1 hpayload
    exact ⟨c, hc, he⟩
  | _ => trivial

/-- Only a commit changes the database. -/
theorem perform_db (h : op ≠ .commit) : (perform env t op rows w tx).1.1.db = w.db := by
  cases op with
  | commit => exact absurd rfl h
  | _ => rfl

/-- An operation on another part of the world leaves the cache alone. -/
theorem perform_cache (hset : ∀ key value ttl, op ≠ .cacheSet key value ttl)
    (hdelete : ∀ key, op ≠ .cacheDelete key) :
    (perform env t op rows w tx).1.1.cache = w.cache := by
  cases op with
  | cacheSet key value ttl => exact absurd rfl (hset key value ttl)
  | cacheDelete key => exact absurd rfl (hdelete key)
  | _ => rfl

/-- What a statement writes when it writes, given the rows it got hold of. -/
inductive Statement.Writes (rows : List RowKey) : Statement → Write → Prop
  | usersAdd {user row} : Writes rows (.usersAdd user) (.insertUser row)
  | usersUpdate {user stamp} :
      Writes rows (.usersUpdate user) (.updateUser user.id user.profile stamp)
  | usersUpdatePassword {user stamp} :
      Writes rows (.usersUpdatePassword user)
        (.updatePassword user.id user.passwordHash stamp)
  | usersAssignRole {u r} : Writes rows (.usersAssignRole u r) (.insertUserRole u r)
  | usersRevokeRole {u r} : Writes rows (.usersRevokeRole u r) (.deleteUserRole u r)
  | rolesAdd {name description row} :
      Writes rows (.rolesAdd name description) (.insertRole row)
  | rolesDelete {r} : Writes rows (.rolesDelete r) (.deleteRole r)
  | rolesGrantPermission {r p} :
      Writes rows (.rolesGrantPermission r p) (.insertRolePermission r p)
  | rolesRevokePermission {r p} :
      Writes rows (.rolesRevokePermission r p) (.deleteRolePermission r p)
  | permissionsAdd {resource action description row} :
      Writes rows (.permissionsAdd resource action description) (.insertPermission row)
  | sessionsAdd {session id} :
      Writes rows (.sessionsAdd session) (.insertSession (session.withId id))
  | sessionsRevoke {jti moment} :
      Writes rows (.sessionsRevoke jti moment)
        (.revokeSessions (rows.filterMap RowKey.sessionId?) moment)
  | sessionsRevokeAllForUser {u moment exceptJti} :
      Writes rows (.sessionsRevokeAllForUser u moment exceptJti)
        (.revokeSessions (rows.filterMap RowKey.sessionId?) moment)
  | tokensAdd {token id} : Writes rows (.tokensAdd token) (.insertToken (token.withId id))
  | tokensMarkUsed {token moment} :
      Writes rows (.tokensMarkUsed token)
        (.useTokens (rows.filterMap RowKey.tokenId?) moment)
  | tokensInvalidateForUser {u purpose moment} :
      Writes rows (.tokensInvalidateForUser u purpose)
        (.useTokens (rows.filterMap RowKey.tokenId?) moment)
  | auditAdd {event row} : Writes rows (.auditAdd event) (.insertAudit row)

/-- The transaction `tx'` has done what `tx` has, and one more write of `s` at most. -/
def Tx.Extends (rows : List RowKey) (db : Db) (s : Statement) (tx tx' : Tx) : Prop :=
  (tx'.pending = tx.pending ∧ tx'.locks = tx.locks) ∨
    ∃ write, s.Writes rows write ∧ db.violation write = none ∧
      tx'.pending = tx.pending ++ [write] ∧ tx'.locks = tx.locks ++ rows

theorem Tx.write_cases (tx : Tx) (db : Db) (write : Write) (keys : List RowKey) :
    (∃ c, tx.write db write keys = (tx, .error (.integrity c))) ∨
      (db.violation write = none ∧ tx.write db write keys = (tx.record write keys, .ok ())) := by
  unfold Tx.write
  cases h : db.violation write with
  | none => exact .inr ⟨rfl, rfl⟩
  | some c => exact .inl ⟨c, rfl⟩

theorem Tx.insert_cases (tx : Tx) (db : Db) (write : Write) (keys : List RowKey)
    (entity : α) :
    (∃ c, tx.insert db write keys entity = (tx, .error (.integrity c))) ∨
      (db.violation write = none ∧
        tx.insert db write keys entity = (tx.record write keys, .ok entity)) := by
  unfold Tx.insert
  rcases tx.write_cases db write keys with ⟨c, h⟩ | ⟨hfree, h⟩
  · rw [h]
    exact .inl ⟨c, rfl⟩
  · rw [h]
    exact .inr ⟨hfree, rfl⟩

theorem Tx.write_extends {tx tx' : Tx} {db : Db} {s : Statement} {write : Write}
    (hcall : tx'.call = tx.call) (hpending : tx'.pending = tx.pending)
    (hlocks : tx'.locks = tx.locks) (hwrites : s.Writes rows write) :
    (tx'.write db write rows).1.call = tx.call ∧
      tx.Extends rows db s (tx'.write db write rows).1 := by
  rcases tx'.write_cases db write rows with ⟨c, h⟩ | ⟨hfree, h⟩
  · rw [h]
    exact ⟨hcall, .inl ⟨hpending, hlocks⟩⟩
  · rw [h]
    refine ⟨hcall, .inr ⟨write, hwrites, hfree, ?_, ?_⟩⟩
    · rw [Tx.record_pending, hpending]
    · rw [Tx.record_locks, hlocks]

theorem Tx.insert_extends {tx tx' : Tx} {db : Db} {s : Statement} {write : Write}
    (entity : α) (hcall : tx'.call = tx.call) (hpending : tx'.pending = tx.pending)
    (hlocks : tx'.locks = tx.locks) (hwrites : s.Writes rows write) :
    (tx'.insert db write rows entity).1.call = tx.call ∧
      tx.Extends rows db s (tx'.insert db write rows entity).1 := by
  rcases tx'.insert_cases db write rows entity with ⟨c, h⟩ | ⟨hfree, h⟩
  · rw [h]
    exact ⟨hcall, .inl ⟨hpending, hlocks⟩⟩
  · rw [h]
    refine ⟨hcall, .inr ⟨write, hwrites, hfree, ?_, ?_⟩⟩
    · rw [Tx.record_pending, hpending]
    · rw [Tx.record_locks, hlocks]

/-- The inversion of a statement: it keeps the number of its call and adds one write at
most to the transaction. -/
theorem Statement.exec_extends (s : Statement) (supply : Supply) (t : Time)
    (rows : List RowKey) (db : Db) (tx : Tx) :
    (s.exec supply t rows db tx).1.call = tx.call ∧
      tx.Extends rows db s (s.exec supply t rows db tx).1 := by
  have hsame {s : Statement} : tx.call = tx.call ∧ tx.Extends rows db s tx :=
    ⟨rfl, .inl ⟨rfl, rfl⟩⟩
  have hrecord {s : Statement} {write : Write} (hwrites : s.Writes rows write)
      (hfree : db.violation write = none) :
      (tx.record write rows).call = tx.call ∧ tx.Extends rows db s (tx.record write rows) :=
    ⟨rfl, .inr ⟨write, hwrites, hfree, rfl, rfl⟩⟩
  cases s with
  | usersAdd user => exact Tx.insert_extends _ rfl rfl rfl .usersAdd
  | usersUpdate user =>
    simp only [exec, usersUpdateExec]
    cases db.userRow? user.id with
    | none => exact hsame
    | some row =>
      by_cases he : row.profile = user.profile
      · simp only [if_pos he]
        exact ⟨trivial, hsame.2⟩
      · simp only [if_neg he]
        exact Tx.insert_extends _ rfl rfl rfl .usersUpdate
  | usersUpdatePassword user =>
    simp only [exec, usersUpdatePasswordExec]
    cases db.userRow? user.id with
    | none => exact hsame
    | some row =>
      by_cases he : row.passwordHash = user.passwordHash
      · simp only [if_pos he]
        exact ⟨trivial, hsame.2⟩
      · simp only [if_neg he]
        exact Tx.write_extends rfl rfl rfl .usersUpdatePassword
  | usersAssignRole u r =>
    simp only [exec]
    by_cases he : (u, r) ∈ db.userRoles
    · simp only [if_pos he]
      exact ⟨trivial, hsame.2⟩
    · simp only [if_neg he]
      exact Tx.write_extends rfl rfl rfl .usersAssignRole
  | rolesGrantPermission r p =>
    simp only [exec]
    by_cases he : (r, p) ∈ db.rolePermissions
    · simp only [if_pos he]
      exact ⟨trivial, hsame.2⟩
    · simp only [if_neg he]
      exact Tx.write_extends rfl rfl rfl .rolesGrantPermission
  | rolesAdd => exact Tx.insert_extends _ rfl rfl rfl .rolesAdd
  | permissionsAdd => exact Tx.insert_extends _ rfl rfl rfl .permissionsAdd
  | sessionsAdd => exact Tx.insert_extends _ rfl rfl rfl .sessionsAdd
  | tokensAdd => exact Tx.insert_extends _ rfl rfl rfl .tokensAdd
  | auditAdd => exact Tx.insert_extends _ rfl rfl rfl .auditAdd
  | usersRevokeRole => exact hrecord .usersRevokeRole rfl
  | rolesDelete => exact hrecord .rolesDelete rfl
  | rolesRevokePermission => exact hrecord .rolesRevokePermission rfl
  | sessionsRevoke => exact hrecord .sessionsRevoke rfl
  | sessionsRevokeAllForUser => exact hrecord .sessionsRevokeAllForUser rfl
  | tokensMarkUsed => exact hrecord .tokensMarkUsed rfl
  | tokensInvalidateForUser => exact hrecord .tokensInvalidateForUser rfl
  | _ => exact hsame

/-- What a statement does to the transaction of its call. -/
theorem perform_extends (s : Statement) :
    tx.Extends rows (tx.view w.db) s (perform env t (.sql s) rows w tx).1.2 :=
  (s.exec_extends env.supply t rows (tx.view w.db) (tx.begin_ t)).2

/-- A call keeps its number. -/
theorem perform_call : (perform env t op rows w tx).1.2.call = tx.call := by
  cases op with
  | sql s => exact (s.exec_extends env.supply t rows (tx.view w.db) (tx.begin_ t)).1
  | _ => rfl

/-- An operation that only reads leaves the database and the transaction alone. -/
theorem perform_reads (h : op.reads = true) :
    (perform env t op rows w tx).1.1.db = w.db ∧
      (perform env t op rows w tx).1.2.pending = tx.pending ∧
      (perform env t op rows w tx).1.2.locks = tx.locks := by
  cases op with
  | sql s =>
    cases s with
    | usersGetById | usersGetByEmail | usersGetByUsername | usersListAll | rolesGetById
    | rolesGetByName | rolesListAll | permissionsGetById | permissionsGetByResourceAction
    | permissionsListAll | sessionsGetById | sessionsGetByJti | sessionsListActiveForUser
    | tokensGetByHash => exact ⟨rfl, rfl, rfl⟩
    | _ => cases h
  | commit | close => cases h
  | _ => exact ⟨rfl, rfl, rfl⟩

/-- A `jti` that is taken cannot be inserted again. -/
theorem Db.jti_ne_of_violation {db : Db} {row : AuthSession}
    (h : db.violation (.insertSession row) = none) : ∀ old ∈ db.sessions, old.jti ≠ row.jti := by
  intro old hold hjti
  have hclash : (db.sessions.all fun other => other.jti != row.jti) = false := by
    rw [List.all_eq_false]
    exact ⟨old, hold, by simp [hjti]⟩
  simp [violation, firstBroken, hclash] at h

/-- `sessions.add` fails and leaves the transaction as it is, or keeps the row with its
new id. -/
theorem perform_sessionsAdd (session : AuthSession) :
    (∃ e, (perform env t (.sql (.sessionsAdd session)) rows w tx).2 = .error e ∧
      (perform env t (.sql (.sessionsAdd session)) rows w tx).1.2.pending = tx.pending ∧
      (perform env t (.sql (.sessionsAdd session)) rows w tx).1.2.locks = tx.locks) ∨
    ∃ id, (tx.view w.db).violation (.insertSession (session.withId id)) = none ∧
      (perform env t (.sql (.sessionsAdd session)) rows w tx).2 = .ok (session.withId id) ∧
      (perform env t (.sql (.sessionsAdd session)) rows w tx).1.2.pending =
        tx.pending ++ [.insertSession (session.withId id)] ∧
      (perform env t (.sql (.sessionsAdd session)) rows w tx).1.2.locks =
        tx.locks ++ rows := by
  have hexec : perform env t (.sql (.sessionsAdd session)) rows w tx =
      let row := session.withId (env.supply.rowId tx.call tx.draws)
      let r := Tx.insert (tx.begin_ t).draw (tx.view w.db) (.insertSession row) rows row
      ((w, r.1), r.2) := rfl
  rw [hexec]
  dsimp only
  rcases Tx.insert_cases (tx.begin_ t).draw (tx.view w.db)
    (.insertSession (session.withId (env.supply.rowId tx.call tx.draws))) rows
    (session.withId (env.supply.rowId tx.call tx.draws)) with ⟨c, h⟩ | ⟨hfree, h⟩
  · rw [h]
    exact .inl ⟨_, rfl, rfl, rfl⟩
  · rw [h]
    exact .inr ⟨_, hfree, rfl, rfl, rfl⟩

/-- `users.update` answers with the account that it was given. -/
theorem perform_usersUpdate_id {user updated : User}
    (h : (perform env t (.sql (.usersUpdate user)) rows w tx).2 = .ok updated) :
    updated.id = user.id := by
  have hexec : (perform env t (.sql (.usersUpdate user)) rows w tx).2 =
      (Statement.usersUpdateExec t rows (tx.view w.db) (tx.begin_ t) user).2 := rfl
  rw [hexec] at h
  unfold Statement.usersUpdateExec at h
  cases hrow : (tx.view w.db).userRow? user.id with
  | none =>
    rw [hrow] at h
    cases h
  | some row =>
    have hid : row.id = user.id := userRow?_id hrow
    simp only [hrow] at h
    by_cases he : row.profile = user.profile
    · rw [if_pos he] at h
      cases h
      exact hid
    · rw [if_neg he] at h
      rcases Tx.insert_cases (tx.begin_ t) (tx.view w.db)
        (.updateUser user.id user.profile ((tx.begin_ t).stamp t)) rows
        ((tx.view w.db).userToEntity (row.withProfile user.profile ((tx.begin_ t).stamp t)))
        with ⟨c, hc⟩ | ⟨-, hc⟩
      · rw [hc] at h
        cases h
      · rw [hc] at h
        cases h
        exact hid

/-- What every write of a transaction preserves holds of what the transaction sees. -/
theorem Tx.view_preserves {P : Db → Prop} {tx : Tx}
    (hstep : ∀ write ∈ tx.pending, ∀ db, P db → P (write.apply db)) {db : Db} (h : P db) :
    P (tx.view db) := by
  unfold Tx.view
  generalize tx.pending = writes at hstep
  induction writes generalizing db with
  | nil => exact h
  | cons write rest ih =>
    exact ih (hstep write List.mem_cons_self db h) fun other hother =>
      hstep other (List.mem_cons_of_mem _ hother)

/-! ## What a step of a pool does -/

section Effect

variable (pool : Pool (machine env) n Failure Answer) (i : Fin n) (t : Time)

theorem effect_expects (op : Op) : op.expects (pool.effect i t op).2 := perform_expects

theorem effect_db {op : Op} (h : op ≠ .commit) :
    (pool.effect i t op).1.1.db = pool.shared.db := perform_db h

theorem effect_reads {op : Op} (h : op.reads = true) :
    (pool.effect i t op).1.2.pending = (pool.procs i).loc.pending ∧
      (pool.effect i t op).1.2.locks = (pool.procs i).loc.locks := (perform_reads h).2

theorem effect_extends (s : Statement) :
    (pool.procs i).loc.Extends (pool.matched i (.sql s))
      (Tx.view (pool.procs i).loc pool.shared.db) s (pool.effect i t (.sql s)).1.2 :=
  perform_extends s

theorem effect_sessionsAdd (session : AuthSession) :
    (∃ e, (pool.effect i t (.sql (.sessionsAdd session))).2 = .error e ∧
      (pool.effect i t (.sql (.sessionsAdd session))).1.2.pending =
        (pool.procs i).loc.pending ∧
      (pool.effect i t (.sql (.sessionsAdd session))).1.2.locks =
        (pool.procs i).loc.locks) ∨
    ∃ id, (Tx.view (pool.procs i).loc pool.shared.db).violation
        (.insertSession (session.withId id)) = none ∧
      (pool.effect i t (.sql (.sessionsAdd session))).2 = .ok (session.withId id) ∧
      (pool.effect i t (.sql (.sessionsAdd session))).1.2.pending =
        (pool.procs i).loc.pending ++ [.insertSession (session.withId id)] ∧
      (pool.effect i t (.sql (.sessionsAdd session))).1.2.locks =
        (pool.procs i).loc.locks ++ pool.matched i (.sql (.sessionsAdd session)) :=
  perform_sessionsAdd session

end Effect

/-! ## What a call has done -/

/-- The operation ends a transaction with a commit. -/
def Op.commits : Op → Bool
  | .commit => true
  | _ => false

/-- Call `i` has done something of the kind `f`. -/
def did (f : Op → Bool) (pool : Pool (machine env) n Failure Answer) (i : Fin n) : Bool :=
  (pool.procs i).log.any fun e => f e.op

section Did

variable (f : Op → Bool) {pool : Pool (machine env) n Failure Answer} {i : Fin n}
  {k : op.Res → Program sig Failure Answer}

theorem did_advance_self : did f (pool.advance i t op k) i = (did f pool i || f op) := by
  unfold did
  rw [Pool.advance_procs_self]
  simp

theorem did_advance_of_ne {j : Fin n} (hj : j ≠ i) :
    did f (pool.advance i t op k) j = did f pool j := by
  unfold did
  rw [Pool.advance_procs_of_ne pool t op k hj]

theorem did_wait (op : Op) (j : Fin n) : did f (pool.wait i op) j = did f pool j := by
  unfold did
  rw [Pool.wait_log]

end Did

/-! ## The rules of the vocabulary -/

section Rules

variable {P : Protocol sig} {q : P.State}

@[simp] theorem follows_raiseError (e : ApplicationError)
    (Q : P.State → Except Failure α → Prop) :
    P.Follows (Users.raise e) Q q ↔ Q q (.error (.application e)) := Iff.rfl

@[simp] theorem follows_require (cond : Bool) (e : ApplicationError)
    (Q : P.State → Except Failure Unit → Prop) :
    P.Follows (require cond e) Q q ↔
      (cond = true → Q q (.ok ())) ∧
        (cond = false → Q q (.error (.application e))) := by
  cases cond <;> simp [require]

@[simp] theorem follows_orRaise (value : Option α) (e : ApplicationError)
    (Q : P.State → Except Failure α → Prop) :
    P.Follows (orRaise value e) Q q ↔
      (∀ a, value = some a → Q q (.ok a)) ∧
        (value = none → Q q (.error (.application e))) := by
  cases value <;> simp [orRaise]

@[simp] theorem follows_assertSome (value : Option α)
    (Q : P.State → Except Failure α → Prop) :
    P.Follows (assertSome value) Q q ↔
      (∀ a, value = some a → Q q (.ok a)) ∧ (value = none → Q q (.error .assertion)) := by
  cases value <;> simp [assertSome]

@[simp] theorem follows_withUow (body : UseCase α) (Q : P.State → Except Failure α → Prop) :
    P.Follows (withUow body) Q q ↔
      P.Follows body (fun q out => P.may q .close ∧
        ∀ r, P.expects q .close r → Q (P.next q .close r) out) q :=
  follows_closing _ _ _

/-- An answer that may be an error. -/
theorem forall_except {E A : Except Failure α → Prop} {R : Except Failure α → Prop}
    (h : ∀ r, A r ↔ R r) :
    (∀ r, E r → A r) ↔ (∀ a, E (.ok a) → R (.ok a)) ∧ ∀ e, E (.error e) → R (.error e) := by
  constructor
  · intro hall
    exact ⟨fun a ha => (h _).1 (hall _ ha), fun e he => (h _).1 (hall _ he)⟩
  · rintro ⟨hok, herror⟩ r hr
    cases r with
    | ok a => exact (h _).2 (hok a hr)
    | error e => exact (h _).2 (herror e hr)

@[simp] theorem follows_now (Q : P.State → Except Failure Time → Prop) :
    P.Follows now Q q ↔
      P.may q .now ∧
        ∀ r : Time, P.expects q .now r →
          Q (P.next q .now r) (.ok r) := Iff.rfl

@[simp] theorem follows_uuid4 (Q : P.State → Except Failure String → Prop) :
    P.Follows uuid4 Q q ↔
      P.may q .uuid4 ∧
        ∀ r : String, P.expects q .uuid4 r →
          Q (P.next q .uuid4 r) (.ok r) := Iff.rfl

@[simp] theorem follows_generateSecret (Q : P.State → Except Failure GeneratedSecret → Prop) :
    P.Follows generateSecret Q q ↔
      P.may q .generateSecret ∧
        ∀ r : GeneratedSecret, P.expects q .generateSecret r →
          Q (P.next q .generateSecret r) (.ok r) := Iff.rfl

@[simp] theorem follows_hash (plain : String)
    (Q : P.State → Except Failure String → Prop) :
    P.Follows (hasher.hash plain) Q q ↔
      P.may q (.hashPassword plain) ∧
        ∀ r : String, P.expects q (.hashPassword plain) r →
          Q (P.next q (.hashPassword plain) r) (.ok r) := Iff.rfl

@[simp] theorem follows_verify (plain : String) (user : User)
    (Q : P.State → Except Failure Bool → Prop) :
    P.Follows (hasher.verify plain user) Q q ↔
      P.may q (.verifyPassword plain user) ∧
        ∀ r : Bool, P.expects q (.verifyPassword plain user) r →
          Q (P.next q (.verifyPassword plain user) r) (.ok r) := Iff.rfl

@[simp] theorem follows_issueAccess (u : UserId) (jti : String)
    (Q : P.State → Except Failure IssuedToken → Prop) :
    P.Follows (tokenService.issueAccess u jti) Q q ↔
      P.may q (.issue u jti .access) ∧
        ∀ r : IssuedToken, P.expects q (.issue u jti .access) r →
          Q (P.next q (.issue u jti .access) r) (.ok r) := Iff.rfl

@[simp] theorem follows_issueRefresh (u : UserId) (jti : String)
    (Q : P.State → Except Failure IssuedToken → Prop) :
    P.Follows (tokenService.issueRefresh u jti) Q q ↔
      P.may q (.issue u jti .refresh) ∧
        ∀ r : IssuedToken, P.expects q (.issue u jti .refresh) r →
          Q (P.next q (.issue u jti .refresh) r) (.ok r) := Iff.rfl

@[simp] theorem follows_decode (token : Token)
    (Q : P.State → Except Failure TokenPayload → Prop) :
    P.Follows (tokenService.decode token) Q q ↔
      P.may q (.decode token) ∧
        (∀ a : TokenPayload, P.expects q (.decode token) (.ok a) →
          Q (P.next q (.decode token) (.ok a)) (.ok a)) ∧
        ∀ e : Failure, P.expects q (.decode token) (.error e) →
          Q (P.next q (.decode token) (.error e)) (.error e) := by
  unfold tokenService.decode
  rw [follows_bind]
  exact and_congr Iff.rfl (forall_except fun _ => follows_ofExcept _ Q)

@[simp] theorem follows_sendEmail (message : EmailMessageDTO)
    (Q : P.State → Except Failure Unit → Prop) :
    P.Follows (sendEmail message) Q q ↔
      P.may q (.mailSend message) ∧
        ∀ r : Unit, P.expects q (.mailSend message) r →
          Q (P.next q (.mailSend message) r) (.ok r) := Iff.rfl

@[simp] theorem follows_commit (Q : P.State → Except Failure Unit → Prop) :
    P.Follows commit Q q ↔
      P.may q .commit ∧
        ∀ r : Unit, P.expects q .commit r →
          Q (P.next q .commit r) (.ok r) := Iff.rfl

@[simp] theorem follows_hit (key : String) (policy : RateLimitPolicy)
    (Q : P.State → Except Failure RateLimitDecision → Prop) :
    P.Follows (limiter.hit key policy) Q q ↔
      P.may q (.limiterHit key policy) ∧
        ∀ r : RateLimitDecision, P.expects q (.limiterHit key policy) r →
          Q (P.next q (.limiterHit key policy) r) (.ok r) := Iff.rfl

@[simp] theorem follows_peek (key : String) (policy : RateLimitPolicy)
    (Q : P.State → Except Failure RateLimitDecision → Prop) :
    P.Follows (limiter.peek key policy) Q q ↔
      P.may q (.limiterPeek key policy) ∧
        ∀ r : RateLimitDecision, P.expects q (.limiterPeek key policy) r →
          Q (P.next q (.limiterPeek key policy) r) (.ok r) := Iff.rfl

@[simp] theorem follows_reset (key : String)
    (Q : P.State → Except Failure Unit → Prop) :
    P.Follows (limiter.reset key) Q q ↔
      P.may q (.limiterReset key) ∧
        ∀ r : Unit, P.expects q (.limiterReset key) r →
          Q (P.next q (.limiterReset key) r) (.ok r) := Iff.rfl

@[simp] theorem follows_cacheGet (key : String)
    (Q : P.State → Except Failure (Option Json) → Prop) :
    P.Follows (cache.get key) Q q ↔
      P.may q (.cacheGet key) ∧
        ∀ r : Option Json, P.expects q (.cacheGet key) r →
          Q (P.next q (.cacheGet key) r) (.ok r) := Iff.rfl

@[simp] theorem follows_cacheSet (key : String) (value : Json) (ttl : Int)
    (Q : P.State → Except Failure Unit → Prop) :
    P.Follows (cache.set key value ttl) Q q ↔
      P.may q (.cacheSet key value ttl) ∧
        ∀ r : Unit, P.expects q (.cacheSet key value ttl) r →
          Q (P.next q (.cacheSet key value ttl) r) (.ok r) := Iff.rfl

@[simp] theorem follows_cacheDelete (key : String)
    (Q : P.State → Except Failure Unit → Prop) :
    P.Follows (cache.delete key) Q q ↔
      P.may q (.cacheDelete key) ∧
        ∀ r : Unit, P.expects q (.cacheDelete key) r →
          Q (P.next q (.cacheDelete key) r) (.ok r) := Iff.rfl

@[simp] theorem follows_usersGetById (u : UserId)
    (Q : P.State → Except Failure (Option User) → Prop) :
    P.Follows (users.getById u) Q q ↔
      P.may q (.sql (.usersGetById u)) ∧
        ∀ r : Option User, P.expects q (.sql (.usersGetById u)) r →
          Q (P.next q (.sql (.usersGetById u)) r) (.ok r) := Iff.rfl

@[simp] theorem follows_usersGetByEmail (email : String)
    (Q : P.State → Except Failure (Option User) → Prop) :
    P.Follows (users.getByEmail email) Q q ↔
      P.may q (.sql (.usersGetByEmail email)) ∧
        ∀ r : Option User, P.expects q (.sql (.usersGetByEmail email)) r →
          Q (P.next q (.sql (.usersGetByEmail email)) r) (.ok r) := Iff.rfl

@[simp] theorem follows_usersGetByUsername (username : String)
    (Q : P.State → Except Failure (Option User) → Prop) :
    P.Follows (users.getByUsername username) Q q ↔
      P.may q (.sql (.usersGetByUsername username)) ∧
        ∀ r : Option User, P.expects q (.sql (.usersGetByUsername username)) r →
          Q (P.next q (.sql (.usersGetByUsername username)) r) (.ok r) := Iff.rfl

@[simp] theorem follows_usersAdd (user : User)
    (Q : P.State → Except Failure User → Prop) :
    P.Follows (users.add user) Q q ↔
      P.may q (.sql (.usersAdd user)) ∧
        (∀ a : User, P.expects q (.sql (.usersAdd user)) (.ok a) →
          Q (P.next q (.sql (.usersAdd user)) (.ok a)) (.ok a)) ∧
        ∀ e : Failure, P.expects q (.sql (.usersAdd user)) (.error e) →
          Q (P.next q (.sql (.usersAdd user)) (.error e)) (.error e) := by
  unfold users.add
  rw [follows_bind]
  exact and_congr Iff.rfl (forall_except fun _ => follows_ofExcept _ Q)

@[simp] theorem follows_usersUpdate (user : User)
    (Q : P.State → Except Failure User → Prop) :
    P.Follows (users.update user) Q q ↔
      P.may q (.sql (.usersUpdate user)) ∧
        (∀ a : User, P.expects q (.sql (.usersUpdate user)) (.ok a) →
          Q (P.next q (.sql (.usersUpdate user)) (.ok a)) (.ok a)) ∧
        ∀ e : Failure, P.expects q (.sql (.usersUpdate user)) (.error e) →
          Q (P.next q (.sql (.usersUpdate user)) (.error e)) (.error e) := by
  unfold users.update
  rw [follows_bind]
  exact and_congr Iff.rfl (forall_except fun _ => follows_ofExcept _ Q)

@[simp] theorem follows_usersUpdatePassword (user : User)
    (Q : P.State → Except Failure Unit → Prop) :
    P.Follows (users.updatePassword user) Q q ↔
      P.may q (.sql (.usersUpdatePassword user)) ∧
        (∀ a : Unit, P.expects q (.sql (.usersUpdatePassword user)) (.ok a) →
          Q (P.next q (.sql (.usersUpdatePassword user)) (.ok a)) (.ok a)) ∧
        ∀ e : Failure, P.expects q (.sql (.usersUpdatePassword user)) (.error e) →
          Q (P.next q (.sql (.usersUpdatePassword user)) (.error e)) (.error e) := by
  unfold users.updatePassword
  rw [follows_bind]
  exact and_congr Iff.rfl (forall_except fun _ => follows_ofExcept _ Q)

@[simp] theorem follows_usersAssignRole (u : UserId) (r : RoleId)
    (Q : P.State → Except Failure Unit → Prop) :
    P.Follows (users.assignRole u r) Q q ↔
      P.may q (.sql (.usersAssignRole u r)) ∧
        (∀ a : Unit, P.expects q (.sql (.usersAssignRole u r)) (.ok a) →
          Q (P.next q (.sql (.usersAssignRole u r)) (.ok a)) (.ok a)) ∧
        ∀ e : Failure, P.expects q (.sql (.usersAssignRole u r)) (.error e) →
          Q (P.next q (.sql (.usersAssignRole u r)) (.error e)) (.error e) := by
  unfold users.assignRole
  rw [follows_bind]
  exact and_congr Iff.rfl (forall_except fun _ => follows_ofExcept _ Q)

@[simp] theorem follows_usersRevokeRole (u : UserId) (r : RoleId)
    (Q : P.State → Except Failure Unit → Prop) :
    P.Follows (users.revokeRole u r) Q q ↔
      P.may q (.sql (.usersRevokeRole u r)) ∧
        ∀ a : Unit, P.expects q (.sql (.usersRevokeRole u r)) a →
          Q (P.next q (.sql (.usersRevokeRole u r)) a) (.ok a) := Iff.rfl

@[simp] theorem follows_rolesGetById (r : RoleId)
    (Q : P.State → Except Failure (Option Role) → Prop) :
    P.Follows (roles.getById r) Q q ↔
      P.may q (.sql (.rolesGetById r)) ∧
        ∀ a : Option Role, P.expects q (.sql (.rolesGetById r)) a →
          Q (P.next q (.sql (.rolesGetById r)) a) (.ok a) := Iff.rfl

@[simp] theorem follows_rolesGetByName (name : String)
    (Q : P.State → Except Failure (Option Role) → Prop) :
    P.Follows (roles.getByName name) Q q ↔
      P.may q (.sql (.rolesGetByName name)) ∧
        ∀ r : Option Role, P.expects q (.sql (.rolesGetByName name)) r →
          Q (P.next q (.sql (.rolesGetByName name)) r) (.ok r) := Iff.rfl

@[simp] theorem follows_rolesAdd (name : String) (description : Option String)
    (Q : P.State → Except Failure Role → Prop) :
    P.Follows (roles.add name description) Q q ↔
      P.may q (.sql (.rolesAdd name description)) ∧
        (∀ a : Role, P.expects q (.sql (.rolesAdd name description)) (.ok a) →
          Q (P.next q (.sql (.rolesAdd name description)) (.ok a)) (.ok a)) ∧
        ∀ e : Failure, P.expects q (.sql (.rolesAdd name description)) (.error e) →
          Q (P.next q (.sql (.rolesAdd name description)) (.error e)) (.error e) := by
  unfold roles.add
  rw [follows_bind]
  exact and_congr Iff.rfl (forall_except fun _ => follows_ofExcept _ Q)

@[simp] theorem follows_rolesDelete (r : RoleId)
    (Q : P.State → Except Failure Unit → Prop) :
    P.Follows (roles.delete r) Q q ↔
      P.may q (.sql (.rolesDelete r)) ∧
        ∀ a : Unit, P.expects q (.sql (.rolesDelete r)) a →
          Q (P.next q (.sql (.rolesDelete r)) a) (.ok a) := Iff.rfl

@[simp] theorem follows_rolesGrantPermission (r : RoleId) (p : PermissionId)
    (Q : P.State → Except Failure Unit → Prop) :
    P.Follows (roles.grantPermission r p) Q q ↔
      P.may q (.sql (.rolesGrantPermission r p)) ∧
        (∀ a : Unit, P.expects q (.sql (.rolesGrantPermission r p)) (.ok a) →
          Q (P.next q (.sql (.rolesGrantPermission r p)) (.ok a)) (.ok a)) ∧
        ∀ e : Failure, P.expects q (.sql (.rolesGrantPermission r p)) (.error e) →
          Q (P.next q (.sql (.rolesGrantPermission r p)) (.error e)) (.error e) := by
  unfold roles.grantPermission
  rw [follows_bind]
  exact and_congr Iff.rfl (forall_except fun _ => follows_ofExcept _ Q)

@[simp] theorem follows_rolesRevokePermission (r : RoleId) (p : PermissionId)
    (Q : P.State → Except Failure Unit → Prop) :
    P.Follows (roles.revokePermission r p) Q q ↔
      P.may q (.sql (.rolesRevokePermission r p)) ∧
        ∀ a : Unit, P.expects q (.sql (.rolesRevokePermission r p)) a →
          Q (P.next q (.sql (.rolesRevokePermission r p)) a) (.ok a) := Iff.rfl

@[simp] theorem follows_permissionsGetById (p : PermissionId)
    (Q : P.State → Except Failure (Option Permission) → Prop) :
    P.Follows (permissions.getById p) Q q ↔
      P.may q (.sql (.permissionsGetById p)) ∧
        ∀ r : Option Permission, P.expects q (.sql (.permissionsGetById p)) r →
          Q (P.next q (.sql (.permissionsGetById p)) r) (.ok r) := Iff.rfl

@[simp] theorem follows_permissionsGetByResourceAction (resource action : String)
    (Q : P.State → Except Failure (Option Permission) → Prop) :
    P.Follows (permissions.getByResourceAction resource action) Q q ↔
      P.may q (.sql (.permissionsGetByResourceAction resource action)) ∧
        ∀ r : Option Permission,
          P.expects q (.sql (.permissionsGetByResourceAction resource action)) r →
          Q (P.next q (.sql (.permissionsGetByResourceAction resource action)) r) (.ok r) := Iff.rfl

@[simp] theorem follows_permissionsAdd (resource action : String) (description : Option String)
    (Q : P.State → Except Failure Permission → Prop) :
    P.Follows (permissions.add resource action description) Q q ↔
      P.may q (.sql (.permissionsAdd resource action description)) ∧
        (∀ a : Permission,
          P.expects q (.sql (.permissionsAdd resource action description)) (.ok a) →
          Q (P.next q (.sql (.permissionsAdd resource action description)) (.ok a)) (.ok a)) ∧
        ∀ e : Failure,
          P.expects q (.sql (.permissionsAdd resource action description)) (.error e) →
          Q (P.next q (.sql (.permissionsAdd resource action description)) (.error e)) (.error e) := by
  unfold permissions.add
  rw [follows_bind]
  exact and_congr Iff.rfl (forall_except fun _ => follows_ofExcept _ Q)

@[simp] theorem follows_sessionsGetById (id : SessionId)
    (Q : P.State → Except Failure (Option AuthSession) → Prop) :
    P.Follows (sessions.getById id) Q q ↔
      P.may q (.sql (.sessionsGetById id)) ∧
        ∀ r : Option AuthSession, P.expects q (.sql (.sessionsGetById id)) r →
          Q (P.next q (.sql (.sessionsGetById id)) r) (.ok r) := Iff.rfl

@[simp] theorem follows_sessionsGetByJti (jti : String)
    (Q : P.State → Except Failure (Option AuthSession) → Prop) :
    P.Follows (sessions.getByJti jti) Q q ↔
      P.may q (.sql (.sessionsGetByJti jti)) ∧
        ∀ r : Option AuthSession, P.expects q (.sql (.sessionsGetByJti jti)) r →
          Q (P.next q (.sql (.sessionsGetByJti jti)) r) (.ok r) := Iff.rfl

@[simp] theorem follows_sessionsAdd (session : AuthSession)
    (Q : P.State → Except Failure AuthSession → Prop) :
    P.Follows (sessions.add session) Q q ↔
      P.may q (.sql (.sessionsAdd session)) ∧
        (∀ a : AuthSession, P.expects q (.sql (.sessionsAdd session)) (.ok a) →
          Q (P.next q (.sql (.sessionsAdd session)) (.ok a)) (.ok a)) ∧
        ∀ e : Failure, P.expects q (.sql (.sessionsAdd session)) (.error e) →
          Q (P.next q (.sql (.sessionsAdd session)) (.error e)) (.error e) := by
  unfold sessions.add
  rw [follows_bind]
  exact and_congr Iff.rfl (forall_except fun _ => follows_ofExcept _ Q)

@[simp] theorem follows_sessionsRevoke (jti : String) (moment : Time)
    (Q : P.State → Except Failure Unit → Prop) :
    P.Follows (sessions.revoke jti moment) Q q ↔
      P.may q (.sql (.sessionsRevoke jti moment)) ∧
        ∀ r : Unit, P.expects q (.sql (.sessionsRevoke jti moment)) r →
          Q (P.next q (.sql (.sessionsRevoke jti moment)) r) (.ok r) := Iff.rfl

@[simp] theorem follows_sessionsRevokeAll (u : UserId) (moment : Time) (exceptJti : Option String)
    (Q : P.State → Except Failure Nat → Prop) :
    P.Follows (sessions.revokeAllForUser u moment exceptJti) Q q ↔
      P.may q (.sql (.sessionsRevokeAllForUser u moment exceptJti)) ∧
        ∀ r : Nat, P.expects q (.sql (.sessionsRevokeAllForUser u moment exceptJti)) r →
          Q (P.next q (.sql (.sessionsRevokeAllForUser u moment exceptJti)) r) (.ok r) := Iff.rfl

@[simp] theorem follows_tokensAdd (token : SecurityToken)
    (Q : P.State → Except Failure SecurityToken → Prop) :
    P.Follows (securityTokens.add token) Q q ↔
      P.may q (.sql (.tokensAdd token)) ∧
        (∀ a : SecurityToken, P.expects q (.sql (.tokensAdd token)) (.ok a) →
          Q (P.next q (.sql (.tokensAdd token)) (.ok a)) (.ok a)) ∧
        ∀ e : Failure, P.expects q (.sql (.tokensAdd token)) (.error e) →
          Q (P.next q (.sql (.tokensAdd token)) (.error e)) (.error e) := by
  unfold securityTokens.add
  rw [follows_bind]
  exact and_congr Iff.rfl (forall_except fun _ => follows_ofExcept _ Q)

@[simp] theorem follows_tokensGetByHash (hash : String) (purpose : TokenPurpose)
    (Q : P.State → Except Failure (Option SecurityToken) → Prop) :
    P.Follows (securityTokens.getByHash hash purpose) Q q ↔
      P.may q (.sql (.tokensGetByHash hash purpose)) ∧
        ∀ r : Option SecurityToken, P.expects q (.sql (.tokensGetByHash hash purpose)) r →
          Q (P.next q (.sql (.tokensGetByHash hash purpose)) r) (.ok r) := Iff.rfl

@[simp] theorem follows_tokensMarkUsed (token : SecurityToken)
    (Q : P.State → Except Failure Unit → Prop) :
    P.Follows (securityTokens.markUsed token) Q q ↔
      P.may q (.sql (.tokensMarkUsed token)) ∧
        ∀ r : Unit, P.expects q (.sql (.tokensMarkUsed token)) r →
          Q (P.next q (.sql (.tokensMarkUsed token)) r) (.ok r) := Iff.rfl

@[simp] theorem follows_auditAdd (event : AuditEvent)
    (Q : P.State → Except Failure AuditEvent → Prop) :
    P.Follows (auditLog.add event) Q q ↔
      P.may q (.sql (.auditAdd event)) ∧
        (∀ a : AuditEvent, P.expects q (.sql (.auditAdd event)) (.ok a) →
          Q (P.next q (.sql (.auditAdd event)) (.ok a)) (.ok a)) ∧
        ∀ e : Failure, P.expects q (.sql (.auditAdd event)) (.error e) →
          Q (P.next q (.sql (.auditAdd event)) (.error e)) (.error e) := by
  unfold auditLog.add
  rw [follows_bind]
  exact and_congr Iff.rfl (forall_except fun _ => follows_ofExcept _ Q)

@[simp] theorem follows_listActiveForUser (u : UserId)
    (Q : P.State → Except Failure (List AuthSession) → Prop) :
    P.Follows (sessions.listActiveForUser u) Q q ↔
      P.may q (.sql (.sessionsListActiveForUser u)) ∧
        ∀ r : List AuthSession, P.expects q (.sql (.sessionsListActiveForUser u)) r →
          Q (P.next q (.sql (.sessionsListActiveForUser u)) r) (.ok r) := Iff.rfl

@[simp] theorem follows_rolesListAll (Q : P.State → Except Failure (List Role) → Prop) :
    P.Follows roles.listAll Q q ↔
      P.may q (.sql .rolesListAll) ∧
        ∀ r : List Role, P.expects q (.sql .rolesListAll) r →
          Q (P.next q (.sql .rolesListAll) r) (.ok r) := Iff.rfl

@[simp] theorem follows_permissionsListAll
    (Q : P.State → Except Failure (List Permission) → Prop) :
    P.Follows permissions.listAll Q q ↔
      P.may q (.sql .permissionsListAll) ∧
        ∀ r : List Permission, P.expects q (.sql .permissionsListAll) r →
          Q (P.next q (.sql .permissionsListAll) r) (.ok r) := Iff.rfl

@[simp] theorem follows_usersListAll (Q : P.State → Except Failure (List User) → Prop) :
    P.Follows users.listAll Q q ↔
      P.may q (.sql .usersListAll) ∧
        ∀ r : List User, P.expects q (.sql .usersListAll) r →
          Q (P.next q (.sql .usersListAll) r) (.ok r) := Iff.rfl

@[simp] theorem follows_tokensInvalidate (u : UserId) (purpose : TokenPurpose)
    (Q : P.State → Except Failure Unit → Prop) :
    P.Follows (securityTokens.invalidateForUser u purpose) Q q ↔
      P.may q (.sql (.tokensInvalidateForUser u purpose)) ∧
        ∀ r : Unit, P.expects q (.sql (.tokensInvalidateForUser u purpose)) r →
          Q (P.next q (.sql (.tokensInvalidateForUser u purpose)) r) (.ok r) := Iff.rfl

end Rules

/-! ## Parts of use cases that only look something up -/

section Only

variable {A : Op → Prop}

theorem only_ite {c : Prop} [Decidable c] {p p' : UseCase α} (h : c → p.Only A)
    (h' : ¬ c → p'.Only A) : (if c then p else p').Only A := by
  split
  · exact h ‹_›
  · exact h' ‹_›

theorem only_require (cond : Bool) (e : ApplicationError) : (require cond e).Only A := by
  cases cond <;> trivial

/-- A charge asks the limiter, and may end in a refusal. -/
theorem only_chargeOrRefuse {policy : RateLimitPolicy} {key : String}
    (h : A (.limiterHit key policy)) (message : String) :
    (chargeOrRefuse policy key message).Only A := by
  unfold chargeOrRefuse
  exact only_ite (fun _ => ⟨h, fun _ => only_require _ _⟩) fun _ => trivial

theorem only_chargeIpOrRefuse {policy : RateLimitPolicy}
    (h : ∀ key, A (.limiterHit key policy)) (scope : String) (device : DeviceInfoDTO)
    (message : String) : (chargeIpOrRefuse policy scope device message).Only A := by
  unfold chargeIpOrRefuse
  cases device.ipAddress with
  | none => trivial
  | some ip => exact only_chargeOrRefuse (h _) message

theorem only_changeEmail (h : ∀ email, A (.sql (.usersGetByEmail email))) (user : User)
    (email : Option String) : (UpdateUserUseCase.changeEmail env user email).Only A := by
  unfold UpdateUserUseCase.changeEmail
  cases email with
  | none => trivial
  | some email =>
    refine only_ite (fun _ => trivial) fun _ => ?_
    exact Only.bind ⟨h _, fun _ => trivial⟩ fun clash =>
      Only.bind (only_require _ _) fun _ => trivial

theorem only_changeUsername (h : ∀ username, A (.sql (.usersGetByUsername username)))
    (user : User) (username : Option String) :
    (UpdateUserUseCase.changeUsername env user username).Only A := by
  unfold UpdateUserUseCase.changeUsername
  cases username with
  | none => trivial
  | some username =>
    refine only_ite (fun _ => trivial) fun _ => ?_
    exact Only.bind ⟨h _, fun _ => trivial⟩ fun clash =>
      Only.bind (only_require _ _) fun _ => trivial

end Only

end VideoSite.Users
