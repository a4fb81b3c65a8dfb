import VideoSite.Users.Concurrent

/-!
# Use cases are atomic wherever they are stopped

A use case writes in one transaction, commits it at most once, and writes nothing
afterwards.  So the rows in the database are those from before the call or those of the
whole call, wherever the process stops, and a call that raises one of the application's
errors has left nothing behind.  A refused login is the exception: it commits the row of
the audit log that says so.

`Call.allRows` is what the whole call writes: the database when every statement of the
call takes effect at once and for good.

* `Atomicity.follows` says that every use case keeps to the protocol of one transaction.
* `Atomicity.Inv.step` is the step lemma for the database, and `Atomicity.Both.step` the one
  that compares it with a database in which statements take effect at once.
* `Call.stops` puts them together for a call that is stopped and goes on.
* `call_atomic` is the result, for every call and every point at which it is stopped.
-/

namespace VideoSite.Users

open Effects Program Protocol

variable {env : Env} {t : Time} {w : World} {tx : Tx} {rows : List RowKey}
  {op : Op} {α : Type}

/-! ## The protocol of one transaction -/

/-- The error in an answer. -/
@[simp] def failureOf : Except Failure α → Option Failure
  | .ok _ => none
  | .error e => some e

/-- The error that a statement answers with. -/
@[simp] def Statement.failure? : (s : Statement) → s.Res → Option Failure
  | .usersAdd _ => failureOf
  | .usersUpdate _ => failureOf
  | .usersUpdatePassword _ => failureOf
  | .usersAssignRole _ _ => failureOf
  | .rolesAdd _ _ => failureOf
  | .rolesGrantPermission _ _ => failureOf
  | .permissionsAdd _ _ _ => failureOf
  | .sessionsAdd _ => failureOf
  | .tokensAdd _ => failureOf
  | .auditAdd _ => failureOf
  | _ => fun _ => none

theorem Tx.write_failure {tx : Tx} {db : Db} {write : Write} {e : Failure}
    (h : failureOf (tx.write db write rows).2 = some e) : ∃ c, e = .integrity c := by
  rcases tx.write_cases db write rows with ⟨c, hw⟩ | ⟨-, hw⟩
  · rw [hw] at h
    cases h
    exact ⟨c, rfl⟩
  · rw [hw] at h
    cases h

theorem Tx.insert_failure {tx : Tx} {db : Db} {write : Write} {entity : α} {e : Failure}
    (h : failureOf (tx.insert db write rows entity).2 = some e) : ∃ c, e = .integrity c := by
  rcases tx.insert_cases db write rows entity with ⟨c, hw⟩ | ⟨-, hw⟩
  · rw [hw] at h
    cases h
    exact ⟨c, rfl⟩
  · rw [hw] at h
    cases h

/-- A statement fails because of a constraint, or because of a row that is gone. -/
theorem Statement.failure_cases (s : Statement) {supply : Supply} {db : Db} {e : Failure}
    (h : s.failure? (s.exec supply t rows db tx).2 = some e) :
    (∃ c, e = .integrity c) ∨ ∃ u, e = disappeared u := by
  cases s with
  | usersAdd user => exact .inl (Tx.insert_failure h)
  | usersUpdate user =>
    simp only [failure?, exec, usersUpdateExec] at h
    cases hrow : db.userRow? user.id with
    | none =>
      rw [hrow] at h
      cases h
      exact .inr ⟨_, rfl⟩
    | some row =>
      rw [hrow] at h
      by_cases he : row.profile = user.profile
      · simp [he] at h
      · simp only [if_neg he] at h
        exact .inl (Tx.insert_failure h)
  | usersUpdatePassword user =>
    simp only [failure?, exec, usersUpdatePasswordExec] at h
    cases hrow : db.userRow? user.id with
    | none =>
      rw [hrow] at h
      cases h
      exact .inr ⟨_, rfl⟩
    | some row =>
      rw [hrow] at h
      by_cases he : row.passwordHash = user.passwordHash
      · simp [he] at h
      · simp only [if_neg he] at h
        exact .inl (Tx.write_failure h)
  | usersAssignRole u r =>
    simp only [failure?, exec] at h
    by_cases he : (u, r) ∈ db.userRoles
    · simp [he] at h
    · simp only [if_neg he] at h
      exact .inl (Tx.write_failure h)
  | rolesGrantPermission r p =>
    simp only [failure?, exec] at h
    by_cases he : (r, p) ∈ db.rolePermissions
    · simp [he] at h
    · simp only [if_neg he] at h
      exact .inl (Tx.write_failure h)
  | rolesAdd | permissionsAdd | sessionsAdd | tokensAdd | auditAdd =>
    exact .inl (Tx.insert_failure h)
  | _ => cases h

/-- An event that is added is the next write of the transaction. -/
theorem perform_auditAdd {event row : AuditEvent}
    (h : (perform env t (.sql (.auditAdd event)) rows w tx).2 = .ok row) :
    ∃ id, (perform env t (.sql (.auditAdd event)) rows w tx).1.2.pending =
      tx.pending ++ [.insertAudit (event.withId id)] := by
  have hexec : perform env t (.sql (.auditAdd event)) rows w tx =
      let row := event.withId (env.supply.rowId tx.call tx.draws)
      let r := Tx.insert (tx.begin_ t).draw (tx.view w.db) (.insertAudit row) rows row
      ((w, r.1), r.2) := rfl
  rw [hexec] at h ⊢
  dsimp only at h ⊢
  rcases Tx.insert_cases (tx.begin_ t).draw (tx.view w.db)
    (.insertAudit (event.withId (env.supply.rowId tx.call tx.draws))) rows
    (event.withId (env.supply.rowId tx.call tx.draws)) with ⟨c, hi⟩ | ⟨-, hi⟩
  · rw [hi] at h
    cases h
  · rw [hi]
    exact ⟨_, rfl⟩

/-- The call is a login that refuses the credentials. -/
@[simp] def Call.refuses : Call → ApplicationError → Bool
  | .login _ _, .invalidCredentials _ => true
  | _, _ => false

/-- The transaction with nothing pending. -/
def Tx.flushed (tx : Tx) : Tx := { tx with pending := [] }

namespace Atomicity

/-- How far a call is with its transaction: it has written nothing, or one row of the
audit log, or something else; it has committed the one or the other; it was closed
without a commit; or a statement failed. -/
inductive State where
  | idle
  | logging (event : AuditEvent)
  | writing
  | recorded (event : AuditEvent)
  | committed
  | discarded
  | failed (e : Failure)

/-- It may still write and commit. -/
@[simp] def State.isOpen : State → Bool
  | .idle | .logging _ | .writing => true
  | _ => false

/-- Nothing has gone wrong. -/
@[simp] def State.isAlive : State → Bool
  | .discarded | .failed _ => false
  | _ => true

/-- What it wrote is committed. -/
@[simp] def State.isSaved : State → Bool
  | .idle | .recorded _ | .committed => true
  | _ => false

/-- It has committed nothing. -/
@[simp] def State.isKept : State → Bool
  | .recorded _ | .committed => false
  | _ => true

/-- What a call may do next. -/
@[simp] def may : State → Op → Prop
  | q, .sql s => if s.reads then q.isAlive = true else q.isOpen = true
  | q, .commit => q.isOpen = true
  | _, .close => True
  | q, _ => q.isAlive = true

/-- A statement does not answer with an error of the application. -/
@[simp] def expects : (op : Op) → op.Res → Prop
  | .sql s, r => ∀ e, s.failure? r ≠ some (.application e)
  | _, _ => True

/-- One more statement has written. -/
@[simp] def State.wrote : State → Statement → State
  | .idle, .auditAdd event => .logging event
  | _, _ => .writing

/-- Where the answer leads. -/
@[simp] def next : State → (op : Op) → op.Res → State
  | q, .sql s, r =>
      match s.failure? r with
      | some e => .failed e
      | none => if s.reads then q else q.wrote s
  | .logging event, .commit, _ => .recorded event
  | _, .commit, _ => .committed
  | .logging _, .close, _ => .discarded
  | .writing, .close, _ => .discarded
  | q, _, _ => q

/-- One transaction. -/
@[reducible] def protocol : Protocol sig where
  State := State
  may := may
  expects := fun _ => expects
  next := next

/-- The outcome of a call and the state it ends in: an answer comes with what was written,
an error of the application with nothing committed, but for a login that is refused, and
the error of a statement is the error of the call. -/
@[simp] def Settled (c : Call) : State → Except Failure Answer → Prop
  | .failed e, out => out = .error e
  | q, .ok _ => q.isSaved = true
  | q, .error (.application e) =>
      if c.refuses e then ∃ event, q = .recorded event ∧ event.action = .loginFailed
      else q.isKept = true
  | _, .error _ => True

/-- An operation that only reads is allowed until something has gone wrong. -/
theorem may_reads {q : State} (h : op.reads = true) (hq : q.isAlive = true) : may q op := by
  cases op with
  | sql s =>
    have hs : s.reads = true := h
    rw [may, if_pos hs]
    exact hq
  | commit | close => cases h
  | _ => cases q <;> exact hq

/-- An operation that only reads leads nowhere. -/
theorem next_reads {q : State} (h : op.reads = true) (r : op.Res) : next q op r = q := by
  cases op with
  | sql s =>
    cases s with
    | usersGetById | usersGetByEmail | usersGetByUsername | usersListAll | rolesGetById
    | rolesGetByName | rolesListAll | permissionsGetById | permissionsGetByResourceAction
    | permissionsListAll | sessionsGetById | sessionsGetByJti | sessionsListActiveForUser
    | tokensGetByHash => cases q <;> rfl
    | _ => cases h
  | commit | close => cases h
  | _ => cases q <;> rfl

/-- A part that only looks something up. -/
theorem follows_plain {q : State} {p : UseCase α} {Q : State → Except Failure α → Prop}
    (hp : p.Only fun op : Op => op.reads = true) (hq : q.isAlive = true)
    (hQ : ∀ out, Q q out) : protocol.Follows p Q q :=
  Follows.of_only hp (fun _ hop => ⟨may_reads hop hq, next_reads hop⟩) hQ

theorem follows_guardIp {device : DeviceInfoDTO} {Q : State → Except Failure Unit → Prop}
    (hok : Q State.idle (.ok ()))
    (hlimited : ∀ seconds message,
      Q State.idle (.error (.application (.rateLimited seconds message)))) :
    protocol.Follows (LoginUseCase.guardIp env device) Q State.idle := by
  unfold LoginUseCase.guardIp
  cases device.ipAddress <;> simp [hok, hlimited]

theorem follows_guardAccount {email : String} {Q : State → Except Failure Unit → Prop}
    (hok : Q State.idle (.ok ()))
    (hlocked : ∀ seconds, Q State.idle (.error (.application (.accountLocked seconds)))) :
    protocol.Follows (LoginUseCase.guardAccount env email) Q State.idle := by
  unfold LoginUseCase.guardAccount
  simp [hok, hlocked]

theorem follows_countFailure {email : String} {device : DeviceInfoDTO}
    {Q : State → Except Failure Unit → Prop} (hok : Q State.idle (.ok ())) :
    protocol.Follows (LoginUseCase.countFailure env email device) Q State.idle := by
  unfold LoginUseCase.countFailure LoginUseCase.charge
  cases device.ipAddress <;> simp [hok]

theorem follows_fail {email : String} {user : Option User} {device : DeviceInfoDTO}
    {Q : State → Except Failure (User × IssuedToken × IssuedToken) → Prop}
    (hrefused : ∀ event : AuditEvent, event.action = .loginFailed → ∀ message,
      Q (State.recorded event) (.error (.application (.invalidCredentials message))))
    (hfailed : ∀ e, Q (State.failed e) (.error e)) :
    protocol.Follows (LoginUseCase.fail env email user device) Q State.idle := by
  unfold LoginUseCase.fail
  simp only [monad_bind, follows_bind]
  refine follows_countFailure ?_
  simp [Statement.reads, audit.record, hfailed]
  intro moment _
  refine hrefused _ ?_ _
  rfl

theorem follows_succeed {user : User} {device : DeviceInfoDTO}
    {Q : State → Except Failure (User × IssuedToken × IssuedToken) → Prop}
    (hok : ∀ a, Q State.committed (.ok a)) (hfailed : ∀ e, Q (State.failed e) (.error e)) :
    protocol.Follows (LoginUseCase.succeed user device) Q State.idle := by
  unfold LoginUseCase.succeed
  simp [Statement.reads, audit.record, hok, hfailed]

theorem follows_valid {user : Option User} {password : String}
    {Q : State → Except Failure Bool → Prop} (hok : ∀ b, Q State.idle (.ok b)) :
    protocol.Follows (LoginUseCase.valid user password) Q State.idle := by
  unfold LoginUseCase.valid
  cases user <;> simp [hok]

theorem follows_login (data : LoginDTO) (device : Option DeviceInfoDTO) :
    protocol.Follows ((Call.login data device).program env) (Settled (.login data device))
      State.idle := by
  simp only [Call.program, login]
  simp only [monad_bind, monad_pure, follows_map, follows_bind]
  refine follows_guardIp ?_ (by simp [Except.map])
  rw [followsThen_ok, follows_bind]
  refine follows_guardAccount ?_ (by simp [Except.map])
  simp only [followsThen_ok, follows_bind, follows_withUow, follows_usersGetByEmail]
  refine ⟨rfl, fun owner _ => follows_valid fun valid => ?_⟩
  have hfail {email : String} {user : Option User} :
      protocol.Follows (LoginUseCase.fail env email user (device.getD {}))
        (fun q out => protocol.may q .close ∧ ∀ r, protocol.expects q .close r →
          protocol.followsThen (fun issued => Program.bind
              (limiter.reset (LoginUseCase.accountKey (env.normalize data.email)))
              fun _ => Program.pure ⟨tokenPair issued.2.1 issued.2.2, issued.1⟩)
            (fun q out => Settled (.login data device) q (out.map Answer.auth))
            (protocol.next q .close r) out) State.idle := by
    refine follows_fail ?_ ?_
    · simp [Except.map]
    · simp [Except.map]
  cases owner with
  | none => exact hfail
  | some user =>
    cases valid with
    | false => exact hfail
    | true => exact follows_succeed (by simp [Except.map]) (by simp [Except.map])

theorem follows_loadUser {userId : UserId} {Q : State → Except Failure (Option User) → Prop}
  (h : ∀ out, Q State.idle out) :
    protocol.Follows (AuthenticateUseCase.loadUser env userId) Q State.idle := by
  unfold AuthenticateUseCase.loadUser
  simp
  intro cached
  cases cached with
  | some json =>
    cases hloads : UserCacheCodec.loads env.isoFormat json <;> simp [hloads, h]
  | none =>
    simp [Statement.reads]
    intro owner
    cases owner <;> simp [h]

theorem follows_authenticate {token : Token} {Q : State → Except Failure User → Prop}
    (hQ : ∀ out, Q State.idle out) :
    protocol.Follows (authenticate env token) Q State.idle := by
  unfold authenticate
  simp [Statement.reads, hQ]
  intro payload _ session moment _ _ _
  refine follows_loadUser fun out => ?_
  cases out with
  | ok owner => simp [hQ]
  | error e => simp [hQ]

theorem follows_updateUser (u : UserId) (data : UpdateUserDTO) :
    protocol.Follows ((Call.updateUser u data).program env) (Settled (.updateUser u data))
      State.idle := by
  simp only [Call.program, updateUser, follows_map, monad_bind, follows_bind, follows_withUow,
    follows_usersGetById, followsThen_ok, follows_orRaise]
  refine ⟨rfl, fun found _ => ⟨fun user _ => ?_, by simp [Statement.reads, Except.map]⟩⟩
  refine follows_plain (q := .idle) (only_changeEmail (fun _ => rfl) _ _) rfl fun out => ?_
  cases out with
  | error e => cases e <;> simp [Statement.reads, Except.map]
  | ok user =>
    rw [followsThen_ok, follows_bind]
    refine follows_plain (only_changeUsername (fun _ => rfl) _ _) rfl fun out => ?_
    cases out with
    | error e => cases e <;> simp [Statement.reads, Except.map]
    | ok user =>
      simp only [followsThen_ok, follows_bind]
      simp [Statement.reads, UpdateUserUseCase.issueIfUnverified, EmailVerificationIssuer.issue,
        UpdateUserUseCase.sendPending, EmailVerificationIssuer.send, Except.map]

/-- Every use case keeps to the protocol. -/
theorem follows (env : Env) (c : Call) :
    protocol.Follows (c.program env) (Settled c) State.idle := by
  cases c with
  | register data device =>
    simp only [Call.program, registerUser, RegisterUserUseCase.checkRateLimit,
      EmailVerificationIssuer.issue, EmailVerificationIssuer.send, audit.record,
      monad_bind, monad_pure, follows_map, follows_bind]
    refine follows_plain (only_chargeIpOrRefuse (fun _ => rfl) _ _ _) rfl fun out => ?_
    cases out with
    | error e => cases e <;> simp [Except.map]
    | ok charged =>
      simp [Statement.reads, Except.map]
      intro _ created role
      cases role <;> simp [Statement.reads, RegisterUserUseCase.grantDefault]
  | login data device => exact follows_login data device
  | logout token device =>
    simp only [Call.program, logout, audit.record]
    simp [Except.map]
    refine ⟨rfl, fun decoded _ => ?_⟩
    cases decoded <;> simp [Statement.reads]
  | refresh token device =>
    simp only [Call.program, refreshToken]
    simp [Statement.reads, Except.map]
    intro e
    cases e <;> simp
  | authenticate token =>
    simp only [Call.program, follows_map]
    refine follows_authenticate fun out => ?_
    cases out with
    | ok user => simp [Except.map]
    | error e => cases e <;> simp [Except.map]
  | changePassword u data device =>
    simp only [Call.program, changePassword, audit.record]
    simp [Statement.reads, Except.map]
  | forgotPassword email device =>
    simp only [Call.program, forgotPassword, ForgotPasswordUseCase.checkRateLimits,
      monad_bind, follows_map, follows_bind]
    refine follows_plain (only_chargeOrRefuse (A := fun op => op.reads = true) rfl _) rfl
      fun out => ?_
    cases out with
    | error e => cases e <;> simp [Except.map]
    | ok charged =>
      simp only [followsThen_ok]
      refine follows_plain (only_chargeIpOrRefuse (fun _ => rfl) _ _ _) rfl fun out => ?_
      cases out with
      | error e => cases e <;> simp [Except.map]
      | ok charged =>
        simp [Statement.reads, Except.map]
        intro owner
        cases owner.filter (·.isActive) <;>
          simp [Statement.reads, ForgotPasswordUseCase.issue, ForgotPasswordUseCase.sendIssued]
  | resetPassword data device =>
    simp only [Call.program, resetPassword, ResetPasswordUseCase.checkRateLimit, audit.record,
      monad_bind, monad_pure, follows_map, follows_bind]
    refine follows_plain (only_chargeIpOrRefuse (fun _ => rfl) _ _ _) rfl fun out => ?_
    cases out with
    | error e => cases e <;> simp [Except.map]
    | ok charged => simp [Statement.reads, Except.map]
  | verifyEmail secret device =>
    simp only [Call.program, verifyEmail, VerifyEmailUseCase.stamp, audit.record]
    simp [Statement.reads, Except.map]
  | updateUser u data => exact follows_updateUser u data
  | deleteUser u device =>
    simp only [Call.program, deleteUser, audit.record]
    simp [Statement.reads, Except.map]
  | banUser actor u reason device =>
    simp only [Call.program, banUser, BanUserUseCase.deactivate, forgetIfChanged, audit.record]
    simp [Statement.reads, Except.map]
  | unbanUser actor u device =>
    simp only [Call.program, unbanUser, UnbanUserUseCase.reactivate, forgetIfChanged,
      audit.record]
    simp [Statement.reads, Except.map]
  | getUserProfile u =>
    simp only [Call.program, getUserProfile]
    simp [Statement.reads, Except.map]
  | listUserSessions u =>
    exact ⟨rfl, fun _ _ => ⟨trivial, fun _ _ => rfl⟩⟩
  | revokeAllSessions u exceptJti device =>
    simp only [Call.program, revokeAllSessions, audit.record]
    simp [Statement.reads, Except.map]
  | revokeUserSession u id device =>
    simp only [Call.program, revokeUserSession, audit.record]
    simp [Statement.reads, Except.map]
  | listRoles => exact ⟨rfl, fun _ _ => ⟨trivial, fun _ _ => rfl⟩⟩
  | createRole name description =>
    simp only [Call.program, createRole]
    simp [Statement.reads, Except.map]
  | deleteRole r =>
    simp only [Call.program, deleteRole]
    simp [Statement.reads, Except.map]
  | grantPermissionToRole r p =>
    simp only [Call.program, grantPermissionToRole]
    simp [Statement.reads, Except.map]
  | revokePermissionFromRole r p =>
    simp only [Call.program, revokePermissionFromRole]
    simp [Statement.reads, Except.map]
  | listPermissions => exact ⟨rfl, fun _ _ => ⟨trivial, fun _ _ => rfl⟩⟩
  | createPermission resource action description =>
    simp only [Call.program, createPermission]
    simp [Statement.reads, Except.map]
  | listUsers => exact ⟨rfl, fun _ _ => ⟨trivial, fun _ _ => rfl⟩⟩
  | assignRoleToUser u r =>
    simp only [Call.program, assignRoleToUser]
    simp [Statement.reads, Except.map]
  | revokeRoleFromUser u r =>
    simp only [Call.program, revokeRoleFromUser]
    simp [Statement.reads, Except.map]

/-! ## What a call has committed -/

/-- What the state of a call says about its transaction and about the database, which was
`before` when the call began. -/
def Inv (before : Db) : State → World × Tx → Prop
  | .idle, s => s.1.db = before ∧ s.2.pending = []
  | .logging event, s =>
      s.1.db = before ∧ ∃ id, s.2.pending = [.insertAudit (event.withId id)]
  | .writing, s => s.1.db = before
  | .recorded event, s => (∃ id, s.1.db = before.log (event.withId id)) ∧ s.2.pending = []
  | .committed, s => s.2.pending = []
  | .discarded, s => s.1.db = before
  | .failed e, s => s.1.db = before ∧ ∀ a, e ≠ .application a

/-- A call that may still write has committed nothing. -/
theorem State.isKept_of_isOpen {q : State} (h : q.isOpen = true) : q.isKept = true := by
  cases q with
  | idle | logging | writing => rfl
  | _ => cases h

theorem State.isAlive_of_isOpen {q : State} (h : q.isOpen = true) : q.isAlive = true := by
  cases q with
  | idle | logging | writing => rfl
  | _ => cases h

theorem State.isAlive_of_isSaved {q : State} (h : q.isSaved = true) : q.isAlive = true := by
  cases q with
  | idle | recorded | committed => rfl
  | _ => cases h

/-- A call that has committed something is through. -/
theorem State.isSaved_of_not_isKept {q : State} (h : q.isKept = false) : q.isSaved = true := by
  cases q with
  | recorded | committed => rfl
  | _ => cases h

theorem State.not_isOpen_of_not_isKept {q : State} (h : q.isKept = false) :
    q.isOpen = false := by
  cases q with
  | recorded | committed => rfl
  | _ => cases h

section Inv

variable {before : Db} {q : State} {s : World × Tx}

/-- A call that is through has committed all it wrote. -/
theorem Inv.pending (h : Inv before q s) (hq : q.isSaved = true) : s.2.pending = [] := by
  cases q with
  | idle => exact h.2
  | recorded event => exact h.2
  | committed => exact h
  | _ => cases hq

/-- A call that has committed nothing leaves the database as it was. -/
theorem Inv.kept (h : Inv before q s) (hq : q.isKept = true) : s.1.db = before := by
  cases q with
  | idle => exact h.1
  | logging event => exact h.1
  | writing => exact h
  | discarded => exact h
  | failed e => exact h.1
  | _ => cases hq

/-- A statement that does not fail. -/
theorem next_sql {s : Statement} {r : s.Res} (h : s.failure? r = none) :
    next q (.sql s) r = if s.reads then q else q.wrote s := by
  simp only [next, h]

theorem Inv.read {w' : World} {tx' : Tx} (h : Inv before q (w, tx)) (hdb : w'.db = w.db)
    (hpending : tx'.pending = tx.pending) : Inv before q (w', tx') := by
  cases q with
  | idle => exact ⟨hdb.trans h.1, hpending.trans h.2⟩
  | logging event =>
    obtain ⟨hbefore, id, hlog⟩ := h
    exact ⟨hdb.trans hbefore, id, hpending.trans hlog⟩
  | writing => exact hdb.trans h
  | recorded event =>
    obtain ⟨⟨id, hlog⟩, hnone⟩ := h
    exact ⟨⟨id, hdb.trans hlog⟩, hpending.trans hnone⟩
  | committed => exact hpending.trans h
  | discarded => exact hdb.trans h
  | failed e => exact ⟨hdb.trans h.1, h.2⟩

/-- The step of a statement. -/
theorem Inv.statement {s : Statement} (h : Inv before q (w, tx)) (hmay : may q (.sql s)) :
    Inv before (next q (.sql s) (perform env t (.sql s) rows w tx).2)
      (perform env t (.sql s) rows w tx).1 := by
  have hdb : (perform env t (.sql s) rows w tx).1.1.db = w.db := rfl
  by_cases hreads : s.reads = true
  · have hread : Op.reads (.sql s) = true := hreads
    rw [next_reads hread]
    exact h.read hdb (perform_reads hread).2.1
  · have hopen : q.isOpen = true := by simpa only [may, if_neg hreads] using hmay
    have hkept : w.db = before := h.kept (State.isKept_of_isOpen hopen)
    cases hfailure : s.failure? (perform env t (.sql s) rows w tx).2 with
    | some e =>
      have hnext : next q (.sql s) (perform env t (.sql s) rows w tx).2 = .failed e := by
        simp only [next, hfailure]
      rw [hnext]
      refine ⟨hdb.trans hkept, fun a ha => ?_⟩
      rcases s.failure_cases hfailure with ⟨c, he⟩ | ⟨u, he⟩
      · rw [he] at ha
        cases ha
      · rw [he] at ha
        cases ha
    | none =>
      rw [next_sql hfailure, if_neg hreads]
      cases q with
      | idle =>
        cases s with
        | auditAdd event =>
          cases hr : (perform env t (.sql (.auditAdd event)) rows w tx).2 with
          | error e =>
            rw [hr] at hfailure
            cases hfailure
          | ok row =>
            obtain ⟨id, hpending⟩ := perform_auditAdd hr
            refine ⟨hdb.trans hkept, id, ?_⟩
            rw [hpending]
            have hnone : tx.pending = [] := h.2
            rw [hnone]
            rfl
        | _ => exact hkept
      | logging | writing => exact hkept
      | _ => cases hopen

/-- The step lemma: an operation that the protocol allows answers as expected, and keeps
the invariant. -/
theorem Inv.step (h : Inv before q (w, tx)) (rows : List RowKey) (hmay : may q op) :
    expects op (perform env t op rows w tx).2 ∧
      Inv before (next q op (perform env t op rows w tx).2) (perform env t op rows w tx).1 := by
  cases op with
  | sql s =>
    refine ⟨fun e he => ?_, h.statement hmay⟩
    rcases s.failure_cases he with ⟨c, hc⟩ | ⟨u, hu⟩
    · cases hc
    · cases hu
  | commit =>
    refine ⟨trivial, ?_⟩
    cases q with
    | logging event =>
      obtain ⟨hdb, id, hpending⟩ := h
      refine ⟨⟨id, ?_⟩, rfl⟩
      have hview : tx.view w.db = w.db.log (event.withId id) := by
        have hlog : tx.pending = [.insertAudit (event.withId id)] := hpending
        simp [Tx.view, hlog]
      have hbefore : w.db = before := hdb
      rw [← hbefore]
      exact hview
    | idle | writing => exact rfl
    | _ => cases hmay
  | close =>
    refine ⟨trivial, ?_⟩
    cases q with
    | idle => exact ⟨h.1, rfl⟩
    | logging event => exact h.1
    | recorded event => exact ⟨h.1, rfl⟩
    | committed => exact rfl
    | _ => exact h
  | _ =>
    refine ⟨trivial, ?_⟩
    cases q <;> exact h

/-- Once it has committed, a call leaves the database alone. -/
theorem closed_step {db : Db} (hmay : may q op) (h : q.isKept = false ∧ s.1.db = db) :
    (next q op (perform env t op rows s.1 s.2).2).isKept = false ∧
      (perform env t op rows s.1 s.2).1.1.db = db := by
  obtain ⟨hq, hdb⟩ := h
  have hopen : q.isOpen = false := State.not_isOpen_of_not_isKept hq
  cases op with
  | sql s =>
    have hreads : s.reads = true := by
      by_contra hreads
      rw [may, if_neg hreads, hopen] at hmay
      cases hmay
    have hread : Op.reads (.sql s) = true := hreads
    rw [next_reads hread]
    exact ⟨hq, hdb⟩
  | commit =>
    rw [may, hopen] at hmay
    cases hmay
  | close =>
    cases q with
    | recorded | committed => exact ⟨rfl, hdb⟩
    | _ => cases hq
  | _ =>
    cases q with
    | recorded | committed => exact ⟨rfl, hdb⟩
    | _ => cases hq

end Inv

/-! ## Statements that take effect at once -/

/-- Everything that a transaction has written is committed. -/
def flush (s : World × Tx) : World × Tx :=
  (s.1.withDb (s.2.view s.1.db), s.2.flushed)

theorem flush_of_pending {s : World × Tx} (h : s.2.pending = []) : flush s = s := by
  obtain ⟨w, tx⟩ := s
  have hnone : tx.pending = [] := h
  have htx : tx.flushed = tx := by
    unfold Tx.flushed
    rw [← hnone]
  unfold flush
  rw [htx, Tx.view_of_pending_nil hnone]
  rfl

/-- What `r` has added to `tx` is what `r'` has added to `tx` with nothing pending, and
both answer the same. -/
def SameWrites {β : Type} (tx : Tx) (r r' : Tx × β) : Prop :=
  ∃ writes, r.1.pending = tx.pending ++ writes ∧ r' = ({ r.1 with pending := writes }, r.2)

theorem SameWrites.refl {β : Type} (tx : Tx) (a : β) : SameWrites tx (tx, a) (tx.flushed, a) :=
  ⟨[], (List.append_nil _).symm, rfl⟩

theorem SameWrites.record {β : Type} (tx : Tx) (write : Write) (a : β) :
    SameWrites tx (tx.record write rows, a) (tx.flushed.record write rows, a) :=
  ⟨[write], rfl, rfl⟩

theorem SameWrites.write (tx : Tx) (db : Db) (write : Write) :
    SameWrites tx (tx.write db write rows) (tx.flushed.write db write rows) := by
  unfold Tx.write
  cases db.violation write with
  | none => exact SameWrites.record tx write (Except.ok ())
  | some c => exact .refl tx _

theorem SameWrites.insert (tx : Tx) (db : Db) (write : Write) (entity : α) :
    SameWrites tx (tx.insert db write rows entity) (tx.flushed.insert db write rows entity) := by
  unfold Tx.insert Tx.write
  cases db.violation write with
  | none => exact .record tx write _
  | some c => exact .refl tx _

/-- A statement depends on what its transaction has written only by what it sees. -/
theorem sameWrites (s : Statement) (supply : Supply) (t : Time) (rows : List RowKey)
    (db : Db) (tx : Tx) :
    SameWrites tx (s.exec supply t rows db tx) (s.exec supply t rows db tx.flushed) := by
  cases s with
  | usersUpdate user =>
    simp only [Statement.exec, Statement.usersUpdateExec]
    cases db.userRow? user.id with
    | none => exact .refl tx _
    | some row =>
      by_cases he : row.profile = user.profile
      · simp only [if_pos he]
        exact .refl tx _
      · simp only [if_neg he]
        exact .insert tx db _ _
  | usersUpdatePassword user =>
    simp only [Statement.exec, Statement.usersUpdatePasswordExec]
    cases db.userRow? user.id with
    | none => exact .refl tx _
    | some row =>
      by_cases he : row.passwordHash = user.passwordHash
      · simp only [if_pos he]
        exact .refl tx _
      · simp only [if_neg he]
        exact .write tx db _
  | usersAssignRole u r =>
    simp only [Statement.exec]
    by_cases he : (u, r) ∈ db.userRoles
    · simp only [if_pos he]
      exact .refl tx _
    · simp only [if_neg he]
      exact .write tx db _
  | rolesGrantPermission r p =>
    simp only [Statement.exec]
    by_cases he : (r, p) ∈ db.rolePermissions
    · simp only [if_pos he]
      exact .refl tx _
    · simp only [if_neg he]
      exact .write tx db _
  | usersAdd | rolesAdd | permissionsAdd | sessionsAdd | tokensAdd | auditAdd =>
    exact SameWrites.insert tx.draw db _ _
  | usersRevokeRole | rolesDelete | rolesRevokePermission | sessionsRevoke
  | sessionsRevokeAllForUser | tokensMarkUsed | tokensInvalidateForUser => exact .record tx _ _
  | _ => exact .refl tx _

/-- The operation, with all that the transaction has written committed at once. -/
def direct (env : Env) (t : Time) : Handler sig (World × Tx) := fun op s =>
  (flush (handler env t op s).1, (handler env t op s).2)

/-- What a transaction sees after a few more writes. -/
theorem view_append (tx : Tx) {tx' : Tx} {writes : List Write} (db : Db)
    (h : tx'.pending = tx.pending ++ writes) :
    tx'.view db = ({ tx' with pending := writes } : Tx).view (tx.view db) := by
  simp only [Tx.view, h, List.foldl_append]

theorem direct_sql (s : Statement) (t : Time) (w : World) (tx : Tx) :
    direct env t (.sql s) (flush (w, tx)) =
      (flush (handler env t (.sql s) (w, tx)).1, (handler env t (.sql s) (w, tx)).2) := by
  obtain ⟨writes, hpending, he⟩ := sameWrites s env.supply t (s.targets (tx.view w.db))
    (tx.view w.db) (tx.begin_ t)
  have hhandler : handler env t (.sql s) (flush (w, tx)) =
      ((w.withDb (tx.view w.db),
          { (handler env t (.sql s) (w, tx)).1.2 with pending := writes }),
        (handler env t (.sql s) (w, tx)).2) :=
    congrArg (fun r : Tx × s.Res => ((w.withDb (tx.view w.db), r.1), r.2)) he
  have hview := view_append tx w.db hpending
  rw [direct, hhandler]
  refine Prod.ext (Prod.ext ?_ rfl) rfl
  exact congrArg w.withDb hview.symm

/-- The step lemma: as long as nothing has gone wrong, the answers are the same, and the
database of the one is what the transaction of the other sees. -/
theorem direct_step {q : State} {s s' : World × Tx} {before : Db} (hinv : Inv before q s)
    (hmay : may q op) (h : q.isAlive = true → s' = flush s) :
    (direct env t op s').2 = (handler env t op s).2 ∧
      ((next q op (handler env t op s).2).isAlive = true →
        (direct env t op s').1 = flush (handler env t op s).1) := by
  obtain ⟨w, tx⟩ := s
  have halive (hop : op ≠ .close) : s' = flush (w, tx) := by
    refine h ?_
    cases op with
    | close => exact absurd rfl hop
    | sql s =>
      by_cases hreads : s.reads = true
      · rwa [may, if_pos hreads] at hmay
      · rw [may, if_neg hreads] at hmay
        exact State.isAlive_of_isOpen hmay
    | commit => exact State.isAlive_of_isOpen hmay
    | _ => cases q <;> exact hmay
  cases op with
  | sql s =>
    rw [halive nofun, direct_sql]
    exact ⟨rfl, fun _ => rfl⟩
  | close =>
    refine ⟨rfl, fun hnext => ?_⟩
    have hsaved : q.isSaved = true := by
      cases q with
      | idle | recorded | committed => rfl
      | _ => cases hnext
    rw [h (State.isAlive_of_isSaved hsaved), flush_of_pending (hinv.pending hsaved)]
    rfl
  | _ =>
    rw [halive nofun]
    exact ⟨rfl, fun _ => rfl⟩

/-- What a call and a call with statements that take effect at once have in common. -/
def Both (before : Db) (q : protocol.State) (s s' : World × Tx) : Prop :=
  Inv before q s ∧ (q.isAlive = true → s' = flush s)

theorem both_fresh (w : World) :
    Both w.db .idle (w, Tx.fresh w.calls) (w, Tx.fresh w.calls) :=
  ⟨⟨rfl, rfl⟩, fun _ => rfl⟩

theorem Both.step {before : Db} {q : protocol.State} {s s' : World × Tx}
    (h : Both before q s s') (hmay : may q op) : expects op (handler env t op s).2 ∧
      (direct env t op s').2 = (handler env t op s).2 ∧
      Both before (next q op (handler env t op s).2) (handler env t op s).1
        (direct env t op s').1 := by
  obtain ⟨hexpects, hinv⟩ := h.1.step (targets op s.1 s.2) hmay
  obtain ⟨hsame, hflush⟩ := direct_step h.1 hmay h.2
  exact ⟨hexpects, hsame, hinv, hflush⟩

theorem Both.committed {before : Db} {q : protocol.State} {s s' : World × Tx}
    (h : Both before q s s') (hq : q.isSaved = true) : s'.1.db = s.1.db := by
  rw [h.2 (State.isAlive_of_isSaved hq), flush_of_pending (h.1.pending hq)]

/-- A call that ends with an error of the application. -/
theorem Inv.of_settled {before : Db} {q : State} {s : World × Tx} {c : Call}
    {e : ApplicationError} (h : Inv before q s)
    (hsettled : if c.refuses e then
      ∃ event : AuditEvent, q = .recorded event ∧ event.action = .loginFailed
      else q.isKept = true) :
    if c.refuses e then
      ∃ row : AuditEvent, row.action = .loginFailed ∧ s.1.db = before.log row
    else s.1.db = before := by
  by_cases hrefuses : c.refuses e = true
  · rw [if_pos hrefuses] at hsettled ⊢
    obtain ⟨event, he, haction⟩ := hsettled
    rw [he] at h
    obtain ⟨⟨id, hlog⟩, -⟩ := h
    exact ⟨event.withId id, haction, hlog⟩
  · rw [if_neg hrefuses] at hsettled ⊢
    exact h.kept hsettled

end Atomicity

open Atomicity

/-! ## Atomicity -/

/-- The database when call `c`, made in `w` with its `m`-th operation at time `τ m`, has
come to its end. -/
def Call.committed (env : Env) (τ : Nat → Time) (w : World) (c : Call) : Db :=
  (Pool.machineExec (machine env) τ (c.program env) (w, Tx.fresh w.calls)).1.1.db

/-- The database when the process stops after `k` operations of the call.  What the open
transaction has written is rolled back. -/
def Call.stoppedAt (env : Env) (τ : Nat → Time) (w : World) (c : Call) (k : Nat) : Db :=
  ((c.program env).cut (fun m => handler env (τ m)) k (w, Tx.fresh w.calls)).2.1.db

/-- All the rows that the call writes: the database when every statement takes effect at
once and for good. -/
def Call.allRows (env : Env) (τ : Nat → Time) (w : World) (c : Call) : Db :=
  ((c.program env).exec (fun m => direct env (τ m)) (w, Tx.fresh w.calls)).1.1.db

/-- How the call ends. -/
def Call.outcome (env : Env) (τ : Nat → Time) (w : World) (c : Call) :
    Except Failure Answer :=
  (Pool.machineExec (machine env) τ (c.program env) (w, Tx.fresh w.calls)).2

section

variable {τ : Nat → Time} {c : Call}

/-- A call that is stopped and goes on.  The first state is the one it is stopped in, the
second the one it ends in. -/
theorem Call.stops (env : Env) (τ : Nat → Time) (w : World) (c : Call) (k : Nat) :
    ∃ q q' : protocol.State, (q.isKept = true → c.stoppedAt env τ w k = w.db) ∧
      (q.isKept = false →
        q'.isKept = false ∧ c.committed env τ w = c.stoppedAt env τ w k) ∧
      Settled c q' (c.outcome env τ w) ∧
      Inv w.db q' (Pool.machineExec (machine env) τ (c.program env) (w, Tx.fresh w.calls)).1 ∧
      (q'.isSaved = true → c.committed env τ w = c.allRows env τ w) := by
  obtain ⟨q, hrest, hsame, hboth⟩ := (follows env c).cut_both (R := Both w.db)
    (h := fun m => handler env (τ m)) (g := fun m => direct env (τ m))
    (fun m q op s s' hmay hboth => hboth.step hmay) (both_fresh w) k
  obtain ⟨q', hsettled, -, ⟨hend, hclosed⟩⟩ := hrest.exec_both
    (R := fun q' s s' => Both w.db q' s s' ∧ (q.isKept = false →
      q'.isKept = false ∧ s.1.db = c.stoppedAt env τ w k))
    (h := fun m => handler env (τ (m + k))) (g := fun m => direct env (τ (m + k)))
    (fun m q' op s s' hmay hR => by
      obtain ⟨hexpects, hsame, hboth⟩ := hR.1.step hmay
      exact ⟨hexpects, hsame, hboth, fun hq => closed_step hmay (hR.2 hq)⟩)
    ⟨hboth, fun hq => ⟨hq, rfl⟩⟩
  rw [exec_cut (fun m => handler env (τ m))] at hsettled hend hclosed
  rw [← hsame, exec_cut (fun m => direct env (τ m))] at hend
  exact ⟨q, q', fun hq => hboth.1.kept hq, hclosed, hsettled, hend.1,
    fun hq => (hend.committed hq).symm⟩

/-- Wherever a call stops, the database has none of its rows or all of them.  A call that
answers has written all of them, and one that raises an error of the application none, but
that a refused login has written its row of the audit log. -/
theorem call_atomic (env : Env) (τ : Nat → Time) (w : World) (c : Call) :
    (∀ k, c.stoppedAt env τ w k = w.db ∨
      c.stoppedAt env τ w k = c.committed env τ w ∧
        c.committed env τ w = c.allRows env τ w) ∧
    (∀ answer, c.outcome env τ w = .ok answer →
      c.committed env τ w = c.allRows env τ w) ∧
    (∀ e, c.outcome env τ w = .error (.application e) →
      if c.refuses e then ∃ row : AuditEvent, row.action = .loginFailed ∧
        c.committed env τ w = w.db.log row
      else c.committed env τ w = w.db) := by
  refine ⟨fun k => ?_, fun answer hanswer => ?_, fun e he => ?_⟩
  · obtain ⟨q, q', hkept, hclosed, -, -, hall⟩ := c.stops env τ w k
    cases hq : q.isKept with
    | true => exact .inl (hkept hq)
    | false =>
      obtain ⟨hq', hstopped⟩ := hclosed hq
      exact .inr ⟨hstopped.symm, hall (State.isSaved_of_not_isKept hq')⟩
  · obtain ⟨q, q', -, -, hsettled, -, hall⟩ := c.stops env τ w 0
    rw [hanswer] at hsettled
    cases q' with
    | failed e => cases hsettled
    | _ => exact hall hsettled
  · obtain ⟨q, q', -, -, hsettled, hinv, -⟩ := c.stops env τ w 0
    rw [he] at hsettled
    cases q' with
    | failed e' =>
      cases hsettled
      exact absurd rfl (hinv.2 e)
    | _ => exact hinv.of_settled hsettled

end

end VideoSite.Users
