import VideoSite.Users.Inventory
import VideoSite.Users.Lifetime

/-!
# The audit log and what really happened

An audit row is written in the transaction of the call that it is about, so that the two
are committed together or not at all.  That holds whatever runs side by side and wherever
the process is stopped:

* `audit_rows_have_authors`: a row that the log did not have before was written by a call
  that was served, and says what a call of its kind says, of the account that the call saw
  in the database at one of its steps.
* `logged_before_success`: a call of a kind that always logs has returned only after the
  row of its success was committed.

`Call.Records` is what a call says.  `Logout` with a token that does not decode, and a ban
or its lifting without a change, say nothing; a refused login is logged without a success.
-/

namespace VideoSite.Users

open Effects Program Protocol

variable {env : Env} {n : Nat} {t : Time} {rows : List RowKey} {w : World} {tx : Tx} {db : Db}

/-! ## What a call says -/

/-- The event was caused from this device. -/
def AuditEvent.From (event : AuditEvent) (device : Option DeviceInfoDTO) : Prop :=
  event.ipAddress = (device.getD {}).ipAddress ∧ event.userAgent = (device.getD {}).userAgent

/-- The events of call `number` for the audit log, where `seen` is the database in which
it looked up its account, or found the one that it made. -/
def Call.Records (env : Env) (number : Nat) (seen : Db) : Call → AuditEvent → Prop
  | .register data device, event => event.action = .register ∧ event.From device ∧
      event.metadata = [("username", .str (env.strip data.username)),
        ("visitor_id", .ofOption data.visitorId)] ∧
      ∃ row ∈ seen.users, event.userId = some row.id ∧
        row.email = env.normalize data.email ∧ row.username = env.strip data.username ∧
        ∃ k, row.id = env.supply.rowId number k
  | .login data device, event =>
      let owner := seen.userByEmail (env.normalize data.email)
      event.From device ∧ event.userId = owner.map (·.id) ∧
      ((event.action = .login ∧ owner.any (·.isActive) = true ∧
          event.metadata = [("visitor_id", .ofOption (device.getD {}).visitorId)]) ∨
        (event.action = .loginFailed ∧
          event.metadata = [("email", .str (env.normalize data.email)),
            ("reason", .str (LoginUseCase.reason owner))]))
  | .logout token device, event => event.action = .logout ∧ event.From device ∧
      event.metadata = [] ∧ ∃ c, token = .jwt c ∧ event.userId = some c.sub
  | .changePassword userId _ device, event => event.action = .passwordChanged ∧
      event.From device ∧ event.userId = some userId ∧
      ∃ revoked, event.metadata = [("sessions_revoked", .int revoked)]
  | .resetPassword data device, event => event.action = .passwordReset ∧ event.From device ∧
      (∃ stored, seen.tokenByHash (env.tokenHash data.token) .passwordReset = some stored ∧
        event.userId = some stored.userId) ∧
      ∃ revoked, event.metadata = [("sessions_revoked", .int revoked)]
  | .verifyEmail token device, event => event.action = .emailVerified ∧ event.From device ∧
      (∃ stored, seen.tokenByHash (env.tokenHash token) .emailVerification = some stored ∧
        event.userId = some stored.userId) ∧
      ∃ email, event.metadata = [("email", .str email)]
  | .deleteUser userId device, event => event.action = .userBanned ∧ event.From device ∧
      event.userId = some userId ∧ ∃ revoked, event.metadata =
        [("reason", .str "self_deactivated"), ("sessions_revoked", .int revoked)]
  | .banUser actor targetId reason device, event => event.action = .userBanned ∧
      event.From device ∧ event.userId = some targetId ∧ ∃ revoked, event.metadata =
        [("actor_id", .int actor.id), ("reason", .ofOption reason),
          ("sessions_revoked", .int revoked)]
  | .unbanUser actor targetId device, event => event.action = .userUnbanned ∧
      event.From device ∧ event.userId = some targetId ∧
      event.metadata = [("actor_id", .int actor.id)]
  | .revokeAllSessions userId exceptJti device, event => event.action = .sessionRevoked ∧
      event.From device ∧ event.userId = some userId ∧ ∃ revoked, event.metadata =
        [("scope", .str (if exceptJti.isNone then "all" else "others")),
          ("sessions_revoked", .int revoked)]
  | .revokeUserSession userId sessionId device, event => event.action = .sessionRevoked ∧
      event.From device ∧ event.userId = some userId ∧
      event.metadata = [("scope", .str "one"), ("session_id", .int sessionId)]
  | _, _ => False

/-- A row of the log is the record of call `number`, in one of the databases `held` that it
saw, and its id was drawn by that call. -/
def Call.Logged (env : Env) (held : Db → Prop) (c : Call) (number : Nat) (row : AuditEvent) :
    Prop :=
  (∃ seen, held seen ∧ c.Records env number seen row) ∧
    ∃ k, row.id = env.supply.rowId number k

/-- The calls that do not succeed without a row in the audit log. -/
def Call.alwaysLogs : Call → Bool
  | .register _ _ | .login _ _ | .changePassword _ _ _ | .resetPassword _ _ | .verifyEmail _ _
  | .deleteUser _ _ | .revokeAllSessions _ _ _ | .revokeUserSession _ _ _ => true
  | _ => false

/-- The account that an answer is about. -/
def Answer.userId? : Answer → Option UserId
  | .user account => some account.id
  | .auth result => some result.user.id
  | _ => none

namespace AuditLog

theorem records_withId {number : Nat} {c : Call} {event : AuditEvent}
    (h : c.Records env number db event) (id : AuditEventId) :
    c.Records env number db (event.withId id) := by
  cases c <;> exact h

/-! ## The protocol -/

/-- What a call has found out about its account.  `given` is a call that was told. -/
inductive Knows where
  | nothing
  | given
  | account (email : String) (owner : Option User)
  | link (hash : String) (purpose : TokenPurpose) (stored : SecurityToken)
  | created (user : User)

/-- It is true of the database. -/
def Knows.In (env : Env) (number : Nat) (db : Db) : Knows → Prop
  | .account email owner => db.userByEmail email = owner
  | .link hash purpose stored => db.tokenByHash hash purpose = some stored
  | .created user => ∃ row ∈ db.users, row.id = user.id ∧ row.email = user.email ∧
      row.username = user.username ∧ ∃ k, row.id = env.supply.rowId number k
  | _ => True

/-- How far a call is with its row. -/
inductive State where
  | looking (c : Call) (knows : Knows)
  | written (c : Call) (knows : Knows) (event : AuditEvent)
  | committed (c : Call) (event : AuditEvent)

/-- The statements that a call may make next.  A row says what is true wherever the
knowledge of the call is, and it is the last thing that is written. -/
@[simp] def State.mayMake (env : Env) : State → Statement → Prop
  | .looking _ .nothing, s => s.reads = true
  | .looking c knows, .auditAdd event =>
      ∀ number db, knows.In env number db → c.Records env number db event
  | .looking _ (.created _), .usersUpdate _ => False
  | .written _ _ _, _ => False
  | .committed _ _, .auditAdd _ => False
  | _, _ => True

/-- What may be said of an answer in any world. -/
def expects : (op : Op) → op.Res → Prop
  | .sql (.usersGetById userId), r => ∀ user, r = some user → user.id = userId
  | .sql (.usersUpdate user), r => ∀ updated, r = .ok updated → updated.id = user.id
  | .sql (.usersAdd user), r => ∀ created, r = .ok created →
      created.email = user.email ∧ created.username = user.username
  | op, r => Op.expects op r

/-- What a call takes note of. -/
@[simp] def State.told : State → (s : Statement) → s.Res → State
  | .looking c .nothing, .usersGetByEmail email, owner => .looking c (.account email owner)
  | .looking c .nothing, .tokensGetByHash hash purpose, some stored =>
      .looking c (.link hash purpose stored)
  | .looking c (.account _ _), .usersAdd _, .ok created => .looking c (.created created)
  | .looking c knows, .auditAdd event, .ok _ => .written c knows event
  | q, _, _ => q

@[simp] def State.afterCommit : State → State
  | .looking c _ => .looking c .given
  | .written c _ event => .committed c event
  | .committed c event => .committed c event

@[simp] def State.afterClose : State → State
  | .looking c _ | .written c _ _ => .looking c .given
  | .committed c event => .committed c event

/-- Where an answer leads. -/
@[simp] def next (q : State) : (op : Op) → op.Res → State
  | .sql s, r => q.told s r
  | .commit, _ => q.afterCommit
  | .close, _ => q.afterClose
  | _, _ => q

/-- What a call may do next. -/
@[simp] def may (env : Env) (q : State) : Op → Prop
  | .sql s => q.mayMake env s
  | _ => True

@[reducible] def protocol (env : Env) : Protocol sig where
  State := State
  may := may env
  expects := fun _ => expects
  next := next

/-- What a call knows when it starts. -/
def start : Call → Knows
  | .register _ _ | .login _ _ | .resetPassword _ _ | .verifyEmail _ _ => .nothing
  | _ => .given

/-- What a call that returns has to have done. -/
def Ends (c : Call) (q : State) (out : Except Failure Answer) : Prop :=
  c.alwaysLogs = true → ∀ answer, out = .ok answer →
    ∃ event, q = .committed c event ∧ event.action ≠ .loginFailed ∧
      ∀ u, answer.userId? = some u → event.userId = some u

@[simp] theorem ends_error (c : Call) (q : State) (e : Failure) : Ends c q (.error e) :=
  fun _ _ h => by cases h

/-! ## What the calls do -/

/-- A call that says nothing. -/
theorem follows_silent {c : Call} (hc : c.logs = false) :
    (protocol env).Follows (c.program env) (Ends c) (.looking c .given) := by
  have halways : c.alwaysLogs = false := by
    cases c <;> first | rfl | cases hc
  refine Follows.of_only c.asks (fun op h => ?_) fun out hlogs => ?_
  · cases op with
    | sql s =>
      cases s with
      | auditAdd event => exact absurd (hc.symm.trans h) Bool.false_ne_true
      | _ => exact ⟨trivial, fun _ => rfl⟩
    | _ => exact ⟨trivial, fun _ => rfl⟩
  · exact absurd (halways.symm.trans hlogs) Bool.false_ne_true

/-- The operation tells a call nothing about its account, and writes nothing. -/
def Op.aside : Op → Bool
  | .sql _ | .commit | .close => false
  | _ => true

theorem follows_aside {α : Type} {p : UseCase α} (hp : p.Only fun op => Op.aside op = true)
    {c : Call} {knows : Knows} {Q : State → Except Failure α → Prop}
    (hQ : ∀ out, Q (.looking c knows) out) :
    (protocol env).Follows p Q (.looking c knows) := by
  refine Follows.of_only hp (fun op h => ?_) hQ
  cases op with
  | sql | commit | close => cases h
  | _ => exact ⟨trivial, fun _ => rfl⟩

section Calls

variable (device : Option DeviceInfoDTO)

theorem fail_follows (data : LoginDTO) (owner : Option User)
    {Q : State → Except Failure (User × IssuedToken × IssuedToken) → Prop}
    (herror : ∀ q e, Q q (.error e)) :
    (protocol env).Follows
      (LoginUseCase.fail env (env.normalize data.email) owner (device.getD {})) Q
      (State.looking (.login data device) (.account (env.normalize data.email) owner)) := by
  rcases hip : (device.getD {}).ipAddress with - | ip <;>
    simp +contextual [LoginUseCase.fail, LoginUseCase.countFailure, LoginUseCase.charge, hip,
      audit.record, expects, Op.expects, herror, Knows.In, Call.Records,
      AuditEvent.From]

theorem succeed_follows (data : LoginDTO) {user : User} (hactive : user.isActive = true)
    {Q : State → Except Failure (User × IssuedToken × IssuedToken) → Prop}
    (herror : ∀ q e, Q q (.error e))
    (hok : ∀ access refresh event, event.action = .login → event.userId = some user.id →
      Q (.committed (.login data device) event) (.ok (user, access, refresh))) :
    (protocol env).Follows (LoginUseCase.succeed user (device.getD {})) Q
      (State.looking (.login data device) (.account (env.normalize data.email) (some user))) := by
  simp +contextual [LoginUseCase.succeed, audit.record, expects, Op.expects,
    herror, hok, Knows.In, Call.Records, AuditEvent.From, hactive]

theorem login_follows (data : LoginDTO) :
    (protocol env).Follows ((Call.login data device).program env) (Ends (.login data device))
      (State.looking (.login data device) .nothing) := by
  have hguardIp : (LoginUseCase.guardIp env (device.getD {})).Only
      fun op => Op.aside op = true := by
    refine only_ite (fun _ => ?_) fun _ => trivial
    cases (device.getD {}).ipAddress with
    | none => trivial
    | some ip => exact ⟨rfl, fun _ => only_require _ _⟩
  have hguardAccount : (LoginUseCase.guardAccount env (env.normalize data.email)).Only
      fun op => Op.aside op = true :=
    only_ite (fun _ => ⟨rfl, fun _ => only_require _ _⟩) fun _ => trivial
  simp only [Call.program, login, monad_bind, follows_map, follows_bind]
  refine follows_aside hguardIp fun out => ?_
  cases out with
  | error e => exact fun _ _ h => by cases h
  | ok _ =>
    rw [followsThen_ok, follows_bind]
    refine follows_aside hguardAccount fun out => ?_
    cases out with
    | error e => exact fun _ _ h => by cases h
    | ok _ =>
      simp only [followsThen_ok, follows_withUow, follows_bind, follows_usersGetByEmail]
      refine ⟨rfl, fun owner _ => ?_⟩
      show (protocol env).Follows _ _
        (State.looking (.login data device) (.account (env.normalize data.email) owner))
      rcases owner with - | user
      · exact fail_follows device data none fun q e => ⟨trivial, fun _ _ => ends_error _ _ e⟩
      · cases hactive : user.isActive with
        | false =>
          simp only [LoginUseCase.valid, hactive, Bool.false_eq_true, if_false, follows_pure,
            followsThen_ok]
          exact fail_follows device data (some user)
            fun q e => ⟨trivial, fun _ _ => ends_error _ _ e⟩
        | true =>
          simp only [LoginUseCase.valid, hactive, if_true, follows_verify, followsThen_ok]
          refine ⟨trivial, fun valid _ => ?_⟩
          cases valid with
          | false =>
            exact fail_follows device data (some user)
              fun q e => ⟨trivial, fun _ _ => ends_error _ _ e⟩
          | true =>
            refine succeed_follows device data hactive
              (fun q e => ⟨trivial, fun _ _ => ends_error _ _ e⟩)
              fun access refresh event haction huser => ?_
            simp [expects, Op.expects, Ends, Except.map, Answer.userId?, haction, huser]

theorem register_follows (data : RegisterUserDTO) :
    (protocol env).Follows ((Call.register data device).program env)
      (Ends (.register data device)) (State.looking (.register data device) .nothing) := by
  rcases hip : (device.getD {}).ipAddress with - | ip <;>
    simp [registerUser, RegisterUserUseCase.checkRateLimit, chargeIpOrRefuse, hip,
      chargeOrRefuse, RegisterUserUseCase.grantDefault, EmailVerificationIssuer.issue,
      EmailVerificationIssuer.send, audit.record, Call.Records, AuditEvent.From, Option.forall,
      expects, Op.expects, Ends, Except.map, Answer.userId?, Knows.In,
      Statement.reads]
  all_goals grind

theorem resetPassword_follows (data : ResetPasswordDTO) :
    (protocol env).Follows ((Call.resetPassword data device).program env)
      (Ends (.resetPassword data device))
      (State.looking (.resetPassword data device) .nothing) := by
  have hlimit : (ResetPasswordUseCase.checkRateLimit env (device.getD {})).Only
      fun op => Op.aside op = true := only_chargeIpOrRefuse (fun _ => rfl) _ _ _
  simp only [Call.program, Users.resetPassword, monad_bind, follows_map, follows_bind]
  refine follows_aside hlimit fun out => ?_
  cases out with
  | error e => exact fun _ _ h => by cases h
  | ok _ =>
    simp only [followsThen_ok, follows_bind, follows_require, follows_withUow,
      follows_tokensGetByHash]
    refine ⟨fun _ => ⟨rfl, fun found _ => ?_⟩, fun _ => ends_error _ _ _⟩
    rcases found with - | stored
    · simp [expects, Op.expects, Except.map]
    · simp [audit.record, Call.Records, AuditEvent.From, expects, Op.expects, Ends,
        Except.map, Answer.userId?, Knows.In]
      grind

theorem verifyEmail_follows (token : String) :
    (protocol env).Follows ((Call.verifyEmail token device).program env)
      (Ends (.verifyEmail token device)) (State.looking (.verifyEmail token device) .nothing) := by
  simp only [Call.program, Users.verifyEmail, monad_bind, follows_map, follows_bind,
    follows_withUow, follows_tokensGetByHash]
  refine ⟨rfl, fun found _ => ?_⟩
  rcases found with - | stored
  · simp [expects, Op.expects, Except.map]
  · simp [VerifyEmailUseCase.stamp, audit.record, Call.Records, AuditEvent.From,
      expects, Op.expects, Ends, Except.map, Answer.userId?, Knows.In, User.withVerifiedAt]
    grind

theorem logout_follows (token : Token) :
    (protocol env).Follows ((Call.logout token device).program env)
      (Ends (.logout token device)) (State.looking (.logout token device) .given) := by
  have hnever (q : State) (out : Except Failure Answer) : Ends (.logout token device) q out :=
    fun h => by cases h
  simp only [Call.program, follows_map]
  refine ⟨trivial, fun out hout => ?_⟩
  cases out with
  | error e => exact hnever _ _
  | ok payload =>
    obtain ⟨c, rfl, rfl⟩ := hout payload rfl
    simp [audit.record, expects, Op.expects, hnever, Call.Records, AuditEvent.From,
      JwtTokenService.payload]

theorem given_follows {c : Call} (hc : start c = .given) (hlogs : c.logs = true) :
    (protocol env).Follows (c.program env) (Ends c) (State.looking c .given) := by
  cases c with
  | changePassword =>
    simp [Users.changePassword, audit.record, Call.Records, AuditEvent.From, expects,
      Op.expects, Ends, Except.map, Answer.userId?]
  | deleteUser =>
    simp [Users.deleteUser, audit.record, Call.Records, AuditEvent.From, expects,
      Op.expects, Ends, Except.map, Answer.userId?]
  | banUser =>
    simp [Users.banUser, BanUserUseCase.deactivate, forgetIfChanged, audit.record, Call.Records,
      AuditEvent.From, expects, Op.expects, Ends, Call.alwaysLogs]
  | unbanUser =>
    simp [Users.unbanUser, UnbanUserUseCase.reactivate, forgetIfChanged, audit.record,
      Call.Records, AuditEvent.From, expects, Op.expects, Ends, Call.alwaysLogs]
  | revokeAllSessions =>
    simp [Users.revokeAllSessions, audit.record, Call.Records, AuditEvent.From,
      expects, Op.expects, Ends, Except.map, Answer.userId?]
  | revokeUserSession =>
    simp [Users.revokeUserSession, audit.record, Call.Records, AuditEvent.From,
      expects, Op.expects, Ends, Except.map, Answer.userId?]
  | logout token device => exact logout_follows device token
  | register | login | resetPassword | verifyEmail => cases hc
  | _ => cases hlogs

end Calls

theorem follows (c : Call) :
    (protocol env).Follows (c.program env) (Ends c) (State.looking c (start c)) := by
  cases hlogs : c.logs with
  | false =>
    have hstart : start c = .given := by
      cases c <;> first | rfl | cases hlogs
    rw [hstart]
    exact follows_silent hlogs
  | true =>
    cases c with
    | register data device => exact register_follows device data
    | login data device => exact login_follows device data
    | resetPassword data device => exact resetPassword_follows device data
    | verifyEmail token device => exact verifyEmail_follows device token
    | _ => exact given_follows rfl hlogs

/-! ## What the database and the transactions have of the rows -/

/-- `audit_log.add` fails and leaves the transaction as it is, or keeps the row. -/
theorem perform_auditAdd_cases (env : Env) (t : Time) (rows : List RowKey) (w : World) (tx : Tx)
    (event : AuditEvent) :
    (∃ e, (perform env t (.sql (.auditAdd event)) rows w tx).2 = .error e ∧
      (perform env t (.sql (.auditAdd event)) rows w tx).1.2.pending = tx.pending) ∨
    (perform env t (.sql (.auditAdd event)) rows w tx).2 =
        .ok (event.withId (env.supply.rowId tx.call tx.draws)) ∧
      (perform env t (.sql (.auditAdd event)) rows w tx).1.2.pending =
        tx.pending ++ [.insertAudit (event.withId (env.supply.rowId tx.call tx.draws))] := by
  have hexec : perform env t (.sql (.auditAdd event)) rows w tx =
      let row := event.withId (env.supply.rowId tx.call tx.draws)
      let r := Tx.insert (tx.begin_ t).draw (tx.view w.db) (.insertAudit row) rows row
      ((w, r.1), r.2) := rfl
  rw [hexec]
  dsimp only
  rcases Tx.insert_cases (tx.begin_ t).draw (tx.view w.db)
    (.insertAudit (event.withId (env.supply.rowId tx.call tx.draws))) rows
    (event.withId (env.supply.rowId tx.call tx.draws)) with ⟨c, h⟩ | ⟨-, h⟩
  · rw [h]
    exact .inl ⟨_, rfl, rfl⟩
  · rw [h]
    exact .inr ⟨rfl, rfl⟩

/-- The rows that a transaction adds to the log. -/
theorem mem_auditLogs_view {row : AuditEvent} (h : row ∈ (tx.view db).auditLogs) :
    row ∈ db.auditLogs ∨ .insertAudit row ∈ tx.pending := by
  refine Tx.view_preserves (P := fun db' => row ∈ db'.auditLogs →
    row ∈ db.auditLogs ∨ .insertAudit row ∈ tx.pending) (fun write hwrite db' ih hrow => ?_)
    .inl h
  cases write with
  | insertAudit new =>
    rcases List.mem_append.1 hrow with hold | hnew
    · exact ih hold
    · rw [List.mem_singleton.1 hnew]
      exact .inr hwrite
  | _ => exact ih hrow

/-- `users.add` keeps a row with the address and the name of the account it answers with. -/
theorem perform_usersAdd {user created : User}
    (h : (perform env t (.sql (.usersAdd user)) rows w tx).2 = .ok created) :
    ∃ row : UserRow, row.id = env.supply.rowId tx.call tx.draws ∧ row.id = created.id ∧
      row.email = created.email ∧ row.username = created.username ∧
      created.email = user.email ∧ created.username = user.username ∧
      (perform env t (.sql (.usersAdd user)) rows w tx).1.2.pending =
        tx.pending ++ [.insertUser row] := by
  have hexec : perform env t (.sql (.usersAdd user)) rows w tx =
      let r := Statement.usersAddExec env.supply t rows (tx.view w.db) (tx.begin_ t) user
      ((w, r.1), r.2) := rfl
  rw [hexec] at h ⊢
  dsimp only at h ⊢
  unfold Statement.usersAddExec at h ⊢
  dsimp only at h ⊢
  generalize hrow : (UserRow.mk (env.supply.rowId (tx.begin_ t).call (tx.begin_ t).draws) user.email
    user.username user.passwordHash user.displayName user.isActive user.isSuperuser
    user.emailVerifiedAt user.visitorId ((tx.begin_ t).stamp t) ((tx.begin_ t).stamp t)) = row
    at h ⊢
  rcases Tx.insert_cases (tx.begin_ t).draw (tx.view w.db) (.insertUser row) rows
    ((tx.view w.db).userToEntity row) with ⟨c, hc⟩ | ⟨-, hc⟩
  · rw [hc] at h
    cases h
  · rw [hc] at h ⊢
    cases h
    subst hrow
    exact ⟨_, rfl, rfl, rfl, rfl, rfl, rfl, rfl⟩

theorem expects_perform {op : Op} : expects op (perform env t op rows w tx).2 := by
  have hany : op.expects (perform env t op rows w tx).2 := perform_expects
  cases op with
  | sql s =>
    cases s with
    | usersGetById userId =>
      intro user huser
      have hfind : (tx.view w.db).userById userId = some user := huser
      exact (userById_row hfind).1
    | usersUpdate user => exact fun updated h => perform_usersUpdate_id h
    | usersAdd user =>
      intro created h
      obtain ⟨-, -, -, -, -, hemail, husername, -⟩ := perform_usersAdd h
      exact ⟨hemail, husername⟩
    | _ => exact hany
  | _ => exact hany

/-- An account that a transaction has added, and not edited since. -/
theorem mem_users_view {row : UserRow} {before after : List Write}
    (hpending : tx.pending = before ++ .insertUser row :: after)
    (hkept : ∀ id profile stamp, .updateUser id profile stamp ∉ after) (db : Db) :
    ∃ row' ∈ (tx.view db).users, row'.id = row.id ∧ row'.email = row.email ∧
      row'.username = row.username := by
  have hview : tx.view db = ({ tx with pending := after } : Tx).view
      ((Write.insertUser row).apply (before.foldl Write.apply db)) := by
    unfold Tx.view
    rw [hpending, List.foldl_append, List.foldl_cons]
  rw [hview]
  refine Tx.view_preserves (P := fun db => ∃ row' ∈ db.users, row'.id = row.id ∧
    row'.email = row.email ∧ row'.username = row.username) (fun write hwrite db h => ?_)
    ⟨row, List.mem_append_right _ (List.mem_singleton_self row), rfl, rfl, rfl⟩
  obtain ⟨row', hrow', hid, hemail, husername⟩ := h
  cases write with
  | insertUser new => exact ⟨row', List.mem_append_left _ hrow', hid, hemail, husername⟩
  | updateUser id profile stamp => exact absurd hwrite (hkept id profile stamp)
  | updatePassword id hash stamp =>
    refine ⟨_, List.mem_map_of_mem hrow', ?_⟩
    split <;> exact ⟨hid, hemail, husername⟩
  | _ => exact ⟨row', hrow', hid, hemail, husername⟩

/-- What a call knows comes from one of the databases `held`, or is its own doing. -/
def Knows.Grounded (env : Env) (held : Db → Prop) (tx : Tx) : Knows → Prop
  | .nothing => tx.pending = []
  | .given => True
  | .account email owner => ∃ seen, held seen ∧ seen.userByEmail email = owner
  | .link hash purpose stored =>
      ∃ seen, held seen ∧ seen.tokenByHash hash purpose = some stored
  | .created user => ∃ before row after, tx.pending = before ++ .insertUser row :: after ∧
      row.id = user.id ∧ row.email = user.email ∧ row.username = user.username ∧
      (∃ k, row.id = env.supply.rowId tx.call k) ∧
      ∀ id profile stamp, .updateUser id profile stamp ∉ after

variable {held : Db → Prop} {knows : Knows} {tx' : Tx}

theorem Knows.Grounded.congr (h : knows.Grounded env held tx) (hpending : tx'.pending = tx.pending)
    (hcall : tx'.call = tx.call) : knows.Grounded env held tx' := by
  cases knows with
  | nothing => exact hpending.trans h
  | created user =>
    unfold Grounded
    rw [hpending, hcall]
    exact h
  | _ => exact h

/-- A transaction that has added a write to those of before. -/
theorem Knows.Grounded.snoc (h : knows.Grounded env held tx) (hknows : knows ≠ .nothing)
    {write : Write} (hpending : tx'.pending = tx.pending ++ [write])
    (hcall : tx'.call = tx.call)
    (hkept : ∀ user, knows = .created user → ∀ id profile stamp,
      write ≠ .updateUser id profile stamp) : knows.Grounded env held tx' := by
  cases knows with
  | nothing => exact absurd rfl hknows
  | created user =>
    obtain ⟨before, row, after, he, hid, hemail, husername, hk, hafter⟩ := h
    refine ⟨before, row, after ++ [write], ?_, hid, hemail, husername, ?_, ?_⟩
    · rw [hpending, he, List.append_assoc]
      rfl
    · rw [hcall]
      exact hk
    · intro id profile stamp hmem
      rcases List.mem_append.1 hmem with hold | hnew
      · exact hafter id profile stamp hold
      · exact hkept user rfl id profile stamp (List.mem_singleton.1 hnew).symm
  | _ => exact h

/-- After a commit, what a call knows is true of a database that was held. -/
theorem Knows.Grounded.committed (h : knows.Grounded env held tx) (hheld : held (tx.view db)) :
    ∃ seen, held seen ∧ knows.In env tx.call seen := by
  cases knows with
  | nothing | given => exact ⟨_, hheld, trivial⟩
  | account email owner => exact h
  | link hash purpose stored => exact h
  | created user =>
    obtain ⟨before, row, after, hpending, hid, hemail, husername, ⟨k, hk⟩, hafter⟩ := h
    obtain ⟨row', hrow', hid', hemail', husername'⟩ := mem_users_view hpending hafter db
    exact ⟨_, hheld, row', hrow', hid'.trans hid, hemail'.trans hemail,
      husername'.trans husername, k, hid'.trans hk⟩

/-! ## The invariant -/

/-- What the transaction of a call, and the database, have of its row. -/
def Has (env : Env) (held : Db → Prop) (db : Db) : State → Tx → Prop
  | .looking _ knows, tx => (∀ row, .insertAudit row ∉ tx.pending) ∧ knows.Grounded env held tx
  | .written c knows event, tx => knows.Grounded env held tx ∧
      (∀ number db, knows.In env number db → c.Records env number db event) ∧
      ∃ k, ∀ row, .insertAudit row ∈ tx.pending ↔
        row = event.withId (env.supply.rowId tx.call k)
  | .committed c event, tx => (∀ row, .insertAudit row ∉ tx.pending) ∧
      ∃ id, event.withId id ∈ db.auditLogs ∧ c.Logged env held tx.call (event.withId id)

/-- The call whose state it is. -/
def State.call : State → Call
  | .looking c _ | .written c _ _ | .committed c _ => c

theorem next_call (q : State) (op : Op) (r : op.Res) : (next q op r).call = q.call := by
  cases op with
  | sql s =>
    show (q.told s r).call = q.call
    unfold State.told
    split <;> rfl
  | commit | close => cases q <;> rfl
  | _ => rfl

theorem mem_auditLogs_later {db' : Db} (hlater : db.Becomes db') {row : AuditEvent}
    (h : row ∈ db.auditLogs) : row ∈ db'.auditLogs := by
  obtain ⟨row', hrow', rfl⟩ := hlater.auditLogs.exists_of_mem h
  exact hrow'

/-- A row that a transaction has inserted is there in its eyes. -/
theorem mem_view_of_pending {row : AuditEvent} (h : .insertAudit row ∈ tx.pending) (db : Db) :
    row ∈ (tx.view db).auditLogs := by
  obtain ⟨db', hlater⟩ := Db.Becomes.of_pending h db
  exact mem_auditLogs_later hlater (List.mem_append_right _ (List.mem_singleton_self row))

theorem Has.later {db' : Db} {q : State} (h : Has env held db q tx) (hlater : db.Becomes db') :
    Has env held db' q tx := by
  cases q with
  | committed c event =>
    obtain ⟨hnone, id, hid, hlogged⟩ := h
    exact ⟨hnone, id, mem_auditLogs_later hlater hid, hlogged⟩
  | _ => exact h

/-- Neither the writes nor the number of a call change. -/
theorem Has.congr {q : State} (h : Has env held db q tx) (hpending : tx'.pending = tx.pending)
    (hcall : tx'.call = tx.call) : Has env held db q tx' := by
  cases q with
  | looking c knows =>
    obtain ⟨hnone, hknows⟩ := h
    exact ⟨by rwa [hpending], hknows.congr hpending hcall⟩
  | written c knows event =>
    obtain ⟨hknows, hrecords, k, hk⟩ := h
    exact ⟨hknows.congr hpending hcall, hrecords, k, by rwa [hpending, hcall]⟩
  | committed c event =>
    obtain ⟨hnone, hrow⟩ := h
    exact ⟨by rwa [hpending], by rwa [hcall]⟩

/-! ## One operation -/

variable {c : Call} {s : Statement} {op : Op} {q : State}

theorem writes_of_reads {write : Write} (h : s.Writes rows write) : s.reads = false := by
  cases h <;> rfl

/-- The statements whose answer a call takes note of. -/
def tells : Statement → Bool
  | .usersGetByEmail _ | .tokensGetByHash _ _ | .usersAdd _ | .auditAdd _ => true
  | _ => false

theorem told_of_not_tells {r : s.Res} (h : tells s = false) :
    (State.looking c knows).told s r = .looking c knows := by
  cases s with
  | usersGetByEmail | tokensGetByHash | usersAdd | auditAdd => cases h
  | _ => cases knows <;> rfl

/-- The statement does not write to the log. -/
def leavesLog : Statement → Bool
  | .auditAdd _ => false
  | _ => true

/-- Only `audit_log.add` writes to the log. -/
theorem unlogged_statement (hnone : ∀ row, .insertAudit row ∉ tx.pending)
    (hs : leavesLog s = true) (row : AuditEvent) :
    .insertAudit row ∉ (perform env t (.sql s) rows w tx).1.2.pending := by
  intro hrow
  have hextends : tx.Extends rows (tx.view w.db) s (perform env t (.sql s) rows w tx).1.2 :=
    perform_extends s
  rcases hextends with ⟨hpending, -⟩ | ⟨write, hwrites, -, hpending, -⟩
  · rw [hpending] at hrow
    exact hnone row hrow
  · rw [hpending] at hrow
    rcases List.mem_append.1 hrow with hold | hnew
    · exact hnone row hold
    · rw [← List.mem_singleton.1 hnew] at hwrites
      cases hwrites
      cases hs

/-- A call that does not write to the log keeps what it knows. -/
theorem Has.kept (h : Has env held db (.looking c knows) tx)
    (hmay : may env (.looking c knows) (.sql s)) (hs : leavesLog s = true) :
    Has env held db (.looking c knows) (perform env t (.sql s) rows w tx).1.2 := by
  have hcall : (perform env t (.sql s) rows w tx).1.2.call = tx.call := perform_call
  have hextends : tx.Extends rows (tx.view w.db) s (perform env t (.sql s) rows w tx).1.2 :=
    perform_extends s
  rcases hextends with ⟨hpending, -⟩ | ⟨write, hwrites, -, hpending, -⟩
  · exact h.congr hpending hcall
  · obtain ⟨hnone, hknows⟩ := h
    refine ⟨unlogged_statement hnone hs, hknows.snoc ?_ hpending hcall ?_⟩
    · rintro rfl
      exact absurd ((writes_of_reads hwrites).symm.trans hmay) Bool.false_ne_true
    · rintro user rfl id profile stamp rfl
      cases hwrites
      exact hmay

/-- A statement whose answer the call takes note of. -/
theorem Has.told (h : Has env held db (.looking c knows) tx)
    (hmay : may env (.looking c knows) (.sql s)) (hheld : held w.db)
    (htells : tells s = true) :
    Has env held db (next (.looking c knows) (.sql s) (perform env t (.sql s) rows w tx).2)
      (perform env t (.sql s) rows w tx).1.2 := by
  cases s with
  | usersGetByEmail email =>
    cases knows with
    | nothing =>
      obtain ⟨hnone, hpending⟩ := h
      exact ⟨hnone, w.db, hheld, by rw [← Tx.view_of_pending_nil hpending w.db]; rfl⟩
    | _ => exact h.kept hmay rfl
  | tokensGetByHash hash purpose =>
    cases knows with
    | nothing =>
      obtain ⟨hnone, hpending⟩ := h
      have hanswer : (perform env t (.sql (.tokensGetByHash hash purpose)) rows w tx).2 =
          w.db.tokenByHash hash purpose := by
        rw [← Tx.view_of_pending_nil hpending w.db]
        rfl
      rw [hanswer]
      cases hfound : w.db.tokenByHash hash purpose with
      | none => exact ⟨hnone, hpending⟩
      | some stored => exact ⟨hnone, w.db, hheld, hfound⟩
    | _ => exact h.kept hmay rfl
  | usersAdd user =>
    cases knows with
    | account email owner =>
      have hkept : Has env held db (.looking c (.account email owner))
          (perform env t (.sql (.usersAdd user)) rows w tx).1.2 := h.kept hmay rfl
      cases hr : (perform env t (.sql (.usersAdd user)) rows w tx).2 with
      | error e => exact hkept
      | ok created =>
        obtain ⟨row, hdrawn, hid, hemail, husername, -, -, hpending⟩ := perform_usersAdd hr
        refine ⟨hkept.1, tx.pending, row, [], hpending, hid, hemail, husername, ⟨tx.draws, ?_⟩,
          fun _ _ _ => List.not_mem_nil⟩
        rw [perform_call]
        exact hdrawn
    | _ => exact h.kept hmay rfl
  | auditAdd event =>
    have hrecords : knows ≠ .nothing ∧
        ∀ number db, knows.In env number db → c.Records env number db event := by
      cases knows with
      | nothing => cases hmay
      | _ => exact ⟨nofun, hmay⟩
    have hcall : (perform env t (.sql (.auditAdd event)) rows w tx).1.2.call = tx.call :=
      perform_call
    rcases perform_auditAdd_cases env t rows w tx event with ⟨e, hr, hpending⟩ | ⟨hr, hpending⟩
    · have hsame : next (.looking c knows) (.sql (.auditAdd event)) (.error e) =
          .looking c knows := by
        cases knows <;> rfl
      rw [hr, hsame]
      exact h.congr hpending hcall
    · have hwritten : next (.looking c knows) (.sql (.auditAdd event))
          (.ok (event.withId (env.supply.rowId tx.call tx.draws))) =
          .written c knows event := by
        cases knows <;> rfl
      obtain ⟨hnone, hknows⟩ := h
      rw [hr, hwritten]
      refine ⟨hknows.snoc hrecords.1 hpending hcall fun _ _ _ _ _ => nofun, hrecords.2, tx.draws,
        fun row => ?_⟩
      rw [hpending, hcall, List.mem_append, List.mem_singleton]
      simp [hnone row]
  | _ => cases htells

/-- A statement of a call that has not written its row yet. -/
theorem Has.statement (h : Has env held db (.looking c knows) tx)
    (hmay : may env (.looking c knows) (.sql s)) (hheld : held w.db) :
    Has env held db (next (.looking c knows) (.sql s) (perform env t (.sql s) rows w tx).2)
      (perform env t (.sql s) rows w tx).1.2 := by
  cases htells : tells s with
  | true => exact h.told hmay hheld htells
  | false =>
    show Has env held db ((State.looking c knows).told s _) _
    rw [told_of_not_tells htells]
    refine h.kept hmay ?_
    cases s with
    | auditAdd => cases htells
    | _ => rfl

/-- The rows of a commit, and what the call has of its row after it. -/
theorem Has.commit (h : Has env held w.db q tx) (hmay : may env q .commit)
    (hheld : held (tx.view w.db)) :
    Has env held (tx.view w.db) (next q .commit ()) tx.ended ∧
      ∀ row ∈ (tx.view w.db).auditLogs, row ∈ w.db.auditLogs ∨
        q.call.Logged env held tx.call row := by
  have hnew (row : AuditEvent) (hrow : row ∈ (tx.view w.db).auditLogs) :
      row ∈ w.db.auditLogs ∨ .insertAudit row ∈ tx.pending := mem_auditLogs_view hrow
  cases q with
  | looking c knows =>
    refine ⟨?_, fun row hrow => (hnew row hrow).imp_right fun h' => absurd h' (h.1 row)⟩
    cases knows with
    | _ => exact ⟨fun _ => List.not_mem_nil, trivial⟩
  | written c knows event =>
    obtain ⟨hknows, hrecords, k, hk⟩ := h
    obtain ⟨seen, hseen, hin⟩ := hknows.committed hheld
    have hlogged : c.Logged env held tx.call (event.withId (env.supply.rowId tx.call k)) :=
      ⟨⟨seen, hseen, records_withId (hrecords _ _ hin) _⟩, k, rfl⟩
    refine ⟨⟨fun _ => List.not_mem_nil, _, mem_view_of_pending ((hk _).2 rfl) w.db, hlogged⟩,
      fun row hrow => (hnew row hrow).imp_right fun h' => ?_⟩
    rw [(hk row).1 h']
    exact hlogged
  | committed c event =>
    obtain ⟨hnone, id, hid, hlogged⟩ := h
    exact ⟨⟨fun _ => List.not_mem_nil, id, mem_auditLogs_later (.view w.db tx) hid, hlogged⟩,
      fun row hrow => (hnew row hrow).imp_right fun h' => absurd h' (hnone row)⟩

/-- One operation. -/
theorem Has.perform (h : Has env held w.db q tx) (hmay : may env q op) (hheld : held w.db)
    (hlater : held (Users.perform env t op rows w tx).1.1.db) :
    Has env held (Users.perform env t op rows w tx).1.1.db
        (next q op (Users.perform env t op rows w tx).2) (Users.perform env t op rows w tx).1.2 ∧
      ∀ row ∈ (Users.perform env t op rows w tx).1.1.db.auditLogs, row ∈ w.db.auditLogs ∨
        q.call.Logged env held tx.call row := by
  by_cases hcommit : op = .commit
  · subst hcommit
    exact h.commit hmay hlater
  · have hdb : (Users.perform env t op rows w tx).1.1.db = w.db := perform_db hcommit
    rw [hdb]
    refine ⟨?_, fun row hrow => .inl hrow⟩
    cases q with
    | looking c knows =>
      cases op with
      | sql s => exact h.statement hmay hheld
      | commit => exact absurd rfl hcommit
      | close =>
        exact ⟨fun _ => List.not_mem_nil, trivial⟩
      | _ => exact h.congr rfl rfl
    | written c knows event =>
      cases op with
      | sql s => exact False.elim hmay
      | commit => exact absurd rfl hcommit
      | close => exact ⟨fun _ => List.not_mem_nil, trivial⟩
      | _ => exact h.congr rfl rfl
    | committed c event =>
      obtain ⟨hnone, id, hid, hlogged⟩ := h
      have hcall : (Users.perform env t op rows w tx).1.2.call = tx.call := perform_call
      have hstays (r : op.Res) : next (.committed c event) op r = .committed c event := by
        cases op <;> rfl
      rw [hstays]
      refine ⟨?_, id, hid, by rwa [hcall]⟩
      cases op with
      | sql s =>
        refine unlogged_statement hnone ?_
        cases s with
        | auditAdd => exact False.elim hmay
        | _ => rfl
      | commit | close => exact fun _ => List.not_mem_nil
      | _ => exact hnone

/-! ## Calls side by side -/

/-- Every row since `old` has an author. -/
def Authored (authored : AuditEvent → Prop) (old : List AuditEvent) (db : Db) : Prop :=
  ∀ row ∈ db.auditLogs, row ∈ old ∨ authored row

/-- What holds while calls run side by side, of which call `i` sees the databases
`held i`. -/
structure Inv (env : Env) (held : Fin n → Db → Prop) (authored : AuditEvent → Prop)
    (old : List AuditEvent) (calls : Fin n → Call) (first : Nat)
    (pool : Pool (machine env) n Failure Answer) : Prop where
  has : ∀ i, Has env (held i) pool.shared.db
    (pool.states (protocol env) (fun i => .looking (calls i) (start (calls i))) i)
    (pool.procs i).loc
  called : ∀ i,
    (pool.states (protocol env) (fun i => .looking (calls i) (start (calls i))) i).call = calls i
  numbered : ∀ i : Fin n, (pool.procs i).loc.call = first + i
  authored : Authored authored old pool.shared.db

variable {held : Fin n → Db → Prop} {authored : AuditEvent → Prop} {old : List AuditEvent}
  {calls : Fin n → Call} {first : Nat} {pool : Pool (machine env) n Failure Answer}

/-- One operation of call `i`. -/
theorem Inv.advance (h : Inv env held authored old calls first pool) {i : Fin n}
    {k : op.Res → Program sig Failure Answer}
    (hmay : may env (pool.states (protocol env)
      (fun i => .looking (calls i) (start (calls i))) i) op)
    (hheld : held i pool.shared.db) (hlater : held i (pool.advance i t op k).shared.db)
    (hauthor : ∀ row, (calls i).Logged env (held i) (first + i) row → authored row) :
    Inv env held authored old calls first (pool.advance i t op k) := by
  obtain ⟨hself, hrows⟩ : Has env (held i) (pool.effect i t op).1.1.db
      (next (pool.states (protocol env) (fun i => .looking (calls i) (start (calls i))) i) op
        (pool.effect i t op).2) (pool.effect i t op).1.2 ∧
      ∀ row ∈ (pool.effect i t op).1.1.db.auditLogs, row ∈ pool.shared.db.auditLogs ∨
        (pool.states (protocol env) (fun i => .looking (calls i) (start (calls i))) i).call.Logged
          env (held i) (pool.procs i).loc.call row := (h.has i).perform hmay hheld hlater
  refine ⟨fun j => ?_, fun j => ?_, fun j => ?_, fun row hrow => ?_⟩
  · by_cases hj : j = i
    · subst hj
      rw [Pool.states_advance, Function.update_self, Pool.advance_procs_self]
      exact hself
    · rw [Pool.states_advance, Function.update_of_ne hj,
        Pool.advance_procs_of_ne pool t op k hj]
      exact (h.has j).later (.effect pool i t op)
  · rw [Pool.states_advance]
    by_cases hj : j = i
    · subst hj
      rw [Function.update_self]
      exact (next_call _ op _).trans (h.called j)
    · rw [Function.update_of_ne hj]
      exact h.called j
  · by_cases hj : j = i
    · subst hj
      rw [Pool.advance_procs_self]
      have hcall : (pool.effect j t op).1.2.call = (pool.procs j).loc.call := perform_call
      rw [hcall]
      exact h.numbered j
    · rw [Pool.advance_procs_of_ne pool t op k hj]
      exact h.numbered j
  · rcases hrows row hrow with hold | hnew
    · exact h.authored row hold
    · rw [h.called i, h.numbered i] at hnew
      exact .inr (hauthor row hnew)

/-- An uptime. -/
theorem inv_run (w : World) (up : Uptime env) {authored : AuditEvent → Prop}
    (hauthor : ∀ i row, (up.calls i).Logged env (up.Saw w i) (w.calls + i) row → authored row)
    (hold : Authored authored old w.db) :
    Inv env (up.Saw w) authored old up.calls w.calls (up.pool w) ∧
      (up.pool w).Follows (protocol env)
        (fun i => .looking (up.calls i) (start (up.calls i))) (fun i => Ends (up.calls i)) := by
  have hstart : Inv env (up.Saw w) authored old up.calls w.calls (w.pool env up.calls) := by
    refine ⟨fun i => ⟨fun _ => List.not_mem_nil, ?_⟩, fun _ => rfl, fun _ => rfl, hold⟩
    show (start (up.calls i)).Grounded env (up.Saw w i) _
    cases up.calls i <;> trivial
  have halong : Pool.Along (fun (pool : Pool (machine env) up.size Failure Answer) i t =>
      up.Saw w i pool.shared.db ∧ up.Saw w i (pool.step i t).shared.db) up.schedule
      (w.pool env up.calls) :=
    Pool.along_of_split fun before i t after he =>
      ⟨⟨before, t, after, he, .inl rfl⟩, before, t, after, he, .inr rfl⟩
  refine Pool.run_follows (J := Inv env (up.Saw w) authored old up.calls w.calls)
    (fun pool i op hinv => ?_)
    (fun pool i t op k hinv hC hprog hfree hmay => ⟨expects_perform, ?_⟩) up.schedule halong
    hstart fun i => follows (up.calls i)
  · refine ⟨fun j => ?_, fun j => ?_, fun j => ?_, hinv.authored⟩
    · rw [Pool.wait_loc, Pool.states_wait]
      exact hinv.has j
    · rw [Pool.states_wait]
      exact hinv.called j
    · rw [Pool.wait_loc]
      exact hinv.numbered j
  · have hstep : pool.step i t = pool.advance i t op k := by
      unfold Pool.step
      rw [hprog]
      exact if_neg hfree
    rw [hstep] at hC
    exact hinv.advance hmay hC.1 hC.2 (hauthor i)

end AuditLog

/-- The row is the record of one of the calls of a lifetime: it says what that call says, of
the account that it saw in the database at one of its steps. -/
def HasAuthor (w : World) (ups : List (Uptime env)) (row : AuditEvent) : Prop :=
  ∃ before up after, ups = before ++ up :: after ∧ ∃ i : Fin up.size,
    (up.calls i).Logged env (up.Saw (lifetime w before) i) ((lifetime w before).calls + i) row

/-- In a longer life the row has the same author. -/
theorem HasAuthor.later {ups : List (Uptime env)} {row : AuditEvent} (h : HasAuthor w ups row)
    (up : Uptime env) : HasAuthor w (ups ++ [up]) row := by
  obtain ⟨before, served, after, rfl, hlogged⟩ := h
  exact ⟨before, served, after ++ [up], by simp, hlogged⟩

/-- A row of the log is an old one, or has an author: the record of a call that was served,
whose id was drawn by that call. -/
theorem audit_rows_have_authors (w : World) (ups : List (Uptime env)) :
    ∀ row ∈ (lifetime w ups).db.auditLogs, row ∈ w.db.auditLogs ∨ HasAuthor w ups row := by
  show AuditLog.Authored (HasAuthor w ups) w.db.auditLogs (lifetime w ups).db
  induction ups using List.reverseRecOn with
  | nil => exact fun row hrow => .inl hrow
  | append_singleton ups up ih =>
    have hlater : AuditLog.Authored (HasAuthor w (ups ++ [up])) w.db.auditLogs
        (lifetime w ups).db := fun row hrow => (ih row hrow).imp_right (·.later up)
    rw [lifetime_append]
    exact (AuditLog.inv_run (lifetime w ups) up
      (fun i row hlogged => ⟨ups, up, [], rfl, i, hlogged⟩) hlater).1.authored

/-- Bob registers and follows his link, and the log says so. -/
theorem audit_rows_have_authors_bob :
    let ups : List (Uptime Sample.env) :=
      [⟨1, fun _ => .register ⟨"bob", "bob", "pw", "pw", none, none⟩ none,
        List.replicate 20 (0, 1)⟩,
        ⟨1, fun _ => .verifyEmail (Sample.label 0 2) none, List.replicate 11 (0, 5)⟩]
    let row : AuditEvent := ⟨1002, .emailVerified, 5, some 1001, none, none,
      [("email", .str "bob")]⟩
    row ∈ Sample.world.db.auditLogs ∨ HasAuthor Sample.world ups row :=
  audit_rows_have_authors Sample.world _ _ (by decide +kernel)

/-- A call of a kind that always logs has succeeded only when the log has the row of its
success: it says what the call says of the account that it saw at one of its steps, which is
the account of the answer, and its id was drawn by this very call. -/
theorem logged_before_success (w : World) (before : List (Uptime env)) (up : Uptime env)
    (i : Fin up.size) (hlogs : (up.calls i).alwaysLogs = true) {answer : Answer}
    (hdone : ((up.pool (lifetime w before)).procs i).prog.outcome? = some (.ok answer)) :
    ∃ row ∈ (up.pool (lifetime w before)).shared.db.auditLogs,
      (up.calls i).Logged env (up.Saw (lifetime w before) i) ((lifetime w before).calls + i)
        row ∧
      row.action ≠ .loginFailed ∧ ∀ u, answer.userId? = some u → row.userId = some u := by
  have hany : AuditLog.Authored (fun _ => True) [] (lifetime w before).db :=
    fun _ _ => .inr trivial
  obtain ⟨hinv, hends⟩ := AuditLog.inv_run (lifetime w before) up (fun _ _ _ => trivial) hany
  obtain ⟨event, hstate, haction, huser⟩ := hends.of_outcome hdone hlogs answer rfl
  have hhas := hinv.has i
  rw [hstate] at hhas
  obtain ⟨-, id, hid, hlogged⟩ := hhas
  rw [hinv.numbered i] at hlogged
  exact ⟨event.withId id, hid, hlogged, haction, huser⟩

/-- The account of bob after he has followed his link. -/
def Sample.bobConfirmed : User where
  id := 1001
  email := "bob"
  username := "bob"
  passwordHash := "pw"
  displayName := none
  isActive := true
  isSuperuser := false
  emailVerifiedAt := some 5
  visitorId := none
  createdAt := some 1
  updatedAt := some 5
  roles := []

/-- Bob registers, the process is restarted, and he follows his link. -/
theorem logged_before_success_sample :
    let before : List (Uptime Sample.env) :=
      [⟨1, fun _ => .register ⟨"bob", "bob", "pw", "pw", none, none⟩ none,
        List.replicate 20 (0, 1)⟩]
    let up : Uptime Sample.env :=
      ⟨1, fun _ => .verifyEmail (Sample.label 0 2) none, List.replicate 11 (0, 5)⟩
    ∃ row ∈ (up.pool (lifetime Sample.world before)).shared.db.auditLogs,
      (up.calls (0 : Fin 1)).Logged Sample.env (up.Saw (lifetime Sample.world before) (0 : Fin 1))
        ((lifetime Sample.world before).calls + 0) row ∧
      row.action ≠ .loginFailed ∧
      ∀ u, (Answer.user Sample.bobConfirmed).userId? = some u → row.userId = some u :=
  logged_before_success Sample.world _
    ⟨1, fun _ => .verifyEmail (Sample.label 0 2) none, List.replicate 11 (0, 5)⟩ (0 : Fin 1) rfl
    (by decide +kernel)

end VideoSite.Users
