import VideoSite.Users.Lifetime
import VideoSite.Users.RefreshOnce
import Mathlib.Data.Fin.VecNotation

/-!
# Signing in while the sessions of an account are ended

A change of password, a reset, a ban, a deletion and "log out everywhere" revoke all sessions
of an account with one `UPDATE`, which takes the sessions that are committed when it starts.
`Refresh` and `Login` add a session on the strength of what they have read before.  A session
that is committed after the `UPDATE` has started survives it.

* `SessionRace.sweeper_follows`, `SessionRace.refresh_follows` and `SessionRace.login_follows`
  are the protocol of the two sides.
* `SessionRace.Inv.advance` says that a step keeps the invariant: while the sessions are
  being ended, nobody is about to add one.
* `SessionRace.Course.advance` says what becomes of the sessions that were there.
* `no_stale_session` says that no session outlives such a call on the authority of an earlier
  state, in a run in which the two sides do not overlap.
* `stale_session` has two runs in which they do.
-/

namespace VideoSite.Users

open Effects Program Protocol

variable {env : Env} {t : Time} {w : World} {u : UserId}

/-- A successful call ends the sessions of account `u`, because its password or its active
flag changes.  Where it is given a mailed secret, the secret is one of that account. -/
def Call.ChangesAuthority (env : Env) (db : Db) (u : UserId) : Call → Prop
  | .changePassword userId _ _ | .banUser _ userId _ _ | .deleteUser userId _ => userId = u
  | .resetPassword data _ => ∀ token,
      db.tokenByHash (env.tokenHash data.token) .passwordReset = some token → token.userId = u
  | _ => False

/-- A successful call ends the sessions of account `u`. -/
def Call.EndsSessions (env : Env) (db : Db) (u : UserId) : Call → Prop
  | .revokeAllSessions userId exceptJti _ => userId = u ∧ exceptJti = none
  | c => c.ChangesAuthority env db u

theorem Call.ChangesAuthority.endsSessions {db : Db} {c : Call}
    (h : c.ChangesAuthority env db u) : c.EndsSessions env db u := by
  cases c with
  | revokeAllSessions => exact absurd h fun h => h
  | _ => exact h

/-- The write changes sessions. -/
def Write.onSessions : Write → Bool
  | .insertSession _ | .revokeSessions _ _ => true
  | _ => false

/-- The write changes one-time tokens. -/
def Write.onTokens : Write → Bool
  | .insertToken _ | .useTokens _ _ => true
  | _ => false

theorem Write.keeps_sessions {write : Write} (h : write.onSessions = false) (db : Db) :
    (write.apply db).sessions = db.sessions := by
  cases write with
  | insertSession | revokeSessions => cases h
  | _ => rfl

theorem Write.keeps_tokens {write : Write} (h : write.onTokens = false) (db : Db) :
    (write.apply db).securityTokens = db.securityTokens := by
  cases write with
  | insertToken | useTokens => cases h
  | _ => rfl

/-- The address that the statement looks up. -/
def Op.email? : Op → Option String
  | .sql (.usersGetByEmail email) => some email
  | _ => none

/-- The statement looks an account up by its address. -/
def Op.looksUpEmail (op : Op) : Bool := op.email?.isSome

/-- The statement revokes one session. -/
def Op.revokesOne : Op → Bool
  | .sql (.sessionsRevoke _ _) => true
  | _ => false

/-- The statement ends the sessions of an account. -/
def Op.endsSessions : Op → Bool
  | .sql (.sessionsRevokeAllForUser _ _ _) => true
  | _ => false

/-- The operation ends a transaction without a commit. -/
def Op.closes : Op → Bool
  | .close => true
  | _ => false

namespace SessionRace

/-! ## The protocol -/

/-- How far a call is.  One call ends the sessions of the account: it has written nothing, it
has written something, it has ended them, and it has committed.  The other one adds a session:
a refresh before and after it has decoded its token, a login before it has looked the account
up and after it has refused it, either of them with the right to add a session, with the
session added and with the session committed. -/
inductive State where
  | waiting
  | writing
  | swept
  | done
  | failed
  | fresh
  | decoded
  | reading
  | refused
  | granting
  | added
  | granted
  | ended
  deriving DecidableEq, Repr

/-- The call is the one that ends the sessions. -/
def State.sweeps : State → Bool
  | .waiting | .writing | .swept | .done | .failed => true
  | _ => false

/-- The call is about to commit a session. -/
def State.inFlight : State → Bool
  | .granting | .added => true
  | _ => false

/-- The transaction that may add a session has not ended. -/
def State.live : State → Bool
  | .fresh | .decoded | .reading | .granting | .added => true
  | _ => false

/-- The operation leads nowhere. -/
def quiet : Op → Bool
  | .issue _ _ _ | .decode _ | .sql (.usersGetByEmail _) => false
  | op => op.reads

/-- The statement writes to other tables than `sessions`. -/
def aside : Statement → Bool
  | .usersUpdate _ | .usersUpdatePassword _ | .tokensMarkUsed _ | .tokensInvalidateForUser _ _
  | .auditAdd _ => true
  | _ => false

/-- What a call may do next. -/
inductive May (token : Token) (u : UserId) : State → Op → Prop
  | quiet {q op} (h : quiet op = true) : May token u q op
  | close {q} : May token u q .close
  | write {q s} (hq : q = .waiting ∨ q = .writing ∨ q = .swept) (hs : aside s = true) :
      May token u q (.sql s)
  | sweep {q moment} (hq : q = .waiting ∨ q = .writing) :
      May token u q (.sql (.sessionsRevokeAllForUser u moment none))
  | commit : May token u .swept .commit
  | decode : May token u .fresh (.decode token)
  | claim {c moment} (h : token = .jwt c) :
      May token u .decoded (.sql (.sessionsRevoke c.jti moment))
  | find {email} : May token u .reading (.sql (.usersGetByEmail email))
  | issue {v jti type} : May token u .granting (.issue v jti type)
  | add {session} : May token u .granting (.sql (.sessionsAdd session))
  | log {q event} (hq : q = .added ∨ q = .refused) : May token u q (.sql (.auditAdd event))
  | grant : May token u .added .commit
  | refuse : May token u .refused .commit

/-- What is taken for granted about answers: a call that has written nothing sees the one-time
tokens of `db`. -/
def expects (env : Env) (db : Db) : State → (op : Op) → op.Res → Prop
  | .waiting, .sql (.tokensGetByHash hash purpose), r =>
      ∀ token, r = some token → db.tokenByHash hash purpose = some token
  | _, .sql (.usersGetById userId), r => ∀ user, r = some user → user.id = userId
  | _, .verifyPassword plain user, r => r = env.hasher.verify plain user.passwordHash
  | _, .decode token, r => ∀ payload, r = .ok payload →
      ∃ c, token = .jwt c ∧ payload = JwtTokenService.payload c
  | _, _, _ => True

/-- Where the answer leads. -/
def next (env : Env) (password : String) : State → (op : Op) → op.Res → State
  | .waiting, .sql (.sessionsRevokeAllForUser _ _ _), _ => .swept
  | .waiting, .sql s, _ => if s.reads = true then .waiting else .writing
  | .writing, .sql (.sessionsRevokeAllForUser _ _ _), _ => .swept
  | .swept, .commit, _ => .done
  | .waiting, .close, _ | .writing, .close, _ | .swept, .close, _ => .failed
  | .fresh, .decode _, .ok _ => .decoded
  | .decoded, .sql (.sessionsRevoke _ _), _ => .granting
  | .reading, .sql (.usersGetByEmail _), found =>
      if LoginUseCase.accepts env found password then .granting else .refused
  | .granting, .sql (.sessionsAdd _), .ok _ => .added
  | .added, .commit, _ => .granted
  | .refused, .commit, _ => .ended
  | .fresh, .close, _ | .decoded, .close, _ | .reading, .close, _ | .refused, .close, _
  | .granting, .close, _ | .added, .close, _ => .ended
  | q, _, _ => q

/-- The protocol of both sides. -/
@[reducible] def protocol (env : Env) (token : Token) (password : String) (u : UserId)
    (db : Db) : Protocol sig where
  State := State
  may := May token u
  expects := expects env db
  next := next env password

section Follows

variable {token : Token} {password : String} {db : Db}

theorem reads_of_quiet {op : Op} (h : quiet op = true) : op.reads = true := by
  unfold quiet at h
  split at h <;> first | exact h | cases h

theorem next_of_quiet {op : Op} (h : quiet op = true) (q : State) (r : op.Res) :
    next env password q op r = q := by
  cases op with
  | sql s =>
    cases s with
    | usersGetById | usersGetByUsername | usersListAll | rolesGetById | rolesGetByName
    | rolesListAll | permissionsGetById | permissionsGetByResourceAction | permissionsListAll
    | sessionsGetById | sessionsGetByJti | sessionsListActiveForUser | tokensGetByHash =>
      cases q <;> rfl
    | _ => cases h
  | commit | close | issue | decode => cases h
  | _ => cases q <;> rfl

/-- What looks something up leads nowhere. -/
theorem follows_of_quiet {α : Type} {p : UseCase α} {q : State}
    (hp : p.Only fun op : Op => quiet op = true) {Q : State → Except Failure α → Prop}
    (hQ : ∀ out, Q q out) : (protocol env token password u db).Follows p Q q :=
  Follows.of_only hp (fun _ h => ⟨May.quiet h, next_of_quiet h q⟩) hQ

attribute [local simp] May.close expects next Statement.reads May.commit

/-- A refresh keeps to the protocol. -/
theorem refresh_follows (device : Option DeviceInfoDTO) :
    (protocol env token password u db).Follows ((Call.refresh token device).program env)
      (fun _ _ => True) State.fresh := by
  simp only [Call.program, refreshToken]
  simp
  refine ⟨.decode, ?_⟩
  rintro _ c htoken rfl -
  refine ⟨.quiet rfl, fun found => ⟨.quiet rfl, fun _ session _ _ => ⟨.quiet rfl, ?_⟩⟩⟩
  intro owner _ user _ _
  refine ⟨.quiet rfl, fun _ => ⟨.claim htoken, .quiet rfl, fun _ => ⟨.issue, fun _ => ?_⟩⟩⟩
  exact ⟨.issue, fun _ => ⟨.add, fun _ => .grant⟩⟩

/-- The branch of a failed login. -/
theorem fail_follows (email : String) (user : Option User) (device : DeviceInfoDTO)
    {Q : State → Except Failure (User × IssuedToken × IssuedToken) → Prop}
    (hQ : ∀ q e, Q q (.error e)) :
    (protocol env token password u db).Follows (LoginUseCase.fail env email user device) Q
      State.refused := by
  have hcount : (LoginUseCase.countFailure env email device).Only
      fun op : Op => quiet op = true := by
    unfold LoginUseCase.countFailure
    have hcharge (policy : RateLimitPolicy) (key : String) :
        (LoginUseCase.charge policy key).Only fun op : Op => quiet op = true :=
      only_ite (fun _ => ⟨rfl, fun _ => trivial⟩) fun _ => trivial
    cases device.ipAddress with
    | none => exact hcharge _ _
    | some ip => exact (hcharge _ _).bind fun _ => hcharge _ _
  simp only [LoginUseCase.fail, monad_bind, follows_bind]
  refine follows_of_quiet hcount fun out => ?_
  cases out with
  | error e => exact hQ _ _
  | ok _ =>
    simp [audit.record, hQ]
    exact ⟨.quiet rfl, fun _ => ⟨.log (.inr rfl), fun _ => .refuse⟩⟩

/-- A login keeps to the protocol. -/
theorem login_follows (data : LoginDTO) (device : Option DeviceInfoDTO) :
    (protocol env token data.password u db).Follows ((Call.login data device).program env)
      (fun _ _ => True) State.reading := by
  simp only [Call.program, login, monad_bind, follows_map, follows_bind]
  have hguardIp : (LoginUseCase.guardIp env (device.getD {})).Only
      fun op : Op => quiet op = true := by
    refine only_ite (fun _ => ?_) fun _ => trivial
    cases (device.getD {}).ipAddress with
    | none => trivial
    | some ip => exact ⟨rfl, fun _ => only_require _ _⟩
  have hguardAccount : (LoginUseCase.guardAccount env (env.normalize data.email)).Only
      fun op : Op => quiet op = true :=
    only_ite (fun _ => ⟨rfl, fun _ => only_require _ _⟩) fun _ => trivial
  refine follows_of_quiet hguardIp fun out => ?_
  cases out with
  | error e => trivial
  | ok _ =>
    rw [followsThen_ok, follows_bind]
    refine follows_of_quiet hguardAccount fun out => ?_
    cases out with
    | error e => trivial
    | ok _ =>
      simp [-next]
      refine ⟨.find, fun found => ?_⟩
      cases found with
      | none =>
        simp [-next, LoginUseCase.valid]
        exact fail_follows _ none _ fun q e r => trivial
      | some user =>
        cases hactive : user.isActive with
        | false =>
          have hrefused : next env data.password .reading
              (.sql (.usersGetByEmail (env.normalize data.email))) (some user) = .refused := by
            simp [LoginUseCase.accepts, hactive]
          rw [hrefused]
          simp [-next, LoginUseCase.valid, hactive]
          exact fail_follows _ (some user) _ fun q e r => trivial
        | true =>
          simp [-next, LoginUseCase.valid, hactive]
          refine ⟨.quiet rfl, ?_⟩
          rw [next_of_quiet rfl]
          cases hvalid : env.hasher.verify data.password user.passwordHash with
          | false =>
            have hrefused : next env data.password .reading
                (.sql (.usersGetByEmail (env.normalize data.email))) (some user) =
                  .refused := by
              simp [LoginUseCase.accepts, hactive, hvalid]
            rw [hrefused]
            exact fail_follows _ (some user) _ fun q e r => trivial
          | true =>
            have hgranting : next env data.password .reading
                (.sql (.usersGetByEmail (env.normalize data.email))) (some user) =
                  .granting := by
              simp [LoginUseCase.accepts, hactive, hvalid]
            rw [hgranting]
            simp [LoginUseCase.succeed, audit.record]
            refine ⟨.quiet rfl, fun jti => ⟨.issue, fun _ => ⟨.issue, fun _ => ⟨.quiet rfl, ?_⟩⟩⟩⟩
            refine fun _ => ⟨.add, fun _ => ⟨.quiet rfl, fun _ => ⟨.log (.inl rfl), ?_⟩⟩⟩
            exact fun _ => ⟨.grant, .quiet rfl⟩

/-! ### The calls that end the sessions -/

theorem changePassword_follows (data : ChangePasswordDTO) (device : Option DeviceInfoDTO) :
    (protocol env token password u db).Follows
      ((Call.changePassword u data device).program env) (fun _ _ => True) State.waiting := by
  simp only [Call.program, changePassword, audit.record]
  simp
  intro _
  refine ⟨.quiet rfl, fun _ _ user _ => ⟨.quiet rfl, fun _ _ => ⟨.quiet rfl, fun _ => ?_⟩⟩⟩
  refine ⟨.write (.inl rfl) rfl, .write (.inr (.inl rfl)) rfl, .quiet rfl, fun _ => ?_⟩
  refine ⟨.sweep (.inr rfl), fun _ => ⟨.quiet rfl, fun _ => ⟨.write (.inr (.inr rfl)) rfl, ?_⟩⟩⟩
  exact fun _ => .quiet rfl

theorem deleteUser_follows (device : Option DeviceInfoDTO) :
    (protocol env token password u db).Follows ((Call.deleteUser u device).program env)
      (fun _ _ => True) State.waiting := by
  simp only [Call.program, deleteUser, audit.record]
  simp
  refine ⟨.quiet rfl, fun _ _ user _ => ⟨.write (.inl rfl) rfl, fun _ => ⟨.quiet rfl, ?_⟩⟩⟩
  refine fun _ => ⟨.sweep (.inr rfl), fun _ => ⟨.quiet rfl, fun _ => ?_⟩⟩
  exact ⟨.write (.inr (.inr rfl)) rfl, fun _ => .quiet rfl⟩

theorem banUser_follows (actor : User) (reason : Option String)
    (device : Option DeviceInfoDTO) :
    (protocol env token password u db).Follows
      ((Call.banUser actor u reason device).program env) (fun _ _ => True) State.waiting := by
  simp only [Call.program, banUser, BanUserUseCase.deactivate, forgetIfChanged, audit.record]
  simp
  intro _
  refine ⟨.quiet rfl, fun _ _ user _ _ _ => ⟨.write (.inl rfl) rfl, fun _ => ⟨.quiet rfl, ?_⟩⟩⟩
  refine fun _ => ⟨.sweep (.inr rfl), fun _ => ⟨.quiet rfl, fun _ => ?_⟩⟩
  exact ⟨.write (.inr (.inr rfl)) rfl, fun _ => .quiet rfl⟩

theorem revokeAllSessions_follows (device : Option DeviceInfoDTO) :
    (protocol env token password u db).Follows
      ((Call.revokeAllSessions u none device).program env) (fun _ _ => True)
      State.waiting := by
  simp only [Call.program, revokeAllSessions, audit.record]
  simp
  refine ⟨.quiet rfl, fun _ => ⟨.sweep (.inl rfl), fun _ => ⟨.quiet rfl, fun _ => ?_⟩⟩⟩
  exact .write (.inr (.inr rfl)) rfl

theorem resetPassword_follows {data : ResetPasswordDTO} (device : Option DeviceInfoDTO)
    (howner : ∀ token, db.tokenByHash (env.tokenHash data.token) .passwordReset = some token →
      token.userId = u) :
    (protocol env token password u db).Follows ((Call.resetPassword data device).program env)
      (fun _ _ => True) State.waiting := by
  simp only [Call.program, resetPassword, audit.record, monad_bind, follows_map, follows_bind]
  have hcharge : (ResetPasswordUseCase.checkRateLimit env (device.getD {})).Only
      fun op : Op => quiet op = true := only_chargeIpOrRefuse (fun _ => rfl) _ _ _
  refine follows_of_quiet hcharge fun out => ?_
  cases out with
  | error e => trivial
  | ok _ =>
    simp
    intro _
    refine ⟨.quiet rfl, fun found hfound => ⟨.quiet rfl, fun _ stored hstored _ => ?_⟩⟩
    have howned : stored.userId = u := howner stored (hfound stored hstored)
    refine ⟨.quiet rfl, fun _ hid user huser _ => ⟨.quiet rfl, fun _ => ⟨.quiet rfl, ?_⟩⟩⟩
    have huid : user.id = u := (hid user huser).trans howned
    rw [huid]
    refine fun _ => ⟨.write (.inl rfl) rfl, .write (.inr (.inl rfl)) rfl, ?_⟩
    refine ⟨.write (.inr (.inl rfl)) rfl, .sweep (.inr rfl), fun _ => ⟨.quiet rfl, fun _ => ?_⟩⟩
    exact ⟨.write (.inr (.inr rfl)) rfl, fun _ => .quiet rfl⟩

/-- A call that ends the sessions keeps to the protocol. -/
theorem sweeper_follows {c : Call} (hc : c.EndsSessions env db u) :
    (protocol env token password u db).Follows (c.program env) (fun _ _ => True)
      State.waiting := by
  cases c with
  | changePassword userId data device =>
    obtain rfl : userId = u := hc
    exact changePassword_follows data device
  | deleteUser userId device =>
    obtain rfl : userId = u := hc
    exact deleteUser_follows device
  | banUser actor userId reason device =>
    obtain rfl : userId = u := hc
    exact banUser_follows actor reason device
  | revokeAllSessions userId exceptJti device =>
    obtain ⟨rfl, rfl⟩ := hc
    exact revokeAllSessions_follows device
  | resetPassword data device => exact resetPassword_follows device hc
  | _ => exact absurd hc fun h => h

end Follows

/-! ## What a history tells -/

/-- The statement has answered with an account whose password the login accepts. -/
def accepted (env : Env) (password : String) : Entry (machine env) → Bool
  | ⟨_, .sql (.usersGetByEmail _), _, found⟩ => LoginUseCase.accepts env found password
  | _ => false

/-- What the history of a call says about its state. -/
structure Tracked (q : State) (log : List (Entry (machine env))) : Prop where
  live : q.live = true → (log.any fun e => e.op.commits) = false ∧
    (log.any fun e => e.op.closes) = false
  unread : q = .reading → (log.any fun e => e.op.looksUpEmail) = false
  swept : q = .swept → (log.any fun e => e.op.endsSessions) = true
  done : q.sweeps = true → (q = .done ↔ (log.any fun e => e.op.commits) = true)

/-- How a call with these properties may lead from one state to another. -/
structure Leads (q s : State) (commits closes looksUp ends : Bool) : Prop where
  live : s.live = true → q.live = true ∧ commits = false ∧ closes = false
  unread : s = .reading → q = .reading ∧ looksUp = false
  swept : s = .swept → q = .swept ∨ ends = true
  done : s.sweeps = true → q.sweeps = true ∧ (s = .done ↔ q = .done ∨ commits = true)

instance (q s : State) (commits closes looksUp ends : Bool) :
    Decidable (Leads q s commits closes looksUp ends) :=
  decidable_of_iff
    ((s.live = true → q.live = true ∧ commits = false ∧ closes = false) ∧
      (s = .reading → q = .reading ∧ looksUp = false) ∧
      (s = .swept → q = .swept ∨ ends = true) ∧
      (s.sweeps = true → q.sweeps = true ∧ (s = .done ↔ q = .done ∨ commits = true)))
    ⟨fun ⟨hlive, hunread, hswept, hdone⟩ => ⟨hlive, hunread, hswept, hdone⟩,
      fun h => ⟨h.live, h.unread, h.swept, h.done⟩⟩

/-- One call more. -/
theorem Tracked.step {q s : State} {log : List (Entry (machine env))} (h : Tracked q log)
    {e : Entry (machine env)} (hleads : Leads q s e.op.commits e.op.closes e.op.looksUpEmail
      e.op.endsSessions) : Tracked s (log ++ [e]) := by
  refine ⟨fun hs => ?_, fun hs => ?_, fun hs => ?_, fun hs => ?_⟩
  · obtain ⟨hlive, hcommits, hcloses⟩ := hleads.live hs
    simp [List.any_append, h.live hlive, hcommits, hcloses]
  · obtain ⟨hreading, hlooks⟩ := hleads.unread hs
    simp [List.any_append, h.unread hreading, hlooks]
  · rcases hleads.swept hs with hbefore | hnow
    · simp [List.any_append, h.swept hbefore]
    · simp [List.any_append, hnow]
  · obtain ⟨hsweeps, hiff⟩ := hleads.done hs
    simp [List.any_append, hiff, h.done hsweeps]

theorem Leads.quiet {op : Op} (h : quiet op = true) (q : State) :
    Leads q q op.commits op.closes op.looksUpEmail op.endsSessions := by
  have hkinds : op.commits = false ∧ op.closes = false ∧ op.looksUpEmail = false := by
    cases op with
    | sql s =>
      cases s with
      | usersGetByEmail => cases h
      | _ => exact ⟨rfl, rfl, rfl⟩
    | commit | close => cases h
    | _ => exact ⟨rfl, rfl, rfl⟩
  obtain ⟨hcommits, hcloses, hlooks⟩ := hkinds
  refine ⟨fun hq => ⟨hq, hcommits, hcloses⟩, fun hq => ⟨hq, hlooks⟩, .inl, fun hq => ⟨hq, ?_⟩⟩
  simp [hcommits]

/-- A statement on another table leads from the states before the end to the next one. -/
theorem next_of_aside (env : Env) {s : Statement} (hs : aside s = true) (password : String)
    (r : s.Res) :
    next env password .waiting (.sql s) r = .writing ∧
      next env password .writing (.sql s) r = .writing ∧
      next env password .swept (.sql s) r = .swept := by
  cases s with
  | usersUpdate | usersUpdatePassword | tokensMarkUsed | tokensInvalidateForUser | auditAdd =>
    exact ⟨rfl, rfl, rfl⟩
  | _ => cases hs

theorem kinds_of_aside {s : Statement} (hs : aside s = true) :
    (Op.sql s).commits = false ∧ (Op.sql s).closes = false ∧
      (Op.sql s).looksUpEmail = false ∧ (Op.sql s).endsSessions = false := by
  cases s with
  | usersUpdate | usersUpdatePassword | tokensMarkUsed | tokensInvalidateForUser | auditAdd =>
    exact ⟨rfl, rfl, rfl, rfl⟩
  | _ => cases hs

/-- Where the calls of the protocol lead. -/
theorem leads {q : State} {token : Token} {password : String} {op : Op}
    (hmay : May token u q op) (r : op.Res) :
    Leads q (next env password q op r) op.commits op.closes op.looksUpEmail
      op.endsSessions := by
  cases hmay with
  | quiet hquiet =>
    rw [next_of_quiet hquiet]
    exact .quiet hquiet q
  | close =>
    show Leads q (next env password q .close r) false true false false
    cases q with
    | _ => constructor <;> simp [next, State.live, State.sweeps]
  | write hq hs =>
    obtain ⟨hcommits, hcloses, hlooks, hends⟩ := kinds_of_aside hs
    obtain ⟨hwaiting, hwriting, hswept⟩ := next_of_aside env hs password r
    rw [hcommits, hcloses, hlooks, hends]
    rcases hq with rfl | rfl | rfl
    · rw [hwaiting]
      decide
    · rw [hwriting]
      decide
    · rw [hswept]
      decide
  | sweep hq =>
    rcases hq with rfl | rfl
    · show Leads .waiting .swept false false false true
      decide
    · show Leads .writing .swept false false false true
      decide
  | commit =>
    show Leads .swept .done true false false false
    decide
  | decode =>
    cases r with
    | ok payload =>
      show Leads .fresh .decoded false false false false
      decide
    | error e =>
      show Leads .fresh .fresh false false false false
      decide
  | claim hc =>
    show Leads .decoded .granting false false false false
    decide
  | @find email =>
    show Leads .reading (if LoginUseCase.accepts env r password then .granting else .refused)
      false false true false
    split <;> decide
  | issue =>
    show Leads .granting .granting false false false false
    decide
  | add =>
    cases r with
    | ok session =>
      show Leads .granting .added false false false false
      decide
    | error e =>
      show Leads .granting .granting false false false false
      decide
  | log hq =>
    rcases hq with rfl | rfl
    · show Leads .added .added false false false false
      decide
    · show Leads .refused .refused false false false false
      decide
  | grant =>
    show Leads .added .granted true false false false
    decide
  | refuse =>
    show Leads .refused .ended true false false false
    decide

/-! ## The invariant -/

/-- No session of the account is left. -/
def SignedOut (u : UserId) (db : Db) : Prop :=
  ∀ row ∈ db.sessions, row.userId = u → row.revokedAt ≠ none

instance (u : UserId) (db : Db) : Decidable (SignedOut u db) :=
  inferInstanceAs (Decidable (∀ row ∈ db.sessions, row.userId = u → row.revokedAt ≠ none))

/-- Every session that was in `db` is still there in `db'`, and those of the account are
revoked. -/
def SignedOutSince (u : UserId) (db db' : Db) : Prop :=
  Grows (fun row row' => row.Becomes row' ∧ (row.userId = u → row'.revokedAt ≠ none))
    db.sessions db'.sessions

theorem revokedAt_of_becomes {a b : AuthSession} (h : a.Becomes b) (hrevoked : a.revokedAt ≠ none) :
    b.revokedAt ≠ none := by
  rcases h with rfl | ⟨hlive, -⟩
  · exact hrevoked
  · exact absurd hlive hrevoked

theorem userId_of_becomes {a b : AuthSession} (h : a.Becomes b) : b.userId = a.userId := by
  rcases h with rfl | ⟨-, moment, rfl⟩
  · rfl
  · rfl

/-- Where no session of the account is left, those that were there are revoked. -/
theorem SignedOut.since {db db' : Db} (h : SignedOut u db') (hbecomes : db.Becomes db') :
    SignedOutSince u db db' := by
  intro place row hrow
  obtain ⟨row', hrow', hchange⟩ := hbecomes.sessions place row hrow
  refine ⟨row', hrow', hchange, fun huser => ?_⟩
  exact h row' (List.mem_of_getElem? hrow') ((userId_of_becomes hchange).trans huser)

/-- They stay so. -/
theorem SignedOutSince.becomes {db db' db'' : Db} (h : SignedOutSince u db db')
    (hbecomes : db'.Becomes db'') : SignedOutSince u db db'' := by
  intro place row hrow
  obtain ⟨row', hrow', hchange, hrevoked⟩ := h place row hrow
  obtain ⟨row'', hrow'', hchange'⟩ := hbecomes.sessions place row' hrow'
  exact ⟨row'', hrow'', hchange.trans hchange',
    fun huser => revokedAt_of_becomes hchange' (hrevoked huser)⟩

/-- The sessions with this `jti` belong to the account. -/
def OwnedBy (u : UserId) (jti : String) (db : Db) : Prop :=
  ∀ row ∈ db.sessions, row.jti = jti → row.userId = u

/-- What the transaction of the call that adds a session has done so far, in each state. -/
def Adds (token : Token) (u : UserId) (w : World) : State → Tx → Prop
  | .fresh, tx => tx.pending = [] ∧
      ∀ c, token = .jwt c → c ∈ w.signed → OwnedBy u c.jti w.db
  | .decoded, tx => tx.pending = [] ∧ ∀ c, token = .jwt c → OwnedBy u c.jti w.db
  | .refused, tx => ∀ write ∈ tx.pending, write.onSessions = false ∧ write.onTokens = false
  | .granting, tx | .added, tx => ∀ write ∈ tx.pending, write.onTokens = false
  | _, tx => tx.pending = []

/-- What the transaction of the call that ends the sessions has done so far. -/
def Ends (u : UserId) (db : Db) : State → Tx → Prop
  | .writing, tx => ∀ write ∈ tx.pending, write.onSessions = false
  | .swept, tx => ∃ ids moment,
      (∀ db : Db, (tx.view db).sessions = db.sessions.map (·.revokeIn ids moment)) ∧
        ∀ row ∈ db.sessions, row.userId = u → row.revokedAt = none →
          row.id ∈ ids ∧ RowKey.session row.id ∈ tx.locks
  | _, tx => tx.pending = []

/-- A session of the account is in the hands of a transaction with these locks. -/
def Held (u : UserId) (db : Db) (locks : List RowKey) : Prop :=
  ∃ row ∈ db.sessions, row.userId = u ∧ row.revokedAt = none ∧ RowKey.session row.id ∈ locks

/-- How far the two calls are, the one that adds a session first. -/
abbrev stateOf (token : Token) (password : String) (u : UserId) (db : Db) (first : State)
    (pool : Pool (machine env) 2 Failure Answer) : Fin 2 → State :=
  pool.states (protocol env token password u db) ![first, .waiting]

variable (token : Token) (password : String) (u : UserId) (db : Db) (first : State)
  (strict : Prop) in
/-- While the sessions are being ended nobody is about to add one.  Once they are, and if
`strict`, there is none left and none to come. -/
structure Inv (pool : Pool (machine env) 2 Failure Answer) : Prop where
  adder : (stateOf token password u db first pool 0).sweeps = false
  ender : (stateOf token password u db first pool 1).sweeps = true
  tracked : ∀ i, Tracked (stateOf token password u db first pool i) (pool.procs i).log
  adds : Adds token u pool.shared (stateOf token password u db first pool 0)
    (pool.procs 0).loc
  ends : Ends u pool.shared.db (stateOf token password u db first pool 1) (pool.procs 1).loc
  tokens : stateOf token password u db first pool 1 = .waiting →
    pool.shared.db.securityTokens = db.securityTokens
  exclusive : (stateOf token password u db first pool 0).inFlight = true →
    stateOf token password u db first pool 1 ≠ .swept
  held : (stateOf token password u db first pool 0).inFlight = true →
    Held u pool.shared.db (pool.procs 0).loc.locks ∨
      (pool.procs 0).log.any (accepted env password) = true
  barred : strict → stateOf token password u db first pool 0 ≠ .reading
  after : strict → stateOf token password u db first pool 1 = .done →
    (stateOf token password u db first pool 0).inFlight = false ∧ SignedOut u pool.shared.db

/-- The one call or the other. -/
theorem fin_two (i : Fin 2) : i = 0 ∨ i = 1 := by omega

theorem Adds.congr {token : Token} {w w' : World} {q : State} {tx tx' : Tx}
    (h : Adds token u w q tx) (hdb : w'.db = w.db) (hsigned : w'.signed = w.signed)
    (hpending : tx'.pending = tx.pending) : Adds token u w' q tx' := by
  cases q with
  | fresh | decoded | refused | granting | added =>
    simp only [Adds, hdb, hsigned, hpending] at h ⊢
    exact h
  | _ => exact hpending.trans h

theorem Ends.congr {db db' : Db} {q : State} {tx tx' : Tx} (h : Ends u db q tx)
    (hsessions : db'.sessions = db.sessions) (hpending : tx'.pending = tx.pending)
    (hlocks : tx'.locks = tx.locks) : Ends u db' q tx' := by
  have hview (d : Db) : tx'.view d = tx.view d := by
    unfold Tx.view
    rw [hpending]
  cases q with
  | writing | swept =>
    simp only [Ends, hview, hsessions, hpending, hlocks] at h ⊢
    exact h
  | _ => exact hpending.trans h

/-- Only where the sessions have been ended does the assertion speak of the database. -/
theorem Ends.of_ne_swept {db db' : Db} {q : State} {tx : Tx} (h : Ends u db q tx)
    (hq : q ≠ .swept) : Ends u db' q tx := by
  cases q with
  | swept => exact absurd rfl hq
  | _ => exact h

/-- Nothing changes for the call that adds a session if the sessions keep their `jti` and
their account. -/
theorem Adds.of_kept {token : Token} {w w' : World} {q : State} {tx : Tx}
    (h : Adds token u w q tx) (hsigned : w'.signed = w.signed)
    (hkept : ∀ row ∈ w'.db.sessions, ∃ old ∈ w.db.sessions,
      row.jti = old.jti ∧ row.userId = old.userId) : Adds token u w' q tx := by
  have howned {jti : String} (hjti : OwnedBy u jti w.db) : OwnedBy u jti w'.db := by
    intro row hrow he
    obtain ⟨old, hold, hj, hu⟩ := hkept row hrow
    rw [hu]
    exact hjti old hold (hj.symm.trans he)
  cases q with
  | fresh => exact ⟨h.1, fun c hc hs => howned (h.2 c hc (hsigned ▸ hs))⟩
  | decoded => exact ⟨h.1, fun c hc => howned (h.2 c hc)⟩
  | _ => exact h

/-- What has not written to the sessions sees them as they are. -/
theorem view_sessions {tx : Tx} (h : ∀ write ∈ tx.pending, write.onSessions = false)
    (db : Db) : (tx.view db).sessions = db.sessions :=
  Tx.view_preserves (P := fun d => d.sessions = db.sessions)
    (fun write hwrite d hd => (write.keeps_sessions (h write hwrite) d).trans hd) rfl

theorem view_tokens {tx : Tx} (h : ∀ write ∈ tx.pending, write.onTokens = false)
    (db : Db) : (tx.view db).securityTokens = db.securityTokens :=
  Tx.view_preserves (P := fun d => d.securityTokens = db.securityTokens)
    (fun write hwrite d hd => (write.keeps_tokens (h write hwrite) d).trans hd) rfl

section Step

variable {token : Token} {password : String} {db : Db} {first : State} {strict : Prop}
  {pool : Pool (machine env) 2 Failure Answer} {op : Op}
  {k : op.Res → Program sig Failure Answer}

theorem Inv.wait (h : Inv token password u db first strict pool) (i : Fin 2) (op : Op) :
    Inv token password u db first strict (pool.wait i op) := by
  have hstates : stateOf token password u db first (pool.wait i op) =
      stateOf token password u db first pool :=
    Pool.states_wait (P := protocol env token password u db) i op
  refine ⟨?_, ?_, fun j => ?_, ?_, ?_, ?_, ?_, ?_, ?_, ?_⟩
  · rw [hstates]
    exact h.adder
  · rw [hstates]
    exact h.ender
  · rw [hstates, Pool.wait_log]
    exact h.tracked j
  · rw [hstates, Pool.wait_loc]
    exact h.adds
  · rw [hstates, Pool.wait_loc]
    exact h.ends
  · rw [hstates]
    exact h.tokens
  · rw [hstates]
    exact h.exclusive
  · rw [hstates, Pool.wait_loc, Pool.wait_log]
    exact h.held
  · rw [hstates]
    exact h.barred
  · rw [hstates]
    exact h.after

/-- The states after a step. -/
theorem stateOf_advance_self (i : Fin 2) :
    stateOf token password u db first (pool.advance i t op k) i =
      next env password (stateOf token password u db first pool i) op
        (pool.effect i t op).2 := by
  unfold stateOf
  rw [Pool.states_advance, Function.update_self]

theorem stateOf_advance_of_ne {i j : Fin 2} (hj : j ≠ i) :
    stateOf token password u db first (pool.advance i t op k) j =
      stateOf token password u db first pool j := by
  unfold stateOf
  rw [Pool.states_advance, Function.update_of_ne hj]

theorem Inv.tracked_advance (h : Inv token password u db first strict pool) {i : Fin 2}
    (hmay : May token u (stateOf token password u db first pool i) op) (j : Fin 2) :
    Tracked (stateOf token password u db first (pool.advance i t op k) j)
      ((pool.advance i t op k).procs j).log := by
  by_cases hj : j = i
  · subst hj
    rw [stateOf_advance_self, Pool.advance_procs_self]
    exact (h.tracked j).step (leads hmay _)
  · rw [stateOf_advance_of_ne hj, Pool.advance_procs_of_ne pool t op k hj]
    exact h.tracked j

/-- A step of the call that adds a session, when it is no commit. -/
theorem Inv.adding (h : Inv token password u db first strict pool)
    (hmay : May token u (stateOf token password u db first pool 0) op) (hop : op ≠ .commit)
    {q : State} (hq : next env password (stateOf token password u db first pool 0) op
      (pool.effect 0 t op).2 = q)
    (hside : q.sweeps = false)
    (hadds : Adds token u (pool.effect 0 t op).1.1 q (pool.effect 0 t op).1.2)
    (hexclusive : q.inFlight = true → stateOf token password u db first pool 1 ≠ .swept)
    (hheld : q.inFlight = true →
      Held u pool.shared.db (pool.effect 0 t op).1.2.locks ∨
        List.any ((pool.procs 0).log ++ [⟨t, op, pool.matched 0 op, (pool.effect 0 t op).2⟩])
          (accepted env password) = true)
    (hbarred : strict → q ≠ .reading)
    (hafter : strict → stateOf token password u db first pool 1 = .done →
      q.inFlight = false) :
    Inv token password u db first strict (pool.advance 0 t op k) := by
  have hself : stateOf token password u db first (pool.advance 0 t op k) 0 = q :=
    (stateOf_advance_self 0).trans hq
  have hother : stateOf token password u db first (pool.advance 0 t op k) 1 =
      stateOf token password u db first pool 1 := stateOf_advance_of_ne (by decide)
  have hproc : (pool.advance 0 t op k).procs 1 = pool.procs 1 :=
    Pool.advance_procs_of_ne pool t op k (by decide)
  have hdb : (pool.advance 0 t op k).shared.db = pool.shared.db := perform_db hop
  refine ⟨?_, ?_, h.tracked_advance hmay, ?_, ?_, ?_, ?_, ?_, ?_, ?_⟩
  · rw [hself]
    exact hside
  · rw [hother]
    exact h.ender
  · rw [hself, Pool.advance_procs_self]
    exact hadds
  · rw [hother, hproc, hdb]
    exact h.ends
  · rw [hother, hdb]
    exact h.tokens
  · rw [hself, hother]
    exact hexclusive
  · rw [hself, hdb, Pool.advance_procs_self]
    exact hheld
  · rw [hself]
    exact hbarred
  · rw [hself, hother, hdb]
    exact fun hs hdone => ⟨hafter hs hdone, (h.after hs hdone).2⟩

/-- A step of the call that ends the sessions, when it is no commit. -/
theorem Inv.ending (h : Inv token password u db first strict pool)
    (hmay : May token u (stateOf token password u db first pool 1) op) (hop : op ≠ .commit)
    (hsigned : (pool.effect 1 t op).1.1.signed = pool.shared.signed) {q : State}
    (hq : next env password (stateOf token password u db first pool 1) op
      (pool.effect 1 t op).2 = q)
    (hside : q.sweeps = true)
    (hends : Ends u pool.shared.db q (pool.effect 1 t op).1.2)
    (htokens : q = .waiting → stateOf token password u db first pool 1 = .waiting)
    (hexclusive : (stateOf token password u db first pool 0).inFlight = true → q ≠ .swept)
    (hafter : q = .done → stateOf token password u db first pool 1 = .done) :
    Inv token password u db first strict (pool.advance 1 t op k) := by
  have hself : stateOf token password u db first (pool.advance 1 t op k) 1 = q :=
    (stateOf_advance_self 1).trans hq
  have hother : stateOf token password u db first (pool.advance 1 t op k) 0 =
      stateOf token password u db first pool 0 := stateOf_advance_of_ne (by decide)
  have hproc : (pool.advance 1 t op k).procs 0 = pool.procs 0 :=
    Pool.advance_procs_of_ne pool t op k (by decide)
  have hdb : (pool.advance 1 t op k).shared.db = pool.shared.db := perform_db hop
  refine ⟨?_, ?_, h.tracked_advance hmay, ?_, ?_, ?_, ?_, ?_, ?_, ?_⟩
  · rw [hother]
    exact h.adder
  · rw [hself]
    exact hside
  · rw [hother, hproc]
    exact h.adds.congr hdb hsigned rfl
  · rw [hself, hdb, Pool.advance_procs_self]
    exact hends
  · rw [hself, hdb]
    exact fun hw => h.tokens (htokens hw)
  · rw [hself, hother]
    exact hexclusive
  · rw [hother, hproc, hdb]
    exact h.held
  · rw [hother]
    exact h.barred
  · rw [hself, hother, hdb]
    exact fun hs hdone => h.after hs (hafter hdone)

/-- The commit of a login that is refused. -/
theorem Inv.refuse (h : Inv token password u db first strict pool)
    (hstate : stateOf token password u db first pool 0 = .refused)
    {k : Unit → Program sig Failure Answer} :
    Inv token password u db first strict (pool.advance 0 t .commit k) := by
  have hself : stateOf token password u db first (pool.advance 0 t .commit k) 0 = .ended := by
    rw [stateOf_advance_self, hstate]
    rfl
  have hother : stateOf token password u db first (pool.advance 0 t .commit k) 1 =
      stateOf token password u db first pool 1 := stateOf_advance_of_ne (by decide)
  have hproc : (pool.advance 0 t .commit k).procs 1 = pool.procs 1 :=
    Pool.advance_procs_of_ne pool t Op.commit k (by decide)
  have hadds := h.adds
  rw [hstate] at hadds
  have hsessions : (pool.advance 0 t .commit k).shared.db.sessions =
      pool.shared.db.sessions := view_sessions (fun write hw => (hadds write hw).1) _
  have htokens : (pool.advance 0 t .commit k).shared.db.securityTokens =
      pool.shared.db.securityTokens := view_tokens (fun write hw => (hadds write hw).2) _
  refine ⟨?_, ?_, h.tracked_advance (by rw [hstate]; exact .refuse), ?_, ?_, ?_, ?_, ?_, ?_, ?_⟩
  · rw [hself]
    rfl
  · rw [hother]
    exact h.ender
  · rw [hself, Pool.advance_procs_self]
    rfl
  · rw [hother, hproc]
    exact h.ends.congr hsessions rfl rfl
  · rw [hother, htokens]
    exact h.tokens
  · rw [hself]
    rintro ⟨⟩
  · rw [hself]
    rintro ⟨⟩
  · rw [hself]
    exact fun _ => by decide
  · rw [hself, hother]
    refine fun hs hdone => ⟨rfl, ?_⟩
    unfold SignedOut
    rw [hsessions]
    exact (h.after hs hdone).2

/-- The commit of a new session. -/
theorem Inv.grant (h : Inv token password u db first strict pool)
    (hstate : stateOf token password u db first pool 0 = .added)
    {k : Unit → Program sig Failure Answer} :
    Inv token password u db first strict (pool.advance 0 t .commit k) := by
  have hself : stateOf token password u db first (pool.advance 0 t .commit k) 0 = .granted := by
    rw [stateOf_advance_self, hstate]
    rfl
  have hother : stateOf token password u db first (pool.advance 0 t .commit k) 1 =
      stateOf token password u db first pool 1 := stateOf_advance_of_ne (by decide)
  have hproc : (pool.advance 0 t .commit k).procs 1 = pool.procs 1 :=
    Pool.advance_procs_of_ne pool t Op.commit k (by decide)
  have hflight : (stateOf token password u db first pool 0).inFlight = true := by
    rw [hstate]
    rfl
  have hadds := h.adds
  rw [hstate] at hadds
  have htokens : (pool.advance 0 t .commit k).shared.db.securityTokens =
      pool.shared.db.securityTokens := view_tokens hadds _
  refine ⟨?_, ?_, h.tracked_advance (by rw [hstate]; exact .grant), ?_, ?_, ?_, ?_, ?_, ?_, ?_⟩
  · rw [hself]
    rfl
  · rw [hother]
    exact h.ender
  · rw [hself, Pool.advance_procs_self]
    rfl
  · rw [hother, hproc]
    exact h.ends.of_ne_swept (h.exclusive hflight)
  · rw [hother, htokens]
    exact h.tokens
  · rw [hself]
    rintro ⟨⟩
  · rw [hself]
    rintro ⟨⟩
  · rw [hself]
    exact fun _ => by decide
  · rw [hother]
    intro hs hdone
    have hnone := (h.after hs hdone).1
    rw [hflight] at hnone
    cases hnone

/-- When the call that ends the sessions commits, none is left. -/
theorem Inv.commit_signedOut (h : Inv token password u db first strict pool)
    (hstate : stateOf token password u db first pool 1 = .swept)
    {k : Unit → Program sig Failure Answer} :
    SignedOut u (pool.advance 1 t .commit k).shared.db := by
  have hends := h.ends
  rw [hstate] at hends
  obtain ⟨ids, moment, hview, hall⟩ := hends
  have hsessions : (pool.advance 1 t .commit k).shared.db.sessions =
      pool.shared.db.sessions.map (·.revokeIn ids moment) := hview _
  intro row hrow huser hnone
  rw [hsessions] at hrow
  obtain ⟨old, hold, rfl⟩ := List.mem_map.1 hrow
  rw [AuthSession.revokeIn_userId] at huser
  obtain ⟨-, hlive⟩ := old.revokedAt_of_revokeIn ids moment hnone
  have hin : old.id ∈ ids ∧ old.revokedAt = none := ⟨(hall old hold huser hlive).1, hlive⟩
  unfold AuthSession.revokeIn at hnone
  rw [if_pos hin] at hnone
  cases hnone

/-- The commit of the call that ends the sessions. -/
theorem Inv.commit (h : Inv token password u db first strict pool)
    (hstate : stateOf token password u db first pool 1 = .swept)
    {k : Unit → Program sig Failure Answer} :
    Inv token password u db first strict (pool.advance 1 t .commit k) := by
  have hself : stateOf token password u db first (pool.advance 1 t .commit k) 1 = .done := by
    rw [stateOf_advance_self, hstate]
    rfl
  have hother : stateOf token password u db first (pool.advance 1 t .commit k) 0 =
      stateOf token password u db first pool 0 := stateOf_advance_of_ne (by decide)
  have hproc : (pool.advance 1 t .commit k).procs 0 = pool.procs 0 :=
    Pool.advance_procs_of_ne pool t Op.commit k (by decide)
  have hidle : (stateOf token password u db first pool 0).inFlight = false := by
    rw [Bool.eq_false_iff]
    exact fun hflight => h.exclusive hflight hstate
  have hends := h.ends
  rw [hstate] at hends
  obtain ⟨ids, moment, hview, -⟩ := hends
  have hsessions : (pool.advance 1 t .commit k).shared.db.sessions =
      pool.shared.db.sessions.map (·.revokeIn ids moment) := hview _
  refine ⟨?_, ?_, h.tracked_advance (by rw [hstate]; exact .commit), ?_, ?_, ?_, ?_, ?_, ?_, ?_⟩
  · rw [hother]
    exact h.adder
  · rw [hself]
    rfl
  · rw [hother, hproc]
    refine h.adds.of_kept rfl fun row hrow => ?_
    rw [hsessions] at hrow
    obtain ⟨old, hold, rfl⟩ := List.mem_map.1 hrow
    exact ⟨old, hold, old.revokeIn_jti ids moment, old.revokeIn_userId ids moment⟩
  · rw [hself, Pool.advance_procs_self]
    rfl
  · rw [hself]
    rintro ⟨⟩
  · rw [hself]
    exact fun _ => by decide
  · rw [hother, hidle]
    rintro ⟨⟩
  · rw [hother]
    exact h.barred
  · intro _ _
    rw [hother]
    exact ⟨hidle, h.commit_signedOut hstate⟩

/-- Call `i` is a login that has accepted the password, and has neither committed nor given
up. -/
def aboutToSignIn (password : String) (i : Fin 2) (pool : Pool (machine env) 2 Failure Answer) :
    Bool :=
  (pool.procs i).log.any (accepted env password) && !did Op.commits pool i &&
    !did Op.closes pool i

/-- A statement that is performed keeps the two calls apart, of which `adder` adds a session
and `ender` ends them: the session that a refresh revokes is not revoked yet, the end of all
sessions leaves none of those out that are committed by now and does not come while a login
is about to sign in, and a login does not accept the password after the sessions are ended
and before that is committed. -/
def Apart (password : String) (adder ender : Fin 2)
    (pool : Pool (machine env) 2 Failure Answer) (i : Fin 2) (op : Op) : Prop :=
  (op.revokesOne = true → pool.matched i op ≠ []) ∧
    (op.endsSessions = true →
      (∀ key ∈ targets op pool.shared (pool.procs i).loc, key ∈ pool.snapshot i op) ∧
        aboutToSignIn password adder pool = false) ∧
    ∀ email ∈ op.email?,
      LoginUseCase.accepts env (pool.shared.db.userByEmail email) password = true →
        did Op.endsSessions pool ender = true → did Op.commits pool ender = true

instance (password : String) (adder ender : Fin 2)
    (pool : Pool (machine env) 2 Failure Answer) (i : Fin 2) (op : Op) :
    Decidable (Apart password adder ender pool i op) := by
  unfold Apart
  infer_instance

/-- The next statement of call `i` keeps the two calls apart, if it does not have to wait. -/
def KeepsApart (password : String) (adder ender : Fin 2)
    (pool : Pool (machine env) 2 Failure Answer) (i : Fin 2) (_t : Time) : Prop :=
  ∀ op ∈ (pool.procs i).prog.nextOp?, ¬ pool.Blocked i (pool.snapshot i op) →
    Apart password adder ender pool i op

instance (password : String) (adder ender : Fin 2)
    (pool : Pool (machine env) 2 Failure Answer) (i : Fin 2) (t : Time) :
    Decidable (KeepsApart password adder ender pool i t) := by
  unfold KeepsApart
  infer_instance

instance (password : String) (adder ender : Fin 2) (sched : Pool.Schedule (machine env) 2)
    (pool : Pool (machine env) 2 Failure Answer) :
    Decidable (Pool.Along (KeepsApart password adder ender) sched pool) :=
  Pool.decidableAlong (fun _ _ _ => inferInstance) sched pool

/-- A quiet operation signs nothing. -/
theorem signed_of_quiet {op : Op} (h : quiet op = true) (rows : List RowKey) (w : World)
    (tx : Tx) : (perform env t op rows w tx).1.1.signed = w.signed := by
  cases op with
  | commit | close | issue => cases h
  | _ => rfl

/-- What holds of the writes of a transaction and of those of the statement, holds of all
of them afterwards. -/
theorem forall_pending {P : Write → Prop} {rows : List RowKey} {db : Db} {s : Statement}
    {tx tx' : Tx} (hextends : tx.Extends rows db s tx') (h : ∀ write ∈ tx.pending, P write)
    (hnew : ∀ write, s.Writes rows write → P write) : ∀ write ∈ tx'.pending, P write := by
  rcases hextends with ⟨hpending, -⟩ | ⟨write, hwrites, -, hpending, -⟩
  · rw [hpending]
    exact h
  · rw [hpending]
    intro other hother
    rcases List.mem_append.1 hother with hold | hlast
    · exact h other hold
    · rw [List.mem_singleton.1 hlast]
      exact hnew write hwrites

/-- Locks are kept. -/
theorem mem_locks {rows : List RowKey} {db : Db} {s : Statement} {tx tx' : Tx}
    (hextends : tx.Extends rows db s tx') {key : RowKey} (h : key ∈ tx.locks) :
    key ∈ tx'.locks := by
  rcases hextends with ⟨-, hlocks⟩ | ⟨write, -, -, -, hlocks⟩
  · rw [hlocks]
    exact h
  · rw [hlocks]
    exact List.mem_append_left _ h

/-- What is in the hands of a call stays there. -/
theorem Inv.held_kept (h : Inv token password u db first strict pool) {tx : Tx}
    (hflight : (stateOf token password u db first pool 0).inFlight = true)
    (hlocks : ∀ key ∈ (pool.procs 0).loc.locks, key ∈ tx.locks) (e : Entry (machine env)) :
    Held u pool.shared.db tx.locks ∨
      List.any ((pool.procs 0).log ++ [e]) (accepted env password) = true := by
  rcases h.held hflight with ⟨row, hrow, huser, hlive, hlock⟩ | haccepted
  · exact .inl ⟨row, hrow, huser, hlive, hlocks _ hlock⟩
  · exact .inr (by simp [List.any_append, haccepted])

/-- The sessions of the account are among the rows that their end is going to revoke. -/
theorem mem_targets_sweep (moment : Time) {tx : Tx}
    (hsessions : (tx.view w.db).sessions = w.db.sessions) {row : AuthSession}
    (hrow : row ∈ w.db.sessions) (huser : row.userId = u) (hlive : row.revokedAt = none) :
    RowKey.session row.id ∈ targets (.sql (.sessionsRevokeAllForUser u moment none)) w tx := by
  show RowKey.session row.id ∈ Statement.sessionKeys (tx.view w.db) _
  unfold Statement.sessionKeys
  rw [hsessions]
  refine List.mem_map_of_mem (List.mem_map_of_mem (List.mem_filter.2 ⟨hrow, ?_⟩))
  simp [Statement.revokeAllWhere, huser, hlive]

/-- A refresh gets hold of its session. -/
theorem Inv.claim (h : Inv token password u db first strict pool)
    (hstate : stateOf token password u db first pool 0 = .decoded) {c : Claims}
    (htoken : token = .jwt c) {moment : Time}
    {k : Unit → Program sig Failure Answer}
    (hfree : ¬ pool.Blocked 0 (pool.snapshot 0 (.sql (.sessionsRevoke c.jti moment))))
    (hmatched : pool.matched 0 (.sql (.sessionsRevoke c.jti moment)) ≠ []) :
    Inv token password u db first strict
      (pool.advance 0 t (.sql (.sessionsRevoke c.jti moment)) k) := by
  have hadds := h.adds
  rw [hstate] at hadds
  obtain ⟨hpending, howned⟩ := hadds
  have hextends := effect_extends pool 0 t (.sessionsRevoke c.jti moment)
  obtain ⟨key, hkey⟩ := List.exists_mem_of_ne_nil _ hmatched
  obtain ⟨hsnapshot, htarget⟩ := Pool.mem_matched.1 hkey
  obtain ⟨row, hrow, hjti, hlive, rfl⟩ := RefreshOnce.mem_targets hpending moment htarget
  have huser : row.userId = u := howned c htoken row hrow hjti
  have hfirst : stateOf token password u db first pool 1 ≠ .swept := by
    intro hswept
    have hends := h.ends
    rw [hswept] at hends
    obtain ⟨_, _, -, hall⟩ := hends
    exact hfree ⟨_, hsnapshot, 1, by decide, (hall row hrow huser hlive).2⟩
  refine h.adding (q := .granting) (by rw [hstate]; exact .claim htoken) (by rintro ⟨⟩)
    (by rw [hstate]; rfl) rfl ?_ (fun _ => hfirst) (fun _ => .inl ?_) (fun _ => by decide) ?_
  · refine forall_pending hextends (by rw [hpending]; rintro _ ⟨⟩) ?_
    rintro _ ⟨⟩
    rfl
  · exact ⟨row, hrow, huser, hlive, List.mem_append_right _ hkey⟩
  · intro hs hdone
    exact absurd hlive ((h.after hs hdone).2 row hrow huser)

/-- A login looks the account up. -/
theorem Inv.find (h : Inv token password u db first strict pool)
    (hstate : stateOf token password u db first pool 0 = .reading) {email : String}
    {k : Option User → Program sig Failure Answer}
    (hlate : LoginUseCase.accepts env (pool.shared.db.userByEmail email) password = true →
      did Op.endsSessions pool 1 = true → did Op.commits pool 1 = true) :
    Inv token password u db first strict
      (pool.advance 0 t (.sql (.usersGetByEmail email)) k) := by
  have hpending := h.adds
  rw [hstate] at hpending
  have hanswer : (pool.effect 0 t (.sql (.usersGetByEmail email))).2 =
      pool.shared.db.userByEmail email := by
    show (Tx.view (pool.procs 0).loc pool.shared.db).userByEmail email = _
    rw [Tx.view_of_pending_nil hpending]
  have hmay : May token u (stateOf token password u db first pool 0)
      (.sql (.usersGetByEmail email)) := by
    rw [hstate]
    exact .find
  have hnot : ¬ strict := fun hs => h.barred hs hstate
  cases haccepts : LoginUseCase.accepts env (pool.shared.db.userByEmail email) password with
  | true =>
    refine h.adding (q := .granting) hmay (by rintro ⟨⟩) ?_ rfl ?_ ?_ (fun _ => .inr ?_)
      (fun hs => absurd hs hnot) fun hs => absurd hs hnot
    · rw [hstate, hanswer]
      exact if_pos haccepts
    · intro write hwrite
      have hnone : write ∈ (pool.procs 0).loc.pending := hwrite
      rw [show (pool.procs 0).loc.pending = [] from hpending] at hnone
      cases hnone
    · intro _ hswept
      have hends := (h.tracked 1).swept hswept
      have hdone := ((h.tracked 1).done h.ender).2 (hlate haccepts hends)
      rw [hswept] at hdone
      cases hdone
    · rw [List.any_append, hanswer]
      simp [accepted, haccepts]
  | false =>
    refine h.adding (q := .refused) hmay (by rintro ⟨⟩) ?_ rfl ?_ (by rintro ⟨⟩)
      (by rintro ⟨⟩) (fun hs => absurd hs hnot) fun hs => absurd hs hnot
    · rw [hstate, hanswer]
      exact if_neg (by rw [haccepts]; decide)
    · intro write hwrite
      have hnone : write ∈ (pool.procs 0).loc.pending := hwrite
      rw [show (pool.procs 0).loc.pending = [] from hpending] at hnone
      cases hnone

/-- The sessions are ended. -/
theorem Inv.sweep (h : Inv token password u db first strict pool)
    (hstate : stateOf token password u db first pool 1 = .waiting ∨
      stateOf token password u db first pool 1 = .writing) {moment : Time}
    {k : Nat → Program sig Failure Answer}
    (hfree : ¬ pool.Blocked 1 (pool.snapshot 1 (.sql (.sessionsRevokeAllForUser u moment none))))
    (hall : ∀ key ∈ targets (.sql (.sessionsRevokeAllForUser u moment none)) pool.shared
      (pool.procs 1).loc, key ∈ pool.snapshot 1 (.sql (.sessionsRevokeAllForUser u moment none)))
    (hlogin : aboutToSignIn password 0 pool = false) :
    Inv token password u db first strict
      (pool.advance 1 t (.sql (.sessionsRevokeAllForUser u moment none)) k) := by
  have hkeeps : ∀ write ∈ (pool.procs 1).loc.pending, write.onSessions = false := by
    have hends := h.ends
    rcases hstate with hs | hs
    · rw [hs] at hends
      rw [show (pool.procs 1).loc.pending = [] from hends]
      rintro _ ⟨⟩
    · rw [hs] at hends
      exact hends
  have hsame : (Tx.view (pool.procs 1).loc pool.shared.db).sessions =
      pool.shared.db.sessions := view_sessions hkeeps _
  -- nobody is about to add a session
  have hidle : (stateOf token password u db first pool 0).inFlight = true → False := by
    intro hflight
    rcases h.held hflight with ⟨row, hrow, huser, hlive, hlock⟩ | haccepted
    · have htarget := mem_targets_sweep moment hsame hrow huser hlive
      exact hfree ⟨_, hall _ htarget, 0, by decide, hlock⟩
    · have hlive : (stateOf token password u db first pool 0).live = true := by
        cases hq : stateOf token password u db first pool 0 with
        | granting | added => rfl
        | _ =>
          rw [hq] at hflight
          cases hflight
      obtain ⟨hcommits, hcloses⟩ := (h.tracked 0).live hlive
      simp [aboutToSignIn, did, haccepted, hcommits, hcloses] at hlogin
  refine h.ending (q := .swept) ?_ (by rintro ⟨⟩) rfl ?_ rfl ?_ (by rintro ⟨⟩)
    (fun hflight => absurd hflight hidle) (by rintro ⟨⟩)
  · exact .sweep hstate
  · rcases hstate with hs | hs
    · rw [hs]
      rfl
    · rw [hs]
      rfl
  · have heffect : (pool.effect 1 t (.sql (.sessionsRevokeAllForUser u moment none))).1.2 =
        (Tx.begin_ (pool.procs 1).loc t).record
          (.revokeSessions ((pool.matched 1
            (.sql (.sessionsRevokeAllForUser u moment none))).filterMap RowKey.sessionId?) moment)
          (pool.matched 1 (.sql (.sessionsRevokeAllForUser u moment none))) := rfl
    have hmatched {row : AuthSession} (hrow : row ∈ pool.shared.db.sessions)
        (huser : row.userId = u) (hlive : row.revokedAt = none) :
        RowKey.session row.id ∈
          pool.matched 1 (.sql (.sessionsRevokeAllForUser u moment none)) := by
      have htarget := mem_targets_sweep moment hsame hrow huser hlive
      exact Pool.mem_matched.2 ⟨hall _ htarget, htarget⟩
    rw [heffect]
    generalize pool.matched 1 (.sql (.sessionsRevokeAllForUser u moment none)) = rows at hmatched
    refine ⟨rows.filterMap RowKey.sessionId?, moment, fun d => ?_, fun row hrow huser hlive => ?_⟩
    · rw [Tx.view_record, Tx.begin_view]
      exact congrArg (List.map _) (view_sessions hkeeps d)
    · have hkey := hmatched hrow huser hlive
      exact ⟨RowKey.mem_sessionId?.2 hkey, List.mem_append_right _ hkey⟩

/-- A step of the call that adds a session, when it leads nowhere. -/
theorem Inv.staying (h : Inv token password u db first strict pool)
    (hmay : May token u (stateOf token password u db first pool 0) op) (hop : op ≠ .commit)
    (hq : next env password (stateOf token password u db first pool 0) op
      (pool.effect 0 t op).2 = stateOf token password u db first pool 0)
    (hadds : Adds token u (pool.effect 0 t op).1.1
      (stateOf token password u db first pool 0) (pool.effect 0 t op).1.2)
    (hlocks : ∀ key ∈ (pool.procs 0).loc.locks, key ∈ (pool.effect 0 t op).1.2.locks) :
    Inv token password u db first strict (pool.advance 0 t op k) :=
  h.adding hmay hop hq h.adder hadds h.exclusive (fun hflight => h.held_kept hflight hlocks _)
    h.barred fun hs hdone => (h.after hs hdone).1

/-- A step of the call that adds a session keeps the invariant. -/
theorem Inv.advance_adder (h : Inv token password u db first strict pool)
    (hapart : Apart password 0 1 pool 0 op) (hfree : ¬ pool.Blocked 0 (pool.snapshot 0 op))
    (hmay : May token u (stateOf token password u db first pool 0) op) :
    Inv token password u db first strict (pool.advance 0 t op k) := by
  have hside := h.adder
  have hadds := h.adds
  have hmay' := hmay
  generalize hq : stateOf token password u db first pool 0 = q at hmay' hside hadds
  cases hmay' with
  | quiet hquiet =>
    obtain ⟨hpending, hlocks⟩ := effect_reads pool 0 t (reads_of_quiet hquiet)
    have hop : op ≠ .commit := by
      rintro rfl
      cases hquiet
    refine h.staying hmay hop (next_of_quiet hquiet _ _) ?_ fun key hkey => ?_
    · exact h.adds.congr (effect_db pool 0 t hop) (signed_of_quiet hquiet _ _ _) hpending
    · rw [hlocks]
      exact hkey
  | close =>
    have hnext : next env password q .close (pool.effect 0 t .close).2 = .granted ∨
        next env password q .close (pool.effect 0 t .close).2 = .ended := by
      cases q with
      | granted => exact .inl rfl
      | fresh | decoded | reading | refused | granting | added | ended => exact .inr rfl
      | _ => cases hside
    rcases hnext with hnext | hnext
    · exact h.adding (q := .granted) hmay (by rintro ⟨⟩) (by rw [hq]; exact hnext) rfl rfl
        (by rintro ⟨⟩) (by rintro ⟨⟩) (fun _ => by decide) fun _ _ => rfl
    · exact h.adding (q := .ended) hmay (by rintro ⟨⟩) (by rw [hq]; exact hnext) rfl rfl
        (by rintro ⟨⟩) (by rintro ⟨⟩) (fun _ => by decide) fun _ _ => rfl
  | decode =>
    obtain ⟨hpending, howned⟩ := hadds
    cases hanswer : (pool.effect 0 t (.decode token)).2 with
    | ok payload =>
      have hdecode : JwtTokenService.decode pool.shared.signed t token = .ok payload := hanswer
      obtain ⟨c, hc, hsigned, -, -⟩ := decode_eq_ok.1 hdecode
      refine h.adding (q := .decoded) hmay (by rintro ⟨⟩) (by rw [hq, hanswer]; rfl) rfl ?_
        (by rintro ⟨⟩) (by rintro ⟨⟩) (fun _ => by decide) fun _ _ => rfl
      refine ⟨hpending, fun c' hc' => ?_⟩
      rw [hc] at hc'
      cases hc'
      exact howned c hc hsigned
    | error e =>
      refine h.staying hmay (by rintro ⟨⟩) (by rw [hq, hanswer]; rfl) ?_ fun key hkey => hkey
      exact h.adds
  | claim hc => exact h.claim hq hc hfree (hapart.1 rfl)
  | find => exact h.find hq (hapart.2.2 _ rfl)
  | issue =>
    refine h.staying hmay (by rintro ⟨⟩) (by rw [hq]; rfl) ?_ fun key hkey => hkey
    rw [hq]
    exact hadds
  | @add session =>
    have hextends := effect_extends pool 0 t (.sessionsAdd session)
    have hpending : ∀ write ∈ (pool.effect 0 t (.sql (.sessionsAdd session))).1.2.pending,
        write.onTokens = false := by
      refine forall_pending hextends hadds ?_
      rintro _ ⟨⟩
      rfl
    cases hanswer : (pool.effect 0 t (.sql (.sessionsAdd session))).2 with
    | ok stored =>
      have hflight : (stateOf token password u db first pool 0).inFlight = true := by
        rw [hq]
        rfl
      refine h.adding (q := .added) hmay (by rintro ⟨⟩) (by rw [hq, hanswer]; rfl) rfl hpending
        (fun _ => h.exclusive hflight) (fun _ => ?_) (fun _ => by decide) fun hs hdone => ?_
      · exact h.held_kept hflight (fun key hkey => mem_locks hextends hkey) _
      · have hnone := (h.after hs hdone).1
        rw [hflight] at hnone
        cases hnone
    | error e =>
      refine h.staying hmay (by rintro ⟨⟩) (by rw [hq, hanswer]; rfl) ?_
        fun key hkey => mem_locks hextends hkey
      rw [hq]
      exact hpending
  | @log _ event hstates =>
    have hextends := effect_extends pool 0 t (.auditAdd event)
    rcases hstates with rfl | rfl
    · refine h.staying hmay (by rintro ⟨⟩) (by rw [hq]; rfl) ?_
        fun key hkey => mem_locks hextends hkey
      rw [hq]
      refine forall_pending hextends hadds ?_
      rintro _ ⟨⟩
      rfl
    · refine h.staying hmay (by rintro ⟨⟩) (by rw [hq]; rfl) ?_
        fun key hkey => mem_locks hextends hkey
      rw [hq]
      refine forall_pending hextends hadds ?_
      rintro _ ⟨⟩
      exact ⟨rfl, rfl⟩
  | grant => exact h.grant hq
  | refuse => exact h.refuse hq
  | write hstates => rcases hstates with rfl | rfl | rfl <;> cases hside
  | sweep hstates => rcases hstates with rfl | rfl <;> cases hside
  | commit => cases hside

/-- A statement on another table leaves the sessions alone. -/
theorem onSessions_of_aside {s : Statement} (hs : aside s = true) {rows : List RowKey}
    {write : Write} (hwrites : s.Writes rows write) : write.onSessions = false := by
  cases hwrites with
  | usersUpdate | usersUpdatePassword | tokensMarkUsed | tokensInvalidateForUser | auditAdd =>
    rfl
  | _ => cases hs

/-- So do the writes that follow the end of the sessions. -/
theorem Ends.extends {rows : List RowKey} {db db' : Db} {s : Statement} {tx tx' : Tx}
    (h : Ends u db .swept tx) (hs : aside s = true) (hextends : tx.Extends rows db' s tx') :
    Ends u db .swept tx' := by
  obtain ⟨ids, moment, hview, hall⟩ := h
  refine ⟨ids, moment, fun d => ?_, fun row hrow huser hlive => ?_⟩
  · rw [← hview d]
    rcases hextends with ⟨hpending, -⟩ | ⟨write, hwrites, -, hpending, -⟩
    · unfold Tx.view
      rw [hpending]
    · unfold Tx.view
      rw [hpending, List.foldl_append]
      exact write.keeps_sessions (onSessions_of_aside hs hwrites) _
  · obtain ⟨hid, hlock⟩ := hall row hrow huser hlive
    exact ⟨hid, mem_locks hextends hlock⟩

/-- A step of the call that ends the sessions keeps the invariant. -/
theorem Inv.advance_ender (h : Inv token password u db first strict pool)
    (hapart : Apart password 0 1 pool 1 op) (hfree : ¬ pool.Blocked 1 (pool.snapshot 1 op))
    (hmay : May token u (stateOf token password u db first pool 1) op) :
    Inv token password u db first strict (pool.advance 1 t op k) := by
  have hside := h.ender
  have hends := h.ends
  have hmay' := hmay
  generalize hq : stateOf token password u db first pool 1 = q at hmay' hside hends
  cases hmay' with
  | quiet hquiet =>
    obtain ⟨hpending, hlocks⟩ := effect_reads pool 1 t (reads_of_quiet hquiet)
    refine h.ending (q := q) hmay ?_ (signed_of_quiet hquiet _ _ _)
      (by rw [hq]; exact next_of_quiet hquiet _ _) hside (hends.congr rfl hpending hlocks)
      (fun hw => by rw [hq]; exact hw) (fun hflight => ?_) fun hd => by rw [hq]; exact hd
    · rintro rfl
      cases hquiet
    · rw [← hq]
      exact h.exclusive hflight
  | close =>
    cases q with
    | done =>
      exact h.ending (q := .done) hmay (by rintro ⟨⟩) rfl (by rw [hq]; rfl) rfl rfl
        (by rintro ⟨⟩) (fun _ => by decide) fun _ => hq
    | waiting | writing | swept | failed =>
      exact h.ending (q := .failed) hmay (by rintro ⟨⟩) rfl (by rw [hq]; rfl) rfl rfl
        (by rintro ⟨⟩) (fun _ => by decide) (by rintro ⟨⟩)
    | _ => cases hside
  | @write _ s hstates hs =>
    have hextends := effect_extends pool 1 t s
    obtain ⟨hwaiting, hwriting, hswept⟩ :=
      next_of_aside env hs password (pool.effect 1 t (.sql s)).2
    have hnew : ∀ write, s.Writes (pool.matched 1 (.sql s)) write → write.onSessions = false :=
      fun write hwrites => onSessions_of_aside hs hwrites
    rcases hstates with rfl | rfl | rfl
    · refine h.ending (q := .writing) hmay (by rintro ⟨⟩) rfl (by rw [hq]; exact hwaiting) rfl
        (forall_pending hextends ?_ hnew) (by rintro ⟨⟩) (fun _ => by decide) (by rintro ⟨⟩)
      rw [show (pool.procs 1).loc.pending = [] from hends]
      rintro _ ⟨⟩
    · exact h.ending (q := .writing) hmay (by rintro ⟨⟩) rfl (by rw [hq]; exact hwriting) rfl
        (forall_pending hextends hends hnew) (by rintro ⟨⟩) (fun _ => by decide)
        (by rintro ⟨⟩)
    · refine h.ending (q := .swept) hmay (by rintro ⟨⟩) rfl (by rw [hq]; exact hswept) rfl
        (hends.extends hs hextends) (by rintro ⟨⟩) (fun hflight => ?_) (by rintro ⟨⟩)
      exact absurd hq (h.exclusive hflight)
  | sweep hstates =>
    obtain ⟨hall, hlogin⟩ := hapart.2.1 rfl
    refine h.sweep ?_ hfree hall hlogin
    rw [hq]
    exact hstates
  | commit => exact h.commit hq
  | log hstates => rcases hstates with rfl | rfl <;> cases hside
  | _ => cases hside

/-- A step that keeps the two calls apart keeps the invariant. -/
theorem Inv.advance (h : Inv token password u db first strict pool) {i : Fin 2}
    (hapart : Apart password 0 1 pool i op) (hfree : ¬ pool.Blocked i (pool.snapshot i op))
    (hmay : May token u (stateOf token password u db first pool i) op) :
    Inv token password u db first strict (pool.advance i t op k) := by
  rcases fin_two i with rfl | rfl
  · exact h.advance_adder hapart hfree hmay
  · exact h.advance_ender hapart hfree hmay

variable (token : Token) (password : String) (u : UserId) (db : Db) (first : State)
  (strict : Prop) in
/-- The invariant, and what has become of the sessions that were there at first. -/
structure Course (pool : Pool (machine env) 2 Failure Answer) : Prop where
  inv : Inv token password u db first strict pool
  becomes : db.Becomes pool.shared.db
  ended : stateOf token password u db first pool 1 = .done →
    SignedOutSince u db pool.shared.db

theorem Course.wait (h : Course token password u db first strict pool) (i : Fin 2) (op : Op) :
    Course token password u db first strict (pool.wait i op) := by
  refine ⟨h.inv.wait i op, h.becomes, fun hdone => h.ended ?_⟩
  rw [← hdone]
  exact (congrFun (Pool.states_wait (P := protocol env token password u db) i op) 1).symm

/-- The step after which the call that ends the sessions is done is its commit. -/
theorem Inv.ended_by_commit (h : Inv token password u db first strict pool) {i : Fin 2}
    (hmay : May token u (stateOf token password u db first pool i) op)
    (hbefore : stateOf token password u db first pool 1 ≠ .done)
    (hdone : stateOf token password u db first (pool.advance i t op k) 1 = .done) :
    i = 1 ∧ op = .commit ∧ stateOf token password u db first pool 1 = .swept := by
  rcases fin_two i with rfl | rfl
  · rw [stateOf_advance_of_ne (by decide)] at hdone
    exact absurd hdone hbefore
  · rw [stateOf_advance_self] at hdone
    have hleads : Leads _ (next env password _ op (pool.effect 1 t op).2) _ _ _ _ :=
      leads hmay (pool.effect 1 t op).2
    rw [hdone] at hleads
    have hcommits := ((hleads.done rfl).2.1 rfl).resolve_left hbefore
    have hside := h.ender
    generalize stateOf token password u db first pool 1 = q at hmay hside
    cases hmay with
    | commit => exact ⟨rfl, rfl, rfl⟩
    | grant | refuse => cases hside
    | quiet hquiet =>
      cases op with
      | commit => cases hquiet
      | _ => cases hcommits
    | _ => cases hcommits

/-- A step that keeps the two calls apart. -/
theorem Course.advance (h : Course token password u db first strict pool) {i : Fin 2}
    (hapart : Apart password 0 1 pool i op) (hfree : ¬ pool.Blocked i (pool.snapshot i op))
    (hmay : May token u (stateOf token password u db first pool i) op) :
    Course token password u db first strict (pool.advance i t op k) := by
  have hstep : pool.shared.db.Becomes (pool.advance i t op k).shared.db :=
    Db.Becomes.effect pool i t op
  refine ⟨h.inv.advance hapart hfree hmay, h.becomes.trans hstep, fun hdone => ?_⟩
  by_cases hbefore : stateOf token password u db first pool 1 = .done
  · exact (h.ended hbefore).becomes hstep
  · obtain ⟨rfl, rfl, hswept⟩ := h.inv.ended_by_commit hmay hbefore hdone
    exact (h.inv.commit_signedOut hswept).since (h.becomes.trans hstep)

/-- The answers are as expected. -/
theorem Inv.expects (h : Inv token password u db first strict pool) (i : Fin 2) (t : Time)
    (op : Op) : SessionRace.expects env db (stateOf token password u db first pool i) op
      (pool.effect i t op).2 := by
  cases op with
  | decode token =>
    have hdecode := effect_expects pool i t (.decode token)
    cases stateOf _ password u db first pool i with
    | _ => exact hdecode
  | verifyPassword plain user =>
    cases stateOf token password u db first pool i with
    | _ => exact rfl
  | sql s =>
    cases s with
    | tokensGetByHash hash purpose =>
      generalize hq : stateOf token password u db first pool i = q
      cases q with
      | waiting =>
        rcases fin_two i with rfl | rfl
        · have hside := h.adder
          rw [hq] at hside
          cases hside
        · intro stored hstored
          have hends := h.ends
          rw [hq] at hends
          have htokens := h.tokens hq
          have hanswer : (pool.effect 1 t (.sql (.tokensGetByHash hash purpose))).2 =
              (Tx.view (pool.procs 1).loc pool.shared.db).tokenByHash hash purpose := rfl
          rw [hanswer, Tx.view_of_pending_nil hends] at hstored
          unfold Db.tokenByHash at hstored ⊢
          rw [← htokens]
          exact hstored
      | _ => trivial
    | usersGetById userId =>
      have hanswer : ∀ user, (pool.effect i t (.sql (.usersGetById userId))).2 = some user →
          user.id = userId := fun user huser => (userById_row huser).1
      cases stateOf token password u db first pool i with
      | _ => exact hanswer
    | _ =>
      cases stateOf token password u db first pool i with
      | _ => trivial
  | _ =>
    cases stateOf token password u db first pool i with
    | _ => trivial

end Step

section Run

variable {token : Token} {password : String} {db : Db} {first : State} {strict : Prop}
  {pool : Pool (machine env) 2 Failure Answer}

/-- A run that keeps the two calls apart. -/
theorem run_course (h : Course token password u db first strict pool)
    (hfollows : pool.Follows (protocol env token password u db) ![first, .waiting]
      fun _ _ _ => True)
    (sched : Pool.Schedule (machine env) 2)
    (halong : Pool.Along (KeepsApart password 0 1) sched pool) :
    Course token password u db first strict (pool.run sched) ∧
      (pool.run sched).Follows (protocol env token password u db) ![first, .waiting]
        fun _ _ _ => True := by
  refine Pool.run_follows (fun pool i op h => h.wait i op) ?_ sched halong h hfollows
  intro pool i t op k h hapart hprog hfree hmay
  have hop : op ∈ (pool.procs i).prog.nextOp? := by
    rw [hprog]
    rfl
  exact ⟨h.inv.expects i t op, h.advance (hapart op hop hfree) hfree hmay⟩

/-- From a state on in which the login has read the account and the sessions are not ended
for good, there is no way for it to sign in afterwards. -/
theorem Inv.strengthen (h : Inv token password u db first False pool)
    (hread : did Op.looksUpEmail pool 0 = true) (hbefore : did Op.commits pool 1 = false) :
    Inv token password u db first True pool := by
  refine ⟨h.adder, h.ender, h.tracked, h.adds, h.ends, h.tokens, h.exclusive, h.held, ?_, ?_⟩
  · intro _ hreading
    have hunread : did Op.looksUpEmail pool 0 = false := (h.tracked 0).unread hreading
    rw [hread] at hunread
    cases hunread
  · intro _ hdone
    have hcommitted : did Op.commits pool 1 = true := ((h.tracked 1).done h.ender).1 hdone
    rw [hbefore] at hcommitted
    cases hcommitted

theorem Course.strengthen (h : Course token password u db first False pool)
    (hread : did Op.looksUpEmail pool 0 = true) (hbefore : did Op.commits pool 1 = false) :
    Course token password u db first True pool where
  inv := h.inv.strengthen hread hbefore
  becomes := h.becomes
  ended := h.ended

/-- Once the call that ends the sessions has committed, there are none left. -/
theorem Inv.signedOut (h : Inv token password u db first True pool)
    (hcommits : did Op.commits pool 1 = true) : SignedOut u pool.shared.db :=
  (h.after trivial (((h.tracked 1).done h.ender).2 hcommits)).2

/-- Those that were there are revoked, whatever has been added since. -/
theorem Course.signedOutSince (h : Course token password u db first strict pool)
    (hcommits : did Op.commits pool 1 = true) : SignedOutSince u db pool.shared.db :=
  h.ended (((h.inv.tracked 1).done h.inv.ender).2 hcommits)

theorem tracked_nil (q : State) (hq : q ≠ .swept) (hdone : q ≠ .done) :
    Tracked q ([] : List (Entry (machine env))) :=
  ⟨fun _ => ⟨rfl, rfl⟩, fun _ => rfl, fun h => absurd h hq, fun _ => by simp [hdone]⟩

/-- A refresh and a call that ends the sessions, at their start. -/
theorem Inv.refresh (hw : w.Wf env) (hsub : ∀ c, token = .jwt c → c.sub = u)
    (device : Option DeviceInfoDTO) (c : Call) :
    Inv token "" u w.db .fresh True (w.pool env ![.refresh token device, c]) := by
  refine ⟨rfl, rfl, ?_, ⟨rfl, ?_⟩, rfl, fun _ => rfl, by rintro ⟨⟩, by rintro ⟨⟩,
    fun _ => by rintro ⟨⟩, fun _ => by rintro ⟨⟩⟩
  · intro i
    rcases fin_two i with rfl | rfl
    · exact tracked_nil .fresh (by decide) (by decide)
    · exact tracked_nil .waiting (by decide) (by decide)
  · intro claims htoken hsigned row hrow hjti
    exact (hw.signedOwner claims hsigned row hrow hjti).trans (hsub claims htoken)

/-- A login and a call that ends the sessions, at their start. -/
theorem Inv.login (data : LoginDTO) (device : Option DeviceInfoDTO) (c : Call) :
    Inv (.text "") data.password u w.db .reading False
      (w.pool env ![.login data device, c]) := by
  refine ⟨rfl, rfl, ?_, rfl, rfl, fun _ => rfl, by rintro ⟨⟩, by rintro ⟨⟩,
    False.elim, False.elim⟩
  intro i
  rcases fin_two i with rfl | rfl
  · exact tracked_nil .reading (by decide) (by decide)
  · exact tracked_nil .waiting (by decide) (by decide)

/-- Two calls at their start: nothing has happened to the sessions. -/
theorem Course.start {calls : Fin 2 → Call}
    (h : Inv token password u w.db first strict (w.pool env calls)) :
    Course token password u w.db first strict (w.pool env calls) where
  inv := h
  becomes := .refl w.db
  ended := fun hdone => by cases hdone

theorem login_pool_follows (data : LoginDTO) (device : Option DeviceInfoDTO) {c : Call}
    (hc : c.EndsSessions env w.db u) :
    (w.pool env ![.login data device, c]).Follows
      (protocol env (.text "") data.password u w.db) ![.reading, .waiting]
        fun _ _ _ => True := by
  intro i
  rcases fin_two i with rfl | rfl
  · exact login_follows data device
  · exact sweeper_follows hc

end Run

end SessionRace

open SessionRace in
/-- No session of the account outlives a call that ends them, in a run that keeps the calls
apart: neither one that was there, nor the one that a refresh has put in the place of one that
was there, nor the one of a login that has looked the account up before the commit.  Beside
a login that looks it up later, or never, the sessions that were there are revoked all the
same. -/
theorem no_stale_session (hw : w.Wf env) (u : UserId) (c : Call) :
    (c.EndsSessions env w.db u → ∀ token device, (∀ claims, token = .jwt claims →
      claims.sub = u) → ∀ sched : Pool.Schedule (machine env) 2,
        Pool.Along (KeepsApart "" 0 1) sched (w.pool env ![.refresh token device, c]) →
          did Op.commits ((w.pool env ![.refresh token device, c]).run sched) 1 = true →
            SignedOut u ((w.pool env ![.refresh token device, c]).run sched).shared.db) ∧
    (c.ChangesAuthority env w.db u → ∀ data device,
      ∀ before after : Pool.Schedule (machine env) 2,
        Pool.Along (KeepsApart data.password 0 1) (before ++ after)
            (w.pool env ![.login data device, c]) →
          did Op.looksUpEmail ((w.pool env ![.login data device, c]).run before) 0 = true →
          did Op.commits ((w.pool env ![.login data device, c]).run before) 1 = false →
          did Op.commits ((w.pool env ![.login data device, c]).run (before ++ after)) 1 =
            true →
            SignedOut u
              ((w.pool env ![.login data device, c]).run (before ++ after)).shared.db) ∧
    (c.EndsSessions env w.db u → ∀ data device, ∀ sched : Pool.Schedule (machine env) 2,
      Pool.Along (KeepsApart data.password 0 1) sched (w.pool env ![.login data device, c]) →
        did Op.commits ((w.pool env ![.login data device, c]).run sched) 1 = true →
          SignedOutSince u w.db
            ((w.pool env ![.login data device, c]).run sched).shared.db) := by
  refine ⟨?_, ?_, ?_⟩
  · intro hc token device hsub sched halong hcommits
    have hfollows : (w.pool env ![.refresh token device, c]).Follows
        (protocol env token "" u w.db) ![.fresh, .waiting] fun _ _ _ => True := by
      intro i
      rcases fin_two i with rfl | rfl
      · exact refresh_follows device
      · exact sweeper_follows hc
    obtain ⟨hcourse, -⟩ := run_course (Course.start (Inv.refresh hw hsub device c)) hfollows
      sched halong
    exact hcourse.inv.signedOut hcommits
  · intro hc data device before after halong hread hbefore hcommits
    obtain ⟨halong, halong'⟩ := (Pool.along_append _ before after _).1 halong
    obtain ⟨hcourse, hfollows⟩ := run_course (Course.start (Inv.login data device c))
      (login_pool_follows data device hc.endsSessions) before halong
    rw [Pool.run_append] at hcommits ⊢
    obtain ⟨hcourse, -⟩ := run_course (hcourse.strengthen hread hbefore) hfollows after halong'
    exact hcourse.inv.signedOut hcommits
  · intro hc data device sched halong hcommits
    obtain ⟨hcourse, -⟩ := run_course (Course.start (Inv.login data device c))
      (login_pool_follows data device hc) sched halong
    exact hcourse.signedOutSince hcommits

/-! ## Overlaps -/

open SessionRace

namespace Sample

/-- Alice changes her password. -/
def changes : Call := .changePassword 1 ⟨"secret", "secret2", "secret2"⟩ none

/-- Her refresh token is used meanwhile. -/
def rotates : Fin 2 → Call := ![.refresh refresh none, changes]

/-- Alice deletes her account. -/
def leaves : Call := .deleteUser 1 none

/-- She logs in meanwhile. -/
def returns : Fin 2 → Call := ![login "secret", leaves]

end Sample

/-- The sessions are ended when the other call is done.  Or they are ended first, and the
login comes too late. -/
theorem no_stale_session_sample :
    SignedOut 1 ((Sample.loggedIn.pool Sample.env Sample.rotates).run
        (List.replicate 12 (0, 20) ++ List.replicate 12 (1, 21))).shared.db ∧
      SignedOut 1 ((Sample.world.pool Sample.env Sample.returns).run
        (List.replicate 4 (0, 20) ++
          (List.replicate 9 (0, 20) ++ List.replicate 9 (1, 21)))).shared.db ∧
      SignedOutSince 1 Sample.loggedIn.db ((Sample.loggedIn.pool Sample.env Sample.returns).run
        (List.replicate 9 (1, 20) ++ List.replicate 9 (0, 21))).shared.db := by
  refine ⟨?_, ?_, ?_⟩
  · have hends : Sample.changes.EndsSessions Sample.env Sample.loggedIn.db 1 := rfl
    refine (no_stale_session (runCalls_wf Sample.initial.wf _) 1 _).1 hends Sample.refresh none
      ?_ _ (by decide +kernel) (by decide +kernel)
    intro claims hclaims
    cases hclaims
    rfl
  · have hchanges : Sample.leaves.ChangesAuthority Sample.env Sample.world.db 1 := rfl
    exact (no_stale_session Sample.initial.wf 1 _).2.1 hchanges ⟨"alice", "secret"⟩ none _ _
      (by decide +kernel) (by decide +kernel) (by decide +kernel) (by decide +kernel)
  · have hends : Sample.leaves.EndsSessions Sample.env Sample.loggedIn.db 1 := rfl
    exact (no_stale_session (runCalls_wf Sample.initial.wf _) 1 _).2.2 hends
      ⟨"alice", "secret"⟩ none _ (by decide +kernel) (by decide +kernel)

/-- A refresh reads its session, a change of password revokes it and commits, and the refresh
revokes nothing and adds a session.  A login accepts the password, the account is deleted,
and the login adds a session.  Each of them is left with a session that is not revoked. -/
theorem stale_session :
    let refreshed := (Sample.loggedIn.pool Sample.env Sample.rotates).run
      (List.replicate 5 (0, 20) ++ List.replicate 12 (1, 21) ++ List.replicate 7 (0, 22))
    let read := (Sample.world.pool Sample.env Sample.returns).run (List.replicate 4 (0, 20))
    let loggedIn := (Sample.world.pool Sample.env Sample.returns).run
      (List.replicate 4 (0, 20) ++ (List.replicate 9 (1, 21) ++ List.replicate 9 (0, 22)))
    (Sample.loggedIn.Wf Sample.env ∧ refreshed.Succeeded 0 ∧ refreshed.Succeeded 1 ∧
        ¬ SignedOut 1 refreshed.shared.db) ∧
      Sample.world.Wf Sample.env ∧ did Op.looksUpEmail read 0 = true ∧
        did Op.commits read 1 = false ∧ loggedIn.Succeeded 0 ∧ loggedIn.Succeeded 1 ∧
        ¬ SignedOut 1 loggedIn.shared.db :=
  ⟨⟨runCalls_wf Sample.initial.wf _, by decide +kernel, by decide +kernel, by decide +kernel⟩,
    Sample.initial.wf, by decide +kernel, by decide +kernel, by decide +kernel,
    by decide +kernel, by decide +kernel⟩

end VideoSite.Users
