import VideoSite.Users.TokenLiveness

/-!
# The answer of a login

What a caller sees of a call is that it succeeded, or its error with the message and
the seconds to wait.  For a login this is a function of the counters and of the verdict
on the credentials: `LoginUseCase.shown` is that function, and `login_shows` says that
`LoginUseCase` computes it.
-/

namespace VideoSite.Users

open Effects Program

variable {env : Env} {t : Time} {w : World} {tx : Tx} {c : Call}

/-! ## What a caller sees -/

/-- What a caller sees of an outcome. -/
def seen (out : Except Failure Answer) : Except Failure Unit := out.map fun _ => ()

@[simp] theorem seen_isOk (out : Except Failure Answer) : (seen out).isOk = out.isOk := by
  cases out <;> rfl

/-- A call shows `shown.2`, leaves the counters `shown.1` and the accounts as they were. -/
structure Shows (env : Env) (t : Time) (w : World) (c : Call)
    (shown : Limits × Except Failure Unit) : Prop where
  seen : seen (runCall env w t c).2 = shown.2
  limits : (runCall env w t c).1.limits = shown.1
  users : (runCall env w t c).1.db.users = w.db.users

/-- `Shows` from a run of the program. -/
theorem Shows.of_wp {shown : Limits × Except Failure Unit}
    (h : wp (handler env t) (c.program env) (fun s out => Users.seen out = shown.2 ∧
      s.1.limits = shown.1 ∧ s.1.db.users = w.db.users) (w, Tx.fresh w.calls)) :
    Shows env t w c shown :=
  ⟨h.1, h.2.1, h.2.2⟩

/-! ## The guards -/

/-- The refusal of `guardIp`. -/
def LoginUseCase.ipRefusal (env : Env) (limits : Limits) (t : Time)
    (device : DeviceInfoDTO) : Option ApplicationError :=
  if env.config.loginIpPolicy.isEnforced then
    match device.ipAddress with
    | some ip =>
        let decision := Limits.peek env.backend limits t (LoginUseCase.ipKey ip)
          env.config.loginIpPolicy
        if decision.allowed then none
        else some (.rateLimited decision.retryAfterSeconds
          "Too many login attempts from this address")
    | none => none
  else none

/-- The refusal of `guardAccount`. -/
def LoginUseCase.accountRefusal (env : Env) (limits : Limits) (t : Time)
    (email : String) : Option ApplicationError :=
  if env.config.loginAccountPolicy.isEnforced then
    let decision := Limits.peek env.backend limits t (LoginUseCase.accountKey email)
      env.config.loginAccountPolicy
    if decision.allowed then none else some (.accountLocked decision.retryAfterSeconds)
  else none

/-- What a login shows, from the counters and the verdict on the credentials. -/
def LoginUseCase.shown (env : Env) (limits : Limits) (t : Time) (email : String)
    (device : DeviceInfoDTO) (accepted : Bool) : Limits × Except Failure Unit :=
  match LoginUseCase.ipRefusal env limits t device with
  | some e => (limits, .error (.application e))
  | none =>
      match LoginUseCase.accountRefusal env limits t email with
      | some e => (limits, .error (.application e))
      | none =>
          if accepted then
            (Limits.reset env.backend limits (LoginUseCase.accountKey email), .ok ())
          else
            (LoginUseCase.charged env limits t email device,
              .error (.application (.invalidCredentials "Invalid email or password")))

theorem wp_guardIp_refusal (device : DeviceInfoDTO) (Q : Post Unit) :
    wp (handler env t) (LoginUseCase.guardIp env device) Q (w, tx) ↔
      (LoginUseCase.ipRefusal env w.limits t device = none → Q (w, tx) (.ok ())) ∧
        ∀ e, LoginUseCase.ipRefusal env w.limits t device = some e →
          Q (w, tx) (.error (.application e)) := by
  unfold LoginUseCase.guardIp LoginUseCase.ipRefusal
  by_cases henforced : env.config.loginIpPolicy.isEnforced = true
  · cases device.ipAddress with
    | none => simp [henforced]
    | some ip =>
      cases hallowed : (Limits.peek env.backend w.limits t (LoginUseCase.ipKey ip)
        env.config.loginIpPolicy).allowed <;> simp [henforced, hallowed]
  · simp [henforced]

theorem wp_guardAccount_refusal (email : String) (Q : Post Unit) :
    wp (handler env t) (LoginUseCase.guardAccount env email) Q (w, tx) ↔
      (LoginUseCase.accountRefusal env w.limits t email = none → Q (w, tx) (.ok ())) ∧
        ∀ e, LoginUseCase.accountRefusal env w.limits t email = some e →
          Q (w, tx) (.error (.application e)) := by
  unfold LoginUseCase.guardAccount LoginUseCase.accountRefusal
  by_cases henforced : env.config.loginAccountPolicy.isEnforced = true
  · cases hallowed : (Limits.peek env.backend w.limits t (LoginUseCase.accountKey email)
      env.config.loginAccountPolicy).allowed <;> simp [henforced, hallowed]
  · simp [henforced]

/-! ## The rows of a login -/

/-- A session row leaves an audit row about a known account acceptable. -/
theorem Db.accepts_audit_addSession {db : Db} {session : AuthSession} {row : AuditEvent}
    {u : UserId} (huser : db.hasUser u = true) (hrow : row.userId = some u) :
    (db.addSession session).violation (.insertAudit row) = none := by
  have hkept : (db.addSession session).hasUser u = true := huser
  simp [violation, firstBroken, hrow, hkept]

theorem Db.accepts_audit {db : Db} {row : AuditEvent}
    (hrow : ∀ u, row.userId = some u → db.hasUser u = true) :
    db.violation (.insertAudit row) = none := by
  cases hu : row.userId with
  | none => simp [violation, firstBroken, hu]
  | some u => simp [violation, firstBroken, hu, hrow u hu]

/-- The session of call `n` is accepted. -/
theorem Db.Sound.accepts_drawn_session {db : Db} {supply : Supply} {n k : Nat}
    (h : db.Sound supply n) {session : AuthSession} {u : UserId}
    (hknown : db.hasUser u = true) (hjti : session.jti = supply.jti n k)
    (howner : session.userId = u) : db.violation (.insertSession session) = none := by
  refine Db.violation_insertSession (fun other hother he => ?_) (howner ▸ hknown)
  exact lt_irrefl _ (h.jtisDrawn other hother _ _ (hjti.symm.trans he.symm))

/-! ## The answer -/

/-- What a login shows depends on the counters and on the verdict only. -/
theorem login_shows (hw : w.Wf env) (data : LoginDTO) (device : Option DeviceInfoDTO) :
    Shows env t w (.login data device)
      (LoginUseCase.shown env w.limits t (env.normalize data.email) (device.getD {})
        (LoginUseCase.accepts env (w.db.userByEmail (env.normalize data.email))
          data.password)) := by
  have hknown {user : User}
      (huser : w.db.userByEmail (env.normalize data.email) = some user) :
      w.db.hasUser user.id = true :=
    Db.hasUser_of_userById (hw.db.userById_of_userByEmail huser).1
  apply Shows.of_wp
  simp only [Call.program, Users.login, monad_bind, wp_map, wp_bind]
  rw [wp_guardIp_refusal]
  refine ⟨fun hip => ?_, fun e hip => ?_⟩
  · simp only [andThen_ok, wp_bind]
    rw [wp_guardAccount_refusal]
    refine ⟨fun haccount => ?_, fun e haccount => ?_⟩
    · cases haccepts : LoginUseCase.accepts env
          (w.db.userByEmail (env.normalize data.email)) data.password with
      | true =>
        obtain ⟨user, huser, -⟩ := (LoginUseCase.accepts_iff _ _).1 haccepts
        rw [huser] at haccepts
        simp [LoginUseCase.shown, hip, haccount, seen, Except.map, huser, haccepts,
          LoginUseCase.succeed]
        refine ⟨fun _ broken hbroken => ?_, fun broken hbroken => ?_⟩
        · rw [Db.accepts_audit_addSession (hknown huser) rfl] at hbroken
          cases hbroken
        · rw [hw.db.accepts_drawn_session (hknown huser) rfl rfl] at hbroken
          cases hbroken
      | false =>
        simp [LoginUseCase.shown, hip, haccount, seen, Except.map, haccepts,
          LoginUseCase.fail]
        intro broken hbroken
        rw [Db.accepts_audit fun u hu => ?_] at hbroken
        · cases hbroken
        · obtain ⟨user, huser, rfl⟩ := Option.map_eq_some_iff.1 hu
          exact hknown huser
    · simp [LoginUseCase.shown, hip, haccount, seen, Except.map]
  · simp [LoginUseCase.shown, hip, seen, Except.map]

end VideoSite.Users
