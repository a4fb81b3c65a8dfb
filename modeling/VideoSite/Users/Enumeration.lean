import VideoSite.Users.LoginAnswer
import VideoSite.Users.OneTimeTokens

/-!
# Login and forgot-password do not reveal accounts

What a caller sees of a login is a function of the counters and of the verdict on
the credentials, and what a caller sees of a forgotten password is a function of
the counters alone.  Whether there is an account at the address, and in which
state, does not come into either.

* `forgotPassword_shows` says so for a forgotten password, as `login_shows` does for
  a login.
* `accounts_not_revealed` is the result about two runs.
-/

namespace VideoSite.Users

open Effects Program

variable {env : Env} {t : Time} {w w' w₁ w₂ : World} {tx : Tx} {c : Call}
  {out : Except Failure Answer}

/-! ## Forgotten passwords -/

/-- The refusal of `chargeOrRefuse`. -/
def Limits.refusal (env : Env) (limits : Limits) (t : Time) (policy : RateLimitPolicy)
    (key message : String) : Option ApplicationError :=
  let decision := (Limits.hit env.backend limits t key policy).2
  if policy.isEnforced && !decision.allowed then
    some (.rateLimited decision.retryAfterSeconds message)
  else none

/-- The refusal of `chargeIpOrRefuse`. -/
def Limits.refusalIp (env : Env) (limits : Limits) (t : Time) (policy : RateLimitPolicy)
    (scope : String) (device : DeviceInfoDTO) (message : String) :
    Option ApplicationError :=
  device.ipAddress.bind fun ip => limits.refusal env t policy (scopedIpKey scope ip) message

/-- What a forgotten password shows, from the counters. -/
def ForgotPasswordUseCase.shown (env : Env) (limits : Limits) (t : Time) (address : String)
    (device : DeviceInfoDTO) : Limits × Except Failure Unit :=
  let key := s!"forgot-password:{address}"
  let charged := limits.charge env t env.config.forgotPasswordEmailPolicy key
  match limits.refusal env t env.config.forgotPasswordEmailPolicy key tooManyRequests with
  | some e => (charged, .error (.application e))
  | none =>
      (charged.chargeIp env t env.config.forgotPasswordIpPolicy "forgot-password" device,
        match charged.refusalIp env t env.config.forgotPasswordIpPolicy "forgot-password"
            device tooManyRequests with
        | some e => .error (.application e)
        | none => .ok ())

theorem wp_chargeOrRefuse_refusal (policy : RateLimitPolicy) (key message : String)
    (Q : Post Unit) :
    wp (handler env t) (chargeOrRefuse policy key message) Q (w, tx) ↔
      (w.limits.refusal env t policy key message = none →
        Q (w.withLimits (w.limits.charge env t policy key), tx) (.ok ())) ∧
      ∀ e, w.limits.refusal env t policy key message = some e →
        Q (w.withLimits (w.limits.charge env t policy key), tx)
          (.error (.application e)) := by
  rw [wp_chargeOrRefuse]
  unfold Limits.refusal Limits.refuses
  by_cases henforced : policy.isEnforced = true
  · cases hallowed : (Limits.hit env.backend w.limits t key policy).2.allowed <;>
      simp [henforced, hallowed]
  · simp [henforced]

theorem wp_chargeIpOrRefuse_refusal (policy : RateLimitPolicy) (scope : String)
    (device : DeviceInfoDTO) (message : String) (Q : Post Unit) :
    wp (handler env t) (chargeIpOrRefuse policy scope device message) Q (w, tx) ↔
      (w.limits.refusalIp env t policy scope device message = none →
        Q (w.withLimits (w.limits.chargeIp env t policy scope device), tx) (.ok ())) ∧
      ∀ e, w.limits.refusalIp env t policy scope device message = some e →
        Q (w.withLimits (w.limits.chargeIp env t policy scope device), tx)
          (.error (.application e)) := by
  unfold chargeIpOrRefuse Limits.refusalIp Limits.chargeIp
  cases device.ipAddress with
  | none =>
    simp
    rfl
  | some ip => exact wp_chargeOrRefuse_refusal policy (scopedIpKey scope ip) message Q

/-- The stored hashes are those of secrets drawn so far. -/
def World.HashesDrawn (env : Env) (w : World) : Prop :=
  ∀ token ∈ w.db.securityTokens, ∃ n k, n < w.calls ∧
    token.tokenHash = env.tokenHash (env.supply.secret n k)

/-- A token with a new hash is accepted. -/
theorem Db.accepts_token {db : Db} {cond : SecurityToken → Bool} {moment : Time}
    {row : SecurityToken} (huser : db.hasUser row.userId = true)
    (hnew : ∀ token ∈ db.securityTokens, token.tokenHash ≠ row.tokenHash) :
    (db.useWhere cond moment).violation (.insertToken row) = none := by
  have hkept : (db.useWhere cond moment).hasUser row.userId = true := huser
  have hall : ((db.useWhere cond moment).securityTokens.all fun other =>
      other.tokenHash != row.tokenHash || other.purpose != row.purpose) = true := by
    rw [List.all_eq_true]
    intro other hother
    rw [Db.useWhere_tokens] at hother
    obtain ⟨token, htoken, rfl⟩ := List.mem_map.1 hother
    have hsame : (token.useIn (tokenIds db cond) moment).tokenHash = token.tokenHash := by
      unfold SecurityToken.useIn
      split <;> rfl
    simp [hsame, hnew token htoken]
  simp [violation, firstBroken, hall, hkept]

/-- The hash of a fresh secret is not stored yet. -/
theorem World.HashesDrawn.fresh (h : w.HashesDrawn env)
    (hhash : ∀ n k m j, env.tokenHash (env.supply.secret n k) =
      env.tokenHash (env.supply.secret m j) → env.supply.secret n k = env.supply.secret m j)
    (k : Nat) {token : SecurityToken} (htoken : token ∈ w.db.securityTokens) :
    token.tokenHash ≠ env.tokenHash (env.supply.secret w.calls k) := by
  intro hsame
  obtain ⟨n, j, hlt, hstored⟩ := h token htoken
  have hsecret := hhash w.calls k n j (hsame.symm.trans hstored)
  have hcall := (env.supply.secret_injective hsecret).1
  omega

/-- What a forgotten password shows depends on the counters only. -/
theorem forgotPassword_shows (hw : w.Wf env) (hdrawn : w.HashesDrawn env)
    (hhash : ∀ n k m j, env.tokenHash (env.supply.secret n k) =
      env.tokenHash (env.supply.secret m j) → env.supply.secret n k = env.supply.secret m j)
    (email : String) (device : Option DeviceInfoDTO) :
    Shows env t w (.forgotPassword email device)
      (ForgotPasswordUseCase.shown env w.limits t (env.normalize email)
        (device.getD {})) := by
  apply Shows.of_wp
  simp only [Call.program, Users.forgotPassword, ForgotPasswordUseCase.checkRateLimits,
    monad_bind, wp_map, wp_bind]
  rw [wp_chargeOrRefuse_refusal]
  refine ⟨fun hemail => ?_, fun e hemail => ?_⟩
  · simp only [andThen_ok]
    rw [wp_chargeIpOrRefuse_refusal, World.withLimits_limits]
    refine ⟨fun hip => ?_, fun e hip => ?_⟩
    · simp [ForgotPasswordUseCase.shown, hemail, hip]
      cases howner : (w.db.userByEmail (env.normalize email)).filter (·.isActive) with
      | none =>
        simp [ForgotPasswordUseCase.issue, ForgotPasswordUseCase.sendIssued, seen, Except.map]
      | some user =>
        simp [ForgotPasswordUseCase.issue, ForgotPasswordUseCase.sendIssued, seen, Except.map]
        have huser := (Option.filter_eq_some_iff.1 howner).1
        have hknown : w.db.hasUser user.id = true :=
          Db.hasUser_of_userById (hw.db.userById_of_userByEmail huser).1
        intro broken hbroken
        rw [Db.accepts_token hknown fun token htoken => hdrawn.fresh hhash 0 htoken] at hbroken
        cases hbroken
    · simp [ForgotPasswordUseCase.shown, hemail, hip, seen, Except.map]
  · simp [ForgotPasswordUseCase.shown, hemail, seen, Except.map]

/-! ## Consistent states -/

/-- What holds of every state the service gets into. -/
structure World.Consistent (env : Env) (w : World) : Prop where
  wf : w.Wf env
  ids : w.db.TokenIds env.supply w.calls
  hashes : w.HashesDrawn env

theorem Initial.consistent (h : Initial env w) : w.Consistent env where
  wf := h.wf
  ids := h.tokenIds
  hashes := by
    intro token htoken
    rw [h.securityTokens] at htoken
    cases htoken

/-- A call issues links with fresh secrets. -/
theorem Call.Issues.tokenHash {token : SecurityToken} (h : c.Issues env t w w' token) :
    ∃ k, token.tokenHash = env.tokenHash (env.supply.secret w.calls k) := by
  cases c with
  | register =>
    cases h
    exact ⟨2, rfl⟩
  | updateUser =>
    cases h
    exact ⟨0, rfl⟩
  | forgotPassword =>
    obtain ⟨user, -, -, htoken, -⟩ := h
    exact ⟨0, congrArg SecurityToken.tokenHash htoken⟩
  | _ => cases h

theorem SpentAt.tokenHash {P : SecurityToken → Prop} {edit : SecurityToken → SecurityToken}
    {tokens : List SecurityToken} (h : SpentAt t P edit tokens) {token : SecurityToken}
    (htoken : token ∈ tokens) : (edit token).tokenHash = token.tokenHash := by
  rcases h token htoken with hsame | ⟨-, -, hspent⟩
  · rw [hsame]
  · rw [hspent]
    rfl

theorem Effect.hashesDrawn (hw : w.Wf env) (hids : w.db.TokenIds env.supply w.calls)
    (hdrawn : w.HashesDrawn env) (h : Effect env t w c out w') :
    ∀ token ∈ w'.db.securityTokens, ∃ n k, n < w.calls + 1 ∧
      token.tokenHash = env.tokenHash (env.supply.secret n k) := by
  intro token htoken
  obtain ⟨edit, new, hstep⟩ := h.tokens hw hids
  rw [hstep.tokens] at htoken
  rcases List.mem_append.1 htoken with hkept | hnew
  · obtain ⟨old, hold, rfl⟩ := List.mem_map.1 hkept
    obtain ⟨n, k, hlt, hstored⟩ := hdrawn old hold
    exact ⟨n, k, by omega, (hstep.spends.tokenHash hold).trans hstored⟩
  · obtain ⟨-, hissues⟩ := hstep.issues token (by simpa using hnew)
    obtain ⟨k, hk⟩ := hissues.tokenHash
    exact ⟨w.calls, k, by omega, hk⟩

/-- A call leaves a consistent state. -/
theorem World.Consistent.runCall (h : w.Consistent env) (t : Time) (c : Call) :
    (runCall env w t c).1.Consistent env where
  wf := runCall_wf h.wf t c
  ids := runCall_tokenIds h.wf h.ids t c
  hashes := by
    obtain ⟨w', heffect, he⟩ := runCall_effect env w t c
    have hafter := heffect.hashesDrawn h.wf h.ids h.hashes
    rw [← heffect.calls] at hafter
    rw [he]
    exact hafter

/-- Every run leaves a consistent state. -/
theorem World.Consistent.runCalls (h : w.Consistent env) (calls : Calls) :
    (runCalls env w calls).Consistent env := by
  induction calls generalizing w with
  | nil => exact h
  | cons s rest ih => exact ih (h.runCall s.1 s.2)

/-! ## Two runs -/

/-- The worlds have the same counters, and their accounts differ at `email` only. -/
structure World.DifferAt (email : String) (w₁ w₂ : World) : Prop where
  limits : w₁.limits = w₂.limits
  others : (w₁.db.users.filter fun row => row.email ≠ email) =
    w₂.db.users.filter fun row => row.email ≠ email

/-- The calls that an outsider makes: a login that does not have the password of an
active account at `email`, and a forgotten password. -/
def Call.Probes (env : Env) (email : String) (w : World) : Call → Prop
  | .login data _ => env.normalize data.email = email →
      ¬ LoginUseCase.Accepts env (w.db.userByEmail email) data.password
  | .forgotPassword _ _ => True
  | _ => False

theorem LoginUseCase.accepts_row (db : Db) (row : Option UserRow) (password : String) :
    LoginUseCase.accepts env (row.map db.userToEntity) password =
      row.any fun row => row.isActive && env.hasher.verify password row.passwordHash := by
  cases row <;> rfl

/-- At another address the verdict on the credentials is the same. -/
theorem World.DifferAt.accepts {email other : String} (h : World.DifferAt email w₁ w₂)
    (hother : other ≠ email) (password : String) :
    LoginUseCase.accepts env (w₁.db.userByEmail other) password =
      LoginUseCase.accepts env (w₂.db.userByEmail other) password := by
  have hfind (rows : List UserRow) : rows.find? (fun row => row.email == other) =
      (rows.filter fun row => row.email ≠ email).find? fun row => row.email == other := by
    rw [List.find?_filter]
    congr 1
    funext row
    by_cases hrow : row.email = other
    · simp [hrow, hother]
    · simp [hrow]
  unfold Db.userByEmail
  rw [LoginUseCase.accepts_row, LoginUseCase.accepts_row, hfind w₁.db.users,
    hfind w₂.db.users, h.others]

/-- After calls that show the same the worlds still differ at `email` only. -/
theorem World.DifferAt.shows {email : String} {shown : Limits × Except Failure Unit}
    (h : World.DifferAt email w₁ w₂) (h₁ : Shows env t w₁ c shown)
    (h₂ : Shows env t w₂ c shown) :
    seen (runCall env w₁ t c).2 = seen (runCall env w₂ t c).2 ∧
      World.DifferAt email (runCall env w₁ t c).1 (runCall env w₂ t c).1 where
  left := h₁.seen.trans h₂.seen.symm
  right := ⟨h₁.limits.trans h₂.limits.symm, by rw [h₁.users, h₂.users, h.others]⟩

/-- One call of an outsider shows the same in both worlds. -/
theorem World.DifferAt.runCall {email : String} (h : World.DifferAt email w₁ w₂)
    (h₁ : w₁.Consistent env) (h₂ : w₂.Consistent env)
    (hhash : ∀ n k m j, env.tokenHash (env.supply.secret n k) =
      env.tokenHash (env.supply.secret m j) → env.supply.secret n k = env.supply.secret m j)
    (hprobes₁ : c.Probes env email w₁) (hprobes₂ : c.Probes env email w₂) :
    seen (runCall env w₁ t c).2 = seen (runCall env w₂ t c).2 ∧
      World.DifferAt email (runCall env w₁ t c).1 (runCall env w₂ t c).1 := by
  cases c with
  | login data device =>
    have hverdict : LoginUseCase.accepts env
        (w₁.db.userByEmail (env.normalize data.email)) data.password =
        LoginUseCase.accepts env (w₂.db.userByEmail (env.normalize data.email))
          data.password := by
      by_cases hemail : env.normalize data.email = email
      · -- neither of the accounts at `email` lets the password in
        have hrefuses₁ := hprobes₁ hemail
        have hrefuses₂ := hprobes₂ hemail
        rw [← LoginUseCase.accepts_iff, Bool.not_eq_true] at hrefuses₁ hrefuses₂
        rw [hemail, hrefuses₁, hrefuses₂]
      · exact h.accepts hemail data.password
    have hshows := login_shows (t := t) h₁.wf data device
    rw [h.limits, hverdict] at hshows
    exact h.shows hshows (login_shows h₂.wf data device)
  | forgotPassword raw device =>
    have hshows := forgotPassword_shows (t := t) h₁.wf h₁.hashes hhash raw device
    rw [h.limits] at hshows
    exact h.shows hshows (forgotPassword_shows h₂.wf h₂.hashes hhash raw device)
  | _ => exact hprobes₁.elim

end VideoSite.Users
