import VideoSite.Users.Reachable

/-!
# How long a token lives

A pair of tokens comes with a session.  `Call.Ends` are the calls that are meant
to end it: a refresh, a logout, a revocation, a change of the password, a ban.
The theorem of this module says that nothing else does, and that nothing brings
the session back.

* `authenticate_succeeds` and its siblings say when a call cannot fail.
* `issued_runCalls` is the run lemma: the session is revoked in the end if and only if
  one of the calls ended it.
* `token_liveness` is the result, for every run and every pair it issued.
-/

namespace VideoSite.Users

open Effects Program

variable {env : Env} {t : Time} {w w' : World} {c : Call} {out : Except Failure Answer}

/-! ## When a call succeeds -/

theorem AuthSession.isValid_iff {s : AuthSession} :
    s.isValid t = true ↔ s.revokedAt = none ∧ t < s.expiresAt := by
  simp [isValid, isRevoked, notExpired]

theorem decode_of_signed {claims : Claims} (hs : claims ∈ w.signed) (ht : t < claims.exp) :
    JwtTokenService.decode w.signed t (.jwt claims) = .ok (JwtTokenService.payload claims) := by
  rw [JwtTokenService.decode, if_pos hs, if_pos ht]

/-- An audit row about an account that is there is accepted. -/
theorem Db.accepts_insertAudit {db : Db} {cond : AuthSession → Bool} {moment : Time}
    {row : AuditEvent} {constraint : Constraint} {u : UserId} (huser : db.hasUser u = true)
    (h : (db.revokeWhere cond moment).violation (.insertAudit row) = some constraint)
    (hrow : row.userId = some u) : False := by
  have hkept : (db.revokeWhere cond moment).hasUser u = true := huser
  simp [violation, firstBroken, hrow, hkept] at h

/-- A call succeeds if its program does. -/
theorem isOk_of_wp {c : Call} (h : wp (handler env t) (c.program env)
    (fun _ out => out.isOk = true) (w, Tx.fresh w.calls)) : (runCall env w t c).2.isOk = true :=
  h

/-- A session with a new `jti` is accepted. -/
theorem Db.violation_insertSession {db : Db} {row : AuthSession}
    (hjti : ∀ other ∈ db.sessions, other.jti ≠ row.jti)
    (huser : db.hasUser row.userId = true) :
    db.violation (.insertSession row) = none := by
  have hall : (db.sessions.all fun other => other.jti != row.jti) = true := by
    simpa using hjti
  simp [violation, firstBroken, hall, huser]

/-- The account behind a session is there, and the cache has it as it can be read. -/
theorem authenticate_succeeds (hw : w.Wf env) {claims : Claims} {session : AuthSession}
    (hs : claims ∈ w.signed) (ht : t < claims.exp) (htype : claims.type = .access)
    (hsession : w.db.sessionByJti claims.jti = some session)
    (hvalid : session.isValid t = true) :
    (runCall env w t (.authenticate (.jwt claims))).2.isOk = true := by
  have hmem : session ∈ w.db.sessions := List.mem_of_find?_eq_some hsession
  have hjti : session.jti = claims.jti := by simpa using List.find?_some hsession
  have howner : session.userId = claims.sub := hw.signedOwner claims hs session hmem hjti
  have h : wp (handler env t) ((Call.authenticate (.jwt claims)).program env)
      (fun _ out => out.isOk = true) (w, Tx.fresh w.calls) := by
    simp only [Call.program, Users.authenticate]
    simp [Except.map, Except.isOk, Except.toBool, hs, ht, decode_of_signed hs ht,
      JwtTokenService.payload, htype, hsession, hvalid]
    refine wp_loadUser rfl (fun user cache hload tx' => ?_) (fun data e tx' hget hload => ?_)
      fun tx' hnone => ?_
    · have hactive : user.isActive = true := by
        cases hload with
        | hit hget hload =>
          obtain ⟨cached, -, hvalue, hactive, -⟩ := hw.cached _ _ _ hget
          rw [hvalue, UserCacheCodec.loads_dumps] at hload
          cases hload
          exact hactive
        | miss hget huser => exact hw.active_of_session hs hsession hvalid huser
      simp [hactive]
    · obtain ⟨cached, -, hvalue, -⟩ := hw.cached _ _ _ hget
      rw [hvalue, UserCacheCodec.loads_dumps] at hload
      cases hload
    · have huser := hw.db.sessionOwners session hmem
      obtain ⟨row, hrow, hid⟩ := List.mem_map.1 (Db.hasUser_iff.1 huser)
      rw [Db.userById, ← howner, ← hid, hw.db.userRow?_of_mem hrow] at hnone
      cases hnone
  exact isOk_of_wp h

theorem refresh_succeeds (hw : w.Wf env) {claims : Claims} {session : AuthSession}
    (hs : claims ∈ w.signed) (ht : t < claims.exp) (htype : claims.type = .refresh)
    (hsession : w.db.sessionByJti claims.jti = some session)
    (hvalid : session.isValid t = true) (device : Option DeviceInfoDTO) :
    (runCall env w t (.refresh (.jwt claims) device)).2.isOk = true := by
  have hmem : session ∈ w.db.sessions := List.mem_of_find?_eq_some hsession
  have hjti : session.jti = claims.jti := by simpa using List.find?_some hsession
  have howner : session.userId = claims.sub := hw.signedOwner claims hs session hmem hjti
  obtain ⟨row, hrow, hid⟩ :=
    List.mem_map.1 (Db.hasUser_iff.1 (hw.db.sessionOwners session hmem))
  have hfound : w.db.userById claims.sub = some (w.db.userToEntity row) := by
    rw [Db.userById, ← howner, ← hid, hw.db.userRow?_of_mem hrow, Option.map_some]
  have hactive := hw.active_of_session hs hsession hvalid hfound
  have hfree (row' : AuthSession) (hnew : row'.jti = env.supply.jti w.calls 0)
      (hu : row'.userId = row.id) :
      (w.db.revokeWhere (Statement.revokeWhere claims.jti) t).violation
        (.insertSession row') = none := by
    refine Db.violation_insertSession (fun other hother he => ?_) ?_
    · obtain ⟨old, hold, rfl⟩ := List.mem_map.1 hother
      rw [AuthSession.revokeIn_jti, hnew] at he
      exact lt_irrefl _ (hw.db.jtisDrawn old hold _ _ he.symm)
    · rw [hu, Db.hasUser_iff]
      exact List.mem_map_of_mem hrow
  have h : wp (handler env t) ((Call.refresh (.jwt claims) device).program env)
      (fun _ out => out.isOk = true) (w, Tx.fresh w.calls) := by
    simp only [Call.program, Users.refreshToken]
    simp [Except.map, Except.isOk, Except.toBool, hs, ht, decode_of_signed hs ht,
      JwtTokenService.payload, htype, hsession, hvalid, hfound, hactive]
    intro constraint hbroken
    rw [hfree _ rfl rfl] at hbroken
    cases hbroken
  exact isOk_of_wp h

theorem logout_succeeds {claims : Claims}
    (hs : claims ∈ w.signed) (ht : t < claims.exp) (huser : w.db.hasUser claims.sub = true)
    (device : Option DeviceInfoDTO) :
    (runCall env w t (.logout (.jwt claims) device)).2.isOk = true := by
  have h : wp (handler env t) ((Call.logout (.jwt claims) device).program env)
      (fun _ out => out.isOk = true) (w, Tx.fresh w.calls) := by
    simp only [Call.program, Users.logout, monad_bind, wp_map, wp_bind]
    rw [wp_ask, andThen_ok]
    simp only [Machine.alone, perform, decode_of_signed hs ht]
    simp [Except.map, Except.isOk, Except.toBool]
    exact fun constraint hbroken => Db.accepts_insertAudit huser hbroken rfl
  exact isOk_of_wp h

theorem revokeAllSessions_succeeds {u : UserId} (huser : w.db.hasUser u = true)
    (exceptJti : Option String) (device : Option DeviceInfoDTO) :
    (runCall env w t (.revokeAllSessions u exceptJti device)).2.isOk = true := by
  have h : wp (handler env t) ((Call.revokeAllSessions u exceptJti device).program env)
      (fun _ out => out.isOk = true) (w, Tx.fresh w.calls) := by
    simp only [Call.program, revokeAllSessions]
    simp [Except.map, Except.isOk, Except.toBool]
    exact fun constraint hbroken => Db.accepts_insertAudit huser hbroken rfl
  exact isOk_of_wp h

theorem revokeUserSession_succeeds {session : AuthSession}
    (huser : w.db.hasUser session.userId = true)
    (hsession : w.db.sessionById session.id = some session)
    (device : Option DeviceInfoDTO) :
    (runCall env w t (.revokeUserSession session.userId session.id device)).2.isOk = true := by
  have h : wp (handler env t)
      ((Call.revokeUserSession session.userId session.id device).program env)
      (fun _ out => out.isOk = true) (w, Tx.fresh w.calls) := by
    simp only [Call.program, revokeUserSession]
    simp [Except.map, Except.isOk, Except.toBool, hsession]
    exact fun constraint hbroken => Db.accepts_insertAudit huser hbroken rfl
  exact isOk_of_wp h

/-! ## The session of a pair -/

/-- The fields of a session that no update changes. -/
structure AuthSession.Same (a b : AuthSession) : Prop where
  id : a.id = b.id
  jti : a.jti = b.jti
  userId : a.userId = b.userId
  expiresAt : a.expiresAt = b.expiresAt

theorem AuthSession.Same.trans {a b s : AuthSession} (h : a.Same b) (h' : b.Same s) :
    a.Same s :=
  ⟨h.id.trans h'.id, h.jti.trans h'.jti, h.userId.trans h'.userId,
    h.expiresAt.trans h'.expiresAt⟩

/-- What the call revokes depends on those fields only. -/
theorem Call.revokes_congr {a b : AuthSession} (h : a.Same b) :
    c.Revokes env w t a ↔ c.Revokes env w t b := by
  cases c <;> simp [Revokes, h.id, h.jti, h.userId]

/-- A session stays, and a call revokes it if it is one of those the call is said
to revoke. -/
theorem Effect.keeps_session (hw : w.Wf env) (h : Effect env t w c out w')
    {row : AuthSession} (hrow : row ∈ w.db.sessions) :
    ∃ row' ∈ w'.db.sessions, row'.Same row ∧
      (row'.revokedAt = none ↔
        row.revokedAt = none ∧ ¬ (out.isOk = true ∧ c.Revokes env w t row)) := by
  obtain ⟨cond, new, hstep⟩ := h.sessions hw
  refine ⟨row.revokeIn (sessionIds w.db cond) t, ?_, ⟨by simp, by simp, by simp, by simp⟩, ?_⟩
  · rw [hstep.sessions]
    exact List.mem_append_left _ (List.mem_map_of_mem hrow)
  · rw [AuthSession.revokeIn_of_sound hw.db hrow]
    by_cases hlive : row.revokedAt = none
    · have hcond := hstep.revokes row hrow hlive
      by_cases hc : cond row = true
      · rw [if_pos ⟨hc, hlive⟩]
        simp [hcond.1 hc]
      · rw [if_neg fun hboth => hc hboth.1]
        simp [hlive, ← hcond, hc]
    · rw [if_neg fun hboth => hlive hboth.2]
      simp [hlive]

/-- The access token `a`, the refresh token `r` and the session `s` belong
together in the world `w`. -/
structure Issued (w : World) (a r : Claims) (s : AuthSession) : Prop where
  access : a ∈ w.signed
  refresh : r ∈ w.signed
  accessType : a.type = .access
  refreshType : r.type = .refresh
  accessJti : a.jti = s.jti
  refreshJti : r.jti = s.jti
  accessSub : a.sub = s.userId
  refreshSub : r.sub = s.userId

/-- A pair stays a pair. -/
theorem issued_runCall {a r : Claims} {s : AuthSession} (hp : Issued w a r s) (t : Time)
    (c : Call) : Issued (runCall env w t c).1 a r s := by
  obtain ⟨w', h, he⟩ := runCall_effect env w t c
  rw [he]
  exact { hp with
    access := h.signed_mono hp.access
    refresh := h.signed_mono hp.refresh }

/-- The calls that end the session `s` of the pair `a`, `r`. -/
def Call.Ends (env : Env) (a r : Claims) (s : AuthSession) (w : World) (t : Time)
    (c : Call) : Prop :=
  match c with
  | .refresh token _ => token = .jwt r ∧ (runCall env w t c).2.isOk = true
  | .logout token _ => (token = .jwt a ∧ t < a.exp) ∨ (token = .jwt r ∧ t < r.exp)
  | .revokeUserSession u sessionId _ => u = s.userId ∧ sessionId = s.id
  | .revokeAllSessions u exceptJti _ => u = s.userId ∧ exceptJti ≠ some s.jti
  | .changePassword u _ _ => u = s.userId ∧ (runCall env w t c).2.isOk = true
  | .resetPassword data _ => (runCall env w t c).2.isOk = true ∧ ∃ token,
      w.db.tokenByHash (env.tokenHash data.token) .passwordReset = some token ∧
        token.userId = s.userId
  | .deleteUser u _ => u = s.userId ∧ (runCall env w t c).2.isOk = true
  | .banUser _ u _ _ => u = s.userId ∧ (runCall env w t c).2.isOk = true
  | _ => False

/-- A token of the pair is told by its `jti` and its type. -/
theorem Issued.claims (hw : w.Wf env) {a r : Claims} {s : AuthSession} (hp : Issued w a r s)
    {claims : Claims} (hs : claims ∈ w.signed) (hjti : s.jti = claims.jti) :
    claims = a ∨ claims = r := by
  cases htype : claims.type with
  | access =>
    exact .inl (hw.signedUnique _ hs _ hp.access (hjti.symm.trans hp.accessJti.symm)
      (htype.trans hp.accessType.symm))
  | refresh =>
    exact .inr (hw.signedUnique _ hs _ hp.refresh (hjti.symm.trans hp.refreshJti.symm)
      (htype.trans hp.refreshType.symm))

/-- The calls that are meant to end the session are those that revoke it. -/
theorem Issued.ends_iff (hw : w.Wf env) {a r : Claims} {s row : AuthSession}
    (hp : Issued w a r s) (hrow : row ∈ w.db.sessions) (hsame : row.Same s) :
    c.Ends env a r s w t ↔
      (runCall env w t c).2.isOk = true ∧ c.Revokes env w t s := by
  have huser : w.db.hasUser s.userId = true := hsame.userId ▸ hw.db.sessionOwners row hrow
  cases c with
  | refresh token device =>
    constructor
    · rintro ⟨rfl, hok⟩
      exact ⟨hok, r, hp.refresh, rfl, hp.refreshType, hp.refreshJti.symm⟩
    · rintro ⟨hok, claims, hs, rfl, htype, hjti⟩
      refine ⟨?_, hok⟩
      rcases hp.claims hw hs hjti with rfl | rfl
      · rw [hp.accessType] at htype
        cases htype
      · rfl
  | logout token device =>
    constructor
    · rintro (⟨rfl, ht⟩ | ⟨rfl, ht⟩)
      · exact ⟨logout_succeeds hp.access ht (hp.accessSub ▸ huser) device, a, hp.access, rfl,
          ht, hp.accessJti.symm⟩
      · exact ⟨logout_succeeds hp.refresh ht (hp.refreshSub ▸ huser) device, r, hp.refresh,
          rfl, ht, hp.refreshJti.symm⟩
    · rintro ⟨-, claims, hs, rfl, ht, hjti⟩
      rcases hp.claims hw hs hjti with rfl | rfl
      · exact .inl ⟨rfl, ht⟩
      · exact .inr ⟨rfl, ht⟩
  | revokeUserSession u sessionId device =>
    constructor
    · rintro ⟨rfl, rfl⟩
      have hfind : w.db.sessionById row.id = some row := by
        cases hfound : w.db.sessionById row.id with
        | none => exact absurd (List.find?_eq_none.1 hfound row hrow) (by simp)
        | some other =>
          have hid : other.id = row.id := by simpa using List.find?_some hfound
          rw [hw.db.session_unique (List.mem_of_find?_eq_some hfound) hrow hid]
      refine ⟨?_, rfl, rfl⟩
      rw [← hsame.userId, ← hsame.id]
      exact revokeUserSession_succeeds (hsame.userId ▸ huser) hfind device
    · rintro ⟨-, hu, hid⟩
      exact ⟨hu.symm, hid.symm⟩
  | revokeAllSessions u exceptJti device =>
    constructor
    · rintro ⟨rfl, hexcept⟩
      refine ⟨revokeAllSessions_succeeds huser exceptJti device, rfl, ?_⟩
      rintro jti rfl rfl
      exact hexcept rfl
    · rintro ⟨-, hu, hexcept⟩
      exact ⟨hu.symm, fun he => hexcept _ he rfl⟩
  | resetPassword data device =>
    constructor
    · rintro ⟨hok, token, htoken, hu⟩
      exact ⟨hok, token, htoken, hu.symm⟩
    · rintro ⟨hok, token, htoken, hu⟩
      exact ⟨hok, token, htoken, hu.symm⟩
  | changePassword | deleteUser | banUser =>
    constructor
    · rintro ⟨rfl, hok⟩
      exact ⟨hok, rfl⟩
    · rintro ⟨hok, hu⟩
      exact ⟨hu.symm, hok⟩
  | _ => simp [Call.Ends, Call.Revokes]

/-- No call of the run ends the session. -/
abbrev Untouched (env : Env) (a r : Claims) (s : AuthSession) (calls : Calls)
    (w : World) : Prop :=
  AlongCalls env (fun w t c => ¬ c.Ends env a r s w t) calls w

/-- After a run the session is not revoked if and only if it was not before and no
call ended it. -/
theorem issued_runCalls {a r : Claims} {s : AuthSession} (calls : Calls) :
    ∀ {w : World} {row : AuthSession}, w.Wf env → Issued w a r s → row ∈ w.db.sessions →
      row.Same s →
      Issued (runCalls env w calls) a r s ∧
        ∃ last ∈ (runCalls env w calls).db.sessions, last.Same s ∧
          (last.revokedAt = none ↔ row.revokedAt = none ∧ Untouched env a r s calls w) := by
  induction calls with
  | nil =>
    intro w row hw hp hrow hsame
    exact ⟨hp, row, hrow, hsame, by simp⟩
  | cons call rest ih =>
    intro w row hw hp hrow hsame
    obtain ⟨w', h, he⟩ := runCall_effect env w call.1 call.2
    obtain ⟨row', hrow', hsame', hlive'⟩ := h.keeps_session hw hrow
    have hmem : row' ∈ (runCall env w call.1 call.2).1.db.sessions := he ▸ hrow'
    obtain ⟨hpLast, last, hlast, hsameLast, hliveLast⟩ :=
      ih (runCall_wf hw call.1 call.2) (issued_runCall hp call.1 call.2) hmem (hsame'.trans hsame)
    refine ⟨hpLast, last, hlast, hsameLast, hliveLast.trans ?_⟩
    rw [hlive', Call.revokes_congr hsame, ← hp.ends_iff hw hrow hsame, and_assoc]
    exact Iff.rfl

/-! ## The result -/

/-- A time after the epoch that is before `int(x)` is before `x`. -/
theorem lt_of_lt_pyInt {x : ℚ} (h₀ : 0 ≤ t) (h : t < (pyInt x : ℚ)) : t < x := by
  unfold pyInt at h
  split_ifs at h with hx
  · exact h.trans_le (Int.floor_le x)
  · have hceil : ⌈x⌉ ≤ 0 := Int.ceil_le.2 (by simpa using (not_le.1 hx).le)
    have hle : ((⌈x⌉ : ℤ) : ℚ) ≤ 0 := by exact_mod_cast hceil
    exact absurd (h.trans_le hle) (not_lt.2 h₀)

/-- What a successful `Authenticate` has checked, and whom it returns. -/
theorem authenticate_inv (hw : w.Wf env) {claims : Claims} {answer : Answer}
    (h : (runCall env w t (.authenticate (.jwt claims))).2 = .ok answer) :
    t < claims.exp ∧ claims.type = .access ∧
      (∃ session, w.db.sessionByJti claims.jti = some session ∧
        session.isValid t = true) ∧
      ∃ user, answer = .user user ∧ user.id = claims.sub := by
  obtain ⟨w', he, -⟩ := runCall_effect env w t (.authenticate (.jwt claims))
  rw [h] at he
  cases he with
  | observed hc => exact hc.elim
  | authenticated hs ht htype hsession hvalid hload hactive =>
    refine ⟨ht, htype, ⟨_, hsession, hvalid⟩, _, rfl, ?_⟩
    cases hload with
    | miss hget huser => exact (userById_row huser).1
    | hit hget hloads =>
      obtain ⟨cached, hkey, hvalue, -⟩ := hw.cached _ _ _ hget
      rw [hvalue, UserCacheCodec.loads_dumps] at hloads
      cases hloads
      exact (userCacheKey_injective hkey).symm

/-- What a successful `Refresh` has checked. -/
theorem refresh_inv {claims : Claims} {device : Option DeviceInfoDTO} {answer : Answer}
    (h : (runCall env w t (.refresh (.jwt claims) device)).2 = .ok answer) :
    t < claims.exp ∧ claims.type = .refresh ∧
      ∃ session, w.db.sessionByJti claims.jti = some session ∧
        session.isValid t = true := by
  obtain ⟨w', he, -⟩ := runCall_effect env w t (.refresh (.jwt claims) device)
  rw [h] at he
  cases he with
  | observed hc => exact hc.elim
  | refreshed hs ht htype hold hvalid huser hactive =>
    exact ⟨ht, htype, _, hold, hvalid⟩

/-- The calls that hand out tokens. -/
def Call.IssuesPair : Call → Prop
  | .login _ _ => True
  | .refresh _ _ => True
  | _ => False

theorem Call.Observes.not_issuesPair (h : c.Observes) : ¬ c.IssuesPair := by
  cases c <;> simp [Observes, IssuesPair] at h ⊢

/-- The tokens of a pair and the session that was opened for it. -/
theorem issued_of_answer (hc : c.IssuesPair) {pair : AuthResultDTO}
    (hout : (runCall env w t c).2 = .ok (.auth pair)) :
    ∃ a r s, pair.tokens.accessToken = .jwt a ∧ pair.tokens.refreshToken = .jwt r ∧
      s ∈ (runCall env w t c).1.db.sessions ∧ s.revokedAt = none ∧
      s.userId = pair.user.id ∧ r.exp = pyInt s.expiresAt ∧
      Issued (runCall env w t c).1 a r s := by
  obtain ⟨w', h, he⟩ := runCall_effect env w t c
  rw [hout] at h
  rw [he]
  cases h with
  | @loggedIn data device user audit hopen huser hactive hverify haudit =>
    refine ⟨_, _, LoginUseCase.session env t w.calls user (device.getD {}), rfl, rfl,
      List.mem_append_right _ (List.mem_singleton_self _), rfl, rfl, rfl, ?_⟩
    exact ⟨mem_signPair.2 (.inr (.inl rfl)), mem_signPair.2 (.inr (.inr rfl)), rfl, rfl, rfl,
      rfl, rfl, rfl⟩
  | @refreshed claims device old user hs ht htype hold hvalid huser hactive =>
    refine ⟨_, _, RefreshTokenUseCase.session env t w.calls old user (device.getD {}), rfl,
      rfl, List.mem_append_right _ (List.mem_singleton_self _), rfl, rfl, rfl, ?_⟩
    exact ⟨mem_signPair.2 (.inr (.inl rfl)), mem_signPair.2 (.inr (.inr rfl)), rfl, rfl, rfl,
      rfl, rfl, rfl⟩
  | observed hobs => exact (hobs.not_issuesPair hc).elim
  | _ => exact hc.elim

/-- What becomes of the tokens `a` and `r` of the account `u`, with their session
`s`, in the run `after` that follows the world `w` they were issued in. -/
structure TokensLive (env : Env) (w : World) (u : UserId) (a r : Claims)
    (s : AuthSession) (after : Calls) (t : Time) : Prop where
  /-- The access token is accepted until it or its session runs out, or the session
  is ended. -/
  authenticates :
    (runCall env (runCalls env w after) t (.authenticate (.jwt a))).2.isOk = true ↔
      t < a.exp ∧ t < s.expiresAt ∧ Untouched env a r s after w
  /-- It then stands for the account it was issued to. -/
  account : ∀ answer,
    (runCall env (runCalls env w after) t (.authenticate (.jwt a))).2 = .ok answer →
      ∃ user, answer = .user user ∧ user.id = u
  /-- The refresh token is accepted until it runs out or the session is ended. -/
  refreshes : ∀ device, Untouched env a r s after w →
    ((runCall env (runCalls env w after) t (.refresh (.jwt r) device)).2.isOk = true ↔
      t < r.exp)
  /-- Nothing makes it acceptable again. -/
  final : ∀ device, ¬ Untouched env a r s after w →
    (runCall env (runCalls env w after) t (.refresh (.jwt r) device)).2.isOk = false
  /-- Neither token is accepted in the other's place. -/
  access_only :
    (runCall env (runCalls env w after) t (.authenticate (.jwt r))).2.isOk = false
  refresh_only : ∀ device,
    (runCall env (runCalls env w after) t (.refresh (.jwt a) device)).2.isOk = false

theorem isOk_iff {α : Type} {out : Except Failure α} :
    out.isOk = true ↔ ∃ a, out = .ok a := by
  cases out <;> simp [Except.isOk, Except.toBool]

/-- The liveness of a pair depends on the session row it came with. -/
theorem tokensLive_of_issued (hw : w.Wf env) {a r : Claims} {s : AuthSession}
    (hp : Issued w a r s) (hs : s ∈ w.db.sessions) (hlive : s.revokedAt = none)
    (hexp : r.exp = pyInt s.expiresAt) {after : Calls} (h₀ : 0 ≤ t) :
    TokensLive env w s.userId a r s after t := by
  have hw' := runCalls_wf hw after
  obtain ⟨hp', last, hlast, hsame, hrevoked⟩ := issued_runCalls after hw hp hs ⟨rfl, rfl, rfl, rfl⟩
  have hfound {jti : String} (hjti : jti = s.jti) :
      (runCalls env w after).db.sessionByJti jti = some last := by
    rw [hjti, ← hsame.jti]
    exact hw'.db.sessionByJti_of_mem hlast
  have hvalid : last.isValid t = true ↔ Untouched env a r s after w ∧ t < s.expiresAt := by
    rw [AuthSession.isValid_iff, hrevoked, hsame.expiresAt]
    simp [hlive]
  have hrefresh (device : Option DeviceInfoDTO) :
      (runCall env (runCalls env w after) t (.refresh (.jwt r) device)).2.isOk = true ↔
        Untouched env a r s after w ∧ t < r.exp := by
    constructor
    · intro hok
      obtain ⟨answer, hanswer⟩ := isOk_iff.1 hok
      obtain ⟨ht, -, session, hsession, hsv⟩ := refresh_inv hanswer
      rw [hfound hp'.refreshJti] at hsession
      obtain rfl := Option.some.inj hsession
      exact ⟨(hvalid.1 hsv).1, ht⟩
    · rintro ⟨huntouched, ht⟩
      refine refresh_succeeds hw' hp'.refresh ht hp'.refreshType (hfound hp'.refreshJti)
        (hvalid.2 ⟨huntouched, ?_⟩) device
      rw [hexp] at ht
      exact lt_of_lt_pyInt h₀ ht
  constructor
  · constructor
    · intro hok
      obtain ⟨answer, hanswer⟩ := isOk_iff.1 hok
      obtain ⟨ht, -, ⟨session, hsession, hsv⟩, -⟩ := authenticate_inv hw' hanswer
      rw [hfound hp'.accessJti] at hsession
      obtain rfl := Option.some.inj hsession
      exact ⟨ht, (hvalid.1 hsv).2, (hvalid.1 hsv).1⟩
    · rintro ⟨ht, hts, huntouched⟩
      exact authenticate_succeeds hw' hp'.access ht hp'.accessType (hfound hp'.accessJti)
        (hvalid.2 ⟨huntouched, hts⟩)
  · intro answer hanswer
    obtain ⟨-, -, -, user, rfl, hid⟩ := authenticate_inv hw' hanswer
    exact ⟨user, rfl, hid.trans hp'.accessSub⟩
  · intro device huntouched
    rw [hrefresh device]
    simp [huntouched]
  · intro device htouched
    rw [Bool.eq_false_iff]
    exact fun hok => htouched ((hrefresh device).1 hok).1
  · rw [Bool.eq_false_iff]
    intro hok
    obtain ⟨answer, hanswer⟩ := isOk_iff.1 hok
    obtain ⟨-, htype, -⟩ := authenticate_inv hw' hanswer
    rw [hp'.refreshType] at htype
    cases htype
  · intro device
    rw [Bool.eq_false_iff]
    intro hok
    obtain ⟨answer, hanswer⟩ := isOk_iff.1 hok
    obtain ⟨-, htype, -⟩ := refresh_inv hanswer
    rw [hp'.accessType] at htype
    cases htype

/-- Token liveness is determined by history: for every run and every pair a login
or a refresh of it returned, and for every later moment. -/
theorem token_liveness {w₀ : World} (h₀ : Initial env w₀) {before : Calls} {t₀ : Time}
    {c : Call} {pair : AuthResultDTO} (hord : OrderedFrom 0 (before ++ [(t₀, c)]))
    (hc : c.IssuesPair)
    (hout : (runCall env (runCalls env w₀ before) t₀ c).2 = .ok (.auth pair)) :
    ∃ a r s, pair.tokens.accessToken = .jwt a ∧ pair.tokens.refreshToken = .jwt r ∧
      s ∈ (runCalls env w₀ (before ++ [(t₀, c)])).db.sessions ∧ s.jti = a.jti ∧
      s.userId = pair.user.id ∧
      ∀ after t, OrderedFrom t₀ after → lastTime t₀ after ≤ t →
        TokensLive env (runCalls env w₀ (before ++ [(t₀, c)])) pair.user.id a r s after t := by
  have hw := runCalls_wf h₀.wf before
  obtain ⟨a, r, s, ha, hr, hs, hlive, hu, hexp, hp⟩ := issued_of_answer hc hout
  have hpos : 0 ≤ t₀ := by
    obtain ⟨hbefore, hlast⟩ := orderedFrom_append.1 hord
    exact hbefore.le_lastTime.trans hlast.1
  rw [runCalls_append]
  refine ⟨a, r, s, ha, hr, hs, hp.accessJti.symm, hu, fun after t hafter ht => ?_⟩
  rw [← hu]
  exact tokensLive_of_issued (runCall_wf hw t₀ c) hp hs hlive hexp
    (hpos.trans (hafter.le_lastTime.trans ht))

/-- Alice's first login. -/
theorem token_liveness_login :
    ∃ a r s, s.userId = 1 ∧ s.jti = a.jti ∧
      TokensLive Sample.env (runCalls Sample.env Sample.world [(10, Sample.login "secret")]) 1 a
        r s [] 20 := by
  obtain ⟨a, r, s, -, -, -, hjti, hu, hlive⟩ := @token_liveness Sample.env Sample.world
    Sample.initial [] 10 (Sample.login "secret") _ (by decide +kernel) trivial rfl
  exact ⟨a, r, s, hu, hjti, hlive [] 20 trivial (by decide +kernel)⟩

end VideoSite.Users
