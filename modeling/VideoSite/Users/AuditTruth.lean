import VideoSite.Users.Conflicts
import VideoSite.Users.SignOuts

/-!
# What the audit log says of a sign-out

`RevokeUserSession` and `Logout` send an update that revokes a session, and append an audit
row in the same transaction.  The update does not say whether it matched anything, and the
row is appended in any case.

* `revokeUserSession_done` and `logout_done` say exactly what the two calls do.
* `sign_out_logged_iff` says when their rows are true.
-/

namespace VideoSite.Users

open Effects Program

variable {env : Env} {t : Time} {w w' : World}

/-! ## Rows and revocations -/

/-- A call has appended an audit row of this kind. -/
def Appends (w w' : World) (p : AuditEvent → Prop) : Prop :=
  ∃ rows, w'.db.auditLogs = w.db.auditLogs ++ rows ∧ ∃ row ∈ rows, p row

/-- A call has turned a session of this kind from unrevoked to revoked. -/
def TurnsRevoked (w w' : World) (p : AuthSession → Prop) : Prop :=
  ∃ s ∈ w.db.sessions, p s ∧ s.revokedAt = none ∧
    ∃ s' ∈ w'.db.sessions, s'.id = s.id ∧ s'.revokedAt ≠ none

/-- The row of a sign-out of one session. -/
def IsSignOutOf (id : SessionId) (row : AuditEvent) : Prop :=
  row.action = .sessionRevoked ∧ row.metadata.lookup "scope" = some (.str "one") ∧
    row.metadata.lookup "session_id" = some (.int id)

instance (id : SessionId) (row : AuditEvent) : Decidable (IsSignOutOf id row) :=
  inferInstanceAs (Decidable (_ ∧ _ ∧ _))

/-- Nothing is appended where the database stays as it was. -/
theorem not_appends (h : w'.db = w.db) {p : AuditEvent → Prop} : ¬ Appends w w' p := by
  rintro ⟨rows, hlogs, row, hrow, -⟩
  rw [h] at hlogs
  have hnil : rows = [] := List.self_eq_append_right.1 hlogs
  rw [hnil] at hrow
  cases hrow

theorem not_turnsRevoked (hw : w.Wf env) (h : w'.db = w.db) {p : AuthSession → Prop} :
    ¬ TurnsRevoked w w' p := by
  rintro ⟨s, hs, -, hlive, s', hs', hid, hrevoked⟩
  rw [h] at hs'
  rw [hw.db.session_unique hs' hs hid] at hrevoked
  exact hrevoked hlive

/-- The row that is appended is the one that was asked for. -/
theorem appends_of_log {db : Db} {row : AuditEvent} {p : AuditEvent → Prop}
    (hdb : w'.db = db.log row) (hlogs : db.auditLogs = w.db.auditLogs) (hrow : p row) :
    Appends w w' p := by
  refine ⟨[row], ?_, row, List.mem_singleton_self _, hrow⟩
  rw [hdb, Db.log_auditLogs, hlogs]

/-- An update turns the sessions that it matches, and no others. -/
theorem turnsRevoked_iff (hw : w.Wf env) {cond : AuthSession → Bool} {row : AuditEvent}
    (hdb : w'.db = (w.db.revokeWhere cond t).log row) {p : AuthSession → Prop} :
    TurnsRevoked w w' p ↔
      ∃ s ∈ w.db.sessions, p s ∧ s.revokedAt = none ∧ cond s = true := by
  have hsessions : w'.db.sessions =
      w.db.sessions.map fun s => s.revokeIn (sessionIds w.db cond) t := by
    rw [hdb]
    exact Db.revokeWhere_sessions _ _ _
  constructor
  · rintro ⟨s, hs, hp, hlive, s', hs', hid, hrevoked⟩
    refine ⟨s, hs, hp, hlive, ?_⟩
    rw [hsessions] at hs'
    obtain ⟨old, hold, rfl⟩ := List.mem_map.1 hs'
    rw [AuthSession.revokeIn_id] at hid
    obtain rfl := hw.db.session_unique hold hs hid
    by_contra hcond
    have hsame := AuthSession.revokeIn_of_not hw.db hs (by simpa using hcond) t
    rw [hsame] at hrevoked
    exact hrevoked hlive
  · rintro ⟨s, hs, hp, hlive, hcond⟩
    refine ⟨s, hs, hp, hlive, s.revokeIn (sessionIds w.db cond) t, ?_, ?_, ?_⟩
    · rw [hsessions]
      exact List.mem_map_of_mem hs
    · exact AuthSession.revokeIn_id _ _ _
    · exact AuthSession.revokedAt_revokeIn_ne_none hs hcond t

/-- Looking a session up by its id finds it. -/
theorem Db.Sound.sessionById_of_mem {db : Db} {supply : Supply} {n : Nat}
    (h : db.Sound supply n) {s : AuthSession} (hs : s ∈ db.sessions) {id : SessionId}
    (hid : s.id = id) :
    db.sessionById id = some s := by
  have hfound : (db.sessionById id).isSome := by
    rw [Db.sessionById, List.find?_isSome]
    exact ⟨s, hs, by simpa using hid⟩
  cases hsession : db.sessionById id with
  | none =>
    rw [hsession] at hfound
    cases hfound
  | some session =>
    have hsame : session.id = id := by simpa using List.find?_some hsession
    have hmem : session ∈ db.sessions := List.mem_of_find?_eq_some hsession
    rw [h.session_unique hs hmem (hid.trans hsame.symm)]

/-! ## The two calls -/

/-- `RevokeUserSession` finds a session of its caller, revokes it and says so; or it fails. -/
theorem revokeUserSession_done (h : w.Ready env) (u : UserId) (id : SessionId)
    (device : Option DeviceInfoDTO) :
    let r := runCall env w t (.revokeUserSession u id device)
    (∃ session row, w.db.sessionById id = some session ∧ session.userId = u ∧
        r.1.db = (w.db.revokeWhere (Statement.revokeWhere session.jti) t).log row ∧
        IsSignOutOf id row ∧ r.2 = .ok .done) ∨
      (∀ session, w.db.sessionById id = some session → session.userId ≠ u) ∧
        r.1.db = w.db := by
  have hrun : wp (handler env t) ((Call.revokeUserSession u id device).program env)
      (fun s out =>
        (∃ session row, w.db.sessionById id = some session ∧ session.userId = u ∧
          s.1.db = (w.db.revokeWhere (Statement.revokeWhere session.jti) t).log row ∧
          IsSignOutOf id row ∧ out = .ok .done) ∨
        (∀ session, w.db.sessionById id = some session → session.userId ≠ u) ∧
          s.1.db = w.db) (w, Tx.fresh w.calls) := by
    simp only [Call.program, revokeUserSession]
    simp [Except.map]
    intro session hsession howner
    have hknown := h.wf.db.sessionOwners session (List.mem_of_find?_eq_some hsession)
    rw [howner] at hknown
    refine ⟨fun _ => .inl ⟨session, hsession, howner, _, rfl, rfl, rfl, rfl⟩, ?_⟩
    intro broken hbroken
    rw [Db.accepts_audit_of_known (u := u) (by simpa using hknown) rfl] at hbroken
    cases hbroken
  exact hrun

/-- `Logout` revokes the session of a token that decodes, and says that it has. -/
theorem logout_done (h : w.Ready env) {token : Token} {payload : TokenPayload}
    (hdecode : JwtTokenService.decode w.signed t token = .ok payload)
    (device : Option DeviceInfoDTO) :
    ∃ row, (runCall env w t (.logout token device)).1.db =
        (w.db.revokeWhere (Statement.revokeWhere payload.jti) t).log row ∧
      row.action = .logout ∧ row.userId = some payload.userId := by
  have hrun : wp (handler env t) ((Call.logout token device).program env)
      (fun s _ => ∃ row, s.1.db =
          (w.db.revokeWhere (Statement.revokeWhere payload.jti) t).log row ∧
        row.action = .logout ∧ row.userId = some payload.userId) (w, Tx.fresh w.calls) := by
    obtain ⟨c, rfl, hs, ht, rfl⟩ := decode_eq_ok.1 hdecode
    simp only [Call.program, Users.logout, monad_bind, wp_map, wp_bind]
    rw [wp_ask, andThen_ok]
    simp only [Machine.alone, perform, hdecode]
    simp
    refine ⟨fun _ => ⟨_, rfl, rfl, rfl⟩, fun broken hbroken => ?_⟩
    have hknown := h.signedKnown c hs
    rw [Db.accepts_audit_of_known (u := c.sub) (by simpa using hknown) rfl] at hbroken
    cases hbroken
  exact hrun

/-! ## When the rows are true -/

/-- The sign-out of one session is logged just if it happened, and signing out a session that
was revoked before succeeds. -/
def SignOutLogged (w w' : World) (u : UserId) (id : SessionId)
    (answer : Except Failure Answer) : Prop :=
  (Appends w w' (IsSignOutOf id) ↔ TurnsRevoked w w' fun s => s.id = id) ∧
    ∀ s ∈ w.db.sessions, s.id = id → s.userId = u → s.revokedAt ≠ none → answer = .ok .done

/-- In every reachable state, `RevokeUserSession` logs a sign-out just if it happened, just if
the session is not one of its caller's that was revoked before; and `Logout` of a token that
decodes does, just if the session of the token is there and was not. -/
theorem sign_out_logged_iff (env : Env) (w₀ : World) (hinit : Initial env w₀)
    (calls : Calls) :
    let w := runCalls env w₀ calls
    (∀ t u id device,
      let r := runCall env w t (.revokeUserSession u id device)
      SignOutLogged w r.1 u id r.2 ↔
        ∀ s ∈ w.db.sessions, s.id = id → s.userId = u → s.revokedAt = none) ∧
    ∀ t token payload device, JwtTokenService.decode w.signed t token = .ok payload →
      let w' := (runCall env w t (.logout token device)).1
      ((Appends w w' fun row => row.action = .logout) ↔ TurnsRevoked w w' fun _ => True) ↔
        ∃ s ∈ w.db.sessions, s.jti = payload.jti ∧ s.revokedAt = none := by
  intro w
  have hready : w.Ready env := hinit.ready.runCalls calls
  constructor
  · intro t u id device r
    rcases revokeUserSession_done (t := t) hready u id device with
      ⟨session, row, hsession, howner, hdb, hrow, hanswer⟩ | ⟨hnone, hdb⟩
    · -- the session is the caller's: the row is there
      have hmem : session ∈ w.db.sessions := List.mem_of_find?_eq_some hsession
      have hid : session.id = id := by simpa using List.find?_some hsession
      have happends : Appends w r.1 (IsSignOutOf id) := appends_of_log hdb rfl hrow
      have hturns : TurnsRevoked w r.1 (fun s => s.id = id) ↔ session.revokedAt = none := by
        rw [turnsRevoked_iff hready.wf hdb]
        constructor
        · rintro ⟨s, hs, hsid, hlive, -⟩
          rwa [← hready.wf.db.session_unique hs hmem (hsid.trans hid.symm)]
        · intro hlive
          exact ⟨session, hmem, hid, hlive, (revokeWhere_iff hlive).2 rfl⟩
      constructor
      · rintro ⟨hlogged, -⟩ s hs hsid -
        rw [hready.wf.db.session_unique hs hmem (hsid.trans hid.symm)]
        exact hturns.1 (hlogged.1 happends)
      · intro hlive
        refine ⟨iff_of_true happends (hturns.2 (hlive session hmem hid howner)), ?_⟩
        intro _ _ _ _ _
        exact hanswer
    · have hother : ∀ s ∈ w.db.sessions, s.id = id → s.userId ≠ u := by
        intro s hs hsid
        exact hnone s (hready.wf.db.sessionById_of_mem hs hsid)
      constructor
      · intro _ s hs hsid howner
        exact absurd howner (hother s hs hsid)
      · intro _
        refine ⟨iff_of_false (not_appends hdb) (not_turnsRevoked hready.wf hdb), ?_⟩
        intro s hs hsid howner
        exact absurd howner (hother s hs hsid)
  · intro t token payload device hdecode w'
    obtain ⟨row, hdb, haction, -⟩ := logout_done hready hdecode device
    have happends : Appends w w' fun row => row.action = .logout :=
      appends_of_log hdb rfl haction
    rw [iff_true_left happends, turnsRevoked_iff hready.wf hdb]
    constructor
    · rintro ⟨s, hs, -, hlive, hcond⟩
      exact ⟨s, hs, (revokeWhere_iff hlive).1 hcond, hlive⟩
    · rintro ⟨s, hs, hjti, hlive⟩
      exact ⟨s, hs, trivial, hlive, (revokeWhere_iff hlive).2 hjti⟩

/-- Alice has logged in, and signs that session out: by its number, or with its token. -/
theorem sign_out_logged_alice :
    (SignOutLogged Sample.loggedIn
        (runCall Sample.env Sample.loggedIn 11 (.revokeUserSession 1 1001 none)).1 1 1001
        (runCall Sample.env Sample.loggedIn 11 (.revokeUserSession 1 1001 none)).2 ↔
      ∀ s ∈ Sample.loggedIn.db.sessions, s.id = 1001 → s.userId = 1 → s.revokedAt = none) ∧
    (((Appends Sample.loggedIn
          (runCall Sample.env Sample.loggedIn 11 (.logout Sample.access none)).1
          fun row => row.action = .logout) ↔
        TurnsRevoked Sample.loggedIn
          (runCall Sample.env Sample.loggedIn 11 (.logout Sample.access none)).1
          fun _ => True) ↔
      ∃ s ∈ Sample.loggedIn.db.sessions, s.jti = "b" ∧ s.revokedAt = none) := by
  have hdecode : JwtTokenService.decode Sample.loggedIn.signed 11 Sample.access =
      .ok ⟨1, "b", .access, 1810⟩ := by
    decide +kernel
  have h := sign_out_logged_iff Sample.env Sample.world Sample.initial
    [(10, Sample.login "secret")]
  exact ⟨h.1 11 1 1001 none, h.2 11 Sample.access _ none hdecode⟩

/-- Alice signs the same session out twice.  The second call changes nothing about it, and is
logged like the first. -/
theorem sign_out_logged_twice :
    let w := (runCall Sample.env Sample.loggedIn 11 (.revokeUserSession 1 1001 none)).1
    let r := runCall Sample.env w 12 (.revokeUserSession 1 1001 none)
    r.1.db.sessions = w.db.sessions ∧ Appends w r.1 (IsSignOutOf 1001) ∧
      ¬ SignOutLogged w r.1 1 1001 r.2 := by
  intro w r
  have hsessions : r.1.db.sessions = w.db.sessions := by decide +kernel
  have hrevoked : ∀ s ∈ w.db.sessions, s.revokedAt ≠ none := by decide +kernel
  have happends : Appends w r.1 (IsSignOutOf 1001) := by
    refine ⟨r.1.db.auditLogs.drop w.db.auditLogs.length, by decide +kernel, ?_⟩
    decide +kernel
  refine ⟨hsessions, happends, fun h => ?_⟩
  have hturns : TurnsRevoked w r.1 fun s => s.id = 1001 := h.1.1 happends
  obtain ⟨s, hs, -, hlive, -⟩ := hturns
  exact hrevoked s hs hlive

end VideoSite.Users
