import VideoSite.Users.Activity

/-!
# What is said about devices that were signed out

A session is live until it is revoked or expires.  `list_active_for_user` looks at both, and
the updates that sign devices out only at the first: `revoke_all_for_user` counts every
session that was not revoked, and `revoke` does not say whether it matched one.

* `signedOut_iff` says when such a count is the number of devices that were live.
* `signed_out_count_iff` is the result about every call that reports a count.
-/

namespace VideoSite.Users

open Effects Program

variable {env : Env} {t : Time} {w : World}

/-! ## Live sessions -/

/-- `list_active_for_user`. -/
def Db.listActiveForUser (db : Db) (t : Time) (u : UserId) : List AuthSession :=
  ((db.sessions.filter (Statement.revokeAllWhere u none)).insertionSort
    fun a b => b.id ≤ a.id).filter (·.isValid t)

/-- It is what the repository answers. -/
theorem Statement.exec_listActiveForUser (supply : Supply) (rows : List RowKey) (db : Db)
    (tx : Tx) (u : UserId) :
    ((Statement.sessionsListActiveForUser u).exec supply t rows db tx).2 =
      db.listActiveForUser t u := rfl

theorem Db.mem_listActiveForUser {db : Db} {u : UserId} {s : AuthSession} :
    s ∈ db.listActiveForUser t u ↔
      s ∈ db.sessions ∧ s.userId = u ∧ s.revokedAt = none ∧ t < s.expiresAt := by
  unfold Db.listActiveForUser
  rw [List.mem_filter, List.mem_insertionSort, List.mem_filter]
  simp only [Statement.revokeAllWhere, AuthSession.isValid, AuthSession.isRevoked,
    AuthSession.notExpired, Option.all_none, Bool.and_true, Bool.and_eq_true, beq_iff_eq,
    Option.isNone_iff_eq_none, Bool.not_eq_true', decide_eq_true_eq]
  constructor
  · rintro ⟨⟨hmem, howner, hlive⟩, -, hexpires⟩
    exact ⟨hmem, howner, hlive, hexpires⟩
  · rintro ⟨hmem, howner, hlive, hexpires⟩
    exact ⟨⟨hmem, howner, hlive⟩, by rw [hlive]; rfl, hexpires⟩

/-- A spared session is left out of the count. -/
def spared (exceptJti : Option String) (s : AuthSession) : Bool :=
  decide (exceptJti = some s.jti)

/-- `k` devices of `u` were signed out at `t`: all that were live except the spared one, and
nobody else's. -/
structure SignedOut (db db' : Db) (t : Time) (u : UserId) (exceptJti : Option String)
    (k : Nat) : Prop where
  count : k = ((db.listActiveForUser t u).filter fun s => !spared exceptJti s).length
  left : ∀ moment, ∀ s ∈ db'.listActiveForUser moment u, spared exceptJti s = true
  others : (db'.sessions.filter fun s => s.userId ≠ u) =
    db.sessions.filter fun s => s.userId ≠ u

/-- No session of `u` has run out of its time without having been revoked, apart from the
spared one. -/
def NoneLapsed (db : Db) (t : Time) (u : UserId) (exceptJti : Option String) : Prop :=
  ∀ s ∈ db.sessions, s.userId = u → s.revokedAt = none → exceptJti ≠ some s.jti →
    t < s.expiresAt

theorem revokeAllWhere_eq {u : UserId} {exceptJti : Option String} (s : AuthSession) :
    Statement.revokeAllWhere u exceptJti s =
      (Statement.revokeAllWhere u none s && !spared exceptJti s) := by
  unfold Statement.revokeAllWhere spared
  cases exceptJti with
  | none => simp
  | some jti =>
    by_cases hjti : s.jti = jti
    · simp [hjti]
    · simp [hjti, Ne.symm hjti]

/-- The devices that were live are among those that are counted. -/
theorem length_listActiveForUser (db : Db) (u : UserId) (exceptJti : Option String) :
    ((db.listActiveForUser t u).filter fun s => !spared exceptJti s).length =
      ((db.sessions.filter (Statement.revokeAllWhere u exceptJti)).filter
        (·.isValid t)).length := by
  have hperm : (((db.sessions.filter (Statement.revokeAllWhere u none)).insertionSort
      fun a b => b.id ≤ a.id).filter (·.isValid t)).Perm
        ((db.sessions.filter (Statement.revokeAllWhere u none)).filter (·.isValid t)) :=
    (List.perm_insertionSort _ _).filter _
  have hcount := (hperm.filter fun s => !spared exceptJti s).length_eq
  unfold Db.listActiveForUser
  rw [hcount, List.filter_filter, List.filter_filter, List.filter_filter]
  refine congrArg List.length (List.filter_congr fun s _ => ?_)
  have hcond := @revokeAllWhere_eq u exceptJti s
  rw [hcond]
  cases Statement.revokeAllWhere u none s <;> cases spared exceptJti s <;>
    cases s.isValid t <;> rfl

theorem length_filter_eq_iff {α : Type} {p : α → Bool} (items : List α) :
    items.length = (items.filter p).length ↔ ∀ a ∈ items, p a = true := by
  rw [eq_comm, List.length_filter_eq_length_iff]

/-- An update leaves a session alone that it does not match. -/
theorem AuthSession.revokeIn_of_not {db : Db} {supply : Supply} {n : Nat}
    (h : db.Sound supply n) {s : AuthSession} (hs : s ∈ db.sessions)
    {cond : AuthSession → Bool} (hcond : cond s = false) (moment : Time) :
    s.revokeIn (sessionIds db cond) moment = s := by
  have hrevoked := AuthSession.revokeIn_of_sound h hs cond moment
  rw [hcond, if_neg (by simp)] at hrevoked
  rw [AuthSession.revokeIn_rest, hrevoked]

/-- The count is the number of devices that were live, just if no session that is counted
has expired. -/
theorem signedOut_iff {db db' : Db} {supply : Supply} {n : Nat} (h : db.Sound supply n)
    {u : UserId} {exceptJti : Option String}
    (hdb' : db'.sessions =
      (db.revokeWhere (Statement.revokeAllWhere u exceptJti) t).sessions) :
    SignedOut db db' t u exceptJti
        (sessionIds db (Statement.revokeAllWhere u exceptJti)).length ↔
      NoneLapsed db t u exceptJti := by
  rw [Db.revokeWhere_sessions] at hdb'
  have hcount : (sessionIds db (Statement.revokeAllWhere u exceptJti)).length =
      ((db.listActiveForUser t u).filter fun s => !spared exceptJti s).length ↔
        NoneLapsed db t u exceptJti := by
    rw [length_listActiveForUser, sessionIds, List.length_map, length_filter_eq_iff]
    constructor
    · intro hvalid s hs howner hlive hexcept
      have hcond : Statement.revokeAllWhere u exceptJti s = true := by
        rw [revokeAllWhere_iff hlive]
        exact ⟨howner, fun jti hjti hsame => hexcept (hsame ▸ hjti)⟩
      have hs' := hvalid s (List.mem_filter.2 ⟨hs, hcond⟩)
      simpa [AuthSession.isValid, AuthSession.isRevoked, AuthSession.notExpired, hlive] using hs'
    · intro hlapsed s hs
      obtain ⟨hmem, hcond⟩ := List.mem_filter.1 hs
      have hlive : s.revokedAt = none := by
        have hall := hcond
        simp only [Statement.revokeAllWhere, Bool.and_eq_true, Option.isNone_iff_eq_none] at hall
        exact hall.1.2
      obtain ⟨howner, hother⟩ := (revokeAllWhere_iff hlive).1 hcond
      have hexpires := hlapsed s hmem howner hlive fun hexcept => hother _ hexcept rfl
      simp [AuthSession.isValid, AuthSession.isRevoked, AuthSession.notExpired, hlive, hexpires]
  constructor
  · intro hsigned
    exact hcount.1 hsigned.count
  · intro hlapsed
    refine ⟨hcount.2 hlapsed, ?_, ?_⟩
    · intro moment s hs
      obtain ⟨hmem, howner, hlive, -⟩ := Db.mem_listActiveForUser.1 hs
      rw [hdb'] at hmem
      obtain ⟨old, hold, rfl⟩ := List.mem_map.1 hmem
      obtain ⟨hsame, hunrevoked⟩ := AuthSession.revokedAt_of_revokeIn _ _ _ hlive
      rw [AuthSession.revokeIn_userId] at howner
      by_contra hnot
      have hcond : Statement.revokeAllWhere u exceptJti old = true := by
        rw [revokeAllWhere_iff hunrevoked]
        refine ⟨howner, fun jti hjti hjti' => hnot ?_⟩
        unfold spared
        rw [AuthSession.revokeIn_jti, hjti', hjti]
        exact decide_eq_true rfl
      exact AuthSession.revokedAt_revokeIn_ne_none hold hcond t hlive
    · rw [hdb', List.filter_map]
      have hfilter : (db.sessions.filter
          ((fun s : AuthSession => decide (s.userId ≠ u)) ∘ fun s =>
            s.revokeIn (sessionIds db (Statement.revokeAllWhere u exceptJti)) t)) =
          db.sessions.filter fun s => s.userId ≠ u := by
        refine List.filter_congr fun s _ => ?_
        rw [Function.comp_apply, AuthSession.revokeIn_userId]
      rw [hfilter]
      conv_rhs => rw [← List.map_id' (db.sessions.filter fun s => s.userId ≠ u)]
      refine List.map_congr_left fun s hs => ?_
      obtain ⟨hmem, howner⟩ := List.mem_filter.1 hs
      have hother : s.userId ≠ u := by simpa using howner
      have hcond : Statement.revokeAllWhere u exceptJti s = false := by
        simp [Statement.revokeAllWhere, hother]
      exact AuthSession.revokeIn_of_not h hmem hcond t

/-! ## Calls that report a count -/

/-- Whose devices a call signs out, and which session it spares. -/
def Call.signsOut (env : Env) (w : World) : Call → Option (UserId × Option String)
  | .revokeAllSessions u exceptJti _ => some (u, exceptJti)
  | .changePassword u _ _ => some (u, none)
  | .resetPassword data _ =>
      (w.db.tokenByHash (env.tokenHash data.token) .passwordReset).map fun token =>
        (token.userId, none)
  | .banUser _ u _ _ => some (u, none)
  | .deleteUser u _ => some (u, none)
  | _ => none

/-- The sessions of `u` that are not revoked, without the spared one. -/
def unrevokedCount (db : Db) (u : UserId) (exceptJti : Option String) : Nat :=
  (sessionIds db (Statement.revokeAllWhere u exceptJti)).length

/-- A call leaves the database as it was and reports no count; or it revokes what is not
revoked, and reports how many that were, in an audit row and, if it answers a count, there. -/
def Reports (w : World) (t : Time) (u : UserId) (exceptJti : Option String) (w' : World)
    (out : Except Failure Answer) : Prop :=
  (w'.db = w.db ∧ ∀ k, out ≠ .ok (.count k)) ∨
  ∃ row, w'.db.auditLogs = w.db.auditLogs ++ [row] ∧ row.userId = some u ∧
    row.metadata.lookup "sessions_revoked" = some (.int (unrevokedCount w.db u exceptJti)) ∧
    w'.db.sessions = (w.db.revokeWhere (Statement.revokeAllWhere u exceptJti) t).sessions ∧
    ∀ k, out = .ok (.count k) → k = unrevokedCount w.db u exceptJti

/-- An error without a commit. -/
theorem Reports.failed {u : UserId} {exceptJti : Option String} {w' : World} {e : Failure}
    (h : w'.db = w.db) : Reports w t u exceptJti w' (.error e) :=
  .inl ⟨h, fun k hk => by cases hk⟩

/-- The revocation and its audit row, after changes that leave sessions and log alone. -/
theorem Reports.reported {u : UserId} {exceptJti : Option String} {w' : World}
    {out : Except Failure Answer} {before : Db} {row : AuditEvent}
    (hsessions : before.sessions = w.db.sessions) (hlogs : before.auditLogs = w.db.auditLogs)
    (hdb : w'.db = (before.revokeWhere (Statement.revokeAllWhere u exceptJti) t).log row)
    (huser : row.userId = some u)
    (hmetadata : row.metadata.lookup "sessions_revoked" =
      some (.int (unrevokedCount before u exceptJti)))
    (hout : ∀ k, out = .ok (.count k) → k = unrevokedCount before u exceptJti) :
    Reports w t u exceptJti w' out := by
  have hids : sessionIds before (Statement.revokeAllWhere u exceptJti) =
      sessionIds w.db (Statement.revokeAllWhere u exceptJti) := by
    unfold sessionIds
    rw [hsessions]
  have hcount : unrevokedCount before u exceptJti = unrevokedCount w.db u exceptJti :=
    congrArg List.length hids
  rw [hcount] at hmetadata hout
  refine .inr ⟨row, ?_, huser, hmetadata, ?_, hout⟩
  · rw [hdb, Db.log_auditLogs, Db.revokeWhere_auditLogs, hlogs]
  · rw [hdb]
    show (before.revokeWhere _ t).sessions = _
    rw [Db.revokeWhere_sessions, Db.revokeWhere_sessions, hids, hsessions]

theorem revokeAllSessions_reports (u : UserId) (exceptJti : Option String)
    (device : Option DeviceInfoDTO) :
    wp (handler env t) ((Call.revokeAllSessions u exceptJti device).program env)
      (fun s out => Reports w t u exceptJti s.1 out) (w, Tx.fresh w.calls) := by
  simp only [Call.program, Users.revokeAllSessions]
  simp [Except.map, Reports.failed]
  refine fun _ => .reported rfl rfl rfl rfl rfl ?_
  intro k hk
  cases hk
  rfl

theorem changePassword_reports (u : UserId) (data : ChangePasswordDTO)
    (device : Option DeviceInfoDTO) :
    wp (handler env t) ((Call.changePassword u data device).program env)
      (fun s out => Reports w t u none s.1 out) (w, Tx.fresh w.calls) := by
  simp only [Call.program, Users.changePassword]
  simp [Except.map, Reports.failed]
  intro _ user _ _ _ row _ _
  refine .reported ?_ ?_ rfl rfl rfl ?_
  · simp
  · simp
  · intro k hk
    cases hk
    rfl

theorem deleteUser_reports (u : UserId) (device : Option DeviceInfoDTO) :
    wp (handler env t) ((Call.deleteUser u device).program env)
      (fun s out => Reports w t u none s.1 out) (w, Tx.fresh w.calls) := by
  simp only [Call.program, Users.deleteUser]
  simp [Except.map, Reports.failed]
  intro user _ row _ _ _
  refine .reported ?_ ?_ rfl rfl rfl ?_
  · simp
  · simp
  · intro k hk
    cases hk

theorem banUser_reports (actor : User) (u : UserId) (reason : Option String)
    (device : Option DeviceInfoDTO) :
    wp (handler env t) ((Call.banUser actor u reason device).program env)
      (fun s out => Reports w t u none s.1 out) (w, Tx.fresh w.calls) := by
  simp only [Call.program, Users.banUser, BanUserUseCase.deactivate, forgetIfChanged]
  simp [Except.map, Reports.failed]
  intro _ user _ _
  refine ⟨fun _ row _ _ _ => ?_, fun _ => .inl ⟨rfl, fun k hk => by cases hk⟩⟩
  refine .reported ?_ ?_ rfl rfl rfl ?_
  · simp
  · simp
  · intro k hk
    cases hk

theorem resetPassword_reports {data : ResetPasswordDTO} {token : SecurityToken}
    (htoken : w.db.tokenByHash (env.tokenHash data.token) .passwordReset = some token)
    (device : Option DeviceInfoDTO) :
    wp (handler env t) ((Call.resetPassword data device).program env)
      (fun s out => Reports w t token.userId none s.1 out) (w, Tx.fresh w.calls) := by
  simp only [Call.program, Users.resetPassword, ResetPasswordUseCase.checkRateLimit, monad_bind,
    wp_map, wp_bind]
  refine wp_chargeIpOrRefuse ?_ fun e => .failed rfl
  simp [Except.map, Reports.failed, htoken]
  intro _ _ user huser _ row _ _
  obtain ⟨hid, -⟩ := userById_row huser
  rw [← hid]
  refine .reported ?_ ?_ rfl rfl rfl ?_
  · simp
  · simp
  · intro k hk
    cases hk

/-- Every call that signs devices out reports. -/
theorem Call.reports {c : Call} {u : UserId} {exceptJti : Option String}
    (h : c.signsOut env w = some (u, exceptJti)) :
    Reports w t u exceptJti (runCall env w t c).1 (runCall env w t c).2 := by
  have hrun : wp (handler env t) (c.program env)
      (fun s out => Reports w t u exceptJti s.1 out) (w, Tx.fresh w.calls) := by
    cases c with
    | revokeAllSessions v except device =>
      cases h
      exact revokeAllSessions_reports _ _ _
    | changePassword v data device =>
      cases h
      exact changePassword_reports _ _ _
    | resetPassword data device =>
      obtain ⟨token, htoken, he⟩ := Option.map_eq_some_iff.1 h
      cases he
      exact resetPassword_reports htoken _
    | banUser actor v reason device =>
      cases h
      exact banUser_reports _ _ _ _
    | deleteUser v device =>
      cases h
      exact deleteUser_reports _ _
    | _ => cases h
  exact hrun

/-! ## The counts -/

/-- In every reachable state, the count of a bulk sign-out is the number of devices that
were live, all of them but the spared one are signed out after it and nobody else's, just if
no session of the account but the spared one has expired without having been revoked; and
so it is of every call that signs devices out and of the audit row it appends. -/
theorem signed_out_count_iff (env : Env) (w₀ : World) (hinit : Initial env w₀)
    (calls : Calls) :
    (∀ t u exceptJti n,
      let w := runCalls env w₀ calls
      let s := Statement.sessionsRevokeAllForUser u t exceptJti
      let r := s.exec env.supply t (s.targets w.db) w.db (Tx.fresh n)
      SignedOut w.db (r.1.view w.db) t u exceptJti r.2 ↔ NoneLapsed w.db t u exceptJti) ∧
    ∀ t c u exceptJti,
      let w := runCalls env w₀ calls
      let w' := (runCall env w t c).1
      let answer := (runCall env w t c).2
      c.signsOut env w = some (u, exceptJti) →
      (w'.db.auditLogs ≠ w.db.auditLogs ∨ ∃ k, answer = .ok (.count k)) →
      ∃ row k, w'.db.auditLogs = w.db.auditLogs ++ [row] ∧ row.userId = some u ∧
        row.metadata.lookup "sessions_revoked" = some (.int k) ∧
        (∀ k', answer = .ok (.count k') → k' = k) ∧
        (SignedOut w.db w'.db t u exceptJti k ↔ NoneLapsed w.db t u exceptJti) := by
  have hsound := (runCalls_wf hinit.wf calls).db
  constructor
  · intro t u exceptJti n w s r
    have hcount : r.2 = (sessionIds w.db (Statement.revokeAllWhere u exceptJti)).length := by
      simp [r, s, Statement.exec, Statement.targets, filterMap_sessionKeys]
    have hview : (r.1.view w.db).sessions =
        (w.db.revokeWhere (Statement.revokeAllWhere u exceptJti) t).sessions := by
      simp [r, s, Statement.exec, Statement.targets, filterMap_sessionKeys]
    rw [hcount]
    exact signedOut_iff hsound hview
  · intro t c u exceptJti w w' answer hsigns hdone
    rcases Call.reports (t := t) hsigns with ⟨hdb, hanswer⟩ | hreported
    · rcases hdone with hlogs | ⟨k, hk⟩
      · exact absurd (congrArg Db.auditLogs hdb) hlogs
      · exact absurd hk (hanswer k)
    · obtain ⟨row, hlogs, huser, hmetadata, hsessions, hcount⟩ := hreported
      exact ⟨row, unrevokedCount w.db u exceptJti, hlogs, huser, hmetadata, hcount,
        signedOut_iff hsound hsessions⟩

/-- Alice has logged in, and signs all her devices out. -/
theorem signed_out_count_alice :
    ∃ row k, (runCall Sample.env Sample.loggedIn 11
          (.revokeAllSessions 1 none none)).1.db.auditLogs =
        Sample.loggedIn.db.auditLogs ++ [row] ∧ row.userId = some 1 ∧
      row.metadata.lookup "sessions_revoked" = some (.int (k : Nat)) ∧
      (∀ k', (runCall Sample.env Sample.loggedIn 11 (.revokeAllSessions 1 none none)).2 =
        .ok (.count k') → k' = k) ∧
      (SignedOut Sample.loggedIn.db
          (runCall Sample.env Sample.loggedIn 11 (.revokeAllSessions 1 none none)).1.db 11 1 none
          k ↔
        NoneLapsed Sample.loggedIn.db 11 1 none) := by
  have hlogged : (runCall Sample.env Sample.loggedIn 11
      (.revokeAllSessions 1 none none)).1.db.auditLogs ≠ Sample.loggedIn.db.auditLogs := by
    decide +kernel
  exact (signed_out_count_iff Sample.env Sample.world Sample.initial
    [(10, Sample.login "secret")]).2 11 (.revokeAllSessions 1 none none) 1 none rfl (.inl hlogged)

/-- Alice logged in at 10 and again at 4000, when her first session had expired.  Then she
signs her devices out: she is told of two, and one was live. -/
theorem signed_out_count_lapsed :
    let w := runCalls Sample.env Sample.world
      [(10, Sample.login "secret"), (4000, Sample.login "secret")]
    (runCall Sample.env w 4001 (.revokeAllSessions 1 none none)).2 = .ok (.count 2) ∧
      ¬ SignedOut w.db (runCall Sample.env w 4001 (.revokeAllSessions 1 none none)).1.db 4001 1
        none 2 := by
  intro w
  have hlive : ((w.db.listActiveForUser 4001 1).filter fun s => !spared none s).length = 1 := by
    decide +kernel
  constructor
  · decide +kernel
  · intro h
    have hcount := h.count
    rw [hlive] at hcount
    omega

end VideoSite.Users
