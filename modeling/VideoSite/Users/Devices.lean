import VideoSite.Users.Lifetime
import VideoSite.Users.SignOuts

/-!
# The devices page

`GET /users/me/sessions` shows an account where it is signed in, and marks the device that
asks.  From there a user signs out one device, all of them, or all the others.

* `devices_page` says what the page shows in every reachable state.
* `AccountEndpoint.signsOut` is what a request promises to sign out, and `ends_of_serve` that
  it does this and no more.
* `signed_out_devices_stay_off` follows such a request through the life of the service: no
  page that is answered later shows a device that was signed out.
-/

namespace VideoSite.Users

open Effects Program

variable {env : Env} {w : World} {t t' t'' : Time}

/-! ## The page -/

/-- `SessionStatus`. -/
inductive SessionStatus where
  | active
  | revoked
  | expired
  deriving DecidableEq, Repr

/-- The text of a status. -/
def SessionStatus.value : SessionStatus → String
  | .active => "active"
  | .revoked => "revoked"
  | .expired => "expired"

/-- `AuthSession.status`: it is derived, never stored. -/
def AuthSession.status (s : AuthSession) (now : Time) : SessionStatus :=
  if s.isRevoked then .revoked
  else if !s.notExpired now then .expired
  else .active

/-- One live login, as it is shown in "your devices". -/
structure SessionSummary where
  id : SessionId
  status : String
  createdAt : Time
  expiresAt : Time
  lastSeenAt : Option Time
  userAgent : Option String
  ipAddress : Option String
  device : Option String
  current : Bool
  deriving DecidableEq, Repr

/-- `to_session_summary`, at the time `now` of the response. -/
def toSessionSummary (currentJti : Option String) (now : Time) (session : AuthSession) :
    SessionSummary where
  id := session.id
  status := (session.status now).value
  createdAt := session.createdAt
  expiresAt := session.expiresAt
  lastSeenAt := session.lastSeenAt
  userAgent := session.userAgent
  ipAddress := session.ipAddress
  device := session.device
  current := decide (currentJti = some session.jti)

/-- The sessions of an answer. -/
def Answer.sessionList : Answer → List AuthSession
  | .sessions found => found
  | _ => []

/-- `list_my_sessions`: the request is authenticated at `t` and carried out at `t'`, and its
answer is written at `t''`.  `current_jti` is the `jti` of the token. -/
def listMySessions (env : Env) (w : World) (t t' t'' : Time) (token : Token)
    (device : DeviceInfoDTO) : World × Except Failure (List SessionSummary) :=
  let r := (Request.account .listMySessions (some token) device).serve env w t t'
  (r.1, r.2.bind fun answer =>
    (JwtTokenService.decode w.signed t' token).map fun payload =>
      answer.sessionList.map (toSessionSummary (some payload.jti) t''))

/-- A status is `active` just while the session may be used. -/
theorem AuthSession.status_eq_active {s : AuthSession} {now : Time} :
    s.status now = .active ↔ s.isValid now = true := by
  unfold status isValid
  cases s.isRevoked <;> cases s.notExpired now <;> simp

theorem SessionStatus.value_injective {a b : SessionStatus} (h : a.value = b.value) :
    a = b := by
  cases a <;> cases b <;> simp_all [value]

/-! ## What the page shows -/

/-- The page of the account of `session`, read at `t'` and written at `t''` for a token of
`session`. -/
structure DevicesPage (db : Db) (session : AuthSession) (t' t'' : Time)
    (page : List SessionSummary) : Prop where
  rows : ∀ row ∈ page, ∃ s ∈ db.sessions, row = toSessionSummary (some session.jti) t'' s
  listed : ∀ s ∈ db.sessions, s.id ∈ page.map (·.id) ↔
    s.userId = session.userId ∧ s.revokedAt = none ∧ t' < s.expiresAt
  ordered : page.Pairwise fun a b => b.id < a.id
  current : ∀ row ∈ page, row.current = true ↔ row.id = session.id
  status : ∀ row ∈ page, row.status = SessionStatus.active.value ↔ t'' < row.expiresAt

/-- Sessions are listed by descending id. -/
theorem Db.listActiveForUser_ordered {db : Db} {supply : Supply} {n : Nat}
    (h : db.Sound supply n) (t : Time) (u : UserId) :
    (db.listActiveForUser t u).Pairwise fun a b => b.id < a.id := by
  have hsorted : ((db.sessions.filter (Statement.revokeAllWhere u none)).insertionSort
      fun a b => b.id ≤ a.id).Pairwise fun a b => b.id ≤ a.id :=
    List.pairwise_insertionSort _ _
  have hdistinct : ((db.sessions.filter (Statement.revokeAllWhere u none)).insertionSort
      fun a b => b.id ≤ a.id).Pairwise fun a b => a.id ≠ b.id := by
    have hperm := List.perm_insertionSort (fun a b : AuthSession => b.id ≤ a.id)
      (db.sessions.filter (Statement.revokeAllWhere u none))
    have hids : ((db.sessions.filter (Statement.revokeAllWhere u none)).map
        AuthSession.id).Nodup :=
      h.sessionIds.sublist (List.filter_sublist.map _)
    exact List.pairwise_map.1 ((hperm.map AuthSession.id).nodup_iff.2 hids)
  refine List.Pairwise.filter _ ((hsorted.and hdistinct).imp fun both => ?_)
  exact lt_of_le_of_ne both.1 (Ne.symm both.2)

/-- The page of the sessions that `list_active_for_user` answers. -/
theorem devicesPage_of_list {db : Db} {supply : Supply} {n : Nat} (h : db.Sound supply n)
    {session : AuthSession} (hsession : session ∈ db.sessions) :
    DevicesPage db session t' t'' ((db.listActiveForUser t' session.userId).map
      (toSessionSummary (some session.jti) t'')) := by
  have hfound {row : SessionSummary} (hrow : row ∈ (db.listActiveForUser t' session.userId).map
      (toSessionSummary (some session.jti) t'')) :
      ∃ s ∈ db.sessions, s.revokedAt = none ∧
        toSessionSummary (some session.jti) t'' s = row := by
    obtain ⟨s, hs, he⟩ := List.mem_map.1 hrow
    have hlisted := Db.mem_listActiveForUser.1 hs
    exact ⟨s, hlisted.1, hlisted.2.2.1, he⟩
  refine ⟨fun row hrow => ?_, fun s hs => ?_, ?_, fun row hrow => ?_, fun row hrow => ?_⟩
  · obtain ⟨s, hs, -, he⟩ := hfound hrow
    exact ⟨s, hs, he.symm⟩
  · have hids : ((db.listActiveForUser t' session.userId).map
        (toSessionSummary (some session.jti) t'')).map (·.id) =
          (db.listActiveForUser t' session.userId).map (·.id) := by
      rw [List.map_map]
      rfl
    rw [hids]
    constructor
    · intro hid
      obtain ⟨other, hother, he⟩ := List.mem_map.1 hid
      obtain ⟨hmem, hlisted⟩ := Db.mem_listActiveForUser.1 hother
      rwa [← h.session_unique hmem hs he]
    · intro hlisted
      exact List.mem_map_of_mem (Db.mem_listActiveForUser.2 ⟨hs, hlisted⟩)
  · exact List.pairwise_map.2 (Db.listActiveForUser_ordered h t' session.userId)
  · obtain ⟨s, hs, -, rfl⟩ := hfound hrow
    show decide (some session.jti = some s.jti) = true ↔ s.id = session.id
    rw [decide_eq_true_iff, Option.some_inj]
    constructor
    · intro hjti
      rw [h.jti_unique hs hsession hjti.symm]
    · intro hid
      rw [h.session_unique hs hsession hid]
  · obtain ⟨s, -, hlive, rfl⟩ := hfound hrow
    show (s.status t'').value = _ ↔ t'' < s.expiresAt
    have hvalid : s.isValid t'' = true ↔ t'' < s.expiresAt := by
      simp [AuthSession.isValid, AuthSession.isRevoked, AuthSession.notExpired, hlive]
    rw [← hvalid, ← AuthSession.status_eq_active]
    exact ⟨SessionStatus.value_injective, fun h => congrArg _ h⟩

/-! ## The request behind it -/

/-- `ListUserSessions` answers what is live. -/
theorem runCall_listUserSessions (u : UserId) :
    (runCall env w t (.listUserSessions u)).2 = .ok (.sessions (w.db.listActiveForUser t u)) := by
  have hrun : wp (handler env t) ((Call.listUserSessions u).program env)
      (fun _ out => out = .ok (.sessions (w.db.listActiveForUser t u)))
      (w, Tx.fresh w.calls) := by
    simp only [Call.program, Users.listUserSessions]
    simp [Except.map, Db.listActiveForUser]
  exact hrun

/-- The session behind the token of a request that was authenticated. -/
theorem session_of_authenticate (hw : w.Wf env) {token : Token} {user : User}
    (hauth : (runCall env w t (.authenticate token)).2 = .ok (.user user)) :
    ∃ c session, c ∈ w.signed ∧ token = .jwt c ∧ session ∈ w.db.sessions ∧
      session.jti = c.jti ∧ session.userId = user.id ∧ c.sub = user.id ∧
      session.isValid t = true := by
  have haccepted := accepted_of_authenticate hw hauth
  obtain ⟨w', h, -⟩ := runCall_effect env w t (.authenticate token)
  rw [hauth] at h
  cases h with
  | observed hc => exact hc.elim
  | @authenticated c session user cache hs ht htype hsession hvalid hload hactive =>
    have hmem : session ∈ w.db.sessions := List.mem_of_find?_eq_some hsession
    have hjti : session.jti = c.jti := by simpa using List.find?_some hsession
    obtain ⟨c', -, hc', hsub⟩ := haccepted.signed
    cases hc'
    have howner : session.userId = c.sub := hw.signedOwner c hs session hmem hjti
    exact ⟨c, session, hs, rfl, hmem, hjti, howner.trans hsub, hsub, hvalid⟩

/-- A request of an account that is answered: whom it is authenticated as, and the use case
that follows. -/
theorem Request.serve_account_ok {endpoint : AccountEndpoint} {token : Token}
    {device : DeviceInfoDTO} {answer : Answer}
    (h : ((Request.account endpoint (some token) device).serve env w t t').2 = .ok answer) :
    ∃ user jti,
      (runCall env w t (.authenticate token)).2 = .ok (.user user) ∧
      endpoint.currentJti (runCall env w t (.authenticate token)).1 t' token = .ok jti ∧
      (Request.account endpoint (some token) device).serve env w t t' =
        match endpoint.call user token jti device with
        | some c => runCall env (runCall env w t (.authenticate token)).1 t' c
        | none => ((runCall env w t (.authenticate token)).1, .ok (.user user)) := by
  simp only [Request.serve] at h ⊢
  split at h
  · rename_i w' user hrun
    rw [hrun]
    refine ⟨user, ?_⟩
    unfold AccountEndpoint.serve at h ⊢
    cases hallowed : endpoint.authorize user with
    | error e =>
      rw [hallowed] at h
      cases h
    | ok user' =>
      obtain ⟨rfl, -⟩ := AccountEndpoint.authorize_eq_ok hallowed
      rw [hallowed] at h
      cases hjti : endpoint.currentJti w' t' token with
      | error e =>
        simp only [hjti] at h
        cases h
      | ok jti => exact ⟨jti, rfl, rfl, rfl⟩
  · rename_i out hnot hrun
    -- `Authenticate` answers with an account or fails
    obtain ⟨w', heffect, -⟩ := runCall_effect env w t (.authenticate token)
    rw [hrun] at heffect
    have hout : out = .ok answer := h
    rw [hout] at heffect hnot
    cases heffect with
    | observed hc => exact hc.elim
    | authenticated => exact absurd rfl (hnot _)

/-- In every reachable state the page shows the sessions of the caller's account that are
neither revoked nor expired, by descending id, and marks the one that the token is of. -/
theorem devices_page (env : Env) (w₀ : World) (hinit : Initial env w₀) (requests : Requests)
    (t t' t'' : Time) (token : Token) (device : DeviceInfoDTO) (page : List SessionSummary) :
    let w := serveAll env w₀ requests
    (listMySessions env w t t' t'' token device).2 = .ok page →
    ∃ c session, token = .jwt c ∧ session ∈ w.db.sessions ∧ session.jti = c.jti ∧
      session.userId = c.sub ∧ session.isValid t = true ∧
      DevicesPage w.db session t' t'' page := by
  intro w h
  have hw : w.Wf env :=
    (serveAll_induction (I := fun _ => True) (fun _ _ _ _ _ _ => trivial) hinit.wf trivial
      requests).1
  unfold listMySessions at h
  cases hserved : ((Request.account .listMySessions (some token) device).serve env w t t').2 with
  | error e =>
    simp only [hserved] at h
    cases h
  | ok answer =>
    obtain ⟨user, jti, hauth, -, hserve⟩ := Request.serve_account_ok hserved
    obtain ⟨c, session, hsigned, rfl, hsession, hjti, howner, hsub, hvalid⟩ :=
      session_of_authenticate hw hauth
    have hdb := (accepted_of_authenticate hw hauth).db
    have hlist : answer = .sessions (w.db.listActiveForUser t' user.id) := by
      simp only [hserve, AccountEndpoint.call, runCall_listUserSessions, hdb] at hserved
      cases hserved
      rfl
    refine ⟨c, session, rfl, hsession, hjti, howner.trans hsub.symm, hvalid, ?_⟩
    simp only [hserved, JwtTokenService.decode, if_pos hsigned] at h
    split at h
    · cases h
      rw [hlist, ← howner]
      show DevicesPage _ _ _ _ ((w.db.listActiveForUser t' session.userId).map
        (toSessionSummary (some c.jti) t''))
      rw [← hjti]
      exact devicesPage_of_list hw.db hsession
    · cases h

/-- Alice logs in twice, and looks at her devices with the first token. -/
theorem devices_page_alice :
    let w := serveAll Sample.env Sample.world
      [(10, 10, .guest (.login ⟨"alice", "secret"⟩) {}),
        (20, 20, .guest (.login ⟨"alice", "secret"⟩) {})]
    ∃ page, (listMySessions Sample.env w 30 30 30 Sample.access {}).2 = .ok page ∧
      page.map (·.current) = [false, true] ∧
      ∃ c session, Sample.access = .jwt c ∧ session ∈ w.db.sessions ∧ session.jti = c.jti ∧
        session.userId = c.sub ∧ session.isValid 30 = true ∧
        DevicesPage w.db session 30 30 page := by
  intro w
  have hmarks : ((listMySessions Sample.env w 30 30 30 Sample.access {}).2.map fun page =>
      page.map (·.current)) = .ok [false, true] := by
    decide +kernel
  cases hpage : (listMySessions Sample.env w 30 30 30 Sample.access {}).2 with
  | error e =>
    rw [hpage] at hmarks
    cases hmarks
  | ok page =>
    rw [hpage] at hmarks
    refine ⟨page, rfl, ?_, devices_page Sample.env Sample.world Sample.initial _ 30 30 30
      Sample.access {} page hpage⟩
    simpa [Except.map] using hmarks

/-! ## Signing devices out -/

/-- The devices of its account that a request signs out, when it carries a token with the
claims `c` at `t'`.  `logout` reads the token once more, and it may have expired by then. -/
def AccountEndpoint.signsOut (t' : Time) (c : Claims) : AccountEndpoint → AuthSession → Bool
  | .logout, s => decide (t' < c.exp) && s.jti == c.jti
  | .changeMyPassword _, _ | .deleteMe, _ => true
  | .revokeMySessions keepCurrent, s => !(keepCurrent && s.jti == c.jti)
  | .revokeMySession sessionId, s => s.id == sessionId
  | _, _ => false

/-- A session of `u` is over at `moment`, if it is among `ends`. -/
def AuthSession.endIf (ends : AuthSession → Bool) (u : UserId) (moment : Time)
    (s : AuthSession) : AuthSession :=
  if s.userId = u ∧ s.revokedAt = none ∧ ends s = true then
    { s with revokedAt := some moment }
  else s

theorem AuthSession.map_endIf_of_none {sessions : List AuthSession} {u : UserId}
    (moment : Time) : sessions.map (AuthSession.endIf (fun _ => false) u moment) = sessions := by
  refine (List.map_congr_left fun s _ => ?_).trans (List.map_id' sessions)
  simp [endIf]

/-- An update that revokes just those. -/
theorem Db.revokeWhere_eq_map {db : Db} {supply : Supply} {n : Nat} (h : db.Sound supply n)
    {cond ends : AuthSession → Bool} {u : UserId}
    (hcond : ∀ s ∈ db.sessions, s.revokedAt = none →
      (cond s = true ↔ s.userId = u ∧ ends s = true)) :
    (db.revokeWhere cond t').sessions = db.sessions.map (AuthSession.endIf ends u t') := by
  rw [Db.revokeWhere_sessions]
  refine List.map_congr_left fun s hs => ?_
  rw [AuthSession.revokeIn_rest, AuthSession.revokeIn_of_sound h hs]
  unfold AuthSession.endIf
  by_cases hlive : s.revokedAt = none
  · have hiff := hcond s hs hlive
    by_cases hends : cond s = true
    · obtain ⟨howner, hend⟩ := hiff.1 hends
      rw [if_pos ⟨hends, hlive⟩, if_pos ⟨howner, hlive, hend⟩]
    · have hnot : ¬ (s.userId = u ∧ s.revokedAt = none ∧ ends s = true) :=
        fun hboth => hends (hiff.2 ⟨hboth.1, hboth.2.2⟩)
      rw [if_neg (fun hboth => hends hboth.1), if_neg hnot]
  · rw [if_neg (fun hboth => hlive hboth.2), if_neg (fun hboth => hlive hboth.2.1)]

/-- The use case behind an endpoint of the caller's own account ends the sessions that the
endpoint says, and no other. -/
theorem sessions_of_call (hw : w.Wf env) {endpoint : AccountEndpoint} {user : User}
    {c : Claims} {jti : String} {device : DeviceInfoDTO} {call : Call} {answer : Answer}
    (hown : endpoint.permission = none) (hsigned : c ∈ w.signed) (hsub : c.sub = user.id)
    (hjti : endpoint.needsJti = true → jti = c.jti)
    (hcall : endpoint.call user (.jwt c) jti device = some call)
    (h : (runCall env w t' call).2 = .ok answer) :
    (runCall env w t' call).1.db.sessions =
      w.db.sessions.map (AuthSession.endIf (endpoint.signsOut t' c) user.id t') := by
  obtain ⟨w', heffect, he⟩ := runCall_effect env w t' call
  rw [h] at heffect
  rw [he]
  show w'.db.sessions = _
  have hall : ∀ s ∈ w.db.sessions, s.revokedAt = none →
      (Statement.revokeAllWhere user.id none s = true ↔ s.userId = user.id ∧ true = true) := by
    intro s _ hlive
    rw [revokeAllWhere_iff hlive]
    simp
  cases endpoint with
  | logout =>
    cases hcall
    cases heffect with
    | observed hc => exact hc.elim
    | logoutIgnored hdecode =>
      have hexpired : ¬ t' < c.exp := by
        intro hlive
        rw [JwtTokenService.decode, if_pos hsigned, if_pos hlive] at hdecode
        cases hdecode
      have hends : AccountEndpoint.logout.signsOut t' c = fun _ => false := by
        funext s
        simp [AccountEndpoint.signsOut, hexpired]
      rw [hends]
      exact (AuthSession.map_endIf_of_none t').symm
    | loggedOut hs ht haudit =>
      show (w.db.revokeWhere (Statement.revokeWhere c.jti) t').sessions = _
      refine Db.revokeWhere_eq_map hw.db fun s hs hlive => ?_
      rw [revokeWhere_iff hlive]
      simp only [AccountEndpoint.signsOut, ht, decide_true, Bool.true_and, beq_iff_eq]
      constructor
      · intro hsame
        exact ⟨(hw.signedOwner c hsigned s hs hsame).trans hsub, hsame⟩
      · exact And.right
  | updateMe body =>
    cases hcall
    cases heffect with
    | observed hc => exact hc.elim
    | userUpdated huser hrow hedits =>
      refine Eq.trans ?_ (AuthSession.map_endIf_of_none t').symm
      unfold UpdateUserUseCase.finished
      split
      · simp
      · simp [EmailVerificationIssuer.issued]
  | changeMyPassword body =>
    cases hcall
    cases heffect with
    | observed hc => exact hc.elim
    | passwordChanged huser hrow hverify haudit =>
      refine Eq.trans ?_ (Db.revokeWhere_eq_map hw.db hall)
      simp [Db.revokeWhere_sessions, sessionIds]
  | deleteMe =>
    cases hcall
    cases heffect with
    | observed hc => exact hc.elim
    | userDeleted huser hrow haudit =>
      refine Eq.trans ?_ (Db.revokeWhere_eq_map hw.db hall)
      simp [Db.revokeWhere_sessions, sessionIds]
  | listMySessions =>
    cases hcall
    cases heffect with
    | observed hc => exact (AuthSession.map_endIf_of_none t').symm
  | revokeMySessions keepCurrent =>
    cases hcall
    cases heffect with
    | observed hc => exact hc.elim
    | sessionsRevoked haudit =>
      refine Db.revokeWhere_eq_map hw.db fun s hs hlive => ?_
      rw [revokeAllWhere_iff hlive]
      cases keepCurrent <;> simp [AccountEndpoint.signsOut, hjti rfl]
  | revokeMySession sessionId =>
    cases hcall
    cases heffect with
    | observed hc => exact hc.elim
    | @sessionRevoked _ _ _ session _ hsession howner haudit =>
      have hmem : session ∈ w.db.sessions := List.mem_of_find?_eq_some hsession
      have hid : session.id = sessionId := by simpa using List.find?_some hsession
      show (w.db.revokeWhere (Statement.revokeWhere session.jti) t').sessions = _
      refine Db.revokeWhere_eq_map hw.db fun s hs hlive => ?_
      rw [revokeWhere_iff hlive]
      simp only [AccountEndpoint.signsOut, beq_iff_eq]
      constructor
      · intro hsame
        obtain rfl := hw.db.jti_unique hs hmem hsame
        exact ⟨howner, hid⟩
      · intro hboth
        rw [hw.db.session_unique hs hmem (hboth.2.trans hid.symm)]
  | readMe => cases hcall
  | _ => cases hown

/-- So does the request. -/
theorem ends_of_serve (hw : w.Wf env) {endpoint : AccountEndpoint} {c : Claims}
    {device : DeviceInfoDTO} {answer : Answer} (hown : endpoint.permission = none)
    (h : ((Request.account endpoint (some (.jwt c)) device).serve env w t t').2 =
      .ok answer) :
    ((Request.account endpoint (some (.jwt c)) device).serve env w t t').1.db.sessions =
      w.db.sessions.map (AuthSession.endIf (endpoint.signsOut t' c) c.sub t') := by
  obtain ⟨user, jti, hauth, hjti, hserve⟩ := Request.serve_account_ok h
  obtain ⟨c', session, hsigned, he, hsession, hsame, howner, hsub, hvalid⟩ :=
    session_of_authenticate hw hauth
  cases he
  have haccepted := accepted_of_authenticate hw hauth
  have hw' := runCall_wf hw t (.authenticate (.jwt c))
  have hsigned' : c ∈ (runCall env w t (.authenticate (.jwt c))).1.signed := by
    obtain ⟨cache, hworld⟩ := haccepted.world
    rw [hworld]
    exact hsigned
  have hread : endpoint.needsJti = true → jti = c.jti := by
    intro hneeds
    simp only [AccountEndpoint.currentJti, hneeds, if_true, JwtTokenService.decode,
      if_pos hsigned'] at hjti
    split at hjti
    · cases hjti
      rfl
    · cases hjti
  rw [hserve] at h ⊢
  rw [← haccepted.db, hsub]
  cases hcall : endpoint.call user (.jwt c) jti device with
  | some call =>
    rw [hcall] at h
    exact sessions_of_call hw' hown hsigned' hsub hread hcall h
  | none =>
    have hends : endpoint.signsOut t' c = fun _ => false := by
      funext s
      cases endpoint with
      | readMe => rfl
      | _ => cases hcall
    rw [hends]
    exact (AuthSession.map_endIf_of_none t').symm

/-- A session that is live later on was live already, or is new. -/
theorem Db.Becomes.live_session {db db' : Db} (h : db.Becomes db') {s : AuthSession}
    (hs : s ∈ db'.sessions) (hlive : s.revokedAt = none) :
    s ∈ db.sessions ∨ s ∈ db'.sessions.drop db.sessions.length := by
  obtain ⟨place, hplace⟩ := List.getElem?_of_mem hs
  by_cases hold : place < db.sessions.length
  · left
    obtain ⟨s', hs', hchange⟩ := h.sessions place _ (List.getElem?_eq_getElem hold)
    rw [hplace] at hs'
    cases hs'
    rcases hchange with rfl | ⟨-, moment, rfl⟩
    · exact List.getElem_mem hold
    · cases hlive
  · right
    refine List.mem_of_getElem? (i := place - db.sessions.length) ?_
    rw [List.getElem?_drop, Nat.add_sub_cancel' (by omega), hplace]

/-- In every reachable state, a request of an account that is answered signs out just the
devices it says.  Whatever the service does from then on, calls side by side and restarts
included, a device that is listed for the account was there and was not signed out, or
signed in later. -/
theorem signed_out_devices_stay_off (env : Env) (w₀ : World) (hinit : Initial env w₀)
    (requests : Requests) (t t' : Time) (endpoint : AccountEndpoint)
    (hown : endpoint.permission = none) (c : Claims) (device : DeviceInfoDTO)
    (answer : Answer) :
    let w := serveAll env w₀ requests
    let r := (Request.account endpoint (some (.jwt c)) device).serve env w t t'
    r.2 = .ok answer →
    r.1.db.sessions =
      w.db.sessions.map (AuthSession.endIf (endpoint.signsOut t' c) c.sub t') ∧
    ∀ (before : List (Uptime env)) (n : Nat) (calls : Fin n → Call)
      (schedule : Pool.Schedule (machine env) n) (moment : Time),
      let db := (((lifetime r.1 before).pool env calls).run schedule).shared.db
      ∀ s ∈ db.listActiveForUser moment c.sub,
        (s ∈ w.db.sessions ∧ endpoint.signsOut t' c s = false) ∨
          s ∈ db.sessions.drop w.db.sessions.length := by
  intro w r hok
  have hw : w.Wf env :=
    (serveAll_induction (I := fun _ => True) (fun _ _ _ _ _ _ => trivial) hinit.wf trivial
      requests).1
  have hsessions := ends_of_serve hw hown hok
  refine ⟨hsessions, ?_⟩
  intro before n calls schedule moment db s hs
  obtain ⟨hmem, howner, hlive, -⟩ := Db.mem_listActiveForUser.1 hs
  have hbecomes : r.1.db.Becomes db :=
    (Db.Becomes.lifetime r.1 before).trans
      (Db.Becomes.run ((lifetime r.1 before).pool env calls) schedule)
  have hlength : r.1.db.sessions.length = w.db.sessions.length := by
    rw [hsessions, List.length_map]
  rw [← hlength]
  rcases hbecomes.live_session hmem hlive with hold | hnew
  · left
    rw [hsessions] at hold
    obtain ⟨old, hmem', he⟩ := List.mem_map.1 hold
    unfold AuthSession.endIf at he
    split at he
    · -- it was revoked by the request
      rw [← he] at hlive
      cases hlive
    · rename_i hnot
      subst he
      refine ⟨hmem', ?_⟩
      by_contra hends
      exact hnot ⟨howner, hlive, by simpa using hends⟩
  · exact .inr hnew

/-- Alice keeps the device she is using. -/
theorem signed_out_devices_stay_off_alice :
    let w := serveAll Sample.env Sample.world
      [(10, 10, .guest (.login ⟨"alice", "secret"⟩) {}),
        (20, 20, .guest (.login ⟨"alice", "secret"⟩) {})]
    let r := (Request.account (.revokeMySessions true) (some Sample.access) {}).serve
      Sample.env w 30 30
    r.2 = .ok (.count 1) ∧
      ∀ (n : Nat) (calls : Fin n → Call) (schedule : Pool.Schedule (machine Sample.env) n),
        let db := ((r.1.pool Sample.env calls).run schedule).shared.db
        ∀ s ∈ db.listActiveForUser 40 1,
          (s ∈ w.db.sessions ∧ s.jti = Sample.label 0 0) ∨
            s ∈ db.sessions.drop w.db.sessions.length := by
  intro w r
  have hok : r.2 = .ok (.count 1) := by decide +kernel
  refine ⟨hok, ?_⟩
  intro n calls schedule db s hs
  have hstay := (signed_out_devices_stay_off Sample.env Sample.world Sample.initial _ 30 30
    (.revokeMySessions true) rfl ⟨1, Sample.label 0 0, .access, 1810⟩ {} (.count 1) hok).2
    [] n calls schedule 40 s hs
  rcases hstay with ⟨hmem, hspared⟩ | hnew
  · exact .inl ⟨hmem, by simpa [AccountEndpoint.signsOut] using hspared⟩
  · exact .inr hnew

end VideoSite.Users
