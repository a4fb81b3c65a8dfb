import VideoSite.Users.TokenLiveness

/-!
# The sessions that go back to one login

A refresh puts a new session in the place of the one whose token it takes.  What
goes back to one login by such refreshes is a `Lineage`; `lineages` follows all of
them along a run, by what the calls were asked and what they answered.

* `Lineage.Kept` says what a lineage keeps: at most its newest session is not
  revoked, and all of them belong to the login they go back to.
* `Tracked.call` is the step lemma, `runCalls_tracked` the run lemma.
* `lineages_kept` is the result, with the bound on the sessions of an account.
-/

namespace VideoSite.Users

open Effects Program

variable {env : Env} {t : Time} {w w' : World} {c : Call} {out : Except Failure Answer}

/-! ## Lineages -/

/-- A login and the refreshes that go back to it.  `login` is the session that the
login created, `device` what its request told of the device, and `rotations` are the
`jti`s that the refreshes put in its place, the newest first, each with what its
request told. -/
structure Lineage where
  login : AuthSession
  device : DeviceInfoDTO
  rotations : List (String × DeviceInfoDTO)

namespace Lineage

/-- The `jti`s of its sessions, the newest first. -/
def jtis (l : Lineage) : List String := l.rotations.map (·.1) ++ [l.login.jti]

/-- The `jti` of the newest one. -/
def newest (l : Lineage) : String := (l.rotations.map (·.1)).headD l.login.jti

/-- What is known of a detail: the last value that a refresh supplied and that is not
empty, or what the login supplied. -/
def known (l : Lineage) (detail : DeviceInfoDTO → Option String) : Option String :=
  ((l.rotations.filterMap fun r => (detail r.2).filter (· ≠ "")).head?).or (detail l.device)

/-- A refresh put `new` in the place of `old`, if that is one of its sessions. -/
def extend (l : Lineage) (old new : String) (device : DeviceInfoDTO) : Lineage :=
  if old ∈ l.jtis then { l with rotations := (new, device) :: l.rotations } else l

/-- What the sessions of a lineage have in common.  Each of them is stored, the newest
one alone may be unrevoked, they have the account and the date of the login, and the
newest one has the details that are known. -/
structure Kept (l : Lineage) (db : Db) : Prop where
  stored : ∀ jti ∈ l.jtis, ∃ s ∈ db.sessions, s.jti = jti
  newest : ∀ s ∈ db.sessions, s.jti ∈ l.jtis → s.revokedAt = none → s.jti = l.newest
  userId : ∀ s ∈ db.sessions, s.jti ∈ l.jtis → s.userId = l.login.userId
  createdAt : ∀ s ∈ db.sessions, s.jti ∈ l.jtis → s.createdAt = l.login.createdAt
  details : ∀ s ∈ db.sessions, s.jti = l.newest →
    s.visitorId = l.known (·.visitorId) ∧ s.userAgent = l.known (·.userAgent) ∧
      s.ipAddress = l.known (·.ipAddress) ∧ s.device = l.known (·.device)

end Lineage

/-- The `jti` of the pair of tokens that a call answered with. -/
def issuedJti : Except Failure Answer → Option String
  | .ok (.auth result) =>
      match result.tokens.refreshToken with
      | .jwt claims => some claims.jti
      | .text _ => none
  | _ => none

/-- The lineages after a call that left the world `w'`: a login begins one, with the
session that it created, and a refresh extends the one its token belongs to. -/
def followCall (w' : World) (c : Call) (out : Except Failure Answer)
    (ls : List Lineage) : List Lineage :=
  match c, issuedJti out with
  | .login _ device, some jti =>
      ls ++ ((w'.db.sessionByJti jti).map fun s => ⟨s, device.getD {}, []⟩).toList
  | .refresh (.jwt claims) device, some jti =>
      ls.map (·.extend claims.jti jti (device.getD {}))
  | _, _ => ls

/-- The lineages after a run from `w`, where those before it were `ls`. -/
def follow (env : Env) : Calls → World → List Lineage → List Lineage
  | [], _, ls => ls
  | s :: rest, w, ls =>
      follow env rest (runCall env w s.1 s.2).1
        (followCall (runCall env w s.1 s.2).1 s.2 (runCall env w s.1 s.2).2 ls)

/-- The lineages of a run. -/
def lineages (env : Env) (w : World) (calls : Calls) : List Lineage := follow env calls w []

/-- The call was a login of the account `u`, and succeeded. -/
def Call.logsIn (u : UserId) : Call → Except Failure Answer → Bool
  | .login _ _, .ok (.auth result) => result.user.id == u
  | _, _ => false

/-- How many logins of the account `u` succeed in a run from `w`. -/
def loginsOf (env : Env) (u : UserId) : Calls → World → Nat
  | [], _ => 0
  | s :: rest, w =>
      (s.2.logsIn u (runCall env w s.1 s.2).2).toNat +
        loginsOf env u rest (runCall env w s.1 s.2).1

/-- The sessions of the account `u` that are not revoked. -/
def Db.unrevoked (db : Db) (u : UserId) : List AuthSession :=
  db.sessions.filter fun s => s.userId == u && s.revokedAt.isNone

/-! ## Extending a lineage -/

namespace Lineage

variable {l : Lineage} {old new jti : String} {device : DeviceInfoDTO}

theorem newest_mem (l : Lineage) : l.newest ∈ l.jtis := by
  unfold newest jtis
  cases l.rotations with
  | nil => simp
  | cons r rest => simp

@[simp] theorem jtis_nil (s : AuthSession) (device : DeviceInfoDTO) :
    (⟨s, device, []⟩ : Lineage).jtis = [s.jti] := rfl

@[simp] theorem newest_nil (s : AuthSession) (device : DeviceInfoDTO) :
    (⟨s, device, []⟩ : Lineage).newest = s.jti := rfl

@[simp] theorem known_nil (s : AuthSession) (device : DeviceInfoDTO)
    (detail : DeviceInfoDTO → Option String) :
    (⟨s, device, []⟩ : Lineage).known detail = detail device := rfl

@[simp] theorem login_extend : (l.extend old new device).login = l.login := by
  unfold extend
  split <;> rfl

theorem extend_of_not_mem (h : old ∉ l.jtis) : l.extend old new device = l := if_neg h

theorem jtis_extend (h : old ∈ l.jtis) :
    (l.extend old new device).jtis = new :: l.jtis := by
  rw [extend, if_pos h]
  rfl

theorem newest_extend (h : old ∈ l.jtis) : (l.extend old new device).newest = new := by
  rw [extend, if_pos h]
  rfl

theorem mem_extend (h : jti ∈ l.jtis) : jti ∈ (l.extend old new device).jtis := by
  by_cases hold : old ∈ l.jtis
  · rw [jtis_extend hold]
    exact List.mem_cons_of_mem _ h
  · rw [extend_of_not_mem hold]
    exact h

/-- What a refresh supplies takes the place of what was known, unless it is empty. -/
theorem known_extend (h : old ∈ l.jtis) (detail : DeviceInfoDTO → Option String) :
    (l.extend old new device).known detail = inherit (detail device) (l.known detail) := by
  rw [extend, if_pos h]
  unfold known inherit pyOr
  cases hd : detail device with
  | none => simp [hd]
  | some value =>
    by_cases hempty : value = ""
    · simp [hd, hempty]
    · simp [hd, hempty]

end Lineage

/-! ## What a call opens -/

/-- The sessions that a call adds: one for a login, one for a refresh, none for any
other call. -/
inductive Opening (env : Env) (t : Time) (w : World) :
    Call → Except Failure Answer → List AuthSession → Prop
  | nothing {c : Call} {out : Except Failure Answer}
      (h : ∀ w' ls, followCall w' c out ls = ls) (hlogin : ∀ u, c.logsIn u out = false) :
      Opening env t w c out []
  | login {data device user} : Opening env t w (.login data device)
      (.ok (.auth (issuedPair env t user (env.supply.jti w.calls 0))))
      [LoginUseCase.session env t w.calls user (device.getD {})]
  | refresh {claims device old user} (hs : claims ∈ w.signed) (htype : claims.type = .refresh)
      (hold : w.db.sessionByJti claims.jti = some old) (hlive : old.revokedAt = none)
      (huser : w.db.userById claims.sub = some user) :
      Opening env t w (.refresh (.jwt claims) device)
        (.ok (.auth (issuedPair env t user (env.supply.jti w.calls 0))))
        [RefreshTokenUseCase.session env t w.calls old user (device.getD {})]

theorem followCall_login {data : LoginDTO} {device : Option DeviceInfoDTO} {user : User}
    {jti : String} {s : AuthSession} {ls : List Lineage}
    (hfound : w'.db.sessionByJti jti = some s) :
    followCall w' (.login data device) (.ok (.auth (issuedPair env t user jti))) ls =
      ls ++ [⟨s, device.getD {}, []⟩] := by
  show ls ++ ((w'.db.sessionByJti jti).map _).toList = _
  rw [hfound]
  rfl

theorem followCall_error (e : Failure) (ls : List Lineage) :
    followCall w' c (.error e) ls = ls := by
  unfold followCall
  split
  · cases ‹issuedJti (.error e) = some _›
  · cases ‹issuedJti (.error e) = some _›
  · rfl

theorem Call.logsIn_error {u : UserId} (e : Failure) : c.logsIn u (.error e) = false := by
  cases c <;> rfl

theorem followCall_observes (hc : c.Observes) {ls : List Lineage} :
    followCall w' c out ls = ls := by
  cases c <;> first | rfl | cases hc

theorem Call.Observes.logsIn {u : UserId} (hc : c.Observes) : c.logsIn u out = false := by
  cases c <;> first | rfl | cases hc

/-- The number of rows tells which of them are new. -/
theorem SessionsStep.new_eq {cond cond' : AuthSession → Bool} {new new' : List AuthSession}
    (h : SessionsStep env t w c out w' cond new)
    (hw' : w'.db.sessions = (w.db.revokeWhere cond' t).sessions ++ new') : new = new' := by
  have heq : (w.db.revokeWhere cond t).sessions ++ new =
      (w.db.revokeWhere cond' t).sessions ++ new' := h.sessions.symm.trans hw'
  have hlength : (w.db.revokeWhere cond t).sessions.length =
      (w.db.revokeWhere cond' t).sessions.length := by
    simp [Db.revokeWhere_sessions]
  exact (List.append_inj heq hlength).2

theorem SessionsStep.new_nil {cond : AuthSession → Bool} {new : List AuthSession}
    (h : SessionsStep env t w c out w' cond new)
    (hlength : w'.db.sessions.length = w.db.sessions.length) : new = [] := by
  rw [h.sessions, List.length_append, Db.revokeWhere_sessions, List.length_map] at hlength
  exact List.length_eq_zero_iff.1 (by omega)

/-- The new sessions of a call are those of a login or a refresh. -/
theorem SessionsStep.opening {cond : AuthSession → Bool} {new : List AuthSession}
    (h : Effect env t w c out w') (hstep : SessionsStep env t w c out w' cond new) :
    Opening env t w c out new := by
  cases h with
  | loggedIn =>
    have hnew := hstep.new_eq (by rw [Db.revokeWhere_false]; rfl)
    rw [hnew]
    exact .login
  | refreshed hs ht htype hold hvalid huser hactive =>
    have hnew := hstep.new_eq rfl
    rw [hnew]
    exact .refresh hs htype hold (AuthSession.isValid_iff.1 hvalid).1 huser
  | failed | loginClash | refreshClash | authenticateInactive | passwordTried =>
    rw [hstep.new_nil rfl]
    exact .nothing (fun _ _ => followCall_error _ _) fun _ => Call.logsIn_error _
  | observed hc =>
    rw [hstep.new_nil rfl]
    exact .nothing (fun _ _ => followCall_observes hc) fun _ => hc.logsIn
  | loginFailed hopen howner hbad hdb =>
    rw [hstep.new_nil (by rcases hdb with ⟨audit, -, rfl, -⟩ | ⟨rfl, -⟩ <;> rfl)]
    exact .nothing (fun _ _ => rfl) fun _ => rfl
  | roleCreated | roleDeleted | permissionRevoked | permissionCreated | roleRevoked =>
    rw [hstep.new_nil rfl]
    exact .nothing (fun _ _ => rfl) fun _ => rfl
  | _ =>
    rw [hstep.new_nil (by simp [Db.revokeWhere_sessions])]
    exact .nothing (fun _ _ => rfl) fun _ => rfl

/-! ## A call keeps the lineages -/

/-- Every session goes back to a login, and every lineage is kept. -/
structure Tracked (db : Db) (ls : List Lineage) : Prop where
  covers : ∀ s ∈ db.sessions, ∃ l ∈ ls, s.jti ∈ l.jtis
  kept : ∀ l ∈ ls, l.Kept db

section Step

variable {l : Lineage} {cond : AuthSession → Bool} {new : List AuthSession} {db db' : Db}

/-- A session of a lineage was there before, and is as it was but for its revocation. -/
theorem Lineage.old_of_mem (hdb : db'.sessions = (db.revokeWhere cond t).sessions ++ new)
    (hnew : ∀ s ∈ new, s.jti ∉ l.jtis) {s : AuthSession} (hs : s ∈ db'.sessions)
    (hjti : s.jti ∈ l.jtis) :
    ∃ old ∈ db.sessions, s = { old with revokedAt := s.revokedAt } ∧
      (s.revokedAt = none → s = old) := by
  rw [hdb] at hs
  rcases List.mem_append.1 hs with hkept | hadded
  · obtain ⟨old, hmem, rfl⟩ := List.mem_map.1 hkept
    refine ⟨old, hmem, old.revokeIn_rest _ _, fun hnone => ?_⟩
    exact (AuthSession.revokedAt_of_revokeIn _ _ _ hnone).1
  · exact absurd hjti (hnew s hadded)

/-- What is stored stays so. -/
theorem stored_of_step (hdb : db'.sessions = (db.revokeWhere cond t).sessions ++ new)
    {jti : String} (h : ∃ s ∈ db.sessions, s.jti = jti) : ∃ s ∈ db'.sessions, s.jti = jti := by
  obtain ⟨old, hold, hjti⟩ := h
  refine ⟨old.revokeIn (sessionIds db cond) t, ?_, by rwa [AuthSession.revokeIn_jti]⟩
  rw [hdb, Db.revokeWhere_sessions]
  exact List.mem_append_left _ (List.mem_map_of_mem hold)

/-- A lineage is kept when sessions are revoked and others come that are not its own. -/
theorem Lineage.Kept.step (h : l.Kept db)
    (hdb : db'.sessions = (db.revokeWhere cond t).sessions ++ new)
    (hnew : ∀ s ∈ new, s.jti ∉ l.jtis) : l.Kept db' where
  stored := fun jti hjti => stored_of_step hdb (h.stored jti hjti)
  newest := by
    intro s hs hjti hlive
    obtain ⟨old, hold, -, hsame⟩ := old_of_mem hdb hnew hs hjti
    have he : s = old := hsame hlive
    rw [he] at hjti hlive ⊢
    exact h.newest old hold hjti hlive
  userId := by
    intro s hs hjti
    obtain ⟨old, hold, hrest, -⟩ := old_of_mem hdb hnew hs hjti
    rw [hrest] at hjti ⊢
    exact h.userId old hold hjti
  createdAt := by
    intro s hs hjti
    obtain ⟨old, hold, hrest, -⟩ := old_of_mem hdb hnew hs hjti
    rw [hrest] at hjti ⊢
    exact h.createdAt old hold hjti
  details := by
    intro s hs hjti
    obtain ⟨old, hold, hrest, -⟩ := old_of_mem hdb hnew hs (hjti ▸ l.newest_mem)
    rw [hrest] at hjti ⊢
    exact h.details old hold hjti

/-- A refresh of the newest session puts its successor in its place. -/
theorem Lineage.Kept.rotate {old s : AuthSession} {device : DeviceInfoDTO} (h : l.Kept db)
    (hdb : db'.sessions = (db.revokeWhere cond t).sessions ++ [s])
    (hfresh : ¬ ∃ other ∈ db.sessions, other.jti = s.jti) (hmem : old ∈ db.sessions)
    (hold : old.jti ∈ l.jtis) (hlive : old.revokedAt = none)
    (hcond : ∀ other ∈ db.sessions, other.revokedAt = none → other.jti = old.jti →
      cond other = true)
    (huser : s.userId = old.userId) (hcreated : s.createdAt = old.createdAt)
    (hdetails : s.visitorId = inherit device.visitorId old.visitorId ∧
      s.userAgent = inherit device.userAgent old.userAgent ∧
      s.ipAddress = inherit device.ipAddress old.ipAddress ∧
      s.device = inherit device.device old.device) :
    (l.extend old.jti s.jti device).Kept db' := by
  -- a session of the longer lineage is the successor, or one of the shorter lineage
  have hcases {other : AuthSession} (hother : other ∈ db'.sessions)
      (hjti : other.jti ∈ (l.extend old.jti s.jti device).jtis) :
      other = s ∨ ∃ before ∈ db.sessions, before.jti ∈ l.jtis ∧
        other = before.revokeIn (sessionIds db cond) t := by
    rw [hdb] at hother
    rcases List.mem_append.1 hother with hkept | hadded
    · obtain ⟨before, hbefore, rfl⟩ := List.mem_map.1 hkept
      rw [jtis_extend hold, AuthSession.revokeIn_jti] at hjti
      rcases List.mem_cons.1 hjti with he | hmember
      · exact absurd ⟨before, hbefore, he⟩ hfresh
      · exact .inr ⟨before, hbefore, hmember, rfl⟩
    · exact .inl (List.mem_singleton.1 hadded)
  have hstored : s ∈ db'.sessions := by
    rw [hdb]
    exact List.mem_append_right _ (List.mem_singleton_self s)
  constructor
  · intro jti hjti
    rw [jtis_extend hold] at hjti
    rcases List.mem_cons.1 hjti with rfl | hmember
    · exact ⟨s, hstored, rfl⟩
    · exact stored_of_step hdb (h.stored jti hmember)
  · intro other hother hjti hunrevoked
    rw [newest_extend hold]
    rcases hcases hother hjti with rfl | ⟨before, hbefore, hmember, rfl⟩
    · rfl
    · -- what was unrevoked before the refresh was the session that it took
      obtain ⟨hsame, hnone⟩ := AuthSession.revokedAt_of_revokeIn _ _ _ hunrevoked
      have htaken : before.jti = old.jti :=
        (h.newest before hbefore hmember hnone).trans (h.newest old hmem hold hlive).symm
      have hrevoked := AuthSession.revokedAt_revokeIn_ne_none hbefore
        (hcond before hbefore hnone htaken) t
      exact absurd hunrevoked hrevoked
  · intro other hother hjti
    rw [login_extend]
    rcases hcases hother hjti with rfl | ⟨before, hbefore, hmember, rfl⟩
    · exact huser.trans (h.userId old hmem hold)
    · rw [AuthSession.revokeIn_userId]
      exact h.userId before hbefore hmember
  · intro other hother hjti
    rw [login_extend]
    rcases hcases hother hjti with rfl | ⟨before, hbefore, hmember, rfl⟩
    · exact hcreated.trans (h.createdAt old hmem hold)
    · rw [AuthSession.revokeIn_rest]
      exact h.createdAt before hbefore hmember
  · intro other hother hjti
    rw [newest_extend hold] at hjti
    have hother' : other = s := by
      rcases hcases hother (hjti ▸ jtis_extend hold ▸ List.mem_cons_self) with he | hbefore
      · exact he
      · obtain ⟨before, hbefore, -, rfl⟩ := hbefore
        rw [AuthSession.revokeIn_jti] at hjti
        exact absurd ⟨before, hbefore, hjti⟩ hfresh
    obtain ⟨hvisitor, hagent, haddress, hdevice⟩ :=
      h.details old hmem (h.newest old hmem hold hlive)
    rw [hother', known_extend hold, known_extend hold, known_extend hold, known_extend hold,
      ← hvisitor, ← hagent, ← haddress, ← hdevice]
    exact hdetails

/-- A lineage begins with the session of its login. -/
theorem Lineage.Kept.begin {s : AuthSession} {device : DeviceInfoDTO}
    (hs : s ∈ db.sessions) (hunique : ∀ other ∈ db.sessions, other.jti = s.jti → other = s)
    (hdetails : s.visitorId = device.visitorId ∧ s.userAgent = device.userAgent ∧
      s.ipAddress = device.ipAddress ∧ s.device = device.device) :
    (⟨s, device, []⟩ : Lineage).Kept db := by
  have hself {other : AuthSession} (hother : other ∈ db.sessions)
      (hjti : other.jti ∈ (⟨s, device, []⟩ : Lineage).jtis) : other = s :=
    hunique other hother (List.mem_singleton.1 hjti)
  constructor
  · intro jti hjti
    exact ⟨s, hs, (List.mem_singleton.1 hjti).symm⟩
  · intro other hother hjti _
    exact List.mem_singleton.1 hjti
  · intro other hother hjti
    rw [hself hother hjti]
  · intro other hother hjti
    rw [hself hother hjti]
  · intro other hother hjti
    rw [hunique other hother hjti]
    exact hdetails

/-- A session goes back to a login as it did before. -/
theorem Tracked.covers_old {ls : List Lineage} (h : Tracked db ls) {s : AuthSession}
    (hs : s ∈ (db.revokeWhere cond t).sessions) : ∃ l ∈ ls, s.jti ∈ l.jtis := by
  obtain ⟨old, hold, rfl⟩ := List.mem_map.1 hs
  rw [AuthSession.revokeIn_jti]
  exact h.covers old hold

/-- The sessions of the lineages are stored, so that a fresh `jti` is in none of them. -/
theorem Tracked.not_mem {ls : List Lineage} (h : Tracked db ls) (hl : l ∈ ls) {jti : String}
    (hfresh : ¬ ∃ other ∈ db.sessions, other.jti = jti) : jti ∉ l.jtis :=
  fun hmem => hfresh ((h.kept l hl).stored jti hmem)

end Step

/-- The `jti` that a call draws is that of no session. -/
theorem World.Wf.fresh_jti (hw : w.Wf env) (k : Nat) :
    ¬ ∃ other ∈ w.db.sessions, other.jti = env.supply.jti w.calls k := by
  intro ⟨other, hother, hjti⟩
  have hlt := hw.db.jtisDrawn other hother w.calls k hjti.symm
  omega

/-- A call keeps every lineage, and every session it adds goes back to a login. -/
theorem Tracked.call {ls : List Lineage} (ht : Tracked w.db ls) (hw : w.Wf env)
    (h : Effect env t w c out w') : Tracked w'.db (followCall w'.nextCall c out ls) := by
  obtain ⟨cond, new, hstep⟩ := h.sessions hw
  have hwf : w'.nextCall.Wf env := h.wf hw
  have hsessions := hstep.sessions
  have hrevokes := hstep.revokes
  have hfresh := hw.fresh_jti 0
  cases hstep.opening h with
  | nothing hsame =>
    rw [hsame]
    constructor
    · intro s hs
      rw [hsessions, List.append_nil] at hs
      exact ht.covers_old hs
    · intro l hl
      exact (ht.kept l hl).step hsessions (by simp)
  | @login data device user =>
    have hadded : LoginUseCase.session env t w.calls user (device.getD {}) ∈
        w'.db.sessions := by
      rw [hsessions]
      exact List.mem_append_right _ (List.mem_singleton_self _)
    have hfound : w'.nextCall.db.sessionByJti (env.supply.jti w.calls 0) =
        some (LoginUseCase.session env t w.calls user (device.getD {})) :=
      hwf.db.sessionByJti_of_mem hadded
    rw [followCall_login hfound]
    constructor
    · intro s hs
      rw [hsessions] at hs
      rcases List.mem_append.1 hs with hkept | hnew
      · obtain ⟨l, hl, hjti⟩ := ht.covers_old hkept
        exact ⟨l, List.mem_append_left _ hl, hjti⟩
      · refine ⟨_, List.mem_append_right _ (List.mem_singleton_self _), ?_⟩
        rw [List.mem_singleton.1 hnew, Lineage.jtis_nil]
        exact List.mem_singleton_self _
    · intro l hl
      rcases List.mem_append.1 hl with hkept | hnew
      · refine (ht.kept l hkept).step hsessions fun s hs => ?_
        rw [List.mem_singleton.1 hs]
        exact ht.not_mem hkept hfresh
      · rw [List.mem_singleton.1 hnew]
        exact .begin hadded (fun other hother hjti => hwf.db.jti_unique hother hadded hjti)
          ⟨rfl, rfl, rfl, rfl⟩
  | @refresh claims device old user hs htype hold hlive huser =>
    have hmem : old ∈ w.db.sessions := List.mem_of_find?_eq_some hold
    have hjti : old.jti = claims.jti := by simpa using List.find?_some hold
    have howner : old.userId = claims.sub := hw.signedOwner claims hs old hmem hjti
    obtain ⟨hid, -⟩ := userById_row huser
    have hfollow : followCall w'.nextCall (.refresh (.jwt claims) device)
        (.ok (.auth (issuedPair env t user (env.supply.jti w.calls 0)))) ls =
          ls.map (·.extend old.jti (env.supply.jti w.calls 0) (device.getD {})) := by
      rw [hjti]
      rfl
    rw [hfollow]
    constructor
    · intro s hs
      rw [hsessions] at hs
      rcases List.mem_append.1 hs with hkept | hnew
      · obtain ⟨l, hl, hmember⟩ := ht.covers_old hkept
        exact ⟨_, List.mem_map_of_mem hl, Lineage.mem_extend hmember⟩
      · obtain ⟨l, hl, hmember⟩ := ht.covers old hmem
        refine ⟨_, List.mem_map_of_mem hl, ?_⟩
        rw [Lineage.jtis_extend hmember, List.mem_singleton.1 hnew]
        exact List.mem_cons_self
    · intro l hl
      obtain ⟨before, hbefore, rfl⟩ := List.mem_map.1 hl
      by_cases hmember : old.jti ∈ before.jtis
      · refine (ht.kept before hbefore).rotate hsessions hfresh hmem hmember hlive
          (fun other hother hunrevoked hsame => ?_) (hid.trans howner.symm) rfl
          ⟨rfl, rfl, rfl, rfl⟩
        exact (hrevokes other hother hunrevoked).2
          ⟨rfl, claims, hs, rfl, htype, hsame.trans hjti⟩
      · rw [Lineage.extend_of_not_mem hmember]
        refine (ht.kept before hbefore).step hsessions fun s hs => ?_
        rw [List.mem_singleton.1 hs]
        exact ht.not_mem hbefore hfresh

/-! ## Logins -/

/-- The lineages of the account `u`. -/
def ofAccount (u : UserId) (ls : List Lineage) : Nat := ls.countP (·.login.userId == u)

/-- A call begins a lineage of an account if it is a login of it. -/
theorem ofAccount_call (hw : w.Wf env) (h : Effect env t w c out w') (u : UserId)
    (ls : List Lineage) :
    ofAccount u (followCall w'.nextCall c out ls) =
      ofAccount u ls + (c.logsIn u out).toNat := by
  obtain ⟨cond, new, hstep⟩ := h.sessions hw
  have hwf : w'.nextCall.Wf env := h.wf hw
  have hsessions := hstep.sessions
  cases hstep.opening h with
  | nothing hsame hlogin =>
    rw [hsame, hlogin u]
    rfl
  | @login data device user =>
    have hadded : LoginUseCase.session env t w.calls user (device.getD {}) ∈
        w'.db.sessions := by
      rw [hsessions]
      exact List.mem_append_right _ (List.mem_singleton_self _)
    have hfound : w'.nextCall.db.sessionByJti (env.supply.jti w.calls 0) =
        some (LoginUseCase.session env t w.calls user (device.getD {})) :=
      hwf.db.sessionByJti_of_mem hadded
    rw [followCall_login hfound, ofAccount, List.countP_append]
    rfl
  | @refresh claims device old user =>
    show ofAccount u (ls.map (·.extend claims.jti (env.supply.jti w.calls 0)
      (device.getD {}))) = ofAccount u ls
    unfold ofAccount
    rw [List.countP_map]
    refine List.countP_congr fun l _ => ?_
    rw [Function.comp_apply, Lineage.login_extend]

/-- An account has no more unrevoked sessions than lineages: each is the newest of its
own. -/
theorem Tracked.unrevoked_le {ls : List Lineage} (ht : Tracked w.db ls) (hw : w.Wf env)
    (u : UserId) : (w.db.unrevoked u).length ≤ ofAccount u ls := by
  have hnodup : ((w.db.unrevoked u).map (·.jti)).Nodup :=
    hw.db.sessionJtis.sublist (List.filter_sublist.map _)
  have hsubset : (w.db.unrevoked u).map (·.jti) ⊆
      (ls.filter (·.login.userId == u)).map (·.newest) := by
    intro jti hjti
    obtain ⟨s, hs, rfl⟩ := List.mem_map.1 hjti
    obtain ⟨hmem, hcond⟩ := List.mem_filter.1 hs
    obtain ⟨howner, hlive⟩ : s.userId = u ∧ s.revokedAt = none := by simpa using hcond
    obtain ⟨l, hl, hmember⟩ := ht.covers s hmem
    have hkept := ht.kept l hl
    have hlogin : l.login.userId = u := (hkept.userId s hmem hmember).symm.trans howner
    rw [hkept.newest s hmem hmember hlive]
    exact List.mem_map_of_mem (List.mem_filter.2 ⟨hl, by simpa using hlogin⟩)
  have hle := (List.subperm_of_subset hnodup hsubset).length_le
  rw [List.length_map, List.length_map, ← List.countP_eq_length_filter] at hle
  exact hle

/-! ## Every run -/

/-- Every lineage of a run is kept. -/
theorem runCalls_tracked {ls : List Lineage} (hw : w.Wf env) (ht : Tracked w.db ls)
    (calls : Calls) : Tracked (runCalls env w calls).db (follow env calls w ls) := by
  induction calls generalizing w ls with
  | nil => exact ht
  | cons s rest ih =>
    obtain ⟨w', h, he⟩ := runCall_effect env w s.1 s.2
    have hnext : Tracked (runCall env w s.1 s.2).1.db
        (followCall (runCall env w s.1 s.2).1 s.2 (runCall env w s.1 s.2).2 ls) := by
      rw [he]
      have hnext : Tracked w'.db (followCall w'.nextCall s.2 _ ls) := ht.call hw h
      exact hnext
    exact ih (runCall_wf hw s.1 s.2) hnext

theorem ofAccount_follow (hw : w.Wf env) (u : UserId) (calls : Calls) (ls : List Lineage) :
    ofAccount u (follow env calls w ls) = ofAccount u ls + loginsOf env u calls w := by
  induction calls generalizing w ls with
  | nil => rfl
  | cons s rest ih =>
    obtain ⟨w', h, he⟩ := runCall_effect env w s.1 s.2
    have hcall := ofAccount_call hw h u ls
    have hrest := ih (runCall_wf hw s.1 s.2)
      (followCall (runCall env w s.1 s.2).1 s.2 (runCall env w s.1 s.2).2 ls)
    rw [← he] at hcall
    show ofAccount u (follow env rest _ _) = _ + (_ + _)
    omega

/-- A starting world has no sessions, so no lineages. -/
theorem Initial.tracked (h : Initial env w) : Tracked w.db [] where
  covers := by simp [h.sessions]
  kept := by simp

/-- Along every sequential run, and with whatever the refreshes supply, a refresh preserves
the identity of the login: at most the newest session of a lineage is not revoked, all its
sessions have the account and the date of the login, and the newest has for each detail the
last value supplied that is not empty.  An account has no more unrevoked sessions than it
has had logins. -/
theorem lineages_kept (h : Initial env w) (calls : Calls) :
    (∀ l ∈ lineages env w calls, l.Kept (runCalls env w calls).db ∧
      ∀ s ∈ (runCalls env w calls).db.sessions, ∀ s' ∈ (runCalls env w calls).db.sessions,
        s.jti ∈ l.jtis → s'.jti ∈ l.jtis → s.revokedAt = none → s'.revokedAt = none →
          s = s') ∧
      ∀ u, ((runCalls env w calls).db.unrevoked u).length ≤ loginsOf env u calls w := by
  have hwf := runCalls_wf h.wf calls
  have ht : Tracked (runCalls env w calls).db (lineages env w calls) :=
    runCalls_tracked h.wf h.tracked calls
  refine ⟨fun l hl => ⟨ht.kept l hl, ?_⟩, fun u => ?_⟩
  · intro s hs s' hs' hjti hjti' hlive hlive'
    have hnewest := (ht.kept l hl).newest s hs hjti hlive
    have hnewest' := (ht.kept l hl).newest s' hs' hjti' hlive'
    exact hwf.db.jti_unique hs hs' (hnewest.trans hnewest'.symm)
  · have hcount := ofAccount_follow h.wf u calls []
    have hle := ht.unrevoked_le hwf u
    rw [show ofAccount u [] = 0 from rfl, Nat.zero_add] at hcount
    unfold lineages at hle
    omega

namespace Sample

/-- Alice logs in from her phone; two refreshes follow, of which the first tells another
address and the second no more than an empty one. -/
def rotating : Calls :=
  [(10, .login ⟨"alice", "secret"⟩ (some ⟨some "v", some "phone", some "a", none⟩)),
    (20, .refresh (.jwt ⟨1, label 0 0, .refresh, 3610⟩) (some ⟨none, none, some "b", none⟩)),
    (30, .refresh (.jwt ⟨1, label 1 0, .refresh, 3620⟩) (some ⟨none, some "", none, none⟩))]

end Sample

/-- The lineage of her login has three sessions, and the newest remembers the phone and
the second address. -/
theorem lineages_kept_rotating :
    ((lineages Sample.env Sample.world Sample.rotating).map fun l =>
        (l.jtis, l.known (·.userAgent), l.known (·.ipAddress))) =
      [([Sample.label 2 0, Sample.label 1 0, Sample.label 0 0], some "phone",
        some "b")] ∧
    (∀ l ∈ lineages Sample.env Sample.world Sample.rotating,
      l.Kept (runCalls Sample.env Sample.world Sample.rotating).db ∧
      ∀ s ∈ (runCalls Sample.env Sample.world Sample.rotating).db.sessions,
        ∀ s' ∈ (runCalls Sample.env Sample.world Sample.rotating).db.sessions,
          s.jti ∈ l.jtis → s'.jti ∈ l.jtis → s.revokedAt = none → s'.revokedAt = none →
            s = s') ∧
      ∀ u, ((runCalls Sample.env Sample.world Sample.rotating).db.unrevoked u).length ≤
        loginsOf Sample.env u Sample.rotating Sample.world :=
  ⟨by decide +kernel, lineages_kept Sample.initial Sample.rotating⟩

end VideoSite.Users
