import VideoSite.Users.Api

/-!
# The audit log accounts for the active flag

`BanUser`, `UnbanUser` and `DeleteUser` are the use cases that change whether an
account is active, and each of them writes a row of the audit log about it.
`FlagStep` says so for one call.  A run of requests keeps `World.Accounted`: the
rows about an account take turns, and the last of them tells its flag.

`DeleteUser` writes its row whether the account was active or not.  What makes the
rows take turns is that its route runs it for an account that `Authenticate` has
just accepted, and that such an account is active.

* `Effect.flags` is the inversion of `Effect` for the flag and the log.
* `World.Accounted.serve` says that a request keeps the invariant.
* `audit_accounts_for_active` is the result about runs.
-/

namespace VideoSite.Users

open Effects Program

variable {env : Env} {t t' : Time} {w w' : World} {c : Call} {out : Except Failure Answer}

/-! ## The log of one account -/

/-- The row says that an account was deactivated or reactivated. -/
def AuditEvent.isSwitch (event : AuditEvent) : Bool :=
  event.action == .userBanned || event.action == .userUnbanned

/-- The rows with action `USER_BANNED` or `USER_UNBANNED` about the account `u`. -/
def Db.switches (db : Db) (u : UserId) : List AuditEvent :=
  db.auditLogs.filter fun event => event.isSwitch && event.userId == some u

/-- Their actions, in the order of their ids. -/
def Db.switchLog (db : Db) (u : UserId) : List AuditAction :=
  ((db.switches u).insertionSort fun a b => a.id ≤ b.id).map (·.action)

/-- The actions take turns, the first of them `USER_BANNED` for an active account and
`USER_UNBANNED` for another. -/
def AlternatesFrom : Bool → List AuditAction → Prop
  | _, [] => True
  | true, action :: rest => action = .userBanned ∧ AlternatesFrom false rest
  | false, action :: rest => action = .userUnbanned ∧ AlternatesFrom true rest

/-- The flag that the log tells: that of the last row, or active without one. -/
def activeAfter (log : List AuditAction) : Bool := log.getLast?.all (· == .userUnbanned)

theorem activeAfter_iff {log : List AuditAction} :
    activeAfter log = true ↔ log = [] ∨ log.getLast? = some .userUnbanned := by
  unfold activeAfter
  cases h : log.getLast? with
  | none => simpa using List.getLast?_eq_none_iff.1 h
  | some action =>
    have hne : log ≠ [] := fun he => by simp [he] at h
    simp [hne]

@[simp] theorem activeAfter_append (log : List AuditAction) (action : AuditAction) :
    activeAfter (log ++ [action]) = (action == .userUnbanned) := by
  simp [activeAfter]

/-- The row that switches an account off, or on. -/
def switchAction (active : Bool) : AuditAction := if active then .userUnbanned else .userBanned

theorem alternatesFrom_append {start : Bool} {log : List AuditAction} {action : AuditAction}
    (h : AlternatesFrom start log) (hflag : log = [] → start = !(action == .userUnbanned))
    (hlast : log ≠ [] → activeAfter log = !(action == .userUnbanned))
    (haction : action = .userBanned ∨ action = .userUnbanned) :
    AlternatesFrom start (log ++ [action]) := by
  induction log generalizing start with
  | nil =>
    rcases haction with rfl | rfl
    · rw [hflag rfl]
      exact ⟨rfl, trivial⟩
    · rw [hflag rfl]
      exact ⟨rfl, trivial⟩
  | cons first rest ih =>
    -- what the first row leaves is where the rest starts
    have hrest {next : Bool} (hfirst : (first == .userUnbanned) = next)
        (halt : AlternatesFrom next rest) : AlternatesFrom next (rest ++ [action]) := by
      refine ih halt (fun hnil => ?_) fun hne => ?_
      · subst hnil
        rw [← hfirst]
        simpa [activeAfter] using hlast (by simp)
      · have hafter := hlast (by simp)
        obtain ⟨second, others, rfl⟩ := List.exists_cons_of_ne_nil hne
        simpa [activeAfter] using hafter
    cases start with
    | true => exact ⟨h.1, hrest (by rw [h.1]; rfl) h.2⟩
    | false => exact ⟨h.1, hrest (by rw [h.1]; rfl) h.2⟩

/-! ## What a call does to the flag -/

/-- The call sets the flag of the account `u`: a ban of an active account that is no
superuser, the reactivation of an inactive one, or a deletion. -/
def Call.Switches (w : World) (u : UserId) (active : Bool) : Call → Prop
  | .deleteUser v _ => v = u ∧ active = false
  | .banUser _ v _ _ => v = u ∧ active = false ∧
      ∀ row ∈ w.db.users, row.id = u → row.isActive = true ∧ row.isSuperuser = false
  | .unbanUser _ v _ => v = u ∧ active = true ∧
      ∀ row ∈ w.db.users, row.id = u → row.isActive = false
  | _ => False

/-- The flags of the accounts and the audit log after a call: nothing is switched, or
one account is, with one row about it. -/
inductive FlagStep (env : Env) (w : World) (c : Call) (w' : World) : Prop
  | kept
      (husers : ∀ row' ∈ w'.db.users,
        (∃ row ∈ w.db.users, row.id = row'.id ∧ row'.isActive = row.isActive) ∨
          row'.id = env.supply.rowId w.calls 1 ∧ row'.isActive = true ∧
            row'.isSuperuser = false)
      (hlogs : ∃ new, w'.db.auditLogs = w.db.auditLogs ++ new ∧
        ∀ event ∈ new, event.isSwitch = false)
  | switched {u audit} (active : Bool)
      (husers : ∀ row' ∈ w'.db.users, ∃ row ∈ w.db.users, row.id = row'.id ∧
        row'.isActive = if row.id = u then active else row.isActive)
      (hlogs : w'.db.auditLogs = w.db.auditLogs ++ [audit])
      (haction : audit.action = switchAction active) (hof : audit.userId = some u)
      (hid : audit.id = env.supply.rowId w.calls 0) (hknown : w.db.hasUser u = true)
      (hby : c.Switches w u active)

theorem UserRow.setProfile_isActive (row : UserRow) (p : Profile) (stamp : Time) :
    (row.setProfile p stamp).isActive = p.isActive := by
  unfold setProfile
  split_ifs with h
  · exact congrArg Profile.isActive h
  · rfl

section Logs

variable (db : Db)

@[simp] theorem Db.setProfile_auditLogs (row : UserRow) (p : Profile) (stamp : Time) :
    (db.setProfile row p stamp).auditLogs = db.auditLogs := by
  unfold setProfile
  split <;> rfl

@[simp] theorem Db.setPassword_auditLogs (row : UserRow) (hash : String) (stamp : Time) :
    (db.setPassword row hash stamp).auditLogs = db.auditLogs := by
  unfold setPassword
  split <;> rfl

@[simp] theorem Db.linkRole_auditLogs (u : UserId) (r : RoleId) :
    (db.linkRole u r).auditLogs = db.auditLogs := by
  unfold linkRole
  split <;> rfl

@[simp] theorem Db.linkPermission_auditLogs (r : RoleId) (p : PermissionId) :
    (db.linkPermission r p).auditLogs = db.auditLogs := by
  unfold linkPermission
  split <;> rfl

@[simp] theorem Db.grantDefault_auditLogs (u : UserId) (role : Option Role) :
    (db.grantDefault u role).auditLogs = db.auditLogs := by
  cases role with
  | none => rfl
  | some r => exact Db.linkRole_auditLogs db u r.id

@[simp] theorem VerifyEmailUseCase.stamped_auditLogs (row : UserRow) (user : User) :
    (VerifyEmailUseCase.stamped t db row user).auditLogs = db.auditLogs := by
  unfold stamped
  split
  · rfl
  · exact Db.setProfile_auditLogs _ _ _ _

@[simp] theorem UpdateUserUseCase.finished_auditLogs (updated : User) :
    (UpdateUserUseCase.finished env t w db updated).db.auditLogs = db.auditLogs := by
  unfold finished
  split <;> rfl

@[simp] theorem Db.log_auditLogs (row : AuditEvent) :
    (db.log row).auditLogs = db.auditLogs ++ [row] := rfl

@[simp] theorem Db.revokeWhere_auditLogs (cond : AuthSession → Bool) (moment : Time) :
    (db.revokeWhere cond moment).auditLogs = db.auditLogs := rfl

@[simp] theorem Db.useWhere_auditLogs (cond : SecurityToken → Bool) (moment : Time) :
    (db.useWhere cond moment).auditLogs = db.auditLogs := rfl

@[simp] theorem Db.addToken_auditLogs (row : SecurityToken) :
    (db.addToken row).auditLogs = db.auditLogs := rfl

@[simp] theorem Db.addUser_auditLogs (row : UserRow) :
    (db.addUser row).auditLogs = db.auditLogs := rfl

@[simp] theorem EmailVerificationIssuer.issued_auditLogs (n k : Nat) (u : UserId) :
    (EmailVerificationIssuer.issued env t n k db u).auditLogs = db.auditLogs := rfl

end Logs

/-- A call that leaves the accounts alone and logs nothing. -/
theorem FlagStep.quiet (husers : w'.db.users = w.db.users)
    (hlogs : w'.db.auditLogs = w.db.auditLogs) : FlagStep env w c w' :=
  .kept (fun row hrow => .inl ⟨row, husers ▸ hrow, rfl, rfl⟩) ⟨[], by simpa using hlogs, by simp⟩

/-- A call that leaves the accounts alone and logs something else. -/
theorem FlagStep.logged {audit : AuditEvent} (husers : w'.db.users = w.db.users)
    (hlogs : w'.db.auditLogs = w.db.auditLogs ++ [audit]) (hother : audit.isSwitch = false) :
    FlagStep env w c w' :=
  .kept (fun row hrow => .inl ⟨row, husers ▸ hrow, rfl, rfl⟩)
    ⟨[audit], hlogs, by simpa using hother⟩

theorem AuditEvent.isSwitch_of_action {audit : AuditEvent} {action : AuditAction}
    (h : audit.action = action) (hbanned : action ≠ .userBanned)
    (hunbanned : action ≠ .userUnbanned) : audit.isSwitch = false := by
  simp [isSwitch, h, hbanned, hunbanned]

/-- A row after an update of one account. -/
theorem World.Wf.mem_setProfile (hw : w.Wf env) {db : Db} (hdb : db.users = w.db.users)
    {row row' : UserRow} (hrow : row ∈ w.db.users) {p : Profile} {stamp : Time}
    (hmem : row' ∈ (db.setProfile row p stamp).users) :
    ∃ old ∈ w.db.users, old.id = row'.id ∧
      row'.isActive = if old.id = row.id then p.isActive else old.isActive := by
  have hcongr : (db.setProfile row p stamp).users = (w.db.setProfile row p stamp).users := by
    unfold Db.setProfile
    split
    · exact hdb
    · simp only [Write.apply, hdb]
  rw [hcongr, hw.db.setProfile_users hrow] at hmem
  obtain ⟨old, hold, rfl⟩ := List.mem_map.1 hmem
  refine ⟨old, hold, ?_, ?_⟩
  · split
    · rw [UserRow.setProfile_id]
    · rfl
  · split
    · rw [UserRow.setProfile_isActive]
    · rfl

/-- An update that leaves the flag as it was. -/
theorem FlagStep.edited {db : Db} {row : UserRow} {p : Profile} (audits : List AuditEvent)
    (hw : w.Wf env) (hdb : db.users = w.db.users) (hrow : row ∈ w.db.users)
    (hp : p.isActive = row.isActive) (husers : w'.db.users = (db.setProfile row p t).users)
    (hlogs : w'.db.auditLogs = w.db.auditLogs ++ audits)
    (hother : ∀ audit ∈ audits, audit.isSwitch = false) : FlagStep env w c w' := by
  refine .kept (fun row' hrow' => ?_) ⟨audits, hlogs, hother⟩
  rw [husers] at hrow'
  obtain ⟨old, hold, hid, hactive⟩ := hw.mem_setProfile hdb hrow hrow'
  refine .inl ⟨old, hold, hid, ?_⟩
  rw [hactive]
  split_ifs with hown
  · rw [hp, hw.db.row_unique hold hrow hown]
  · rfl

/-- A new password leaves the flag as it was. -/
theorem FlagStep.password {row : UserRow} {hash : String} {audit : AuditEvent} (hw : w.Wf env)
    (hrow : row ∈ w.db.users) (husers : w'.db.users = (w.db.setPassword row hash t).users)
    (hlogs : w'.db.auditLogs = w.db.auditLogs ++ [audit]) (hother : audit.isSwitch = false) :
    FlagStep env w c w' := by
  refine .kept (fun row' hrow' => ?_) ⟨[audit], hlogs, by simpa using hother⟩
  rw [husers, hw.db.setPassword_users hrow] at hrow'
  obtain ⟨old, hold, rfl⟩ := List.mem_map.1 hrow'
  refine .inl ⟨old, hold, ?_, ?_⟩
  · split
    · rw [UserRow.setPassword_id]
    · rfl
  · split
    · unfold UserRow.setPassword
      split <;> rfl
    · rfl

/-- One account is switched, and the log says so. -/
theorem FlagStep.switch {u : UserId} {user : User} {row : UserRow} {audit : AuditEvent}
    (active : Bool) (hw : w.Wf env) (hrow : w.db.userRow? u = some row)
    (husers : w'.db.users = (w.db.setProfile row (user.withActive active).profile t).users)
    (hlogs : w'.db.auditLogs = w.db.auditLogs ++ [audit])
    (haudit : audit.action = switchAction active ∧ audit.userId = some u ∧
      audit.id = env.supply.rowId w.calls 0)
    (hby : c.Switches w u active) : FlagStep env w c w' := by
  obtain ⟨haction, hof, hid⟩ := haudit
  have hrowid : row.id = u := userRow?_id hrow
  refine .switched active (fun row' hrow' => ?_) hlogs haction hof hid
    (Db.hasUser_of_userRow? hrow) hby
  rw [husers] at hrow'
  obtain ⟨old, hold, hsame, hactive⟩ := hw.mem_setProfile rfl (Db.mem_of_userRow? hrow) hrow'
  refine ⟨old, hold, hsame, ?_⟩
  rw [hactive, hrowid]
  rfl

/-- The inversion of `Effect` for the flags and the log. -/
theorem Effect.flags (hw : w.Wf env) (h : Effect env t w c out w') : FlagStep env w c w' := by
  -- the account of an entity is its only row
  have hrows {u : UserId} {user : User} (huser : w.db.userById u = some user) :
      ∀ row ∈ w.db.users, row.id = u →
        row.isActive = user.isActive ∧ row.isSuperuser = user.isSuperuser := by
    intro row hrow hid
    rw [userById_of_row huser (hid ▸ hw.db.userRow?_of_mem hrow)]
    exact ⟨rfl, rfl⟩
  cases h with
  | failed | observed | loginClash | logoutIgnored | refreshClash | refreshed | authenticated
  | authenticateInactive | passwordTried | banSkipped | roleCreated | roleDeleted
  | permissionRevoked | permissionCreated | roleRevoked => exact .quiet rfl rfl
  | resetRequested => exact .quiet rfl (by simp)
  | permissionGranted | roleAssigned => exact .quiet (by simp) (by simp)
  | @registered data device limits row a audit hl hemail husername hrow haudit ha =>
    refine .kept (fun row' hrow' => ?_) ⟨[audit], by simp,
      by simpa using AuditEvent.isSwitch_of_action haudit.1 (by simp) (by simp)⟩
    simp at hrow'
    rcases List.mem_append.1 hrow' with hold | hnew
    · exact .inl ⟨row', hold, rfl, rfl⟩
    · obtain rfl := List.mem_singleton.1 hnew
      subst hrow
      exact .inr ⟨rfl, rfl, rfl⟩
  | loginFailed hopen howner hbad hdb =>
    rcases hdb with ⟨audit, haction, rfl, -⟩ | ⟨rfl, -⟩
    · exact .logged rfl rfl (AuditEvent.isSwitch_of_action haction (by simp) (by simp))
    · exact .quiet rfl rfl
  | loggedIn hopen huser hactive hverify haudit =>
    exact .logged rfl rfl (AuditEvent.isSwitch_of_action haudit.1 (by simp) (by simp))
  | loggedOut hs ht haudit =>
    exact .logged rfl rfl (AuditEvent.isSwitch_of_action haudit.1 (by simp) (by simp))
  | sessionsRevoked haudit =>
    exact .logged rfl rfl (AuditEvent.isSwitch_of_action haudit.1 (by simp) (by simp))
  | sessionRevoked hsession howner haudit =>
    exact .logged rfl rfl (AuditEvent.isSwitch_of_action haudit.1 (by simp) (by simp))
  | @passwordChanged userId data device user row audit k huser hrow hverify haudit =>
    exact .password hw (Db.mem_of_userRow? hrow) (by simp; rfl) (by simp)
      (AuditEvent.isSwitch_of_action haudit.1 (by simp) (by simp))
  | @passwordReset data device limits token user row audit hl htoken husable huser hactive hrow
      haudit =>
    exact .password hw (Db.mem_of_userRow? hrow) (by simp; rfl) (by simp)
      (AuditEvent.isSwitch_of_action haudit.1 (by simp) (by simp))
  | @emailVerified secret device token user row verified audit htoken husable huser hactive hrow
      hself haudit =>
    obtain ⟨hid, -⟩ := userById_row huser
    have he := userById_of_row huser (hid ▸ hrow)
    have hother := AuditEvent.isSwitch_of_action haudit.1 (by simp) (by simp)
    by_cases hverified : user.isEmailVerified = true
    · refine .logged ?_ (by simp) hother
      change (VerifyEmailUseCase.stamped _ _ _ _).users = w.db.users
      rw [VerifyEmailUseCase.stamped, if_pos hverified]
      rfl
    · have hstamped : (VerifyEmailUseCase.stamped t
          (w.db.useWhere (Statement.markUsedWhere token.id) t) row user).users =
            ((w.db.useWhere (Statement.markUsedWhere token.id) t).setProfile row
              (user.withVerifiedAt t).profile t).users := by
        rw [VerifyEmailUseCase.stamped, if_neg hverified]
      have hkeep : (w.db.useWhere (Statement.markUsedWhere token.id) t).users =
          w.db.users := rfl
      refine .edited [audit] hw hkeep (Db.mem_of_userRow? hrow) ?_ hstamped
        (by simp) (by simpa using hother)
      rw [he]
      rfl
  | @userUpdated userId data user edited row a huser hrow hedits =>
    have he := userById_of_row huser hrow
    refine .edited [] hw rfl (Db.mem_of_userRow? hrow) ?_
      (UpdateUserUseCase.finished_frame _ _ _).1 (by simp) (by simp)
    rw [hedits.rest, he]
    rfl
  | userDeleted huser hrow haudit =>
    exact .switch false hw hrow rfl (by simp) haudit ⟨rfl, rfl⟩
  | userBanned hsuper huser hactive hrow haudit =>
    refine .switch false hw hrow rfl (by simp) haudit ⟨rfl, rfl, fun row hmem hid => ?_⟩
    obtain ⟨hsame, hrank⟩ := hrows huser row hmem hid
    exact ⟨hsame.trans hactive, hrank.trans hsuper⟩
  | userUnbanned huser hactive hrow haudit =>
    refine .switch true hw hrow rfl (by simp) haudit ⟨rfl, rfl, fun row hmem hid => ?_⟩
    exact (hrows huser row hmem hid).1.trans hactive

/-! ## The invariant -/

/-- The audit log accounts for the flags: the rows about each account take turns, the
last of them tells its flag, and their ids are in the order in which they were
written. -/
structure World.Accounted (env : Env) (w : World) : Prop where
  known : ∀ event ∈ w.db.auditLogs, event.isSwitch = true →
    ∃ u, event.userId = some u ∧ w.db.hasUser u = true
  drawn : ∀ event ∈ w.db.auditLogs, event.isSwitch = true →
    ∃ n < w.calls, event.id = env.supply.rowId n 0
  ordered : (w.db.auditLogs.filter (·.isSwitch)).Pairwise fun a b => a.id ≤ b.id
  alternates : ∀ row ∈ w.db.users, AlternatesFrom true (w.db.switchLog row.id)
  active : ∀ row ∈ w.db.users, row.isActive = activeAfter (w.db.switchLog row.id)

/-- Rows that were written in the order of their ids are in that order. -/
theorem Db.switchLog_of_ordered {db : Db}
    (h : (db.auditLogs.filter (·.isSwitch)).Pairwise fun a b => a.id ≤ b.id) (u : UserId) :
    db.switchLog u = (db.switches u).map (·.action) := by
  have hsub : (db.switches u).Sublist (db.auditLogs.filter (·.isSwitch)) := by
    have hfilter : db.switches u =
        (db.auditLogs.filter (·.isSwitch)).filter fun event => event.userId == some u := by
      rw [List.filter_filter]
      exact List.filter_congr fun event _ => Bool.and_comm _ _
    rw [hfilter]
    exact List.filter_sublist
  unfold switchLog
  rw [(h.sublist hsub).insertionSort_eq]

/-- A row about another account, or about something else, does not matter. -/
theorem Db.switches_append {db db' : Db} {new : List AuditEvent}
    (h : db'.auditLogs = db.auditLogs ++ new) (u : UserId) :
    db'.switches u = db.switches u ++
      new.filter fun event => event.isSwitch && event.userId == some u := by
  unfold switches
  rw [h, List.filter_append]

theorem Initial.accounted (h : Initial env w)
    (hactive : ∀ row ∈ w.db.users, row.isActive = true) : w.Accounted env where
  known := by simp [h.auditLogs]
  drawn := by simp [h.auditLogs]
  ordered := by simp [h.auditLogs]
  alternates := by
    intro row _
    have hnone : w.db.switchLog row.id = [] := by simp [Db.switchLog, Db.switches, h.auditLogs]
    rw [hnone]
    trivial
  active := by
    intro row hrow
    have hnone : w.db.switchLog row.id = [] := by simp [Db.switchLog, Db.switches, h.auditLogs]
    rw [hnone, hactive row hrow]
    rfl

/-- Nothing is logged about an account that is not there. -/
theorem World.Accounted.unknown (h : w.Accounted env) {u : UserId}
    (hu : w.db.hasUser u = false) : w.db.switchLog u = [] := by
  rw [Db.switchLog_of_ordered h.ordered, List.map_eq_nil_iff]
  refine List.filter_eq_nil_iff.2 fun event hevent hmatch => ?_
  simp only [Bool.and_eq_true, beq_iff_eq] at hmatch
  obtain ⟨v, hv, hknown⟩ := h.known event hevent hmatch.1
  rw [hmatch.2] at hv
  cases hv
  rw [hknown] at hu
  cases hu

/-- A call keeps the invariant, if it deletes an active account only.  Later calls draw
greater ids. -/
theorem World.Accounted.runCall
    (hids : ∀ n m, n < m → env.supply.rowId n 0 < env.supply.rowId m 0)
    (hw : w.Wf env) (ha : w.Accounted env)
    (hdelete : ∀ u device, c = .deleteUser u device →
      ∀ row ∈ w.db.users, row.id = u → row.isActive = true) (t : Time) :
    (runCall env w t c).1.Accounted env := by
  obtain ⟨w', h, he⟩ := runCall_effect env w t c
  have hcalls : w'.nextCall.calls = w.calls + 1 := congrArg (· + 1) h.calls
  have huser {u : UserId} (hu : w.db.hasUser u = true) : w'.db.hasUser u = true := h.hasUser hw hu
  rw [he]
  cases h.flags hw with
  | kept husers hlogs =>
    obtain ⟨new, hlogs, hother⟩ := hlogs
    have hnone : new.filter (·.isSwitch) = [] :=
      List.filter_eq_nil_iff.2 fun event hevent => by simp [hother event hevent]
    have hfilter : w'.db.auditLogs.filter (·.isSwitch) =
        w.db.auditLogs.filter (·.isSwitch) := by
      rw [hlogs, List.filter_append, hnone, List.append_nil]
    have hmem {event : AuditEvent} (hevent : event ∈ w'.db.auditLogs)
        (hswitch : event.isSwitch = true) : event ∈ w.db.auditLogs := by
      have hin : event ∈ w'.db.auditLogs.filter (·.isSwitch) :=
        List.mem_filter.2 ⟨hevent, hswitch⟩
      rw [hfilter] at hin
      exact List.mem_of_mem_filter hin
    have hordered : (w'.db.auditLogs.filter (·.isSwitch)).Pairwise fun a b => a.id ≤ b.id := by
      rw [hfilter]
      exact ha.ordered
    have hlog (u : UserId) : w'.db.switchLog u = w.db.switchLog u := by
      rw [Db.switchLog_of_ordered hordered, Db.switchLog_of_ordered ha.ordered,
        Db.switches_append hlogs]
      have hempty : (new.filter fun event => event.isSwitch && event.userId == some u) = [] :=
        List.filter_eq_nil_iff.2 fun event hevent => by simp [hother event hevent]
      rw [hempty, List.append_nil]
    refine ⟨fun event hevent hswitch => ?_, fun event hevent hswitch => ?_, hordered,
      fun row' hrow' => ?_, fun row' hrow' => ?_⟩
    · obtain ⟨u, hu, hknown⟩ := ha.known event (hmem hevent hswitch) hswitch
      exact ⟨u, hu, huser hknown⟩
    · obtain ⟨n, hn, hid⟩ := ha.drawn event (hmem hevent hswitch) hswitch
      exact ⟨n, by rw [hcalls]; omega, hid⟩
    · change AlternatesFrom true (w'.db.switchLog row'.id)
      rw [hlog]
      rcases husers row' hrow' with ⟨row, hrow, hid, -⟩ | ⟨hid, -⟩
      · rw [← hid]
        exact ha.alternates row hrow
      · rw [ha.unknown (hid ▸ hw.db.unknown 1)]
        trivial
    · change row'.isActive = activeAfter (w'.db.switchLog row'.id)
      rw [hlog]
      rcases husers row' hrow' with ⟨row, hrow, hid, hactive⟩ | ⟨hid, hactive, -⟩
      · rw [hactive, ← hid]
        exact ha.active row hrow
      · rw [ha.unknown (hid ▸ hw.db.unknown 1), hactive]
        rfl
  | @switched u audit active husers hlogs haction hof hid hknown hby =>
    have hswitch : audit.isSwitch = true := by
      rw [AuditEvent.isSwitch, haction]
      cases active <;> rfl
    have hfilter : w'.db.auditLogs.filter (·.isSwitch) =
        w.db.auditLogs.filter (·.isSwitch) ++ [audit] := by
      rw [hlogs, List.filter_append]
      simp [hswitch]
    have hcases {event : AuditEvent} (hevent : event ∈ w'.db.auditLogs) :
        event ∈ w.db.auditLogs ∨ event = audit := by
      rw [hlogs] at hevent
      simpa using hevent
    have hordered : (w'.db.auditLogs.filter (·.isSwitch)).Pairwise fun a b => a.id ≤ b.id := by
      rw [hfilter, List.pairwise_append]
      refine ⟨ha.ordered, List.pairwise_singleton _ _, fun a hmem b hb => ?_⟩
      obtain rfl := List.mem_singleton.1 hb
      obtain ⟨hold, hkind⟩ := List.mem_filter.1 hmem
      obtain ⟨n, hn, hdrawn⟩ := ha.drawn a hold hkind
      rw [hdrawn, hid]
      exact (hids n w.calls hn).le
    have hlog (v : UserId) : w'.db.switchLog v =
        if v = u then w.db.switchLog v ++ [switchAction active] else w.db.switchLog v := by
      rw [Db.switchLog_of_ordered hordered, Db.switchLog_of_ordered ha.ordered,
        Db.switches_append hlogs]
      by_cases hv : v = u
      · simp [hv, hswitch, hof, haction]
      · have hvu : (some u == some v) = false := by simp [Ne.symm hv]
        simp [hv, hswitch, hof, hvu]
    -- the account was in the other state before
    have hflip : ∀ row ∈ w.db.users, row.id = u → row.isActive = !active := by
      intro row hrow hrowid
      cases c with
      | deleteUser v device =>
        obtain ⟨rfl, rfl⟩ := hby
        exact hdelete v device rfl row hrow hrowid
      | banUser actor v reason device =>
        obtain ⟨rfl, rfl, hwas⟩ := hby
        exact (hwas row hrow hrowid).1
      | unbanUser actor v device =>
        obtain ⟨rfl, rfl, hwas⟩ := hby
        exact hwas row hrow hrowid
      | _ => exact hby.elim
    have hdecide : (switchAction active == .userUnbanned) = active := by cases active <;> rfl
    refine ⟨fun event hevent hkind => ?_, fun event hevent hkind => ?_, hordered,
      fun row' hrow' => ?_, fun row' hrow' => ?_⟩
    · rcases hcases hevent with hold | rfl
      · obtain ⟨v, hv, hin⟩ := ha.known event hold hkind
        exact ⟨v, hv, huser hin⟩
      · exact ⟨u, hof, huser hknown⟩
    · rcases hcases hevent with hold | rfl
      · obtain ⟨n, hn, hdrawn⟩ := ha.drawn event hold hkind
        exact ⟨n, by rw [hcalls]; omega, hdrawn⟩
      · exact ⟨w.calls, by rw [hcalls]; omega, hid⟩
    · change AlternatesFrom true (w'.db.switchLog row'.id)
      obtain ⟨row, hrow, hrowid, -⟩ := husers row' hrow'
      rw [hlog, ← hrowid]
      split_ifs with hu
      · refine alternatesFrom_append (ha.alternates row hrow) (fun hnil => ?_) (fun _ => ?_) ?_
        · rw [hdecide, ← hflip row hrow hu, ha.active row hrow, hnil]
          rfl
        · rw [hdecide, ← hflip row hrow hu, ha.active row hrow]
        · cases active
          · exact .inl rfl
          · exact .inr rfl
      · exact ha.alternates row hrow
    · change row'.isActive = activeAfter (w'.db.switchLog row'.id)
      obtain ⟨row, hrow, hrowid, hactive⟩ := husers row' hrow'
      rw [hlog, hactive, ← hrowid]
      split_ifs with hu
      · rw [activeAfter_append, hdecide]
      · exact ha.active row hrow

/-- A request keeps the invariant: the account that `DeleteUser` is called for was
authenticated just now. -/
theorem World.Accounted.serve
    (hids : ∀ n m, n < m → env.supply.rowId n 0 < env.supply.rowId m 0)
    (hw : w.Wf env) (ha : w.Accounted env) (t t' : Time) (r : Request) :
    (r.serve env w t t').1.Accounted env := by
  have hserved := served env w t t' r
  generalize (r.serve env w t t').1 = w' at hserved ⊢
  cases hserved with
  | refused => exact ha
  | @opened endpoint device c hcall =>
    refine ha.runCall hids hw (fun u device' hc => ?_) t'
    subst hc
    cases endpoint with
    | refresh token => cases token <;> cases hcall
    | _ => cases hcall
  | checked => exact ha.runCall hids hw (fun u device hc => by cases hc) t
  | @called endpoint token device user jti c hauth hpermission hcall =>
    have haccepted := accepted_of_authenticate hw hauth
    refine World.Accounted.runCall hids (runCall_wf hw t _)
      (ha.runCall hids hw (fun u device hc => by cases hc) t) (fun u device' hc => ?_) t'
    subst hc
    rw [haccepted.db]
    cases endpoint with
    | deleteMe =>
      cases hcall
      exact haccepted.active
    | _ => cases hcall

/-- In every world that a run of requests reaches, the rows about an account with action
`USER_BANNED` or `USER_UNBANNED` take turns in the order of their ids, starting with
`USER_BANNED`, and the account is active just if there are none or the last of them is
`USER_UNBANNED`. -/
theorem audit_accounts_for_active {w₀ : World} (h₀ : Initial env w₀)
    (hactive : ∀ row ∈ w₀.db.users, row.isActive = true)
    (hids : ∀ n m, n < m → env.supply.rowId n 0 < env.supply.rowId m 0)
    (requests : Requests) (row : UserRow) (hrow : row ∈ (serveAll env w₀ requests).db.users) :
    AlternatesFrom true ((serveAll env w₀ requests).db.switchLog row.id) ∧
      (row.isActive = true ↔ (serveAll env w₀ requests).db.switchLog row.id = [] ∨
        ((serveAll env w₀ requests).db.switchLog row.id).getLast? = some .userUnbanned) := by
  obtain ⟨-, haccounted⟩ := serveAll_induction
    (fun _ t t' r hw ha => World.Accounted.serve hids hw ha t t' r) h₀.wf
    (h₀.accounted hactive) requests
  refine ⟨haccounted.alternates row hrow, ?_⟩
  rw [haccounted.active row hrow]
  exact activeAfter_iff

/-- Alice logs in and deletes her account. -/
theorem audit_accounts_for_active_deleted :
    let requests : Requests := [(10, 10, .guest (.login ⟨"alice", "secret"⟩) {}),
      (11, 12, .account .deleteMe (some Sample.access) {})]
    AlternatesFrom true ((serveAll Sample.env Sample.world requests).db.switchLog 1) ∧
      (false = true ↔ (serveAll Sample.env Sample.world requests).db.switchLog 1 = [] ∨
        ((serveAll Sample.env Sample.world requests).db.switchLog 1).getLast? =
          some .userUnbanned) := by
  have hids (n m : Nat) (h : n < m) :
      Sample.env.supply.rowId n 0 < Sample.env.supply.rowId m 0 := by
    show Nat.pair n 0 + 1000 < Nat.pair m 0 + 1000
    have hlt := Nat.pair_lt_pair_left 0 h
    omega
  have hrow : { Sample.account 1 "alice" with isActive := false, updatedAt := 12 } ∈
      (serveAll Sample.env Sample.world
        [(10, 10, .guest (.login ⟨"alice", "secret"⟩) {}),
          (11, 12, .account .deleteMe (some Sample.access) {})]).db.users := by
    decide +kernel
  exact audit_accounts_for_active Sample.initial (by decide) hids _ _ hrow

end VideoSite.Users
