import VideoSite.Users.Activity
import VideoSite.Users.OneTimeTokens

/-!
# No escalation of privileges, and accounts apart from each other

Rights change on the endpoints of `/admin` only, which ask for the permission
`users.manage`.  `Db.Confined` says what the other endpoints cannot do to roles,
assignments and superusers, and `Db.SameAccount` that an account is left as it is:
its row, its sessions and its one-time tokens.

* `Effect.confined` and `Effect.sameAccount` are the results about one call.
* `no_privilege_escalation` is the result about runs of requests.
-/

namespace VideoSite.Users

open Effects Program

variable {env : Env} {t t' : Time} {w w' : World} {c : Call} {out : Except Failure Answer}

/-! ## Rights -/

/-- From `db` to `db'` no rights were changed: the tables of roles and permissions are
the same, so are the roles and the ranks of the accounts that were there, and a new
account is no superuser and has the default role at most. -/
structure Db.Confined (env : Env) (db db' : Db) : Prop where
  roles : db'.roles = db.roles
  permissions : db'.permissions = db.permissions
  rolePermissions : db'.rolePermissions = db.rolePermissions
  stays : ∀ u, db.hasUser u = true → db'.hasUser u = true
  assigned : ∀ u r, db.hasUser u = true → ((u, r) ∈ db'.userRoles ↔ (u, r) ∈ db.userRoles)
  ranks : ∀ row' ∈ db'.users, db.hasUser row'.id = true →
    ∃ row ∈ db.users, row.id = row'.id ∧ row'.isSuperuser = row.isSuperuser
  newcomers : ∀ row' ∈ db'.users, db.hasUser row'.id = false → row'.isSuperuser = false ∧
    ∀ r, (row'.id, r) ∈ db'.userRoles →
      ∃ role, db.roleByName env.config.defaultRoleName = some role ∧ r = role.id

namespace Db.Confined

variable {db db' db'' : Db}

theorem refl : db.Confined env db where
  roles := rfl
  permissions := rfl
  rolePermissions := rfl
  stays := fun _ h => h
  assigned := fun _ _ _ => Iff.rfl
  ranks := fun row hrow _ => ⟨row, hrow, rfl, rfl⟩
  newcomers := by
    intro row hrow hnew
    rw [Db.hasUser_iff.2 (List.mem_map_of_mem hrow)] at hnew
    cases hnew

/-- The default role is the same as long as the tables are. -/
theorem roleByName (h : db.Confined env db') (name : String) :
    db'.roleByName name = db.roleByName name := by
  have hentity : db'.roleToEntity = db.roleToEntity := by
    funext row
    simp only [Db.roleToEntity, h.permissions, h.rolePermissions]
  simp only [Db.roleByName, h.roles, hentity]

theorem trans (h : db.Confined env db') (h' : db'.Confined env db'') :
    db.Confined env db'' where
  roles := h'.roles.trans h.roles
  permissions := h'.permissions.trans h.permissions
  rolePermissions := h'.rolePermissions.trans h.rolePermissions
  stays := fun u hu => h'.stays u (h.stays u hu)
  assigned := fun u r hu => (h'.assigned u r (h.stays u hu)).trans (h.assigned u r hu)
  ranks := by
    intro row'' hrow'' hknown
    obtain ⟨row', hrow', hid', hrank'⟩ := h'.ranks row'' hrow'' (h.stays _ hknown)
    obtain ⟨row, hrow, hid, hrank⟩ := h.ranks row' hrow' (hid' ▸ hknown)
    exact ⟨row, hrow, hid.trans hid', hrank'.trans hrank⟩
  newcomers := by
    intro row'' hrow'' hnew
    cases hmiddle : db'.hasUser row''.id with
    | true =>
      obtain ⟨row', hrow', hid, hrank⟩ := h'.ranks row'' hrow'' hmiddle
      obtain ⟨hplain, hroles⟩ := h.newcomers row' hrow' (hid ▸ hnew)
      refine ⟨hrank.trans hplain, fun r hr => hroles r ?_⟩
      rw [hid]
      exact (h'.assigned _ r hmiddle).1 hr
    | false =>
      obtain ⟨hplain, hroles⟩ := h'.newcomers row'' hrow'' hmiddle
      refine ⟨hplain, fun r hr => ?_⟩
      rw [← h.roleByName]
      exact hroles r hr

end Db.Confined

/-- The calls behind the endpoints of `/admin` that change rights. -/
def Call.ChangesRights : Call → Prop
  | .createRole _ _ | .deleteRole _ | .grantPermissionToRole _ _
  | .revokePermissionFromRole _ _ | .createPermission _ _ _ | .assignRoleToUser _ _
  | .revokeRoleFromUser _ _ => True
  | _ => False

/-- The default role adds one assignment at most. -/
theorem Db.grantDefault_rbac (db : Db) (u : UserId) (role : Option Role) :
    (db.grantDefault u role).roles = db.roles ∧
      (db.grantDefault u role).permissions = db.permissions ∧
      (db.grantDefault u role).rolePermissions = db.rolePermissions ∧
      ∃ new, (db.grantDefault u role).userRoles = db.userRoles ++ new ∧
        ∀ link ∈ new, ∃ r, role = some r ∧ link = (u, r.id) := by
  cases role with
  | none => exact ⟨rfl, rfl, rfl, [], by rw [List.append_nil]; rfl, by simp⟩
  | some r =>
    show (db.linkRole u r.id).roles = _ ∧ (db.linkRole u r.id).permissions = _ ∧
      (db.linkRole u r.id).rolePermissions = _ ∧ ∃ new, (db.linkRole u r.id).userRoles = _ ∧ _
    unfold Db.linkRole
    split
    · exact ⟨rfl, rfl, rfl, [], by rw [List.append_nil], by simp⟩
    · refine ⟨rfl, rfl, rfl, [(u, r.id)], rfl, fun link hlink => ?_⟩
      exact ⟨r, rfl, List.mem_singleton.1 hlink⟩

/-- The inversion of `Effect` for the tables of rights: `Register` assigns the default
role to the account it adds, and nothing else changes. -/
theorem Effect.rbac (hc : ¬ c.ChangesRights) (h : Effect env t w c out w') :
    w'.db.roles = w.db.roles ∧ w'.db.permissions = w.db.permissions ∧
      w'.db.rolePermissions = w.db.rolePermissions ∧
      ∃ new, w'.db.userRoles = w.db.userRoles ++ new ∧
        ∀ link ∈ new, link.1 = env.supply.rowId w.calls 1 ∧
          ∃ role, w.db.roleByName env.config.defaultRoleName = some role ∧ link.2 = role.id := by
  have hsame (hrbac : w'.db.rbac = w.db.rbac) : w'.db.roles = w.db.roles ∧
      w'.db.permissions = w.db.permissions ∧ w'.db.rolePermissions = w.db.rolePermissions ∧
      ∃ new, w'.db.userRoles = w.db.userRoles ++ new ∧
        ∀ link ∈ new, link.1 = env.supply.rowId w.calls 1 ∧ ∃ role,
          w.db.roleByName env.config.defaultRoleName = some role ∧ link.2 = role.id := by
    obtain ⟨hroles, hrest⟩ := Prod.mk.inj hrbac
    obtain ⟨hpermissions, hlinks⟩ := Prod.mk.inj hrest
    obtain ⟨husers, hroleperms⟩ := Prod.mk.inj hlinks
    exact ⟨hroles, hpermissions, hroleperms, [], by rw [husers, List.append_nil], by simp⟩
  cases h with
  | failed | observed | loginClash | loggedIn | logoutIgnored | loggedOut | refreshClash
  | refreshed | authenticated | authenticateInactive | passwordTried | banSkipped
  | sessionsRevoked | sessionRevoked | resetRequested => exact hsame rfl
  | roleCreated | roleDeleted | permissionGranted | permissionRevoked | permissionCreated
  | roleAssigned | roleRevoked => exact absurd trivial hc
  | loginFailed hopen howner hbad hdb =>
    rcases hdb with ⟨audit, -, rfl, -⟩ | ⟨rfl, -⟩ <;> exact hsame rfl
  | passwordChanged | passwordReset | emailVerified | userUpdated | userDeleted | userBanned
  | userUnbanned => exact hsame (by simp)
  | @registered data device limits row a audit hl hemail husername hrow haudit ha =>
    have hrowid : row.id = env.supply.rowId w.calls 1 := by rw [hrow]; rfl
    obtain ⟨hroles, hpermissions, hroleperms, new, hlinks, hnew⟩ :=
      (w.db.addUser row).grantDefault_rbac row.id
        ((w.db.addUser row).roleByName env.config.defaultRoleName)
    have hissued (db : Db) :
        ((EmailVerificationIssuer.issued env t w.calls 2 db row.id).log audit).rbac = db.rbac :=
      rfl
    have hroles' := (congrArg Prod.fst (hissued _)).trans hroles
    have hpermissions' := (congrArg (fun r => r.2.1) (hissued _)).trans hpermissions
    have hlinks' := (congrArg (fun r => r.2.2.1) (hissued _)).trans hlinks
    have hroleperms' := (congrArg (fun r => r.2.2.2) (hissued _)).trans hroleperms
    refine ⟨hroles', hpermissions', hroleperms', new, hlinks', fun link hlink => ?_⟩
    obtain ⟨role, hrole, rfl⟩ := hnew link hlink
    exact ⟨hrowid, role, hrole, rfl⟩

/-- A call that changes no rights. -/
theorem Effect.confined (hw : w.Wf env) (hc : ¬ c.ChangesRights)
    (h : Effect env t w c out w') : w.db.Confined env w'.db := by
  obtain ⟨hroles, hpermissions, hroleperms, new, hlinks, hnew⟩ := h.rbac hc
  have hfresh := hw.db.unknown 1
  obtain ⟨edit, added, hstep⟩ := h.users hw
  refine ⟨hroles, hpermissions, hroleperms, fun u hu => h.hasUser hw hu, fun u r hu => ?_,
    fun row' hrow' hknown => ?_, fun row' hrow' hunknown => ⟨?_, fun r hr => ?_⟩⟩
  · rw [hlinks, List.mem_append]
    refine or_iff_left fun hin => ?_
    have hid : u = env.supply.rowId w.calls 1 := (hnew (u, r) hin).1
    rw [hid, hfresh] at hu
    cases hu
  · rw [hstep.users] at hrow'
    rcases List.mem_append.1 hrow' with hold | hadded
    · obtain ⟨row, hrow, rfl⟩ := List.mem_map.1 hold
      exact ⟨row, hrow, (hstep.id row hrow).symm, hstep.isSuperuser row hrow⟩
    · rw [(hstep.fresh row' hadded).1, hfresh] at hknown
      cases hknown
  · have hold (row : UserRow) (hrow : row ∈ w.db.users) (hid : row.id = row'.id) :
        row'.isSuperuser = false := by
      rw [← hid, Db.hasUser_iff.2 (List.mem_map_of_mem hrow)] at hunknown
      cases hunknown
    cases h.flags hw with
    | kept husers _ =>
      rcases husers row' hrow' with ⟨row, hrow, hid, -⟩ | ⟨-, -, hplain⟩
      · exact hold row hrow hid
      · exact hplain
    | switched _ husers =>
      obtain ⟨row, hrow, hid, -⟩ := husers row' hrow'
      exact hold row hrow hid
  · rw [hlinks] at hr
    rcases List.mem_append.1 hr with hin | hin
    · rw [(hw.db.userRoles _ hin).1] at hunknown
      cases hunknown
    · exact (hnew _ hin).2

/-! ## Other accounts -/

/-- The account `v` is the same: its row, its sessions and its one-time tokens. -/
structure Db.SameAccount (db db' : Db) (v : UserId) : Prop where
  row : db'.users.filter (·.id == v) = db.users.filter (·.id == v)
  sessions : db'.sessions.filter (·.userId == v) = db.sessions.filter (·.userId == v)
  tokens : db'.securityTokens.filter (·.userId == v) =
    db.securityTokens.filter (·.userId == v)

/-- An edit that keeps apart what a filter keeps apart, and leaves alone what passes. -/
theorem filter_map_of_fixed {α : Type} {p : α → Bool} {f : α → α} {l : List α}
    (hkeeps : ∀ a ∈ l, p (f a) = p a) (hfixes : ∀ a ∈ l, p a = true → f a = a) :
    (l.map f).filter p = l.filter p := by
  induction l with
  | nil => rfl
  | cons a rest ih =>
    have hrest := ih (fun b hb => hkeeps b (List.mem_cons_of_mem _ hb))
      fun b hb => hfixes b (List.mem_cons_of_mem _ hb)
    have hsame := hkeeps a List.mem_cons_self
    rw [List.map_cons, List.filter_cons, List.filter_cons, hsame, hrest]
    split_ifs with hp
    · rw [hfixes a List.mem_cons_self hp]
    · rfl

namespace Db.SameAccount

variable {db db' : Db} {v : UserId}

theorem refl : db.SameAccount db v := ⟨rfl, rfl, rfl⟩

theorem log (h : db.SameAccount db' v) (row : AuditEvent) : db.SameAccount (db'.log row) v :=
  ⟨h.row, h.sessions, h.tokens⟩

theorem setProfile (h : db.SameAccount db' v) {row : UserRow} (hne : row.id ≠ v) (p : Profile)
    (stamp : Time) : db.SameAccount (db'.setProfile row p stamp) v := by
  refine ⟨?_, by simpa using h.sessions, by simpa using h.tokens⟩
  rw [← h.row]
  unfold Db.setProfile
  split
  · rfl
  · refine filter_map_of_fixed (fun other _ => ?_) fun other _ hother => ?_
    · split <;> rfl
    · have hid : other.id ≠ row.id := fun he => hne (he ▸ by simpa using hother)
      rw [if_neg hid]

theorem setPassword (h : db.SameAccount db' v) {row : UserRow} (hne : row.id ≠ v)
    (hash : String) (stamp : Time) : db.SameAccount (db'.setPassword row hash stamp) v := by
  refine ⟨?_, by simpa using h.sessions, by simpa using h.tokens⟩
  rw [← h.row]
  unfold Db.setPassword
  split
  · rfl
  · refine filter_map_of_fixed (fun other _ => ?_) fun other _ hother => ?_
    · split <;> rfl
    · have hid : other.id ≠ row.id := fun he => hne (he ▸ by simpa using hother)
      rw [if_neg hid]

/-- With unique ids an update of other accounts' sessions leaves those of `v` alone. -/
theorem revokeWhere (h : db.SameAccount db' v) {cond : AuthSession → Bool}
    (hids : (db'.sessions.map (·.id)).Nodup)
    (hcond : ∀ s ∈ db'.sessions, cond s = true → s.userId ≠ v) (moment : Time) :
    db.SameAccount (db'.revokeWhere cond moment) v := by
  refine ⟨h.row, ?_, h.tokens⟩
  rw [← h.sessions, Db.revokeWhere_sessions]
  refine filter_map_of_fixed (fun s _ => by simp) fun s hs hown => ?_
  have hout : s.id ∉ sessionIds db' cond := by
    intro hin
    obtain ⟨other, hother, he⟩ := List.mem_map.1 hin
    obtain ⟨hmem, hmatch⟩ := List.mem_filter.1 hother
    obtain rfl := List.inj_on_of_nodup_map hids hmem hs he
    exact hcond _ hmem hmatch (by simpa using hown)
  simp [AuthSession.revokeIn, hout]

theorem useWhere (h : db.SameAccount db' v) {cond : SecurityToken → Bool}
    (hids : (db'.securityTokens.map (·.id)).Nodup)
    (hcond : ∀ token ∈ db'.securityTokens, cond token = true → token.userId ≠ v)
    (moment : Time) : db.SameAccount (db'.useWhere cond moment) v := by
  refine ⟨h.row, h.sessions, ?_⟩
  rw [← h.tokens, Db.useWhere_tokens]
  refine filter_map_of_fixed (fun token _ => by simp) fun token htoken hown => ?_
  have hout : token.id ∉ tokenIds db' cond := by
    intro hin
    obtain ⟨other, hother, he⟩ := List.mem_map.1 hin
    obtain ⟨hmem, hmatch⟩ := List.mem_filter.1 hother
    obtain rfl := List.inj_on_of_nodup_map hids hmem htoken he
    exact hcond _ hmem hmatch (by simpa using hown)
  simp [SecurityToken.useIn, hout]

theorem addToken (h : db.SameAccount db' v) {row : SecurityToken} (hne : row.userId ≠ v) :
    db.SameAccount (db'.addToken row) v := by
  refine ⟨h.row, h.sessions, ?_⟩
  show (db'.securityTokens ++ [row]).filter (·.userId == v) = _
  rw [List.filter_append, h.tokens]
  simp [hne]

end Db.SameAccount

/-- The call acts for the account `a`: it names it, or presents a token of it. -/
def Call.ActsFor (w : World) (a : UserId) : Call → Prop
  | .logout token _ => ∃ c ∈ w.signed, token = .jwt c ∧ c.sub = a
  | .updateUser u _ => u = a
  | .changePassword u _ _ => u = a
  | .deleteUser u _ => u = a
  | .listUserSessions u => u = a
  | .revokeAllSessions u _ _ => u = a
  | .revokeUserSession u _ _ => u = a
  | _ => False

theorem Statement.userId_of_revokeAllWhere {u : UserId} {exceptJti : Option String}
    {s : AuthSession} (h : Statement.revokeAllWhere u exceptJti s = true) : s.userId = u := by
  simp [Statement.revokeAllWhere] at h
  exact h.1.1

/-- A call that acts for an account leaves the others as they are. -/
theorem Effect.sameAccount (hw : w.Wf env) (hids : w.db.TokenIds env.supply w.calls)
    {a v : UserId} (hc : c.ActsFor w a) (hv : v ≠ a) (h : Effect env t w c out w') :
    w.db.SameAccount w'.db v := by
  have hothers {u : UserId} {exceptJti : Option String} (hu : u = a) (s : AuthSession)
      (hs : Statement.revokeAllWhere u exceptJti s = true) : s.userId ≠ v := by
    rw [Statement.userId_of_revokeAllWhere hs, hu]
    exact hv.symm
  have hjti {jti : String} {session : AuthSession} (hmem : session ∈ w.db.sessions)
      (hsession : session.jti = jti) (howner : session.userId = a) :
      ∀ s ∈ w.db.sessions, Statement.revokeWhere jti s = true → s.userId ≠ v := by
    intro s hs hmatch
    have hsame : s.jti = session.jti := by
      simp [Statement.revokeWhere] at hmatch
      exact hmatch.1.trans hsession.symm
    rw [hw.db.jti_unique hs hmem hsame, howner]
    exact hv.symm
  -- the row that is changed is the one of `a`
  have hrowid {u : UserId} {row : UserRow} (hu : u = a) (hrow : w.db.userRow? u = some row) :
      row.id ≠ v := by
    rw [userRow?_id hrow, hu]
    exact hv.symm
  cases h with
  | failed | observed | logoutIgnored | passwordTried => exact .refl
  | @loggedOut claims device audit hs ht haudit =>
    obtain ⟨c, -, hsame, hsub⟩ := hc
    cases hsame
    refine (Db.SameAccount.refl.revokeWhere hw.db.sessionIds (fun s hmem hmatch => ?_) t).log _
    have hkey : s.jti = claims.jti := by
      simp [Statement.revokeWhere] at hmatch
      exact hmatch.1
    rw [hw.signedOwner claims hs s hmem hkey, hsub]
    exact hv.symm
  | @passwordChanged userId data device user row audit k huser hrow hverify haudit =>
    refine (((Db.SameAccount.refl.setPassword (hrowid hc hrow) _ _).useWhere
      (by simpa using hids.unique) (fun token _ hmatch => ?_) t).revokeWhere
      (by simpa using hw.db.sessionIds) (fun s _ => hothers hc s) t).log _
    rw [(Statement.invalidateWhere_iff.1 hmatch).1, show userId = a from hc]
    exact hv.symm
  | @userUpdated userId data user edited row b huser hrow hedits =>
    have hself : (row.setProfile edited.profile t).id ≠ v := by
      rw [UserRow.setProfile_id]
      exact hrowid hc hrow
    have hset : w.db.SameAccount (w.db.setProfile row edited.profile t) v :=
      Db.SameAccount.refl.setProfile (hrowid hc hrow) _ _
    rw [World.forget_db]
    unfold UpdateUserUseCase.finished
    split
    · exact hset
    · refine (hset.useWhere (by simpa using hids.unique) (fun token _ hmatch => ?_) t).addToken
        hself
      rw [(Statement.invalidateWhere_iff.1 hmatch).1]
      exact hself
  | @userDeleted userId device user row audit huser hrow haudit =>
    exact ((Db.SameAccount.refl.setProfile (hrowid hc hrow) _ _).revokeWhere
      (by simpa using hw.db.sessionIds) (fun s _ => hothers hc s) t).log _
  | @sessionsRevoked userId exceptJti device k audit haudit =>
    exact (Db.SameAccount.refl.revokeWhere hw.db.sessionIds (fun s _ => hothers hc s) t).log _
  | @sessionRevoked userId sessionId device session audit hsession howner haudit =>
    have hmem : session ∈ w.db.sessions := List.mem_of_find?_eq_some hsession
    exact (Db.SameAccount.refl.revokeWhere hw.db.sessionIds
      (hjti hmem rfl (howner.trans hc)) t).log _
  | _ => exact hc.elim

/-! ## Requests -/

/-- The caller of the request passes `require_permission("users", "manage")`. -/
def Request.Manages (env : Env) (w : World) (t : Time) : Request → Prop
  | .account endpoint (some token) _ => endpoint.permission = some ("users", "manage") ∧
      ∃ user, (runCall env w t (.authenticate token)).2 = .ok (.user user) ∧
        user.hasPermission "users" "manage" = true
  | _ => False

/-- The request asks for a ban or its end. -/
def Request.Moderates : Request → Prop
  | .account (.banUser _ _) _ _ => True
  | .account (.unbanUser _) _ _ => True
  | _ => False

/-- The request asks for the deletion of the account `u`, as that account. -/
def Request.Deletes (env : Env) (w : World) (t : Time) (u : UserId) (r : Request) : Prop :=
  ∃ token device user, r = .account .deleteMe (some token) device ∧
    r.AuthenticatedAs env w t user ∧ user.id = u

/-- What a request leaves alone: rights, superusers that do not delete themselves, and,
unless it is about a ban, every account but that of its caller. -/
structure Request.Harmless (env : Env) (w : World) (t t' : Time) (r : Request) : Prop where
  confined : w.db.Confined env (r.serve env w t t').1.db
  superusers : ∀ row ∈ w.db.users, row.isSuperuser = true → row.isActive = true →
    ∀ row' ∈ (r.serve env w t t').1.db.users, row'.id = row.id →
      row'.isActive = true ∨ r.Deletes env w t row.id
  others : ∀ caller, r.AuthenticatedAs env w t caller → ¬ r.Moderates →
    ∀ v, v ≠ caller.id → w.db.SameAccount (r.serve env w t t').1.db v

/-- `Authenticate` writes nothing. -/
theorem authenticate_db (env : Env) (w : World) (t : Time) (token : Token) :
    (runCall env w t (.authenticate token)).1.db = w.db := by
  obtain ⟨w', h, he⟩ := runCall_effect env w t (.authenticate token)
  rw [he]
  generalize (runCall env w t (.authenticate token)).2 = out at h
  cases h with
  | failed | observed | authenticated | authenticateInactive => rfl

namespace AccountEndpoint

variable {endpoint : AccountEndpoint} {user : User} {token : Token} {jti : String}
  {device : DeviceInfoDTO}

/-- Rights change on endpoints that ask for `users.manage`. -/
theorem permission_of_changesRights (hcall : endpoint.call user token jti device = some c)
    (hc : c.ChangesRights) : endpoint.permission = some ("users", "manage") := by
  cases endpoint <;> cases hcall <;> first | rfl | exact hc.elim

/-- The other endpoints act for the caller, if they are not about a ban. -/
theorem actsFor_of_call (hcall : endpoint.call user token jti device = some c)
    (htoken : ∃ claims ∈ w.signed, token = .jwt claims ∧ claims.sub = user.id)
    (hmanage : endpoint.permission ≠ some ("users", "manage"))
    (hban : ¬ (Request.account endpoint (some token) device).Moderates) :
    c.ActsFor w user.id := by
  cases endpoint with
  | logout =>
    cases hcall
    exact htoken
  | readMe => cases hcall
  | updateMe | changeMyPassword | deleteMe | listMySessions | revokeMySessions
  | revokeMySession =>
    cases hcall
    exact rfl
  | banUser | unbanUser => exact absurd trivial hban
  | _ => exact absurd rfl hmanage

end AccountEndpoint

/-- A superuser that a call deactivates is deleted by it. -/
theorem Effect.superuser (hw : w.Wf env) (h : Effect env t w c out w') {row row' : UserRow}
    (hrow : row ∈ w.db.users) (hsuper : row.isSuperuser = true) (hactive : row.isActive = true)
    (hrow' : row' ∈ w'.db.users) (hid : row'.id = row.id) :
    row'.isActive = true ∨ ∃ device, c = .deleteUser row.id device := by
  cases h.flags hw with
  | kept husers _ =>
    rcases husers row' hrow' with ⟨old, hold, hsame, hkept⟩ | ⟨-, hnew, -⟩
    · rw [hw.db.row_unique hold hrow (hsame.trans hid)] at hkept
      exact .inl (hkept.trans hactive)
    · exact .inl hnew
  | @switched u audit active husers _ _ _ _ _ hby =>
    obtain ⟨old, hold, hsame, hset⟩ := husers row' hrow'
    rw [hw.db.row_unique hold hrow (hsame.trans hid)] at hset
    split_ifs at hset with hu
    · cases c with
      | deleteUser v device =>
        obtain ⟨rfl, rfl⟩ := hby
        exact .inr ⟨device, by rw [hu]⟩
      | banUser actor v reason device =>
        obtain ⟨-, -, hwas⟩ := hby
        rw [(hwas row hrow hu).2] at hsuper
        cases hsuper
      | unbanUser actor v device =>
        obtain ⟨-, rfl, -⟩ := hby
        exact .inl hset
      | _ => exact hby.elim
    · exact .inl (hset.trans hactive)

/-- A request that does not pass `require_permission("users", "manage")`. -/
theorem serve_harmless (hw : w.Wf env) (hids : w.db.TokenIds env.supply w.calls)
    {r : Request} (hnone : ¬ r.Manages env w t) : r.Harmless env w t t' := by
  have hkeep {w' : World} (hdb : w'.db = w.db) (row : UserRow) (hrow : row ∈ w.db.users)
      (hactive : row.isActive = true) (row' : UserRow) (hrow' : row' ∈ w'.db.users)
      (hid : row'.id = row.id) : row'.isActive = true := by
    rw [hdb] at hrow'
    rw [hw.db.row_unique hrow' hrow hid]
    exact hactive
  have hsuffices {w' : World} (hserve : (r.serve env w t t').1 = w')
      (hconfined : w.db.Confined env w'.db)
      (hsuper : ∀ row ∈ w.db.users, row.isSuperuser = true → row.isActive = true →
        ∀ row' ∈ w'.db.users, row'.id = row.id →
          row'.isActive = true ∨ r.Deletes env w t row.id)
      (hothers : ∀ caller, r.AuthenticatedAs env w t caller → ¬ r.Moderates →
        ∀ v, v ≠ caller.id → w.db.SameAccount w'.db v) : r.Harmless env w t t' := by
    subst hserve
    exact ⟨hconfined, hsuper, hothers⟩
  have hserved := served env w t t' r
  generalize hworld : (r.serve env w t t').1 = w' at hserved
  cases hserved with
  | refused =>
    exact hsuffices hworld .refl (fun row hrow _ hactive row' hrow' hid =>
      .inl (hkeep rfl row hrow hactive row' hrow' hid)) fun _ _ _ _ _ => .refl
  | @opened endpoint device c hcall =>
    obtain ⟨w'', h, he⟩ := runCall_effect env w t' c
    have hplain : ¬ c.ChangesRights ∧ ∀ u device', c ≠ .deleteUser u device' := by
      cases endpoint with
      | refresh token =>
        cases token <;> cases hcall
        exact ⟨id, fun _ _ hc => by cases hc⟩
      | _ =>
        cases hcall
        exact ⟨id, fun _ _ hc => by cases hc⟩
    have hconfined : w.db.Confined env w''.db := h.confined hw hplain.1
    refine hsuffices (hworld.trans he) hconfined
      (fun row hrow hsuper hactive row' hrow' hid => ?_) fun caller hcaller => hcaller.elim
    rcases h.superuser hw hrow hsuper hactive hrow' hid with hon | ⟨device', hc⟩
    · exact .inl hon
    · exact absurd hc (hplain.2 _ _)
  | @checked endpoint token device =>
    have hdb := authenticate_db env w t token
    refine hsuffices hworld (hdb ▸ .refl) (fun row hrow _ hactive row' hrow' hid =>
      .inl (hkeep hdb row hrow hactive row' hrow' hid)) fun _ _ _ _ _ => hdb ▸ .refl
  | @called endpoint token device user jti c hauth hpermission hcall =>
    have haccepted := accepted_of_authenticate hw hauth
    have hdb := haccepted.db
    have hmanage : endpoint.permission ≠ some ("users", "manage") := fun he =>
      hnone ⟨he, user, hauth, hpermission _ _ he⟩
    have hplain : ¬ c.ChangesRights := fun hc =>
      hmanage (AccountEndpoint.permission_of_changesRights hcall hc)
    have hw₁ : (runCall env w t (.authenticate token)).1.Wf env := runCall_wf hw _ _
    have hids₁ := runCall_tokenIds hw hids t (.authenticate token)
    obtain ⟨w'', h, he⟩ := runCall_effect env (runCall env w t (.authenticate token)).1 t' c
    have hconfined : w.db.Confined env w''.db := hdb ▸ h.confined hw₁ hplain
    refine hsuffices (hworld.trans he) hconfined
      (fun row hrow hsuper hactive row' hrow' hid => ?_) fun caller hcaller hban v hv => ?_
    · rcases h.superuser hw₁ (hdb ▸ hrow) hsuper hactive hrow' hid with hon | ⟨device', hc⟩
      · exact .inl hon
      · rw [hc] at hcall
        cases endpoint with
        | deleteMe =>
          injection hcall with hcall
          injection hcall with hself
          exact .inr ⟨token, device, user, rfl, hauth, hself⟩
        | _ => cases hcall
    · have hsame : caller = user := by
        have hboth := hcaller.symm.trans hauth
        cases hboth
        rfl
      have htoken : ∃ claims ∈ (runCall env w t (.authenticate token)).1.signed,
          token = .jwt claims ∧ claims.sub = user.id := by
        obtain ⟨cache, hcache⟩ := haccepted.world
        rw [hcache]
        exact haccepted.signed
      have hspared := h.sameAccount hw₁ hids₁
        (AccountEndpoint.actsFor_of_call hcall htoken hmanage hban) (hsame ▸ hv)
      rw [hdb] at hspared
      exact hspared

theorem serve_tokenIds (hw : w.Wf env) (hids : w.db.TokenIds env.supply w.calls) (t t' : Time)
    (r : Request) :
    (r.serve env w t t').1.db.TokenIds env.supply (r.serve env w t t').1.calls := by
  have hserved := served env w t t' r
  generalize (r.serve env w t t').1 = w' at hserved ⊢
  cases hserved with
  | refused => exact hids
  | opened => exact runCall_tokenIds hw hids _ _
  | checked => exact runCall_tokenIds hw hids _ _
  | called => exact runCall_tokenIds (runCall_wf hw _ _) (runCall_tokenIds hw hids _ _) _ _

/-! ## Runs -/

theorem harmless_run (hw : w.Wf env) (hids : w.db.TokenIds env.supply w.calls)
    {requests : Requests}
    (hnone : AlongRequests env (fun w t _ r => ¬ r.Manages env w t) requests w) :
    AlongRequests env (fun w t t' r => r.Harmless env w t t') requests w ∧
      w.db.Confined env (serveAll env w requests).db := by
  induction requests generalizing w with
  | nil => exact ⟨trivial, .refl⟩
  | cons s rest ih =>
    have hfirst : s.2.2.Harmless env w s.1 s.2.1 := serve_harmless hw hids hnone.1
    obtain ⟨hrest, hconfined⟩ :=
      ih (serve_wf hw s.1 s.2.1 s.2.2) (serve_tokenIds hw hids s.1 s.2.1 s.2.2) hnone.2
    exact ⟨⟨hfirst, hrest⟩, hfirst.confined.trans hconfined⟩

/-- In a run of requests in which no caller passes `require_permission("users",
"manage")`, no rights change from any point of the run on, and no request does harm. -/
theorem no_privilege_escalation {w₀ : World} (h₀ : Initial env w₀) (requests : Requests)
    (hnone : AlongRequests env (fun w t _ r => ¬ r.Manages env w t) requests w₀) :
    (∀ before after, requests = before ++ after →
      (serveAll env w₀ before).db.Confined env (serveAll env w₀ requests).db) ∧
    AlongRequests env (fun w t t' r => r.Harmless env w t t') requests w₀ := by
  refine ⟨fun before after he => ?_, (harmless_run h₀.wf h₀.tokenIds hnone).1⟩
  subst he
  obtain ⟨hw, hids⟩ := serveAll_induction
    (I := fun w => w.db.TokenIds env.supply w.calls)
    (fun _ t t' r hw hids => serve_tokenIds hw hids t t' r) h₀.wf h₀.tokenIds before
  rw [serveAll_append]
  exact (harmless_run hw hids (alongRequests_append.1 hnone).2).2

/-- Alice logs in, changes her name, and is refused when she asks for a new role. -/
theorem no_privilege_escalation_reader :
    let requests : Requests := [(10, 10, .guest (.login ⟨"alice", "secret"⟩) {}),
      (11, 11, .account (.updateMe ⟨none, some "Alice", none⟩) (some Sample.access) {}),
      (12, 12, .account (.createRole "admin" none) (some Sample.access) {})]
    (∀ before after, requests = before ++ after →
      (serveAll Sample.env Sample.world before).db.Confined Sample.env
        (serveAll Sample.env Sample.world requests).db) ∧
    AlongRequests Sample.env (fun w t t' r => r.Harmless Sample.env w t t') requests
      Sample.world := by
  have hreader : (runCall Sample.env (serveAll Sample.env Sample.world
      [(10, 10, .guest (.login ⟨"alice", "secret"⟩) {}),
        (11, 11, .account (.updateMe ⟨none, some "Alice", none⟩) (some Sample.access) {})]) 12
      (.authenticate Sample.access)).2 = .ok (.user (Sample.db.userToEntity
        { Sample.account 1 "alice" with displayName := some "Alice", updatedAt := 11 })) := by
    decide +kernel
  refine no_privilege_escalation Sample.initial _ ⟨id, fun hmanages => ?_, fun hmanages => ?_,
    trivial⟩
  · cases hmanages.1
  · obtain ⟨-, user, hauth, hright⟩ := hmanages
    have hsame := hauth.symm.trans hreader
    cases hsame
    revert hright
    decide

end VideoSite.Users
