import VideoSite.Users.Rules
import Mathlib.Data.List.Nodup

/-!
# The schema of the database

`Db.Sound` is what the declared constraints promise about the rows: unique ids,
emails and `jti`s, and foreign keys that point at something.  It also says that
what is stored was drawn before call `n`, so that a value drawn by call `n` is
new.

Every change a use case makes keeps it.  There is one lemma for each change,
`Sound.log`, `Sound.revokeWhere`, `Sound.addUser` and so on, and a use case that
makes several of them chains these lemmas.

* `AuthSession.revokeIn_of_sound` says what a bulk revocation does to one row.
-/

namespace VideoSite.Users

namespace Db

/-! ## Lookups -/

theorem hasUser_iff {db : Db} {id : UserId} :
    db.hasUser id = true ↔ id ∈ db.users.map (·.id) := by
  simp [hasUser]

theorem hasRole_iff {db : Db} {id : RoleId} :
    db.hasRole id = true ↔ id ∈ db.roles.map (·.id) := by
  simp [hasRole]

theorem hasPermission_iff {db : Db} {id : PermissionId} :
    db.hasPermission id = true ↔ id ∈ db.permissions.map (·.id) := by
  simp [hasPermission]

theorem mem_of_userRow? {db : Db} {id : UserId} {row : UserRow}
    (h : db.userRow? id = some row) : row ∈ db.users := List.mem_of_find?_eq_some h

theorem hasUser_of_userRow? {db : Db} {id : UserId} {row : UserRow}
    (h : db.userRow? id = some row) : db.hasUser id = true := by
  rw [hasUser_iff, ← userRow?_id h]
  exact List.mem_map_of_mem (mem_of_userRow? h)

theorem hasUser_of_userById {db : Db} {id : UserId} {user : User}
    (h : db.userById id = some user) : db.hasUser id = true := by
  obtain ⟨row, hrow, -⟩ := Option.map_eq_some_iff.1 h
  exact hasUser_of_userRow? hrow

theorem hasRole_of_roleById {db : Db} {id : RoleId} {role : Role}
    (h : db.roleById id = some role) : db.hasRole id = true := by
  obtain ⟨row, hrow, -⟩ := Option.map_eq_some_iff.1 h
  have hid : row.id = id := by simpa using List.find?_some hrow
  rw [hasRole_iff, ← hid]
  exact List.mem_map_of_mem (List.mem_of_find?_eq_some hrow)

theorem hasRole_of_roleByName {db : Db} {name : String} {role : Role}
    (h : db.roleByName name = some role) : db.hasRole role.id = true := by
  obtain ⟨row, hrow, rfl⟩ := Option.map_eq_some_iff.1 h
  rw [hasRole_iff]
  exact List.mem_map_of_mem (List.mem_of_find?_eq_some hrow)

theorem hasPermission_of_permissionById {db : Db} {id : PermissionId} {p : Permission}
    (h : db.permissionById id = some p) : db.hasPermission id = true := by
  have hid : p.id = id := by simpa using List.find?_some h
  rw [hasPermission_iff, ← hid]
  exact List.mem_map_of_mem (List.mem_of_find?_eq_some h)

/-- The ids of the accounts decide whether a foreign key holds. -/
theorem hasUser_congr {db db' : Db} (h : db'.users.map (·.id) = db.users.map (·.id))
    (id : UserId) : db'.hasUser id = db.hasUser id := by
  rw [Bool.eq_iff_iff, hasUser_iff, hasUser_iff, h]

end Db

/-! ## Rows under an update -/

@[simp] theorem UserRow.withProfile_id (row : UserRow) (p : Profile) (stamp : Time) :
    (row.withProfile p stamp).id = row.id := rfl

section RevokeIn

variable (row : AuthSession) (ids : List SessionId) (moment : Time)

@[simp] theorem AuthSession.revokeIn_id : (row.revokeIn ids moment).id = row.id := by
  unfold revokeIn
  split <;> rfl

@[simp] theorem AuthSession.revokeIn_jti : (row.revokeIn ids moment).jti = row.jti := by
  unfold revokeIn
  split <;> rfl

@[simp] theorem AuthSession.revokeIn_userId :
    (row.revokeIn ids moment).userId = row.userId := by
  unfold revokeIn
  split <;> rfl

@[simp] theorem AuthSession.revokeIn_expiresAt :
    (row.revokeIn ids moment).expiresAt = row.expiresAt := by
  unfold revokeIn
  split <;> rfl

/-- An update only ever revokes. -/
theorem AuthSession.revokedAt_of_revokeIn (h : (row.revokeIn ids moment).revokedAt = none) :
    row.revokeIn ids moment = row ∧ row.revokedAt = none := by
  unfold revokeIn at h ⊢
  split_ifs at h ⊢ with hc
  exact ⟨rfl, h⟩

end RevokeIn

section UseIn

variable (row : SecurityToken) (ids : List SecurityTokenId) (moment : Time)

@[simp] theorem SecurityToken.useIn_userId : (row.useIn ids moment).userId = row.userId := by
  unfold useIn
  split <;> rfl

/-- An update only ever spends. -/
theorem SecurityToken.usedAt_of_useIn (h : (row.useIn ids moment).usedAt = none) :
    row.useIn ids moment = row ∧ row.usedAt = none := by
  unfold useIn at h ⊢
  split_ifs at h ⊢ with hc
  exact ⟨rfl, h⟩

end UseIn

namespace Db

/-! ## Tables that a change leaves alone -/

/-- The tables of roles and permissions. -/
def rbac (db : Db) : List RoleRow × List Permission × List (UserId × RoleId) ×
    List (RoleId × PermissionId) :=
  (db.roles, db.permissions, db.userRoles, db.rolePermissions)

section Frame

variable (db : Db)

@[simp] theorem log_frame (row : AuditEvent) :
    (db.log row).users = db.users ∧ (db.log row).sessions = db.sessions ∧
      (db.log row).securityTokens = db.securityTokens ∧ (db.log row).rbac = db.rbac :=
  ⟨rfl, rfl, rfl, rfl⟩

@[simp] theorem addUser_frame (row : UserRow) :
    (db.addUser row).sessions = db.sessions ∧
      (db.addUser row).securityTokens = db.securityTokens ∧
      (db.addUser row).rbac = db.rbac := ⟨rfl, rfl, rfl⟩

@[simp] theorem addSession_frame (row : AuthSession) :
    (db.addSession row).users = db.users ∧
      (db.addSession row).securityTokens = db.securityTokens ∧
      (db.addSession row).rbac = db.rbac := ⟨rfl, rfl, rfl⟩

@[simp] theorem addToken_frame (row : SecurityToken) :
    (db.addToken row).users = db.users ∧ (db.addToken row).sessions = db.sessions ∧
      (db.addToken row).rbac = db.rbac :=
  ⟨rfl, rfl, rfl⟩

@[simp] theorem revokeWhere_frame (cond : AuthSession → Bool) (moment : Time) :
    (db.revokeWhere cond moment).users = db.users ∧
      (db.revokeWhere cond moment).securityTokens = db.securityTokens ∧
      (db.revokeWhere cond moment).rbac = db.rbac := ⟨rfl, rfl, rfl⟩

@[simp] theorem useWhere_frame (cond : SecurityToken → Bool) (moment : Time) :
    (db.useWhere cond moment).users = db.users ∧
      (db.useWhere cond moment).sessions = db.sessions ∧
      (db.useWhere cond moment).rbac = db.rbac := ⟨rfl, rfl, rfl⟩

@[simp] theorem setProfile_frame (row : UserRow) (p : Profile) (stamp : Time) :
    (db.setProfile row p stamp).sessions = db.sessions ∧
      (db.setProfile row p stamp).securityTokens = db.securityTokens ∧
      (db.setProfile row p stamp).rbac = db.rbac := by
  unfold setProfile
  split <;> exact ⟨rfl, rfl, rfl⟩

@[simp] theorem setPassword_frame (row : UserRow) (hash : String) (stamp : Time) :
    (db.setPassword row hash stamp).sessions = db.sessions ∧
      (db.setPassword row hash stamp).securityTokens = db.securityTokens ∧
      (db.setPassword row hash stamp).rbac = db.rbac := by
  unfold setPassword
  split <;> exact ⟨rfl, rfl, rfl⟩

@[simp] theorem linkRole_frame (u : UserId) (r : RoleId) :
    (db.linkRole u r).users = db.users ∧ (db.linkRole u r).sessions = db.sessions ∧
      (db.linkRole u r).securityTokens = db.securityTokens := by
  unfold linkRole
  split <;> exact ⟨rfl, rfl, rfl⟩

@[simp] theorem linkPermission_frame (r : RoleId) (p : PermissionId) :
    (db.linkPermission r p).users = db.users ∧
      (db.linkPermission r p).sessions = db.sessions ∧
      (db.linkPermission r p).securityTokens = db.securityTokens := by
  unfold linkPermission
  split <;> exact ⟨rfl, rfl, rfl⟩

end Frame

variable (db : Db)

theorem revokeWhere_sessions (cond : AuthSession → Bool) (moment : Time) :
    (db.revokeWhere cond moment).sessions =
      db.sessions.map (·.revokeIn (sessionIds db cond) moment) := rfl

theorem useWhere_tokens (cond : SecurityToken → Bool) (moment : Time) :
    (db.useWhere cond moment).securityTokens =
      db.securityTokens.map (·.useIn (tokenIds db cond) moment) := rfl

/-- An update that matches nothing changes nothing. -/
theorem revokeWhere_false (moment : Time) : db.revokeWhere (fun _ => false) moment = db := by
  have hids : sessionIds db (fun _ => false) = [] := by simp [sessionIds]
  have hrow (row : AuthSession) : row.revokeIn [] moment = row := by
    simp [AuthSession.revokeIn]
  simp [revokeWhere, Write.apply, hids, hrow]

/-! ## Soundness -/

/-- The constraints of the schema hold, and every stored id and `jti` was drawn
before call `n`, if it was drawn at all. -/
structure Sound (supply : Supply) (n : Nat) (db : Db) : Prop where
  userIds : (db.users.map (·.id)).Nodup
  userEmails : (db.users.map (·.email)).Nodup
  sessionIds : (db.sessions.map (·.id)).Nodup
  sessionJtis : (db.sessions.map (·.jti)).Nodup
  usersDrawn : ∀ row ∈ db.users, ∀ c k, supply.rowId c k = row.id → c < n
  rolesDrawn : ∀ row ∈ db.roles, ∀ c k, supply.rowId c k = row.id → c < n
  permissionsDrawn : ∀ row ∈ db.permissions, ∀ c k, supply.rowId c k = row.id → c < n
  sessionsDrawn : ∀ row ∈ db.sessions, ∀ c k, supply.rowId c k = row.id → c < n
  jtisDrawn : ∀ row ∈ db.sessions, ∀ c k, supply.jti c k = row.jti → c < n
  userRoles : ∀ link ∈ db.userRoles, db.hasUser link.1 = true ∧ db.hasRole link.2 = true
  rolePermissions : ∀ link ∈ db.rolePermissions,
    db.hasRole link.1 = true ∧ db.hasPermission link.2 = true
  sessionOwners : ∀ row ∈ db.sessions, db.hasUser row.userId = true
  tokenOwners : ∀ row ∈ db.securityTokens, db.hasUser row.userId = true

namespace Sound

variable {db : Db} {supply : Supply} {n : Nat}

theorem mono {m : Nat} (h : db.Sound supply n) (hle : n ≤ m) : db.Sound supply m :=
  { h with
    usersDrawn := fun row hrow c k hk => (h.usersDrawn row hrow c k hk).trans_le hle
    rolesDrawn := fun row hrow c k hk => (h.rolesDrawn row hrow c k hk).trans_le hle
    permissionsDrawn := fun row hrow c k hk =>
      (h.permissionsDrawn row hrow c k hk).trans_le hle
    sessionsDrawn := fun row hrow c k hk => (h.sessionsDrawn row hrow c k hk).trans_le hle
    jtisDrawn := fun row hrow c k hk => (h.jtisDrawn row hrow c k hk).trans_le hle }

/-! ### Accounts -/

/-- An id finds its only row. -/
theorem userRow?_of_mem (h : db.Sound supply n) {row : UserRow} (hrow : row ∈ db.users) :
    db.userRow? row.id = some row := by
  have hunique := List.inj_on_of_nodup_map h.userIds
  cases hfind : db.userRow? row.id with
  | none => exact absurd (List.find?_eq_none.1 hfind row hrow) (by simp)
  | some other => rw [hunique (mem_of_userRow? hfind) hrow (userRow?_id hfind)]

/-- An address finds its only row. -/
theorem userByEmail_of_mem (h : db.Sound supply n) {row : UserRow} (hrow : row ∈ db.users) :
    db.userByEmail row.email = some (db.userToEntity row) := by
  have hunique := List.inj_on_of_nodup_map h.userEmails
  unfold userByEmail
  cases hfind : db.users.find? fun other => other.email == row.email with
  | none => exact absurd (List.find?_eq_none.1 hfind row hrow) (by simp)
  | some other =>
    have hemail : other.email = row.email := by simpa using List.find?_some hfind
    rw [hunique (List.mem_of_find?_eq_some hfind) hrow hemail, Option.map_some]

/-- An id that call `n` draws is not in use yet. -/
theorem unknown (h : db.Sound supply n) (k : Nat) : db.hasUser (supply.rowId n k) = false := by
  rw [← Bool.not_eq_true, hasUser_iff]
  intro hmem
  obtain ⟨row, hrow, hid⟩ := List.mem_map.1 hmem
  exact lt_irrefl n (h.usersDrawn row hrow n k hid.symm)

/-- The accounts of two rows with one id are the same. -/
theorem row_unique (h : db.Sound supply n) {a b : UserRow} (ha : a ∈ db.users)
    (hb : b ∈ db.users) (hid : a.id = b.id) : a = b :=
  List.inj_on_of_nodup_map h.userIds ha hb hid

theorem email_unique (h : db.Sound supply n) {a b : UserRow} (ha : a ∈ db.users)
    (hb : b ∈ db.users) (hemail : a.email = b.email) : a = b :=
  List.inj_on_of_nodup_map h.userEmails ha hb hemail

theorem addUser (h : db.Sound supply n) {row : UserRow} {k : Nat}
    (hid : row.id = supply.rowId n k) (hemail : db.userByEmail row.email = none) :
    (db.addUser row).Sound supply (n + 1) := by
  have hfresh : row.id ∉ db.users.map (·.id) := by
    intro hmem
    obtain ⟨other, hother, he⟩ := List.mem_map.1 hmem
    exact absurd (h.usersDrawn other hother n k (by rw [← hid, he])) (lt_irrefl n)
  have hfree : row.email ∉ db.users.map (·.email) := by
    intro hmem
    obtain ⟨other, hother, he⟩ := List.mem_map.1 hmem
    have hnone := List.find?_eq_none.1 (Option.map_eq_none_iff.1 hemail) other hother
    exact hnone (by simpa using he)
  have hkeep (id : UserId) (hold : db.hasUser id = true) :
      (db.addUser row).hasUser id = true := by
    rw [hasUser_iff] at hold ⊢
    exact List.map_append .. ▸ List.mem_append_left _ hold
  have h' := h.mono (Nat.le_succ n)
  refine { h' with
    userIds := ?_
    userEmails := ?_
    usersDrawn := ?_
    userRoles := fun link hlink =>
      ⟨hkeep _ (h.userRoles link hlink).1, (h.userRoles link hlink).2⟩
    sessionOwners := fun s hs => hkeep _ (h.sessionOwners s hs)
    tokenOwners := fun s hs => hkeep _ (h.tokenOwners s hs) }
  · change ((db.users ++ [row]).map (·.id)).Nodup
    rw [List.map_append]
    exact h.userIds.append (List.nodup_singleton _) (by simpa using hfresh)
  · change ((db.users ++ [row]).map (·.email)).Nodup
    rw [List.map_append]
    exact h.userEmails.append (List.nodup_singleton _) (by simpa using hfree)
  · intro other hother c k' hk
    rcases List.mem_append.1 hother with hold | hnew
    · exact h'.usersDrawn other hold c k' hk
    · obtain rfl := List.mem_singleton.1 hnew
      rw [hid] at hk
      have := (supply.rowId_injective hk).1
      omega

/-- An update that keeps the ids, and leaves the emails different. -/
theorem mapUsers (h : db.Sound supply n) {users : List UserRow}
    (hids : users.map (·.id) = db.users.map (·.id))
    (hemails : (users.map (·.email)).Nodup) :
    Sound supply n { db with users := users } := by
  have hkeep (id : UserId) : ({ db with users := users } : Db).hasUser id = db.hasUser id :=
    hasUser_congr hids id
  exact { h with
    userIds := by
      change (users.map (·.id)).Nodup
      rw [hids]
      exact h.userIds
    userEmails := hemails
    usersDrawn := by
      intro row hrow c k hk
      have hmem : row.id ∈ db.users.map (·.id) := hids ▸ List.mem_map_of_mem hrow
      obtain ⟨old, hold, he⟩ := List.mem_map.1 hmem
      exact h.usersDrawn old hold c k (hk.trans he.symm)
    userRoles := fun link hlink =>
      ⟨(hkeep _).trans (h.userRoles link hlink).1, (h.userRoles link hlink).2⟩
    sessionOwners := fun s hs => (hkeep _).trans (h.sessionOwners s hs)
    tokenOwners := fun s hs => (hkeep _).trans (h.tokenOwners s hs) }

/-- The address an account gets is its own or is free. -/
theorem setProfile (h : db.Sound supply n) {row : UserRow} {p : Profile} {stamp : Time}
    (hrow : row ∈ db.users)
    (hemail : p.email ≠ row.email → db.userByEmail p.email = none) :
    (db.setProfile row p stamp).Sound supply n := by
  unfold Db.setProfile
  split_ifs with hsame
  · exact h
  refine h.mapUsers ?_ ?_
  · rw [List.map_map]
    refine List.map_congr_left fun other _ => ?_
    dsimp only [Function.comp]
    split <;> rfl
  · rw [List.map_map]
    refine (List.nodup_map_iff_inj_on h.userIds.of_map).2 fun a ha b hb hab => ?_
    have hown {other : UserRow} (hother : other ∈ db.users) (hne : other.id ≠ row.id)
        (he : other.email = p.email) : False := by
      by_cases hp : p.email = row.email
      · exact hne (congrArg UserRow.id (h.email_unique hother hrow (he.trans hp)))
      · have hnone := List.find?_eq_none.1 (Option.map_eq_none_iff.1 (hemail hp)) other hother
        exact hnone (by simpa using he)
    dsimp only [Function.comp] at hab
    split_ifs at hab with hia hib hib
    · exact h.row_unique ha hb (hia.trans hib.symm)
    · exact (hown hb hib hab.symm).elim
    · exact (hown ha hia hab).elim
    · exact h.email_unique ha hb hab

theorem setPassword (h : db.Sound supply n) (row : UserRow) (hash : String)
    (stamp : Time) : (db.setPassword row hash stamp).Sound supply n := by
  unfold Db.setPassword
  split_ifs with hsame
  · exact h
  refine h.mapUsers ?_ ?_
  · rw [List.map_map]
    refine List.map_congr_left fun other _ => ?_
    dsimp only [Function.comp]
    split <;> rfl
  · have hemails : (db.users.map fun other =>
        if other.id = row.id then { other with passwordHash := hash, updatedAt := stamp }
        else other).map (·.email) = db.users.map (·.email) := by
      rw [List.map_map]
      refine List.map_congr_left fun other _ => ?_
      dsimp only [Function.comp]
      split <;> rfl
    rw [hemails]
    exact h.userEmails

/-- An update of one account, row by row. -/
theorem setProfile_users (h : db.Sound supply n) {row : UserRow} (hrow : row ∈ db.users)
    (p : Profile) (stamp : Time) :
    (db.setProfile row p stamp).users =
      db.users.map fun other => if other.id = row.id then other.setProfile p stamp else other := by
  have hself {other : UserRow} (hother : other ∈ db.users) (hid : other.id = row.id) :
      other = row := h.row_unique hother hrow hid
  unfold Db.setProfile
  split_ifs with hsame
  · refine (List.map_id' db.users).symm.trans (List.map_congr_left fun other hother => ?_)
    split_ifs with hid
    · rw [hself hother hid, UserRow.setProfile, if_pos hsame]
    · rfl
  · refine List.map_congr_left fun other hother => ?_
    split_ifs with hid
    · rw [hself hother hid, UserRow.setProfile, if_neg hsame]
    · rfl

theorem setPassword_users (h : db.Sound supply n) {row : UserRow} (hrow : row ∈ db.users)
    (hash : String) (stamp : Time) :
    (db.setPassword row hash stamp).users =
      db.users.map fun other =>
        if other.id = row.id then other.setPassword hash stamp else other := by
  have hself {other : UserRow} (hother : other ∈ db.users) (hid : other.id = row.id) :
      other = row := h.row_unique hother hrow hid
  unfold Db.setPassword
  split_ifs with hsame
  · refine (List.map_id' db.users).symm.trans (List.map_congr_left fun other hother => ?_)
    split_ifs with hid
    · rw [hself hother hid, UserRow.setPassword, if_pos hsame]
    · rfl
  · refine List.map_congr_left fun other hother => ?_
    split_ifs with hid
    · rw [hself hother hid, UserRow.setPassword, if_neg hsame]
    · rfl

/-! ### Sessions -/

theorem session_unique (h : db.Sound supply n) {a b : AuthSession} (ha : a ∈ db.sessions)
    (hb : b ∈ db.sessions) (hid : a.id = b.id) : a = b :=
  List.inj_on_of_nodup_map h.sessionIds ha hb hid

theorem jti_unique (h : db.Sound supply n) {a b : AuthSession} (ha : a ∈ db.sessions)
    (hb : b ∈ db.sessions) (hjti : a.jti = b.jti) : a = b :=
  List.inj_on_of_nodup_map h.sessionJtis ha hb hjti

/-- A `jti` finds its only session. -/
theorem sessionByJti_of_mem (h : db.Sound supply n) {row : AuthSession}
    (hrow : row ∈ db.sessions) : db.sessionByJti row.jti = some row := by
  cases hfind : db.sessionByJti row.jti with
  | none => exact absurd (List.find?_eq_none.1 hfind row hrow) (by simp)
  | some other =>
    have hjti : other.jti = row.jti := by simpa using List.find?_some hfind
    rw [h.jti_unique (List.mem_of_find?_eq_some hfind) hrow hjti]

theorem revokeWhere (h : db.Sound supply n) (cond : AuthSession → Bool) (moment : Time) :
    (db.revokeWhere cond moment).Sound supply n := by
  have hmem {row : AuthSession} (hrow : row ∈ (db.revokeWhere cond moment).sessions) :
      ∃ old ∈ db.sessions, old.id = row.id ∧ old.jti = row.jti ∧
        old.userId = row.userId := by
    obtain ⟨old, hold, rfl⟩ := List.mem_map.1 hrow
    exact ⟨old, hold, by simp⟩
  exact { h with
    sessionIds := by
      rw [revokeWhere_sessions, List.map_map]
      simpa [Function.comp_def] using h.sessionIds
    sessionJtis := by
      rw [revokeWhere_sessions, List.map_map]
      simpa [Function.comp_def] using h.sessionJtis
    sessionsDrawn := by
      intro row hrow c k hk
      obtain ⟨old, hold, hid, -⟩ := hmem hrow
      exact h.sessionsDrawn old hold c k (hk.trans hid.symm)
    jtisDrawn := by
      intro row hrow c k hk
      obtain ⟨old, hold, -, hjti, -⟩ := hmem hrow
      exact h.jtisDrawn old hold c k (hk.trans hjti.symm)
    sessionOwners := by
      intro row hrow
      obtain ⟨old, hold, -, -, howner⟩ := hmem hrow
      exact howner ▸ h.sessionOwners old hold }

theorem addSession (h : db.Sound supply n) {row : AuthSession} {j k : Nat}
    (hid : row.id = supply.rowId n k) (hjti : row.jti = supply.jti n j)
    (howner : db.hasUser row.userId = true) :
    (db.addSession row).Sound supply (n + 1) := by
  have hfresh : row.id ∉ db.sessions.map (·.id) := by
    intro hmem
    obtain ⟨other, hother, he⟩ := List.mem_map.1 hmem
    exact absurd (h.sessionsDrawn other hother n k (by rw [← hid, he])) (lt_irrefl n)
  have hfree : row.jti ∉ db.sessions.map (·.jti) := by
    intro hmem
    obtain ⟨other, hother, he⟩ := List.mem_map.1 hmem
    exact absurd (h.jtisDrawn other hother n j (by rw [← hjti, he])) (lt_irrefl n)
  have h' := h.mono (Nat.le_succ n)
  have hcases {other : AuthSession} (hother : other ∈ (db.addSession row).sessions) :
      other ∈ db.sessions ∨ other = row := by
    rcases List.mem_append.1 hother with hold | hnew
    · exact .inl hold
    · exact .inr (List.mem_singleton.1 hnew)
  refine { h' with
    sessionIds := ?_
    sessionJtis := ?_
    sessionsDrawn := ?_
    jtisDrawn := ?_
    sessionOwners := ?_ }
  · change ((db.sessions ++ [row]).map (·.id)).Nodup
    rw [List.map_append]
    exact h.sessionIds.append (List.nodup_singleton _) (by simpa using hfresh)
  · change ((db.sessions ++ [row]).map (·.jti)).Nodup
    rw [List.map_append]
    exact h.sessionJtis.append (List.nodup_singleton _) (by simpa using hfree)
  · intro other hother c k' hk
    rcases hcases hother with hold | rfl
    · exact h'.sessionsDrawn other hold c k' hk
    · rw [hid] at hk
      have := (supply.rowId_injective hk).1
      omega
  · intro other hother c k' hk
    rcases hcases hother with hold | rfl
    · exact h'.jtisDrawn other hold c k' hk
    · rw [hjti] at hk
      have := (supply.jti_injective hk).1
      omega
  · intro other hother
    rcases hcases hother with hold | rfl
    · exact h.sessionOwners other hold
    · exact howner

/-! ### One-time tokens and the audit log -/

theorem useWhere (h : db.Sound supply n) (cond : SecurityToken → Bool) (moment : Time) :
    (db.useWhere cond moment).Sound supply n :=
  { h with
    tokenOwners := by
      intro row hrow
      obtain ⟨old, hold, rfl⟩ := List.mem_map.1 hrow
      rw [SecurityToken.useIn_userId]
      exact h.tokenOwners old hold }

theorem addToken (h : db.Sound supply n) {row : SecurityToken}
    (howner : db.hasUser row.userId = true) : (db.addToken row).Sound supply n :=
  { h with
    tokenOwners := by
      intro other hother
      rcases List.mem_append.1 hother with hold | hnew
      · exact h.tokenOwners other hold
      · obtain rfl := List.mem_singleton.1 hnew
        exact howner }

theorem log (h : db.Sound supply n) (row : AuditEvent) : (db.log row).Sound supply n :=
  { h with }

/-! ### Roles and permissions -/

theorem linkRole (h : db.Sound supply n) {u : UserId} {r : RoleId}
    (hu : db.hasUser u = true) (hr : db.hasRole r = true) :
    (db.linkRole u r).Sound supply n := by
  unfold Db.linkRole
  split_ifs with hin
  · exact h
  exact { h with
    userRoles := by
      intro link hlink
      rcases List.mem_append.1 hlink with hold | hnew
      · exact h.userRoles link hold
      · obtain rfl := List.mem_singleton.1 hnew
        exact ⟨hu, hr⟩ }

theorem linkPermission (h : db.Sound supply n) {r : RoleId} {p : PermissionId}
    (hr : db.hasRole r = true) (hp : db.hasPermission p = true) :
    (db.linkPermission r p).Sound supply n := by
  unfold Db.linkPermission
  split_ifs with hin
  · exact h
  exact { h with
    rolePermissions := by
      intro link hlink
      rcases List.mem_append.1 hlink with hold | hnew
      · exact h.rolePermissions link hold
      · obtain rfl := List.mem_singleton.1 hnew
        exact ⟨hr, hp⟩ }

theorem deleteUserRole (h : db.Sound supply n) (u : UserId) (r : RoleId) :
    (Write.apply db (.deleteUserRole u r)).Sound supply n :=
  { h with userRoles := fun link hlink => h.userRoles link (List.mem_of_mem_filter hlink) }

theorem deleteRolePermission (h : db.Sound supply n) (r : RoleId) (p : PermissionId) :
    (Write.apply db (.deleteRolePermission r p)).Sound supply n :=
  { h with
    rolePermissions := fun link hlink =>
      h.rolePermissions link (List.mem_of_mem_filter hlink) }

/-- The links to a role go with it. -/
theorem deleteRole (h : db.Sound supply n) (r : RoleId) :
    (Write.apply db (.deleteRole r)).Sound supply n := by
  have hkeep {id : RoleId} (hid : db.hasRole id = true) (hne : id ≠ r) :
      (Write.apply db (.deleteRole r)).hasRole id = true := by
    rw [hasRole_iff] at hid ⊢
    obtain ⟨row, hrow, rfl⟩ := List.mem_map.1 hid
    exact List.mem_map_of_mem (List.mem_filter.2 ⟨hrow, by simpa using hne⟩)
  exact { h with
    rolesDrawn := fun row hrow => h.rolesDrawn row (List.mem_of_mem_filter hrow)
    userRoles := by
      intro link hlink
      obtain ⟨hold, hne⟩ := List.mem_filter.1 hlink
      exact ⟨(h.userRoles link hold).1, hkeep (h.userRoles link hold).2 (by simpa using hne)⟩
    rolePermissions := by
      intro link hlink
      obtain ⟨hold, hne⟩ := List.mem_filter.1 hlink
      exact ⟨hkeep (h.rolePermissions link hold).1 (by simpa using hne),
        (h.rolePermissions link hold).2⟩ }

theorem insertRole (h : db.Sound supply n) {row : RoleRow} {k : Nat}
    (hid : row.id = supply.rowId n k) :
    (Write.apply db (.insertRole row)).Sound supply (n + 1) := by
  have h' := h.mono (Nat.le_succ n)
  have hkeep (id : RoleId) (hold : db.hasRole id = true) :
      (Write.apply db (.insertRole row)).hasRole id = true := by
    rw [hasRole_iff] at hold ⊢
    exact List.map_append .. ▸ List.mem_append_left _ hold
  exact { h' with
    rolesDrawn := by
      intro other hother c k' hk
      rcases List.mem_append.1 hother with hold | hnew
      · exact h'.rolesDrawn other hold c k' hk
      · obtain rfl := List.mem_singleton.1 hnew
        rw [hid] at hk
        have := (supply.rowId_injective hk).1
        omega
    userRoles := fun link hlink =>
      ⟨(h.userRoles link hlink).1, hkeep _ (h.userRoles link hlink).2⟩
    rolePermissions := fun link hlink =>
      ⟨hkeep _ (h.rolePermissions link hlink).1, (h.rolePermissions link hlink).2⟩ }

theorem insertPermission (h : db.Sound supply n) {row : Permission} {k : Nat}
    (hid : row.id = supply.rowId n k) :
    (Write.apply db (.insertPermission row)).Sound supply (n + 1) := by
  have h' := h.mono (Nat.le_succ n)
  have hkeep (id : PermissionId) (hold : db.hasPermission id = true) :
      (Write.apply db (.insertPermission row)).hasPermission id = true := by
    rw [hasPermission_iff] at hold ⊢
    exact List.map_append .. ▸ List.mem_append_left _ hold
  exact { h' with
    permissionsDrawn := by
      intro other hother c k' hk
      rcases List.mem_append.1 hother with hold | hnew
      · exact h'.permissionsDrawn other hold c k' hk
      · obtain rfl := List.mem_singleton.1 hnew
        rw [hid] at hk
        have := (supply.rowId_injective hk).1
        omega
    rolePermissions := fun link hlink =>
      ⟨(h.rolePermissions link hlink).1, hkeep _ (h.rolePermissions link hlink).2⟩ }

end Sound

end Db

/-- With unique ids an update revokes just the rows that meet its condition. -/
theorem AuthSession.revokeIn_of_sound {db : Db} {supply : Supply} {n : Nat}
    (h : db.Sound supply n) {row : AuthSession} (hrow : row ∈ db.sessions)
    (cond : AuthSession → Bool) (moment : Time) :
    (row.revokeIn (sessionIds db cond) moment).revokedAt =
      if cond row = true ∧ row.revokedAt = none then some moment else row.revokedAt := by
  have hmem : row.id ∈ sessionIds db cond ↔ cond row = true := by
    constructor
    · intro hid
      obtain ⟨other, hother, he⟩ := List.mem_map.1 hid
      obtain ⟨hmem, hcond⟩ := List.mem_filter.1 hother
      rwa [← h.session_unique hmem hrow he]
    · intro hcond
      exact List.mem_map_of_mem (List.mem_filter.2 ⟨hrow, hcond⟩)
  unfold revokeIn
  simp only [hmem]
  split_ifs <;> rfl

/-- An update of a session dates its revocation and changes nothing else. -/
theorem AuthSession.revokeIn_rest (row : AuthSession) (ids : List SessionId)
    (moment : Time) : row.revokeIn ids moment =
      { row with revokedAt := (row.revokeIn ids moment).revokedAt } := by
  unfold revokeIn
  split <;> rfl

/-- What an update matches is revoked after it. -/
theorem AuthSession.revokedAt_revokeIn_ne_none {db : Db} {cond : AuthSession → Bool}
    {row : AuthSession} (hrow : row ∈ db.sessions) (hcond : cond row = true) (moment : Time) :
    (row.revokeIn (sessionIds db cond) moment).revokedAt ≠ none := by
  intro hnone
  obtain ⟨hsame, hlive⟩ := AuthSession.revokedAt_of_revokeIn _ _ _ hnone
  have hmem : row.id ∈ sessionIds db cond :=
    List.mem_map_of_mem (List.mem_filter.2 ⟨hrow, hcond⟩)
  rw [AuthSession.revokeIn, if_pos ⟨hmem, hlive⟩] at hnone
  cases hnone

end VideoSite.Users
