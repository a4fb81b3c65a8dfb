import VideoSite.Users.Api
import VideoSite.Users.Reachable

/-!
# The auth cache and the tables of roles

`Authenticate` may take an account out of the cache, with the roles it had when it
was put there.  `Db.Permits` is what the tables say about an account now.  The two
agree as long as every change of the tables drops the cache entries it makes
wrong.  `AssignRoleToUser` and `RevokeRoleFromUser` do that; `DeleteRole`,
`GrantPermissionToRole` and `RevokePermissionFromRole` drop no entry.

* `World.Coherent` is the agreement, and `Effect.coherent` says which calls keep it.
* `authorization_follows_tables` is the result for runs in which those three calls
  change no right of an account with a live cache entry.
* `stale_permission` is a run in which one of them does.
-/

namespace VideoSite.Users

open Effects Program

variable {env : Env} {t now : Time} {w w' : World} {c : Call} {out : Except Failure Answer}

/-! ## What the tables say -/

namespace Db

/-- A role that is assigned to the account carries the permission. -/
def Grants (db : Db) (u : UserId) (resource action : String) : Prop :=
  ∃ role ∈ db.roles, (u, role.id) ∈ db.userRoles ∧
    ∃ p ∈ db.permissions, (role.id, p.id) ∈ db.rolePermissions ∧
      p.resource = resource ∧ p.action = action

/-- The stored account is a superuser, or has the permission by a role. -/
def Permits (db : Db) (u : UserId) (resource action : String) : Prop :=
  ∃ row ∈ db.users, row.id = u ∧
    (row.isSuperuser = true ∨ db.Grants u resource action)

instance (db : Db) (u : UserId) (resource action : String) :
    Decidable (db.Grants u resource action) := by
  unfold Grants
  infer_instance

instance (db : Db) (u : UserId) (resource action : String) :
    Decidable (db.Permits u resource action) := by
  unfold Permits
  infer_instance

/-- The domain's decision on a loaded account is that of the tables. -/
theorem hasPermission_userToEntity (db : Db) (row : UserRow) (resource action : String) :
    (db.userToEntity row).hasPermission resource action = true ↔
      row.isSuperuser = true ∨ db.Grants row.id resource action := by
  unfold User.hasPermission
  cases hsuper : row.isSuperuser with
  | true => simp [userToEntity, hsuper]
  | false =>
    simp [userToEntity, hsuper, Grants, rolesOf, roleToEntity, Role.grants]

theorem permits_of_userById {db : Db} {supply : Supply} {n : Nat} (h : db.Sound supply n)
    {u : UserId} {user : User} (huser : db.userById u = some user)
    (resource action : String) :
    user.hasPermission resource action = true ↔ db.Permits u resource action := by
  obtain ⟨-, row, hrow, rfl⟩ := userById_row huser
  have hid : row.id = u := userRow?_id hrow
  have hmem := mem_of_userRow? hrow
  rw [hasPermission_userToEntity, hid]
  constructor
  · intro hright
    exact ⟨row, hmem, hid, hright⟩
  · rintro ⟨other, hother, hoid, hright⟩
    obtain rfl := h.row_unique hother hmem (hoid.trans hid.symm)
    exact hright

theorem grants_congr {db db' : Db} (h : db'.rbac = db.rbac) (u : UserId)
    (resource action : String) :
    db'.Grants u resource action ↔ db.Grants u resource action := by
  simp only [rbac, Prod.mk.injEq] at h
  unfold Grants
  rw [h.1, h.2.1, h.2.2.1, h.2.2.2]

/-- A link of another account does not matter. -/
theorem grants_linkRole {db : Db} {u v : UserId} (hne : v ≠ u) (r : RoleId)
    (resource action : String) :
    (db.linkRole v r).Grants u resource action ↔ db.Grants u resource action := by
  unfold linkRole
  split_ifs with hin
  · rfl
  · simp [Grants, Write.apply, Ne.symm hne]

theorem grants_deleteUserRole {db : Db} {u v : UserId} (hne : v ≠ u) (r : RoleId)
    (resource action : String) :
    (Write.apply db (.deleteUserRole v r)).Grants u resource action ↔
      db.Grants u resource action := by
  simp [Grants, Write.apply, Ne.symm hne]

/-- A new role is not assigned to anybody yet. -/
theorem grants_insertRole {db : Db} {supply : Supply} {n k : Nat} (h : db.Sound supply n)
    {row : RoleRow} (hid : row.id = supply.rowId n k) (u : UserId)
    (resource action : String) :
    (Write.apply db (.insertRole row)).Grants u resource action ↔
      db.Grants u resource action := by
  constructor
  · rintro ⟨role, hrole, hlink, hright⟩
    rcases List.mem_append.1 hrole with hold | hnew
    · exact ⟨role, hold, hlink, hright⟩
    · obtain rfl := List.mem_singleton.1 hnew
      obtain ⟨other, hother, he⟩ := List.mem_map.1 (hasRole_iff.1 (h.userRoles _ hlink).2)
      exact absurd (h.rolesDrawn other hother n k (hid.symm.trans he.symm)) (lt_irrefl n)
  · rintro ⟨role, hrole, hlink, hright⟩
    exact ⟨role, List.mem_append_left _ hrole, hlink, hright⟩

/-- A new permission is not carried by any role yet. -/
theorem grants_insertPermission {db : Db} {supply : Supply} {n k : Nat}
    (h : db.Sound supply n) {row : Permission} (hid : row.id = supply.rowId n k)
    (u : UserId) (resource action : String) :
    (Write.apply db (.insertPermission row)).Grants u resource action ↔
      db.Grants u resource action := by
  constructor
  · rintro ⟨role, hrole, hlink, p, hp, hcarried, hright⟩
    rcases List.mem_append.1 hp with hold | hnew
    · exact ⟨role, hrole, hlink, p, hold, hcarried, hright⟩
    · obtain rfl := List.mem_singleton.1 hnew
      obtain ⟨other, hother, he⟩ :=
        List.mem_map.1 (hasPermission_iff.1 (h.rolePermissions _ hcarried).2)
      exact absurd (h.permissionsDrawn other hother n k (hid.symm.trans he.symm)) (lt_irrefl n)
  · rintro ⟨role, hrole, hlink, p, hp, hcarried, hright⟩
    exact ⟨role, hrole, hlink, p, List.mem_append_left _ hp, hcarried, hright⟩

/-- Roles without a change of the account's rank. -/
theorem permits_iff_of_grants {db db' : Db} {u : UserId} {resource action : String}
    (hsuper : (∃ row ∈ db'.users, row.id = u ∧ row.isSuperuser = true) ↔
      ∃ row ∈ db.users, row.id = u ∧ row.isSuperuser = true)
    (huser : (∃ row ∈ db'.users, row.id = u) ↔ ∃ row ∈ db.users, row.id = u)
    (hgrants : db'.Grants u resource action ↔ db.Grants u resource action) :
    db'.Permits u resource action ↔ db.Permits u resource action := by
  have hsplit (db : Db) : db.Permits u resource action ↔
      (∃ row ∈ db.users, row.id = u ∧ row.isSuperuser = true) ∨
        (∃ row ∈ db.users, row.id = u) ∧ db.Grants u resource action := by
    constructor
    · rintro ⟨row, hrow, hid, hrank | hright⟩
      · exact .inl ⟨row, hrow, hid, hrank⟩
      · exact .inr ⟨⟨row, hrow, hid⟩, hright⟩
    · rintro (⟨row, hrow, hid, hrank⟩ | ⟨⟨row, hrow, hid⟩, hright⟩)
      · exact ⟨row, hrow, hid, .inl hrank⟩
      · exact ⟨row, hrow, hid, .inr hright⟩
  rw [hsplit, hsplit, hsuper, huser, hgrants]

end Db

/-! ## What a call does to the rights of an account -/

/-- A call that may change the rights of accounts other than by their roles. -/
def Call.EditsRoles : Call → Prop
  | .deleteRole _ => True
  | .grantPermissionToRole _ _ => True
  | .revokePermissionFromRole _ _ => True
  | _ => False

theorem Effect.grants (hw : w.Wf env) (h : Effect env t w c out w') {u : UserId}
    (hu : w.db.hasUser u = true) (hlinks : c.Relinks u → out.isOk = false)
    (hedits : ¬ c.EditsRoles) (resource action : String) :
    w'.db.Grants u resource action ↔ w.db.Grants u resource action := by
  cases h with
  | roleDeleted | permissionGranted | permissionRevoked => exact absurd trivial hedits
  | @roleAssigned userId roleId =>
    have hne : userId ≠ u := fun he => by cases hlinks he
    exact Db.grants_linkRole hne _ _ _
  | @roleRevoked userId roleId =>
    have hne : userId ≠ u := fun he => by cases hlinks he
    exact Db.grants_deleteUserRole hne _ _ _
  | roleCreated hrow hfree =>
    exact Db.grants_insertRole hw.db (by rw [hrow]) _ _ _
  | permissionCreated hrow hfree =>
    exact Db.grants_insertPermission hw.db (by rw [hrow]) _ _ _
  | @registered data device limits row a audit hl hemail husername hrow haudit ha =>
    have hne : row.id ≠ u := by
      rintro rfl
      obtain ⟨other, hother, he⟩ := List.mem_map.1 (Db.hasUser_iff.1 hu)
      refine lt_irrefl _ (hw.db.usersDrawn other hother w.calls 1 ?_)
      rw [he, hrow]
      rfl
    have hadded : (w.db.addUser row).Grants u resource action ↔
        w.db.Grants u resource action := Iff.rfl
    have hdefault : ((w.db.addUser row).grantDefault row.id
        ((w.db.addUser row).roleByName env.config.defaultRoleName)).Grants u resource action ↔
          (w.db.addUser row).Grants u resource action := by
      unfold Db.grantDefault
      split
      · exact Db.grants_linkRole hne _ _ _
      · rfl
    refine (Db.grants_congr ?_ _ _ _).trans (hdefault.trans hadded)
    simp
  | loginFailed hopen howner hbad hdb =>
    rcases hdb with ⟨audit, -, rfl, -⟩ | ⟨rfl, -⟩ <;> exact Iff.rfl
  | failed | observed | loginClash | logoutIgnored | refreshClash | authenticated
  | authenticateInactive | passwordTried | banSkipped => exact Iff.rfl
  | _ => exact Db.grants_congr (by simp) _ _ _

theorem Effect.permits (hw : w.Wf env) (h : Effect env t w c out w') {u : UserId}
    (hu : w.db.hasUser u = true) (hlinks : c.Relinks u → out.isOk = false)
    (hedits : ¬ c.EditsRoles) (resource action : String) :
    w'.db.Permits u resource action ↔ w.db.Permits u resource action := by
  obtain ⟨edit, new, hstep⟩ := h.users hw
  obtain ⟨owner, howner, hid⟩ := List.mem_map.1 (Db.hasUser_iff.1 hu)
  -- the rows of the account before and after the call
  have hrows (P : Bool → Prop) :
      (∃ row ∈ w'.db.users, row.id = u ∧ P row.isSuperuser) ↔
        ∃ row ∈ w.db.users, row.id = u ∧ P row.isSuperuser := by
    rw [hstep.users]
    constructor
    · rintro ⟨row', hrow', hrid, hp⟩
      rcases List.mem_append.1 hrow' with hold | hnew
      · obtain ⟨row, hrow, rfl⟩ := List.mem_map.1 hold
        rw [hstep.id row hrow] at hrid
        rw [hstep.isSuperuser row hrow] at hp
        exact ⟨row, hrow, hrid, hp⟩
      · obtain ⟨hfresh, -⟩ := hstep.fresh row' hnew
        have hlt := hw.db.usersDrawn owner howner w.calls 1 (by rw [hid, ← hrid, hfresh])
        exact absurd hlt (lt_irrefl _)
    · rintro ⟨row, hrow, hrid, hp⟩
      refine ⟨edit row, List.mem_append_left _ (List.mem_map_of_mem hrow), ?_, ?_⟩
      · rw [hstep.id row hrow, hrid]
      · rw [hstep.isSuperuser row hrow]
        exact hp
  refine Db.permits_iff_of_grants (hrows (· = true)) ?_
    (h.grants hw hu hlinks hedits resource action)
  simpa using hrows fun _ => True

/-! ## The cache agrees with the tables -/

/-- What the cache would answer about an account is what the tables say. -/
def World.Coherent (env : Env) (t : Time) (w : World) : Prop :=
  ∀ u data user, Cache.get env w.cache t (userCacheKey u) = some data →
    UserCacheCodec.loads env.isoFormat data = .ok user → ∀ resource action,
      user.hasPermission resource action = true ↔ w.db.Permits u resource action

/-- The database `db'` gives every account with a live cache entry the rights it has
in `w`. -/
def World.KeepsCachedRights (env : Env) (w : World) (t : Time) (db' : Db) : Prop :=
  ∀ u, (Cache.get env w.cache t (userCacheKey u)).isSome = true → ∀ resource action,
    db'.Permits u resource action ↔ w.db.Permits u resource action

/-- A change of roles or of what they carry that concerns no account with a live cache
entry: nobody holds the role, or the holders are superusers or have the right by
another role as well. -/
def Call.Calm (env : Env) (w : World) (t : Time) : Call → Prop
  | .deleteRole roleId => w.KeepsCachedRights env t (Write.apply w.db (.deleteRole roleId))
  | .grantPermissionToRole roleId permissionId =>
      w.KeepsCachedRights env t (w.db.linkPermission roleId permissionId)
  | .revokePermissionFromRole roleId permissionId =>
      w.KeepsCachedRights env t
        (Write.apply w.db (.deleteRolePermission roleId permissionId))
  | _ => True

/-- A calm call keeps the agreement. -/
theorem Effect.coherent (hw : w.Wf env) (hcoherent : w.Coherent env t)
    (hcalm : c.Calm env w t) (h : Effect env t w c out w') : w'.Coherent env t := by
  intro u data user hget hload resource action
  rcases h.cache hw hget with ⟨hold, hlinks⟩ | ⟨stored, hstored, -, hdb, hkey, rfl⟩
  · rw [hcoherent u data user hold hload resource action]
    have hlive : (Cache.get env w.cache t (userCacheKey u)).isSome = true := by rw [hold]; rfl
    by_cases hedits : c.EditsRoles
    · cases h with
      | failed => exact Iff.rfl
      | observed => exact Iff.rfl
      | roleDeleted => exact (hcalm u hlive resource action).symm
      | permissionGranted => exact (hcalm u hlive resource action).symm
      | permissionRevoked => exact (hcalm u hlive resource action).symm
      | _ => exact hedits.elim
    · obtain ⟨cached, hkey, -, -, hu⟩ := hw.cached t _ data hold
      rw [← userCacheKey_injective hkey] at hu
      exact (h.permits hw hu (hlinks u rfl) hedits resource action).symm
  · rw [UserCacheCodec.loads_dumps] at hload
    cases hload
    rw [userCacheKey_injective hkey, hdb]
    exact Db.permits_of_userById hw.db hstored resource action

/-- Entries that have run out do not matter. -/
theorem World.Coherent.mono (h : w.Coherent env now) (hle : now ≤ t) : w.Coherent env t :=
  fun u data user hget => h u data user (Cache.get_of_le hget hle)

theorem coherent_runCalls {w₀ : World} (h₀ : Initial env w₀) {t₀ : Time} {calls : Calls}
    (hord : OrderedFrom t₀ calls)
    (hcalm : AlongCalls env (fun w t c => c.Calm env w t) calls w₀) :
    (runCalls env w₀ calls).Wf env ∧
      (runCalls env w₀ calls).Coherent env (lastTime t₀ calls) := by
  refine runCalls_induction_along (I := fun t w => w.Wf env ∧ w.Coherent env t) ?_
    ⟨h₀.wf, fun u data user hget => ?_⟩ hord hcalm
  · rintro now w t c ⟨hw, hcoherent⟩ hle hc
    obtain ⟨w', h, he⟩ := runCall_effect env w t c
    have hcoherent' : w'.Coherent env t := h.coherent hw (hcoherent.mono hle) hc
    exact ⟨runCall_wf hw t c, he ▸ hcoherent'⟩
  · rw [h₀.cache, Cache.get_empty] at hget
    cases hget

/-- Authorization follows the tables: in a run in which `DeleteRole`,
`GrantPermissionToRole` and `RevokePermissionFromRole` are calm, the decision taken on
an account that `Authenticate` returns is the decision of the tables. -/
theorem authorization_follows_tables {w₀ : World} (h₀ : Initial env w₀) {t₀ : Time}
    {calls : Calls} (hord : OrderedFrom t₀ calls)
    (hcalm : AlongCalls env (fun w t c => c.Calm env w t) calls w₀)
    (ht : lastTime t₀ calls ≤ t) (token : Token) (user : User)
    (hauth : (runCall env (runCalls env w₀ calls) t (.authenticate token)).2 =
      .ok (.user user)) (resource action : String) :
    (requirePermission resource action user).isOk = true ↔
      (runCalls env w₀ calls).db.Permits user.id resource action := by
  obtain ⟨hw, hcoherent⟩ := coherent_runCalls h₀ hord hcalm
  have hdecision : (requirePermission resource action user).isOk = true ↔
      user.hasPermission resource action = true := by
    unfold requirePermission
    split_ifs with hright
    · simp [hright, Except.isOk, Except.toBool]
    · simp [hright, Except.isOk, Except.toBool]
  rw [hdecision]
  obtain ⟨w', h, -⟩ := runCall_effect env (runCalls env w₀ calls) t (.authenticate token)
  rw [hauth] at h
  cases h with
  | observed hc => exact hc.elim
  | authenticated hs hexp htype hsession hvalid hload hactive =>
    cases hload with
    | miss _ huser =>
      have hid := (userById_row huser).1
      rw [hid]
      exact Db.permits_of_userById hw.db huser resource action
    | hit hget hloads =>
      obtain ⟨cached, hkey, hdata, -⟩ := hw.cached _ _ _ hget
      have hsame := hloads
      rw [hdata, UserCacheCodec.loads_dumps] at hsame
      cases hsame
      rw [← userCacheKey_injective hkey]
      exact hcoherent.mono ht _ _ _ hget hloads resource action

/-- Alice may read, and the service says so. -/
theorem authorization_follows_tables_login :
    (requirePermission "content" "read"
        (Sample.db.userToEntity (Sample.account 1 "alice"))).isOk = true ↔
      (runCalls Sample.env Sample.world [(10, Sample.login "secret")]).db.Permits 1 "content"
        "read" :=
  have hord : OrderedFrom 0 [(10, Sample.login "secret")] := by decide +kernel
  have ht : lastTime 0 [(10, Sample.login "secret")] ≤ 20 := by decide +kernel
  authorization_follows_tables Sample.initial hord ⟨trivial, trivial⟩ ht Sample.access _
    (by decide +kernel) "content" "read"

/-- Alice logs in and is authenticated, which puts her into the cache; then her role is
deleted.  The next request is still allowed what the role carried. -/
theorem stale_permission :
    let calls : Calls := [(10, Sample.login "secret"), (11, .authenticate Sample.access),
      (12, .deleteRole 1)]
    let alice := Sample.db.userToEntity (Sample.account 1 "alice")
    Initial Sample.env Sample.world ∧ OrderedFrom 0 calls ∧ lastTime 0 calls ≤ 13 ∧
      (runCall Sample.env (runCalls Sample.env Sample.world calls) 13
        (.authenticate Sample.access)).2 = .ok (.user alice) ∧
      (requirePermission "content" "read" alice).isOk = true ∧
      ¬ (runCalls Sample.env Sample.world calls).db.Permits alice.id "content" "read" :=
  ⟨Sample.initial, by decide +kernel, by decide +kernel, by decide +kernel, by decide +kernel,
    by decide +kernel⟩

end VideoSite.Users
