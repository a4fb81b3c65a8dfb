import VideoSite.Lib.Rbac
import VideoSite.Users.AuthCache
import VideoSite.Users.Conflicts
import VideoSite.Users.Isolation

/-!
# The service as a role-based access control

The tables `roles`, `permissions`, `user_roles` and `role_permissions` are a
`Rbac.Policy`, and a use case that returns performs at most one `Rbac.Op` on it.
Which one can be read off the call and its answer: `Call.operation`.

There are three groups.

* The tables.  `Db.policy` is the policy they hold, and `Db.grants_iff_may` says that
  the decision of the domain is that of the policy.
* The calls.  `runCall_policy` is the simulation of one call, and
  `administration_refines_policy` that of a run: the log of the operations
  determines the rights.
* The requests.  `rights_have_a_source` finds, for every right an account has gained,
  the request that conferred it.
-/

namespace VideoSite.Users

open Effects Program

variable {env : Env} {t t' : Time} {w w' : World} {c : Call} {out : Except Failure Answer}

/-- A right is a resource with an action. -/
abbrev RolePolicy := Rbac.Policy UserId RoleId PermissionId String (String × String)

abbrev RoleOp := Rbac.Op UserId RoleId PermissionId String (String × String)

/-! ## The tables -/

namespace Db

/-- The tables of roles as a policy. -/
def policy (db : Db) : RolePolicy where
  roles := {x | ∃ row ∈ db.roles, (row.id, row.name) = x}
  permissions := {x | ∃ row ∈ db.permissions, (row.id, row.resource, row.action) = x}
  assigned := {x | x ∈ db.userRoles}
  granted := {x | x ∈ db.rolePermissions}

variable {db db' : Db}

theorem policy_congr (h : db'.rbac = db.rbac) : db'.policy = db.policy := by
  simp only [rbac, Prod.mk.injEq] at h
  simp only [policy, h.1, h.2.1, h.2.2.1, h.2.2.2]

/-- Every link has a role at its end, so the joins lose nothing. -/
theorem grants_iff_may {supply : Supply} {n : Nat} (h : db.Sound supply n) (u : UserId)
    (resource action : String) :
    db.Grants u resource action ↔ db.policy.May u (resource, action) := by
  constructor
  · rintro ⟨role, hrole, hlink, p, hp, hcarried, rfl, rfl⟩
    exact ⟨role.id, hlink, p.id, hcarried, p, hp, rfl⟩
  · rintro ⟨r, hlink, pid, hcarried, p, hp, heq⟩
    obtain ⟨role, hrole, rfl⟩ := List.mem_map.1 (hasRole_iff.1 (h.userRoles _ hlink).2)
    cases heq
    exact ⟨role, hrole, hlink, p, hp, hcarried, rfl, rfl⟩

theorem policy_linkRole (u : UserId) (r : RoleId) :
    (db.linkRole u r).policy = db.policy.step (.assign u r) := by
  unfold linkRole
  split_ifs with hin
  · have hsame : insert (u, r) {x | x ∈ db.userRoles} = {x | x ∈ db.userRoles} :=
      Set.insert_eq_of_mem hin
    simp only [policy, Rbac.Policy.step, hsame]
  · ext x
    · exact Iff.rfl
    · exact Iff.rfl
    · simp [policy, Rbac.Policy.step, Write.apply, or_comm]
    · exact Iff.rfl

theorem policy_linkPermission (r : RoleId) (p : PermissionId) :
    (db.linkPermission r p).policy = db.policy.step (.grant r p) := by
  unfold linkPermission
  split_ifs with hin
  · have hsame : insert (r, p) {x | x ∈ db.rolePermissions} = {x | x ∈ db.rolePermissions} :=
      Set.insert_eq_of_mem hin
    simp only [policy, Rbac.Policy.step, hsame]
  · ext x
    · exact Iff.rfl
    · exact Iff.rfl
    · exact Iff.rfl
    · simp [policy, Rbac.Policy.step, Write.apply, or_comm]

theorem policy_deleteRole (r : RoleId) :
    (Write.apply db (.deleteRole r)).policy = db.policy.step (.deleteRole r) := by
  ext x
  · simp only [policy, Rbac.Policy.step, Write.apply, List.mem_filter, decide_eq_true_eq,
      Set.mem_ofPred_eq]
    constructor
    · rintro ⟨row, ⟨hrow, hne⟩, rfl⟩
      exact ⟨⟨row, hrow, rfl⟩, hne⟩
    · rintro ⟨⟨row, hrow, rfl⟩, hne⟩
      exact ⟨row, ⟨hrow, hne⟩, rfl⟩
  · exact Iff.rfl
  · simp [policy, Rbac.Policy.step, Write.apply]
  · simp [policy, Rbac.Policy.step, Write.apply]

theorem policy_deleteUserRole (u : UserId) (r : RoleId) :
    (Write.apply db (.deleteUserRole u r)).policy = db.policy.step (.deassign u r) := by
  ext x
  · exact Iff.rfl
  · exact Iff.rfl
  · simp [policy, Rbac.Policy.step, Write.apply]
  · exact Iff.rfl

theorem policy_deleteRolePermission (r : RoleId) (p : PermissionId) :
    (Write.apply db (.deleteRolePermission r p)).policy =
      db.policy.step (.withdraw r p) := by
  ext x
  · exact Iff.rfl
  · exact Iff.rfl
  · exact Iff.rfl
  · simp [policy, Rbac.Policy.step, Write.apply]

theorem policy_insertRole (row : RoleRow) :
    (Write.apply db (.insertRole row)).policy =
      db.policy.step (.addRole row.id row.name) := by
  ext x
  · simp only [policy, Rbac.Policy.step, Write.apply, List.mem_append, List.mem_singleton,
      Set.mem_ofPred_eq, Set.mem_insert_iff]
    constructor
    · rintro ⟨other, hold | rfl, rfl⟩
      · exact .inr ⟨other, hold, rfl⟩
      · exact .inl rfl
    · rintro (rfl | ⟨other, hold, rfl⟩)
      · exact ⟨row, .inr rfl, rfl⟩
      · exact ⟨other, .inl hold, rfl⟩
  · exact Iff.rfl
  · exact Iff.rfl
  · exact Iff.rfl

theorem policy_insertPermission (row : Permission) :
    (Write.apply db (.insertPermission row)).policy =
      db.policy.step (.addPermission row.id (row.resource, row.action)) := by
  ext x
  · exact Iff.rfl
  · simp only [policy, Rbac.Policy.step, Write.apply, List.mem_append, List.mem_singleton,
      Set.mem_ofPred_eq, Set.mem_insert_iff]
    constructor
    · rintro ⟨other, hold | rfl, rfl⟩
      · exact .inr ⟨other, hold, rfl⟩
      · exact .inl rfl
    · rintro (rfl | ⟨other, hold, rfl⟩)
      · exact ⟨row, .inr rfl, rfl⟩
      · exact ⟨other, .inl hold, rfl⟩
  · exact Iff.rfl
  · exact Iff.rfl

/-- No two roles have the same name. -/
def RoleNames (db : Db) : Prop := (db.roles.map (·.name)).Nodup

/-- The default role is the only one of its name. -/
theorem policy_grantDefault (h : db.RoleNames) (u : UserId) (name : String) :
    (db.grantDefault u (db.roleByName name)).policy = db.policy.step (.enrol u name) := by
  unfold grantDefault roleByName
  cases hfind : db.roles.find? fun row => row.name == name with
  | none =>
    ext x
    · exact Iff.rfl
    · exact Iff.rfl
    · have hnone : ∀ row ∈ db.roles, row.name ≠ name := by
        simpa using List.find?_eq_none.1 hfind
      simp only [Option.map_none, policy, Rbac.Policy.step, Set.mem_union, Set.mem_ofPred_eq,
        Prod.mk.injEq]
      refine (or_iff_left ?_).symm
      rintro ⟨-, row, hrow, -, hname⟩
      exact hnone row hrow hname
    · exact Iff.rfl
  | some role =>
    have hrole : role ∈ db.roles := List.mem_of_find?_eq_some hfind
    have hname : role.name = name := by simpa using List.find?_some hfind
    simp only [Option.map_some, roleToEntity, policy_linkRole]
    ext x
    · exact Iff.rfl
    · exact Iff.rfl
    · simp only [policy, Rbac.Policy.step, Set.mem_union, Set.mem_ofPred_eq, Set.mem_insert_iff,
        Prod.mk.injEq]
      rw [or_comm]
      refine or_congr_right ⟨?_, ?_⟩
      · rintro rfl
        exact ⟨rfl, role, hrole, rfl, hname⟩
      · rintro ⟨hu, row, hrow, hid, hsame⟩
        have hone := List.inj_on_of_nodup_map h hrow hrole (hsame.trans hname.symm)
        exact Prod.ext hu (hid.symm.trans (congrArg RoleRow.id hone))
    · exact Iff.rfl

end Db

/-! ## The calls -/

/-- The operation of an administration that a call has performed, by its answer.  The
ids are those the service has chosen. -/
def Call.operation (env : Env) : Call → Except Failure Answer → Option RoleOp
  | .register _ _, .ok (.user user) => some (.enrol user.id env.config.defaultRoleName)
  | .createRole name _, .ok (.role role) => some (.addRole role.id name)
  | .deleteRole roleId, .ok _ => some (.deleteRole roleId)
  | .createPermission resource action _, .ok (.permission permission) =>
      some (.addPermission permission.id (resource, action))
  | .grantPermissionToRole roleId permissionId, .ok _ => some (.grant roleId permissionId)
  | .revokePermissionFromRole roleId permissionId, .ok _ =>
      some (.withdraw roleId permissionId)
  | .assignRoleToUser userId roleId, .ok _ => some (.assign userId roleId)
  | .revokeRoleFromUser userId roleId, .ok _ => some (.deassign userId roleId)
  | _, _ => none

/-- `CreateRole` answers with the row it has added. -/
theorem createRole_answer {name : String} {description : Option String} {a : Answer}
    (h : (runCall env w t (.createRole name description)).2 = .ok a) :
    ∃ role, a = .role role ∧ role.id = env.supply.rowId w.calls 0 := by
  have hwp : wp (handler env t) ((Call.createRole name description).program env)
      (fun _ out => ∀ a, out = .ok a →
        ∃ role, a = .role role ∧ role.id = env.supply.rowId w.calls 0)
      (w, Tx.fresh w.calls) := by
    simp only [Call.program, createRole]
    simp [Except.map]
    intro _
    rfl
  exact hwp a h

/-- `CreatePermission` answers with the row it has added. -/
theorem createPermission_answer {resource action : String} {description : Option String}
    {a : Answer}
    (h : (runCall env w t (.createPermission resource action description)).2 = .ok a) :
    ∃ permission, a = .permission permission ∧
      permission.id = env.supply.rowId w.calls 0 := by
  have hwp : wp (handler env t)
      ((Call.createPermission resource action description).program env)
      (fun _ out => ∀ a, out = .ok a → ∃ permission, a = .permission permission ∧
        permission.id = env.supply.rowId w.calls 0)
      (w, Tx.fresh w.calls) := by
    simp only [Call.program, createPermission]
    simp [Except.map]
  exact hwp a h

@[simp] theorem Call.operation_error (c : Call) (e : Failure) :
    c.operation env (.error e) = none := by
  cases c <;> rfl

/-- A call that has performed an operation has answered. -/
theorem Call.answered_of_operation {op : RoleOp} (h : c.operation env out = some op) :
    ∃ answer, out = .ok answer := by
  cases out with
  | ok answer => exact ⟨answer, rfl⟩
  | error e =>
    rw [operation_error] at h
    cases h

/-- The simulation of a call by the operation that its answer tells. -/
theorem Effect.policy (hnames : w.db.RoleNames) (hout : (runCall env w t c).2 = out)
    (h : Effect env t w c out w') :
    w'.db.policy = w.db.policy.run (c.operation env out).toList := by
  cases h with
  | failed => simp
  | @observed c a limits hobserves =>
    cases c with
    | getUserProfile | listUserSessions | listRoles | listPermissions | listUsers
    | forgotPassword | unbanUser => rfl
    | _ => exact hobserves.elim
  | loginFailed hopen howner hbad hdb =>
    rcases hdb with ⟨audit, -, rfl, -⟩ | ⟨rfl, -⟩ <;> rfl
  | loginClash | loggedIn | logoutIgnored | loggedOut | refreshClash | refreshed
  | authenticated | authenticateInactive | passwordTried | resetRequested | banSkipped
  | sessionsRevoked | sessionRevoked => exact Db.policy_congr rfl
  | passwordChanged | passwordReset | emailVerified | userUpdated | userDeleted | userBanned
  | userUnbanned => exact Db.policy_congr (by simp)
  | @registered data device limits row a audit hl hemail husername hrow haudit ha =>
    obtain ⟨user, rfl, huser⟩ := ha
    have hdefault := @Db.policy_grantDefault (w.db.addUser row) hnames row.id
      env.config.defaultRoleName
    show Db.policy _ = w.db.policy.step (.enrol user.id env.config.defaultRoleName)
    rw [huser]
    exact hdefault
  | roleCreated hrow hfree =>
    obtain ⟨role, rfl, hid⟩ := createRole_answer hout
    subst hrow
    show _ = w.db.policy.step (.addRole role.id _)
    rw [hid]
    exact Db.policy_insertRole _
  | permissionCreated hrow hfree =>
    obtain ⟨permission, rfl, hid⟩ := createPermission_answer hout
    subst hrow
    show _ = w.db.policy.step (.addPermission permission.id _)
    rw [hid]
    exact Db.policy_insertPermission _
  | roleDeleted => exact Db.policy_deleteRole _
  | permissionGranted => exact Db.policy_linkPermission _ _
  | permissionRevoked => exact Db.policy_deleteRolePermission _ _
  | roleAssigned => exact Db.policy_linkRole _ _
  | roleRevoked => exact Db.policy_deleteUserRole _ _

/-- A new role has a new name. -/
theorem Effect.roleNames (h : Effect env t w c out w') (hnames : w.db.RoleNames) :
    w'.db.RoleNames := by
  have hsame (hroles : w'.db.roles = w.db.roles) : w'.db.RoleNames := by
    unfold Db.RoleNames
    rw [hroles]
    exact hnames
  by_cases hc : c.ChangesRights
  · cases h with
    | failed | observed | permissionRevoked | permissionCreated | roleRevoked =>
      exact hsame rfl
    | permissionGranted => exact hsame (linkPermission_roles _ _ _)
    | @roleAssigned userId roleId =>
      have hroles : (w.db.linkRole userId roleId).roles = w.db.roles := by
        unfold Db.linkRole
        split <;> rfl
      exact hsame hroles
    | roleDeleted =>
      exact hnames.sublist (List.filter_sublist.map _)
    | @roleCreated name description row a hrow hfree =>
      have hnew : row.name ∉ w.db.roles.map (·.name) := by
        simpa [Db.violation, Db.firstBroken] using hfree
      show ((w.db.roles ++ [row]).map (·.name)).Nodup
      rw [List.map_append, List.map_singleton]
      exact List.nodup_append.2 ⟨hnames, List.nodup_singleton _, by simpa using hnew⟩
    | _ => exact hc.elim
  · exact hsame (h.rbac hc).1

/-- The accounts keep their ranks, and a new one has none. -/
theorem Effect.superuser_iff (hw : w.Wf env) (h : Effect env t w c out w') (u : UserId) :
    (∃ row ∈ w'.db.users, row.id = u ∧ row.isSuperuser = true) ↔
      ∃ row ∈ w.db.users, row.id = u ∧ row.isSuperuser = true := by
  by_cases hc : c.ChangesRights
  · have husers : w'.db.users = w.db.users := by
      cases h with
      | failed | observed | roleCreated | roleDeleted | permissionRevoked | permissionCreated
      | roleRevoked => rfl
      | permissionGranted | roleAssigned => simp
      | _ => exact hc.elim
    rw [husers]
  · have hconfined := h.confined hw hc
    constructor
    · rintro ⟨row', hrow', rfl, hsuper⟩
      cases hknown : w.db.hasUser row'.id with
      | true =>
        obtain ⟨row, hrow, hid, hrank⟩ := hconfined.ranks row' hrow' hknown
        exact ⟨row, hrow, hid, hrank ▸ hsuper⟩
      | false =>
        rw [(hconfined.newcomers row' hrow' hknown).1] at hsuper
        cases hsuper
    · rintro ⟨row, hrow, rfl, hsuper⟩
      have hknown : w.db.hasUser row.id = true := Db.hasUser_iff.2 (List.mem_map_of_mem hrow)
      obtain ⟨row', hrow', hid⟩ := List.mem_map.1 (Db.hasUser_iff.1 (hconfined.stays _ hknown))
      obtain ⟨other, hother, hoid, hrank⟩ := hconfined.ranks row' hrow' (hid ▸ hknown)
      obtain rfl := hw.db.row_unique hother hrow (hoid.trans hid)
      exact ⟨row', hrow', hid, hrank.trans hsuper⟩

/-- One call, for the policy and for the ranks. -/
theorem runCall_policy (hw : w.Wf env) (hnames : w.db.RoleNames) (t : Time) (c : Call) :
    (runCall env w t c).1.db.policy =
        w.db.policy.run (c.operation env (runCall env w t c).2).toList ∧
      (runCall env w t c).1.db.RoleNames ∧
      ∀ u, (∃ row ∈ (runCall env w t c).1.db.users, row.id = u ∧ row.isSuperuser = true) ↔
        ∃ row ∈ w.db.users, row.id = u ∧ row.isSuperuser = true := by
  obtain ⟨w', h, he⟩ := runCall_effect env w t c
  have hdb : (runCall env w t c).1.db = w'.db := by rw [he]; rfl
  rw [hdb]
  exact ⟨h.policy hnames rfl, h.roleNames hnames, h.superuser_iff hw⟩

/-- The log of a run: what the calls have done to the policy, by their answers. -/
def operations (env : Env) (w : World) : Calls → List RoleOp
  | [] => []
  | s :: rest =>
      (s.2.operation env (runCall env w s.1 s.2).2).toList ++
        operations env (runCall env w s.1 s.2).1 rest

theorem runCalls_policy (hw : w.Wf env) (hnames : w.db.RoleNames) (calls : Calls) :
    (runCalls env w calls).Wf env ∧
      (runCalls env w calls).db.policy = w.db.policy.run (operations env w calls) ∧
      ∀ u, (∃ row ∈ (runCalls env w calls).db.users, row.id = u ∧ row.isSuperuser = true) ↔
        ∃ row ∈ w.db.users, row.id = u ∧ row.isSuperuser = true := by
  induction calls generalizing w with
  | nil => exact ⟨hw, rfl, fun _ => Iff.rfl⟩
  | cons s rest ih =>
    obtain ⟨hpolicy, hnames', hranks⟩ := runCall_policy hw hnames s.1 s.2
    obtain ⟨hwf, hrest, hrestRanks⟩ := ih (runCall_wf hw s.1 s.2) hnames'
    refine ⟨hwf, ?_, fun u => (hrestRanks u).trans (hranks u)⟩
    rw [runCalls_cons, hrest, hpolicy, operations, Rbac.Policy.run_append]

/-- The service refines the policy.  After any run of calls the tables of roles are the
policy that the log of the run describes, and an account that is loaded has the rights
it has in that policy, or was a superuser from the start. -/
theorem administration_refines_policy {w₀ : World} (h₀ : Initial env w₀) (calls : Calls) :
    (runCalls env w₀ calls).db.policy = w₀.db.policy.run (operations env w₀ calls) ∧
      ∀ u user, (runCalls env w₀ calls).db.userById u = some user → ∀ resource action,
        user.hasPermission resource action = true ↔
          (∃ row ∈ w₀.db.users, row.id = u ∧ row.isSuperuser = true) ∨
            (w₀.db.policy.run (operations env w₀ calls)).May u (resource, action) := by
  obtain ⟨hw, hpolicy, hranks⟩ := runCalls_policy h₀.wf h₀.roleNames calls
  refine ⟨hpolicy, fun u user huser resource action => ?_⟩
  obtain ⟨-, row, hrow, rfl⟩ := userById_row huser
  have hmem := Db.mem_of_userRow? hrow
  have hid := userRow?_id hrow
  have hsuper : row.isSuperuser = true ↔
      ∃ other ∈ w₀.db.users, other.id = u ∧ other.isSuperuser = true := by
    rw [← hranks u]
    constructor
    · intro h
      exact ⟨row, hmem, hid, h⟩
    · rintro ⟨other, hother, hoid, h⟩
      obtain rfl := hw.db.row_unique hother hmem (hoid.trans hid.symm)
      exact h
  rw [Db.hasPermission_userToEntity, hid, hsuper, Db.grants_iff_may hw.db, hpolicy]

/-- Bob registers, is made a reader, and may read. -/
theorem administration_refines_policy_bob :
    let calls : Calls := [
      (9, .register ⟨"bob", "bob", "secret", "secret", none, none⟩ none),
      (11, .assignRoleToUser 1001 1)]
    (Sample.superuserWorld.db.policy.run
      (operations Sample.env Sample.superuserWorld calls)).May 1001 ("content", "read") := by
  intro calls
  have hrefines := (administration_refines_policy Sample.superuserWorld_initial calls).2 1001
  have hstart : ¬ ∃ row ∈ Sample.superuserWorld.db.users,
      row.id = 1001 ∧ row.isSuperuser = true := by
    decide +kernel
  have hbob : ((runCalls Sample.env Sample.superuserWorld calls).db.userById 1001).map
      (·.hasPermission "content" "read") = some true := by
    decide +kernel
  obtain ⟨user, huser, hreads⟩ := Option.map_eq_some_iff.1 hbob
  exact ((hrefines user huser "content" "read").1 hreads).resolve_left hstart

/-! ## The requests -/

/-- A request of an administrator that gives the account the right: a role that carries
it, or the permission for a role the account has. -/
def Request.Confers (db : Db) (u : UserId) (right : String × String) : Request → Prop
  | .account (.assignRoleToUser userId roleId) _ _ =>
      userId = u ∧ db.policy.Carries roleId right
  | .account (.grantPermissionToRole roleId permissionId) _ _ =>
      (u, roleId) ∈ db.userRoles ∧ (permissionId, right) ∈ db.policy.permissions
  | _ => False

/-- The request is the registration of the account `u`. -/
def Request.Enrols (env : Env) (w : World) (t t' : Time) (u : UserId) (r : Request) : Prop :=
  ∃ body device user, r = .guest (.register body) device ∧
    (r.serve env w t t').2 = .ok (.user user) ∧ user.id = u

/-- Where a right comes from: the default role of a new account, or a caller with the
permission `users.manage`. -/
def Request.Brings (env : Env) (w : World) (t t' : Time) (u : UserId)
    (right : String × String) (r : Request) : Prop :=
  (r.Enrols env w t t' u ∧
      ∃ roleId, (roleId, env.config.defaultRoleName) ∈ w.db.policy.roles ∧
        w.db.policy.Carries roleId right) ∨
    (r.Manages env w t ∧ r.Confers w.db u right)

/-- The request is the source of a right: the account did not have it before and has it
afterwards, and the request was carried out. -/
structure Request.IsSource (env : Env) (w : World) (t t' : Time) (u : UserId)
    (resource action : String) (r : Request) : Prop where
  before : ¬ w.db.Permits u resource action
  after : (r.serve env w t t').1.db.Permits u resource action
  answered : ∃ answer, (r.serve env w t t').2 = .ok answer
  brings : r.Brings env w t t' u (resource, action)

theorem permits_of_may (hw : w.Wf env) {u : UserId} {resource action : String}
    (h : w.db.policy.May u (resource, action)) : w.db.Permits u resource action := by
  have hgrants := (Db.grants_iff_may hw.db _ _ _).2 h
  have ⟨role, _, hlink, _⟩ := hgrants
  obtain ⟨row, hrow, hid⟩ :=
    List.mem_map.1 (Db.hasUser_iff.1 (hw.db.userRoles (u, role.id) hlink).1)
  exact ⟨row, hrow, hid, .inr hgrants⟩

/-- A right that a call brings was conferred by its operation. -/
theorem runCall_source (hw : w.Wf env) (hnames : w.db.RoleNames) {u : UserId}
    {resource action : String}
    (h : (runCall env w t c).1.db.Permits u resource action) :
    w.db.Permits u resource action ∨
      ∃ op, c.operation env (runCall env w t c).2 = some op ∧
        op.Confers w.db.policy u (resource, action) := by
  obtain ⟨hpolicy, -, hranks⟩ := runCall_policy hw hnames t c
  obtain ⟨row', hrow', hid, hsuper | hgrants⟩ := h
  · obtain ⟨row, hrow, hrowId, hrank⟩ := (hranks u).1 ⟨row', hrow', hid, hsuper⟩
    exact .inl ⟨row, hrow, hrowId, .inl hrank⟩
  · rw [Db.grants_iff_may (runCall_wf hw t c).db, hpolicy] at hgrants
    cases hop : c.operation env (runCall env w t c).2 with
    | none =>
      rw [hop] at hgrants
      exact .inl (permits_of_may hw hgrants)
    | some op =>
      rw [hop] at hgrants
      rcases Rbac.Policy.May.of_step hgrants with hold | hconfers
      · exact .inl (permits_of_may hw hold)
      · exact .inr ⟨op, rfl, hconfers⟩

/-- The calls whose operation can confer a right.  A new permission cannot: no role has
it yet. -/
theorem operation_cases (hw : w.Wf env) {op : RoleOp} {u : UserId} {right : String × String}
    (hop : c.operation env (runCall env w t c).2 = some op)
    (h : op.Confers w.db.policy u right) :
    (∃ data device user, c = .register data device ∧
        (runCall env w t c).2 = .ok (.user user) ∧ user.id = u ∧
        ∃ roleId, (roleId, env.config.defaultRoleName) ∈ w.db.policy.roles ∧
          w.db.policy.Carries roleId right) ∨
      (∃ roleId, c = .assignRoleToUser u roleId ∧ w.db.policy.Carries roleId right) ∨
      ∃ roleId permissionId, c = .grantPermissionToRole roleId permissionId ∧
        (u, roleId) ∈ w.db.userRoles ∧ (permissionId, right) ∈ w.db.policy.permissions := by
  obtain ⟨a, hout⟩ := Call.answered_of_operation hop
  rw [hout] at hop ⊢
  cases c with
  | register data device =>
    cases a with
    | user user =>
      cases hop
      exact .inl ⟨data, device, user, rfl, rfl, h⟩
    | _ => cases hop
  | assignRoleToUser userId roleId =>
    cases hop
    obtain ⟨rfl, hcarries⟩ := h
    exact .inr (.inl ⟨roleId, rfl, hcarries⟩)
  | grantPermissionToRole roleId permissionId =>
    cases hop
    exact .inr (.inr ⟨roleId, permissionId, rfl, h⟩)
  | createPermission resource action description =>
    obtain ⟨permission, rfl, hid⟩ := createPermission_answer hout
    cases hop
    obtain ⟨-, r, -, hgranted⟩ := h
    obtain ⟨row, hrow, hrowId⟩ :=
      List.mem_map.1 (Db.hasPermission_iff.1 (hw.db.rolePermissions _ hgranted).2)
    have hdrawn := hw.db.permissionsDrawn row hrow w.calls 0 (hid.symm.trans hrowId.symm)
    exact absurd hdrawn (lt_irrefl _)
  | createRole name description =>
    obtain ⟨role, rfl, -⟩ := createRole_answer hout
    cases hop
    exact h.elim
  | deleteRole | revokePermissionFromRole | revokeRoleFromUser =>
    cases hop
    exact h.elim
  | _ => cases hop

/-- A right that the account did not have before is one that the request has brought, and
so the request was carried out. -/
theorem serve_brings (hw : w.Wf env) (hnames : w.db.RoleNames) {r : Request} {u : UserId}
    {resource action : String}
    (h : (r.serve env w t t').1.db.Permits u resource action) :
    w.db.Permits u resource action ∨ (∃ answer, (r.serve env w t t').2 = .ok answer) ∧
      r.Brings env w t t' u (resource, action) := by
  have hserved := served env w t t' r
  generalize hworld : (r.serve env w t t').1 = w' at hserved h
  cases hserved with
  | refused => exact .inl h
  | checked =>
    rw [authenticate_db] at h
    exact .inl h
  | @opened endpoint device c hcall =>
    rcases runCall_source hw hnames h with hold | ⟨op, hop, hconfers⟩
    · exact .inl hold
    · rcases operation_cases hw hop hconfers with
        ⟨data, device', user, rfl, hout, huser, hdefault⟩ | ⟨_, rfl, -⟩ | ⟨_, _, rfl, -⟩
      · cases endpoint with
        | register body =>
          cases hcall
          exact .inr ⟨⟨_, hout⟩, .inl ⟨⟨body, device, user, rfl, hout, huser⟩, hdefault⟩⟩
        | refresh token => cases token <;> cases hcall
        | _ => cases hcall
      · cases endpoint with
        | refresh token => cases token <;> cases hcall
        | _ => cases hcall
      · cases endpoint with
        | refresh token => cases token <;> cases hcall
        | _ => cases hcall
  | @called endpoint token device user jti c hauth hpermission hcall hanswer =>
    have hdb := authenticate_db env w t token
    have hw₁ : (runCall env w t (.authenticate token)).1.Wf env := runCall_wf hw _ _
    have hmanages (hc : c.ChangesRights) :
        (Request.account endpoint (some token) device).Manages env w t :=
      have hp := AccountEndpoint.permission_of_changesRights hcall hc
      ⟨hp, user, hauth, hpermission _ _ hp⟩
    rcases runCall_source hw₁ (by rw [hdb]; exact hnames) h with hold | ⟨op, hop, hconfers⟩
    · exact .inl (hdb ▸ hold)
    · have hok := hanswer ▸ Call.answered_of_operation hop
      rcases operation_cases hw₁ hop hconfers with
        ⟨data, device', user, rfl, -⟩ | ⟨roleId, rfl, hcarries⟩ |
          ⟨roleId, permissionId, rfl, hlink, hright⟩
      · cases endpoint <;> cases hcall
      · rw [hdb] at hcarries
        refine .inr ⟨hok, .inr ⟨hmanages trivial, ?_⟩⟩
        cases endpoint <;> cases hcall
        exact ⟨rfl, hcarries⟩
      · rw [hdb] at hlink hright
        refine .inr ⟨hok, .inr ⟨hmanages trivial, ?_⟩⟩
        cases endpoint <;> cases hcall
        exact ⟨hlink, hright⟩

/-- A right that a request brings has the request as its source. -/
theorem serve_source (hw : w.Wf env) (hnames : w.db.RoleNames) {r : Request} {u : UserId}
    {resource action : String}
    (h : (r.serve env w t t').1.db.Permits u resource action) :
    w.db.Permits u resource action ∨ r.IsSource env w t t' u resource action := by
  by_cases hbefore : w.db.Permits u resource action
  · exact .inl hbefore
  · obtain ⟨hanswered, hbrings⟩ := (serve_brings hw hnames h).resolve_left hbefore
    exact .inr ⟨hbefore, h, hanswered, hbrings⟩

/-- The names of the roles stay apart. -/
theorem serve_roleNames (hw : w.Wf env) (hnames : w.db.RoleNames) (t t' : Time)
    (r : Request) : (r.serve env w t t').1.db.RoleNames := by
  have hserved := served env w t t' r
  generalize (r.serve env w t t').1 = w' at hserved ⊢
  cases hserved with
  | refused => exact hnames
  | opened => exact (runCall_policy hw hnames _ _).2.1
  | checked => exact (runCall_policy hw hnames _ _).2.1
  | called =>
    exact (runCall_policy (runCall_wf hw _ _) (runCall_policy hw hnames _ _).2.1 _ _).2.1

theorem serveAll_source (hw : w.Wf env) (hnames : w.db.RoleNames) {requests : Requests}
    {u : UserId} {resource action : String}
    (h : (serveAll env w requests).db.Permits u resource action) :
    w.db.Permits u resource action ∨
      ∃ before s after, requests = before ++ s :: after ∧
        s.2.2.IsSource env (serveAll env w before) s.1 s.2.1 u resource action := by
  induction requests generalizing w with
  | nil => exact .inl h
  | cons s rest ih =>
    rcases ih (serve_wf hw s.1 s.2.1 s.2.2) (serve_roleNames hw hnames s.1 s.2.1 s.2.2) h with
      hfirst | ⟨before, s', after, rfl, hsource⟩
    · rcases serve_source hw hnames hfirst with hold | hsource
      · exact .inl hold
      · exact .inr ⟨[], s, rest, rfl, hsource⟩
    · exact .inr ⟨s :: before, s', after, rfl, hsource⟩

/-- Rights do not come out of nowhere.  A right that an account has after a run of
requests it had at the start, or one request of the run, which was carried out, gave it
to the account that did not have it: its registration, by the default role as it was
then, or a request that assigned it a role with the right or granted the right to a role
it had, made by a caller with the permission `users.manage`. -/
theorem rights_have_a_source {w₀ : World} (h₀ : Initial env w₀) (requests : Requests)
    (u : UserId) (resource action : String)
    (h : (serveAll env w₀ requests).db.Permits u resource action) :
    w₀.db.Permits u resource action ∨
      ∃ before s after, requests = before ++ s :: after ∧
        s.2.2.IsSource env (serveAll env w₀ before) s.1 s.2.1 u resource action :=
  serveAll_source h₀.wf h₀.roleNames h

/-- Bob registers, Alice logs in as the superuser and makes him a reader. -/
theorem rights_have_a_source_bob :
    let requests : Requests := [
      (9, 9, .guest (.register ⟨"bob", "bob", "secret", "secret", none⟩) {}),
      (10, 10, .guest (.login ⟨"alice", "secret"⟩) {}),
      (11, 11, .account (.assignRoleToUser 1001 1)
        (some (.jwt ⟨1, Sample.label 1 0, .access, 1810⟩)) {})]
    Sample.superuserWorld.db.Permits 1001 "content" "read" ∨
      ∃ before s after, requests = before ++ s :: after ∧
        s.2.2.IsSource Sample.env (serveAll Sample.env Sample.superuserWorld before) s.1 s.2.1
          1001 "content" "read" :=
  rights_have_a_source Sample.superuserWorld_initial _ 1001 "content" "read"
    (by decide +kernel)

end VideoSite.Users
