import VideoSite.Users.Conflicts

/-!
# The role of a new account

`Register` grants the role named `DEFAULT_ROLE_NAME` if there is one, and goes on without it
if there is none.

* `registerUser_done`: what a registration that succeeds leaves.
* `registerUser_succeeds`: which registrations do.
* `new_accounts_have_role`: new accounts hold the role along every run in which it exists
  whenever a registration passes its checks, and along no other run.
-/

namespace VideoSite.Users

open Effects Program

variable {env : Env} {t : Time} {w w' : World} {c : Call} {data : RegisterUserDTO}
  {device : Option DeviceInfoDTO}

/-! ## The property and its condition -/

/-- The account holds the role named `DEFAULT_ROLE_NAME`. -/
def Db.HoldsDefaultRole (env : Env) (db : Db) (u : UserId) : Prop :=
  ∃ user, db.userById u = some user ∧
    ∃ role ∈ user.roles, role.name = env.config.defaultRoleName

/-- The call, if it registers an account, leaves it with the default role. -/
def Call.GrantsRole (env : Env) (w : World) (t : Time) (c : Call) : Prop :=
  ∀ data device user, c = .register data device →
    (runCall env w t c).2 = .ok (.user user) →
    (runCall env w t c).1.db.HoldsDefaultRole env user.id

/-- The call, if it is a registration that passes its checks, finds the default role. -/
def Call.FindsRole (env : Env) (w : World) (t : Time) (c : Call) : Prop :=
  ∀ data device, c = .register data device → RegisterUserUseCase.Passes env w t data device →
    ∃ row ∈ w.db.roles, row.name = env.config.defaultRoleName

/-! ## The roles of an account -/

/-- Granting a role assigns it and leaves the roles as they are. -/
theorem Db.grantDefault_some (db : Db) (u : UserId) (role : Role) :
    (db.grantDefault u (some role)).roles = db.roles ∧
      (u, role.id) ∈ (db.grantDefault u (some role)).userRoles := by
  show (db.linkRole u role.id).roles = _ ∧ _ ∈ (db.linkRole u role.id).userRoles
  unfold Db.linkRole
  split_ifs with hheld
  · exact ⟨rfl, hheld⟩
  · exact ⟨rfl, List.mem_append_right _ (List.mem_singleton_self _)⟩

theorem Db.mem_rolesOf {db : Db} {u : UserId} {role : Role} :
    role ∈ db.rolesOf u ↔
      ∃ row ∈ db.roles, (u, row.id) ∈ db.userRoles ∧ db.roleToEntity row = role := by
  simp [Db.rolesOf, and_assoc]

/-- After a grant the account holds the default role just if there is such a role. -/
theorem Db.holdsDefaultRole_iff {db db' : Db} {u : UserId} {user : User}
    (huser : db'.userById u = some user)
    (hroles : db'.roles = (db.grantDefault u (db.roleByName env.config.defaultRoleName)).roles)
    (hlinks : db'.userRoles =
      (db.grantDefault u (db.roleByName env.config.defaultRoleName)).userRoles) :
    db'.HoldsDefaultRole env u ↔ ∃ row ∈ db.roles, row.name = env.config.defaultRoleName := by
  have hheld : user.roles = db'.rolesOf u := by
    obtain ⟨hid, row, -, rfl⟩ := userById_row huser
    exact congrArg db'.rolesOf hid
  cases hfound : db.roleByName env.config.defaultRoleName with
  | none =>
    have hnone : ∀ row ∈ db.roles, row.name ≠ env.config.defaultRoleName := by
      simpa [Db.roleByName] using hfound
    rw [hfound] at hroles
    have hsame : db'.roles = db.roles := hroles
    apply iff_of_false
    · rintro ⟨other, hother, role, hrole, hname⟩
      rw [huser] at hother
      obtain rfl := Option.some.inj hother
      rw [hheld, Db.mem_rolesOf] at hrole
      obtain ⟨row, hrow, -, rfl⟩ := hrole
      exact hnone row (hsame ▸ hrow) hname
    · rintro ⟨row, hrow, hname⟩
      exact hnone row hrow hname
  | some role =>
    rw [hfound, (Db.grantDefault_some db u role).1] at hroles
    rw [hfound] at hlinks
    obtain ⟨row, hrow, rfl⟩ := Option.map_eq_some_iff.1 hfound
    have hmem : row ∈ db.roles := List.mem_of_find?_eq_some hrow
    have hname : row.name = env.config.defaultRoleName := by
      simpa using List.find?_some hrow
    apply iff_of_true
    · refine ⟨user, huser, db'.roleToEntity row, ?_, hname⟩
      rw [hheld, Db.mem_rolesOf]
      refine ⟨row, hroles ▸ hmem, ?_, rfl⟩
      rw [hlinks]
      exact (Db.grantDefault_some db u (db.roleToEntity row)).2
    · exact ⟨row, hmem, hname⟩

/-! ## Registrations -/

theorem Db.Sound.userById_of_mem {db : Db} {supply : Supply} {n : Nat} (h : db.Sound supply n)
    {row : UserRow} (hrow : row ∈ db.users) : db.userById row.id = some (db.userToEntity row) := by
  rw [Db.userById, h.userRow?_of_mem hrow]
  rfl

/-- A registration that succeeds has passed the checks of the database, and its account holds
the default role just if there is one. -/
theorem registerUser_done (hw : w.Wf env) {user : User}
    (h : (runCall env w t (.register data device)).2 = .ok (.user user)) :
    (runCall env w t (.register data device)).1.db.HoldsDefaultRole env user.id ↔
      ∃ row ∈ w.db.roles, row.name = env.config.defaultRoleName := by
  obtain ⟨w', heffect, hrun⟩ := runCall_effect env w t (.register data device)
  have hsound := heffect.sound hw
  rw [h] at heffect
  rw [hrun]
  show w'.db.HoldsDefaultRole env user.id ↔ _
  cases heffect with
  | observed hc => cases hc
  | @registered _ _ _ row _ _ hl hemail husername hrow haudit ha =>
    obtain ⟨answered, hanswered, hid⟩ := ha
    cases hanswered
    rw [hid]
    have hadded : row ∈ ((w.db.addUser row).grantDefault row.id
        ((w.db.addUser row).roleByName env.config.defaultRoleName)).users := by
      rw [(Db.grantDefault_frame _ _ _).1]
      exact List.mem_append_right _ (List.mem_singleton_self _)
    exact @Db.holdsDefaultRole_iff env (w.db.addUser row) _ row.id _
      (hsound.userById_of_mem hadded) rfl rfl

/-- A registration that finds the default role grants it. -/
theorem Call.FindsRole.grants (hw : w.Wf env) (h : c.FindsRole env w t) :
    c.GrantsRole env w t := by
  intro data device user hc hok
  subst hc
  rw [registerUser_done hw hok]
  apply h data device rfl
  by_contra hfails
  obtain ⟨e, herror⟩ := register_refused (t := t) hfails
  rw [hok] at herror
  cases herror

/-- A registration that grants the default role has found it, if it passed its checks: with a
hash of the secret that no stored one has, it succeeds. -/
theorem Call.GrantsRole.finds (hready : w.Ready env)
    (hhash : ∀ n k m j, env.tokenHash (env.supply.secret n k) =
      env.tokenHash (env.supply.secret m j) → env.supply.secret n k = env.supply.secret m j)
    (h : c.GrantsRole env w t) : c.FindsRole env w t := by
  intro data device hc hpasses
  subst hc
  obtain ⟨user, hok⟩ := register_succeeds hhash hready hpasses
  rw [← registerUser_done hready.wf hok]
  exact h data device user rfl hok

/-! ## Runs -/

/-- From every start, with or without roles: along a run in which the default role is there
whenever a registration passes its checks, every new account is left with that role.  Where
the hash of a secret tells it from the other secrets, these are the only runs that do so. -/
theorem new_accounts_have_role (env : Env) (w₀ : World) (hinit : Initial env w₀)
    (calls : Calls) :
    (AlongCalls env (fun w t c => c.FindsRole env w t) calls w₀ →
      AlongCalls env (fun w t c => c.GrantsRole env w t) calls w₀) ∧
    ((∀ n k m j, env.tokenHash (env.supply.secret n k) =
        env.tokenHash (env.supply.secret m j) → env.supply.secret n k = env.supply.secret m j) →
      AlongCalls env (fun w t c => c.GrantsRole env w t) calls w₀ →
      AlongCalls env (fun w t c => c.FindsRole env w t) calls w₀) := by
  have hready : w₀.Ready env := hinit.ready
  clear hinit
  induction calls generalizing w₀ with
  | nil => exact ⟨fun _ => trivial, fun _ _ => trivial⟩
  | cons s rest ih =>
    obtain ⟨hgrants, hfinds⟩ := ih _ (hready.runCall s.1 s.2)
    constructor
    · intro h
      exact ⟨h.1.grants hready.wf, hgrants h.2⟩
    · intro hhash h
      exact ⟨h.1.finds hready hhash, hfinds hhash h.2⟩

/-- A schema without any rows. -/
def Sample.bare : World :=
  { Sample.world with db := ⟨[], [], [], [], [], [], [], []⟩ }

theorem Sample.bare_initial : Initial Sample.env Sample.bare :=
  { Sample.initial with
    userIds := List.nodup_nil
    userEmails := List.nodup_nil
    usernames := List.nodup_nil
    roleIds := List.nodup_nil
    roleNames := List.nodup_nil
    permissionIds := List.nodup_nil
    freshUserIds := by simp [Sample.bare]
    freshRoleIds := by simp [Sample.bare]
    freshPermissionIds := by simp [Sample.bare]
    userRoles := by simp [Sample.bare]
    rolePermissions := by simp [Sample.bare] }

/-- A schema with the default role. -/
def Sample.seeded : World :=
  { Sample.bare with
    db := { Sample.bare.db with roles := [⟨1, Sample.env.config.defaultRoleName, none⟩] } }

theorem Sample.seeded_initial : Initial Sample.env Sample.seeded :=
  { Sample.bare_initial with
    roleIds := by decide
    roleNames := by decide
    freshRoleIds := by
      intro row hrow n k
      rw [List.mem_singleton.1 hrow]
      exact Sample.rowId_ne_one n k
    userRoles := by simp [Sample.seeded, Sample.bare]
    rolePermissions := by simp [Sample.seeded, Sample.bare] }

/-- Bob registers. -/
def Sample.bob : RegisterUserDTO where
  email := "bob"
  username := "bob"
  password := "secret"
  passwordRepeat := "secret"

/-- The role is there, and Bob gets it. -/
theorem new_accounts_have_role_bob :
    AlongCalls Sample.env (fun w t c => c.GrantsRole Sample.env w t)
        [(10, .register Sample.bob none)] Sample.seeded ∧
      AlongCalls Sample.env (fun w t c => c.FindsRole Sample.env w t)
        [(10, .register Sample.bob none)] Sample.seeded := by
  have h := new_accounts_have_role Sample.env Sample.seeded Sample.seeded_initial
    [(10, .register Sample.bob none)]
  have hrole : ∃ row ∈ Sample.seeded.db.roles, row.name = Sample.env.config.defaultRoleName := by
    decide
  have hgrants := h.1 ⟨fun _ _ _ _ => hrole, trivial⟩
  exact ⟨hgrants, h.2 (fun _ _ _ _ hsame => hsame) hgrants⟩

/-- Bob is left without a role: in a schema without rows, and in a seeded one after the role
has been deleted. -/
theorem new_accounts_without_role :
    (Initial Sample.env Sample.bare ∧
      ¬ AlongCalls Sample.env (fun w t c => c.GrantsRole Sample.env w t)
        [(10, .register Sample.bob none)] Sample.bare) ∧
    Initial Sample.env Sample.seeded ∧
      ¬ AlongCalls Sample.env (fun w t c => c.GrantsRole Sample.env w t)
        [(10, .deleteRole 1), (11, .register Sample.bob none)] Sample.seeded := by
  refine ⟨⟨Sample.bare_initial, fun h => ?_⟩, Sample.seeded_initial, fun h => ?_⟩
  · have hfinds := h.1.finds Sample.bare_initial.ready (fun _ _ _ _ hsame => hsame)
    have hpasses : RegisterUserUseCase.Passes Sample.env Sample.bare 10 Sample.bob none :=
      ⟨by decide +kernel, rfl, by decide +kernel, by decide +kernel⟩
    have hrole := hfinds Sample.bob none rfl hpasses
    revert hrole
    decide +kernel
  · have hready := Sample.seeded_initial.ready.runCall 10 (.deleteRole 1)
    have hfinds := h.2.1.finds hready (fun _ _ _ _ hsame => hsame)
    have hpasses : RegisterUserUseCase.Passes Sample.env
        (runCall Sample.env Sample.seeded 10 (.deleteRole 1)).1 11 Sample.bob none :=
      ⟨by decide +kernel, rfl, by decide +kernel, by decide +kernel⟩
    have hrole := hfinds Sample.bob none rfl hpasses
    revert hrole
    decide +kernel

end VideoSite.Users
