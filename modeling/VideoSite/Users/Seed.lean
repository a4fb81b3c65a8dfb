import VideoSite.Users.Lifetime
import VideoSite.Users.AuthCache

/-!
# Demo data on startup

With `SEED_ON_STARTUP` every start of the process runs `seed_demo_data`, which loads
`adapter/seed_data.py` into a database without users and leaves any other alone.

There are three groups.

* The data and the seeder.  `seedDemoData` inserts the rows in the order of the unit of
  work, and fails where a constraint of the schema is broken.
* The life of a deployment that seeds.  `seeding_happens_once` says that after the first
  start the seeder does nothing, whatever was served in between and wherever the process
  was stopped.
* The demo database.  `demo_service` says that a service that starts on an empty schema
  starts well, with the accounts and the rights that the seed data describes.
-/

namespace VideoSite.Users

open Effects

variable {env : Env}

/-! ## The data -/

namespace SeedData

/-- `PERMISSIONS`: resource, action and description. -/
def permissions : List (String × String × String) := [
  ("content", "read", "Watch published content"),
  ("content", "moderate", "Take content down and review reports"),
  ("users", "read", "View any account, including soft-deleted ones"),
  ("users", "ban", "Deactivate or restore an account"),
  ("users", "manage", "Administer roles and permissions")]

/-- `ROLE_GRANTS`. -/
def roleGrants : List (String × List (String × String)) := [
  ("admin", permissions.map fun p => (p.1, p.2.1)),
  ("moderator", [("content", "read"), ("content", "moderate"), ("users", "read"),
    ("users", "ban")]),
  ("user", [("content", "read")])]

/-- `ROLE_DESCRIPTIONS`. -/
def roleDescriptions : List (String × String) := [
  ("admin", "Full access, including role and permission administration"),
  ("moderator", "Reviews content and accounts"),
  ("user", "Default role for a registered visitor")]

/-- A row of `USERS`. -/
structure Account where
  email : String
  username : String
  password : String
  displayName : String
  isSuperuser : Bool
  role : String
  deriving DecidableEq

/-- `USERS`. -/
def users : List Account := [
  ⟨"admin@example.com", "admin", "admin123", "Alice", true, "admin"⟩,
  ⟨"moderator@example.com", "moderator", "moderator123", "Mod", false, "moderator"⟩,
  ⟨"viewer@example.com", "viewer", "viewer123", "Vic", false, "user"⟩]

end SeedData

/-! ## The seeder -/

/-- What a start of the seeder draws: the last ids that the sequences of the three tables
have given, the salts of the passwords, and the time. -/
structure Seeding where
  lastUser : Nat
  lastRole : Nat
  lastPermission : Nat
  salt : Nat → String
  now : Time

namespace Seeding

variable (s : Seeding)

def permissionRows : List Permission :=
  SeedData.permissions.zipIdx.map fun (p, i) =>
    ⟨s.lastPermission + 1 + i, p.1, p.2.1, some p.2.2⟩

def roleRows : List RoleRow :=
  SeedData.roleGrants.zipIdx.map fun (role, i) =>
    ⟨s.lastRole + 1 + i, role.1, SeedData.roleDescriptions.lookup role.1⟩

def userRow (hasher : PasswordHasher) (account : SeedData.Account) (i : Nat) : UserRow where
  id := s.lastUser + 1 + i
  email := account.email
  username := account.username
  passwordHash := hasher.hash (s.salt i) account.password
  displayName := some account.displayName
  isActive := true
  isSuperuser := account.isSuperuser
  -- seeded accounts skip the mail round trip
  emailVerifiedAt := some s.now
  visitorId := none
  createdAt := s.now
  updatedAt := s.now

def userRows (hasher : PasswordHasher) : List UserRow :=
  SeedData.users.zipIdx.map fun (account, i) => s.userRow hasher account i

/-- `permissions[key]`. -/
def permissionId? (key : String × String) : Option PermissionId :=
  (s.permissionRows.find? fun p => (p.resource, p.action) == key).map (·.id)

/-- `roles[name]`. -/
def roleId? (name : String) : Option RoleId :=
  (s.roleRows.find? fun role => role.name == name).map (·.id)

/-- `role.permissions = [...]`, for every role. -/
def rolePermissionRows : List (RoleId × PermissionId) :=
  SeedData.roleGrants.zipIdx.flatMap fun (role, i) =>
    role.2.filterMap fun key => (s.permissionId? key).map fun p => (s.lastRole + 1 + i, p)

/-- `user.roles = [...]`, for every account. -/
def userRoleRows : List (UserId × RoleId) :=
  SeedData.users.zipIdx.filterMap fun (account, i) =>
    (s.roleId? account.role).map fun r => (s.lastUser + 1 + i, r)

/-- The inserts of the commit, tables before the links between them. -/
def writes (hasher : PasswordHasher) : List Write :=
  s.permissionRows.map .insertPermission ++ s.roleRows.map .insertRole ++
    s.rolePermissionRows.map (fun link => .insertRolePermission link.1 link.2) ++
    (s.userRows hasher).map .insertUser ++
    s.userRoleRows.map fun link => .insertUserRole link.1 link.2

end Seeding

/-- One insert of a flush. -/
def Db.flush (db : Db) (write : Write) : Except Failure Db :=
  match db.violation write with
  | some c => .error (.integrity c)
  | none => .ok (write.apply db)

/-- `seed_demo_data`. -/
def seedDemoData (env : Env) (s : Seeding) (db : Db) : Except Failure Db :=
  if db.users.isEmpty then (s.writes env.hasher).foldlM Db.flush db else .ok db

/-! ## Deployments -/

/-- One start of the process and what it serves until it ends. -/
structure Boot (env : Env) where
  /-- `SEED_ON_STARTUP`. -/
  seeds : Bool
  seeding : Seeding
  up : Uptime env

/-- `lifespan`, up to its `yield`. -/
def Boot.startup (w : World) (boot : Boot env) : Except Failure World :=
  if boot.seeds then (seedDemoData env boot.seeding w.db).map w.withDb else .ok w

/-- One start and what follows; a process that does not start serves nothing. -/
def Boot.run (w : World) (boot : Boot env) : Except Failure World :=
  (boot.startup w).map fun w' => boot.up.serve w'

/-- A deployment: one boot after the other. -/
def deployment (w : World) (boots : List (Boot env)) : Except Failure World :=
  boots.foldlM Boot.run w

/-- A flush that succeeds has made all its inserts. -/
theorem Db.foldlM_flush {writes : List Write} {db db' : Db}
    (h : writes.foldlM Db.flush db = .ok db') : db' = writes.foldl Write.apply db := by
  induction writes generalizing db with
  | nil =>
    cases h
    rfl
  | cons write rest ih =>
    rw [List.foldlM_cons] at h
    cases hviolation : db.violation write with
    | some c =>
      rw [Db.flush, hviolation] at h
      cases h
    | none =>
      rw [Db.flush, hviolation] at h
      exact ih h

/-- A user that is among the inserts is there after them. -/
theorem Db.users_ne_nil_of_mem {writes : List Write} {row : UserRow}
    (h : .insertUser row ∈ writes) (db : Db) : (writes.foldl Write.apply db).users ≠ [] := by
  obtain ⟨db', hlater⟩ := @Db.Becomes.of_pending { Tx.fresh 0 with pending := writes } _ h db
  have hrow : row ∈ (Write.apply db' (.insertUser row)).users :=
    List.mem_append_right _ (List.mem_singleton_self row)
  obtain ⟨row', hrow', -⟩ := hlater.users.exists_of_mem hrow
  exact List.ne_nil_of_mem hrow'

/-- After the seeder there is a user. -/
theorem seedDemoData_users {s : Seeding} {db db' : Db} (h : seedDemoData env s db = .ok db') :
    db'.users ≠ [] := by
  unfold seedDemoData at h
  split_ifs at h with hempty
  · rw [Db.foldlM_flush h]
    obtain ⟨row, hrow⟩ := List.exists_mem_of_ne_nil (s.userRows env.hasher)
      (by simp [Seeding.userRows, Seeding.userRow, SeedData.users])
    have hwrite : .insertUser row ∈ s.writes env.hasher :=
      List.mem_append_left _ (List.mem_append_right _ (List.mem_map_of_mem hrow))
    exact Db.users_ne_nil_of_mem hwrite db
  · cases h
    simpa using hempty

theorem seedDemoData_of_users (s : Seeding) {db : Db} (h : db.users ≠ []) :
    seedDemoData env s db = .ok db := by
  unfold seedDemoData
  rw [if_neg (by simpa using h)]

/-- Users stay, whatever is served. -/
theorem Uptime.serve_users (w : World) (up : Uptime env) (h : w.db.users ≠ []) :
    (up.serve w).db.users ≠ [] := by
  obtain ⟨row, hrow⟩ := List.exists_mem_of_ne_nil _ h
  have hlater : w.db.Becomes (up.serve w).db := Db.Becomes.lifetime w [up]
  obtain ⟨row', hrow', -⟩ := hlater.users.exists_of_mem hrow
  exact List.ne_nil_of_mem hrow'

/-- A start on a database with users. -/
theorem Boot.startup_of_users {w : World} (h : w.db.users ≠ []) (boot : Boot env) :
    boot.startup w = .ok w := by
  unfold startup
  split_ifs with hseeds
  · rw [seedDemoData_of_users boot.seeding h]
    rfl
  · rfl

theorem deployment_of_users {w : World} (h : w.db.users ≠ []) (boots : List (Boot env)) :
    deployment w boots = .ok (lifetime w (boots.map (·.up))) := by
  induction boots generalizing w with
  | nil => rfl
  | cons boot rest ih =>
    have hrun : boot.run w = .ok (boot.up.serve w) := by
      unfold Boot.run
      rw [Boot.startup_of_users h]
      rfl
    unfold deployment
    rw [List.foldlM_cons, hrun]
    exact ih (Uptime.serve_users w boot.up h)

/-- The seeder works once.  A deployment whose first start seeds is, if that start goes
well, the life of the service from the seeded database: no later start fails, and none
changes a row, whether it seeds or not. -/
theorem seeding_happens_once (w : World) (first : Boot env) (hseeds : first.seeds = true)
    (rest : List (Boot env)) :
    deployment w (first :: rest) =
      (first.startup w).map fun w' => lifetime w' (first.up :: rest.map (·.up)) := by
  unfold deployment
  rw [List.foldlM_cons]
  unfold Boot.run
  cases hstart : first.startup w with
  | error e => rfl
  | ok w' =>
    have husers : w'.db.users ≠ [] := by
      unfold Boot.startup at hstart
      rw [if_pos hseeds] at hstart
      cases hdb : seedDemoData env first.seeding w.db with
      | error e =>
        rw [hdb] at hstart
        cases hstart
      | ok db =>
        rw [hdb] at hstart
        cases hstart
        exact seedDemoData_users hdb
    exact deployment_of_users (Uptime.serve_users w' first.up husers) rest

/-- The schema without rows. -/
def Db.empty : Db := ⟨[], [], [], [], [], [], [], []⟩

/-- A service that nobody has used, on the schema without rows. -/
def World.blank : World where
  db := Db.empty
  signed := []
  cache := fun _ => none
  limits := Limits.empty
  outbox := []
  checks := []
  calls := 0

/-- A start of the seeder in the small deployment. -/
def Sample.seeding : Seeding where
  lastUser := 0
  lastRole := 0
  lastPermission := 0
  salt := fun _ => "salt"
  now := 5

/-- The service starts, serves a visitor and starts again, with the seeder on. -/
theorem seeding_happens_once_twice :
    let up : Uptime Sample.env :=
      ⟨1, fun _ => .login ⟨"viewer@example.com", "viewer123"⟩ none, List.replicate 12 (0, 6)⟩
    let boot : Boot Sample.env := ⟨true, Sample.seeding, up⟩
    deployment World.blank [boot, boot] =
      (boot.startup World.blank).map fun w => lifetime w [up, up] :=
  seeding_happens_once World.blank _ rfl _

/-! ## The demo database -/

/-- The tables after the seeder has filled them. -/
def Seeding.db (s : Seeding) (hasher : PasswordHasher) : Db where
  users := s.userRows hasher
  roles := s.roleRows
  permissions := s.permissionRows
  userRoles := s.userRoleRows
  rolePermissions := s.rolePermissionRows
  sessions := []
  securityTokens := []
  auditLogs := []

theorem Db.flush_cons {db : Db} {write : Write} (h : db.violation write = none)
    (rest : List Write) :
    (write :: rest).foldlM Db.flush db = rest.foldlM Db.flush (write.apply db) := by
  rw [List.foldlM_cons, Db.flush, h]
  rfl

/-- What is inserted next is not there yet, when the keys of the whole table differ. -/
theorem not_mem_of_nodup_append {α κ : Type} {key : α → κ} {table rest : List α} {row : α}
    (h : ((table ++ row :: rest).map key).Nodup) : ∀ other ∈ table, key other ≠ key row := by
  intro other hother he
  rw [List.map_append, List.map_cons] at h
  have hin : key row ∈ table.map key := he ▸ List.mem_map_of_mem hother
  exact List.disjoint_of_nodup_append h hin List.mem_cons_self

namespace Db

variable {db : Db}

theorem flush_permissions {rows : List Permission}
    (h : ((db.permissions ++ rows).map fun p => (p.resource, p.action)).Nodup) :
    (rows.map .insertPermission).foldlM Db.flush db =
      .ok { db with permissions := db.permissions ++ rows } := by
  induction rows generalizing db with
  | nil => simp [pure, Except.pure]
  | cons row rest ih =>
    have hnew : db.violation (.insertPermission row) = none := by
      have hother : ∀ other ∈ db.permissions, other.resource = row.resource →
          ¬ other.action = row.action := fun other hin hresource haction =>
        not_mem_of_nodup_append h other hin (by rw [hresource, haction])
      simpa [violation, firstBroken] using hother
    have hrest := @ih (Write.apply db (.insertPermission row)) (by simpa [Write.apply] using h)
    rw [List.map_cons, Db.flush_cons hnew, hrest]
    simp [Write.apply]

theorem flush_roles {rows : List RoleRow} (h : ((db.roles ++ rows).map (·.name)).Nodup) :
    (rows.map .insertRole).foldlM Db.flush db = .ok { db with roles := db.roles ++ rows } := by
  induction rows generalizing db with
  | nil => simp [pure, Except.pure]
  | cons row rest ih =>
    have hnew : db.violation (.insertRole row) = none := by
      simpa [violation, firstBroken] using not_mem_of_nodup_append h
    have hrest := @ih (Write.apply db (.insertRole row)) (by simpa [Write.apply] using h)
    rw [List.map_cons, Db.flush_cons hnew, hrest]
    simp [Write.apply]

theorem flush_users {rows : List UserRow} (hemails : ((db.users ++ rows).map (·.email)).Nodup)
    (husernames : ((db.users ++ rows).map (·.username)).Nodup) :
    (rows.map .insertUser).foldlM Db.flush db = .ok { db with users := db.users ++ rows } := by
  induction rows generalizing db with
  | nil => simp [pure, Except.pure]
  | cons row rest ih =>
    have hnew : db.violation (.insertUser row) = none := by
      have hemail := not_mem_of_nodup_append hemails
      have husername := not_mem_of_nodup_append husernames
      simp only [violation, firstBroken, Option.map_eq_none_iff, List.find?_eq_none]
      simpa using ⟨hemail, husername⟩
    have hrest := @ih (Write.apply db (.insertUser row)) (by simpa [Write.apply] using hemails)
      (by simpa [Write.apply] using husernames)
    rw [List.map_cons, Db.flush_cons hnew, hrest]
    simp [Write.apply]

theorem flush_rolePermissions {rows : List (RoleId × PermissionId)}
    (h : (db.rolePermissions ++ rows).Nodup)
    (hends : ∀ link ∈ rows, db.hasRole link.1 = true ∧ db.hasPermission link.2 = true) :
    (rows.map fun link => Write.insertRolePermission link.1 link.2).foldlM Db.flush db =
      .ok { db with rolePermissions := db.rolePermissions ++ rows } := by
  induction rows generalizing db with
  | nil => simp [pure, Except.pure]
  | cons row rest ih =>
    have hnew : db.violation (.insertRolePermission row.1 row.2) = none := by
      have hfree : row ∉ db.rolePermissions := fun hin =>
        List.disjoint_of_nodup_append h hin List.mem_cons_self
      obtain ⟨hrole, hpermission⟩ := hends row List.mem_cons_self
      simp [violation, firstBroken, hfree, hrole, hpermission]
    have hrest := @ih (Write.apply db (.insertRolePermission row.1 row.2))
      (by simpa [Write.apply] using h) fun link hlink => hends link (List.mem_cons_of_mem _ hlink)
    rw [List.map_cons, Db.flush_cons hnew, hrest]
    simp [Write.apply]

theorem flush_userRoles {rows : List (UserId × RoleId)} (h : (db.userRoles ++ rows).Nodup)
    (hends : ∀ link ∈ rows, db.hasUser link.1 = true ∧ db.hasRole link.2 = true) :
    (rows.map fun link => Write.insertUserRole link.1 link.2).foldlM Db.flush db =
      .ok { db with userRoles := db.userRoles ++ rows } := by
  induction rows generalizing db with
  | nil => simp [pure, Except.pure]
  | cons row rest ih =>
    have hnew : db.violation (.insertUserRole row.1 row.2) = none := by
      have hfree : row ∉ db.userRoles := fun hin =>
        List.disjoint_of_nodup_append h hin List.mem_cons_self
      obtain ⟨huser, hrole⟩ := hends row List.mem_cons_self
      simp [violation, firstBroken, hfree, huser, hrole]
    have hrest := @ih (Write.apply db (.insertUserRole row.1 row.2))
      (by simpa [Write.apply] using h) fun link hlink => hends link (List.mem_cons_of_mem _ hlink)
    rw [List.map_cons, Db.flush_cons hnew, hrest]
    simp [Write.apply]

end Db

/-- The links go out from rows of the data, each once. -/
theorem Seeding.links (s : Seeding) (hasher : PasswordHasher) :
    s.rolePermissionRows.Nodup ∧ s.userRoleRows.Nodup ∧
      (∀ link ∈ s.rolePermissionRows, (∃ row ∈ s.roleRows, row.id = link.1) ∧
        ∃ row ∈ s.permissionRows, row.id = link.2) ∧
      ∀ link ∈ s.userRoleRows, (∃ row ∈ s.userRows hasher, row.id = link.1) ∧
        ∃ row ∈ s.roleRows, row.id = link.2 := by
  refine ⟨?_, ?_, ?_, ?_⟩ <;>
    simp [rolePermissionRows, userRoleRows, permissionRows, roleRows, userRows, userRow,
      permissionId?, roleId?, SeedData.roleGrants, SeedData.permissions, SeedData.users]

/-- The seeder fills an empty schema. -/
theorem seedDemoData_empty (s : Seeding) :
    seedDemoData env s Db.empty = .ok (s.db env.hasher) := by
  obtain ⟨hgrants, hroles, hgrantEnds, hroleEnds⟩ := s.links env.hasher
  have hpermissionKeys : (s.permissionRows.map fun p => (p.resource, p.action)).Nodup := by
    simp [Seeding.permissionRows, SeedData.permissions]
  have hroleNames : (s.roleRows.map (·.name)).Nodup := by
    simp [Seeding.roleRows, SeedData.roleGrants]
  have hemails : ((s.userRows env.hasher).map (·.email)).Nodup := by
    simp [Seeding.userRows, Seeding.userRow, SeedData.users]
  have husernames : ((s.userRows env.hasher).map (·.username)).Nodup := by
    simp [Seeding.userRows, Seeding.userRow, SeedData.users]
  have hok {α β : Type} (a : α) (f : α → Except Failure β) : Except.ok a >>= f = f a := rfl
  show (s.writes env.hasher).foldlM Db.flush Db.empty = _
  unfold Seeding.writes
  rw [List.foldlM_append, List.foldlM_append, List.foldlM_append, List.foldlM_append,
    Db.flush_permissions (by simpa [Db.empty] using hpermissionKeys), hok,
    Db.flush_roles (by simpa [Db.empty] using hroleNames), hok,
    Db.flush_rolePermissions (by simpa [Db.empty] using hgrants)
      (by simpa [Db.hasRole, Db.hasPermission, Db.empty] using hgrantEnds), hok,
    Db.flush_users (by simpa [Db.empty] using hemails) (by simpa [Db.empty] using husernames),
    hok, Db.flush_userRoles (by simpa [Db.empty] using hroles)
      (by simpa [Db.hasRole, Db.hasUser, Db.empty] using hroleEnds)]
  rfl

/-- The sequences of the tables go on where the seeder has left them. -/
structure Seeding.GoesOn (s : Seeding) (supply : Supply) : Prop where
  users : ∀ n k, s.lastUser + SeedData.users.length < supply.rowId n k
  roles : ∀ n k, s.lastRole + SeedData.roleGrants.length < supply.rowId n k
  permissions : ∀ n k, s.lastPermission + SeedData.permissions.length < supply.rowId n k

theorem Seeding.db_initial {s : Seeding} (h : s.GoesOn env.supply) :
    Initial env (World.blank.withDb (s.db env.hasher)) where
  userIds := by simp [Seeding.db, userRows, userRow, SeedData.users]
  userEmails := by simp [Seeding.db, userRows, userRow, SeedData.users]
  usernames := by simp [Seeding.db, userRows, userRow, SeedData.users]
  roleIds := by simp [Seeding.db, roleRows, SeedData.roleGrants]
  roleNames := by simp [Seeding.db, roleRows, SeedData.roleGrants]
  permissionIds := by simp [Seeding.db, permissionRows, SeedData.permissions]
  freshUserIds := by
    intro row hrow n k
    have hlt := h.users n k
    simp only [World.withDb_db, Seeding.db, userRows, userRow, SeedData.users, List.zipIdx_cons,
      List.zipIdx_nil, List.map_cons, List.map_nil, List.mem_cons, List.not_mem_nil, or_false,
      List.length_cons, List.length_nil] at hrow hlt
    rcases hrow with rfl | rfl | rfl <;> simp only <;> omega
  freshRoleIds := by
    intro row hrow n k
    have hlt := h.roles n k
    simp only [World.withDb_db, Seeding.db, roleRows, SeedData.roleGrants, List.zipIdx_cons,
      List.zipIdx_nil, List.map_cons, List.map_nil, List.mem_cons, List.not_mem_nil, or_false,
      List.length_cons, List.length_nil] at hrow hlt
    rcases hrow with rfl | rfl | rfl <;> simp only <;> omega
  freshPermissionIds := by
    intro row hrow n k
    have hlt := h.permissions n k
    simp only [World.withDb_db, Seeding.db, permissionRows, SeedData.permissions,
      List.zipIdx_cons, List.zipIdx_nil, List.map_cons, List.map_nil, List.mem_cons,
      List.not_mem_nil, or_false, List.length_cons, List.length_nil] at hrow hlt
    rcases hrow with rfl | rfl | rfl | rfl | rfl <;> simp only <;> omega
  userRoles := by
    intro link hlink
    have hends := (s.links env.hasher).2.2.2 link hlink
    simpa [Db.hasUser, Db.hasRole, Seeding.db] using hends
  rolePermissions := by
    intro link hlink
    have hends := (s.links env.hasher).2.2.1 link hlink
    simpa [Db.hasRole, Db.hasPermission, Seeding.db] using hends
  sessions := rfl
  securityTokens := rfl
  auditLogs := rfl
  signed := rfl
  cache := rfl
  limits := rfl
  outbox := rfl
  checks := rfl
  calls := rfl

/-- The seed data says that the account has the right. -/
def SeedData.Account.Gets (account : SeedData.Account) (resource action : String) : Prop :=
  account.isSuperuser = true ∨
    ∃ grants, (account.role, grants) ∈ SeedData.roleGrants ∧ (resource, action) ∈ grants

/-- What is stored of an account of the seed data. -/
structure Seeding.Stores (s : Seeding) (hasher : PasswordHasher) (account : SeedData.Account)
    (user : User) : Prop where
  username : user.username = account.username
  password : ∃ i, user.passwordHash = hasher.hash (s.salt i) account.password
  active : user.isActive = true
  verified : user.emailVerifiedAt = some s.now
  rights : ∀ resource action,
    user.hasPermission resource action = true ↔ account.Gets resource action

/-- The rights of a seeded account are those of the role that stands behind its name. -/
theorem Seeding.grants_iff (s : Seeding) (hasher : PasswordHasher) {account : SeedData.Account}
    {i : Nat} (h : (account, i) ∈ SeedData.users.zipIdx) (resource action : String) :
    (s.db hasher).Grants (s.lastUser + 1 + i) resource action ↔
      ∃ grants, (account.role, grants) ∈ SeedData.roleGrants ∧ (resource, action) ∈ grants := by
  simp only [SeedData.users, List.zipIdx_cons, List.zipIdx_nil, List.mem_cons,
    List.not_mem_nil, or_false, Prod.mk.injEq] at h
  rcases h with ⟨rfl, rfl⟩ | ⟨rfl, rfl⟩ | ⟨rfl, rfl⟩
  all_goals
    simp [Db.Grants, Seeding.db, roleRows, userRoleRows, permissionRows, rolePermissionRows,
      permissionId?, roleId?, SeedData.roleGrants, SeedData.permissions, SeedData.users]
    grind

theorem Seeding.stores {s : Seeding} (h : s.GoesOn env.supply) :
    ∀ account ∈ SeedData.users, ∃ user,
      (s.db env.hasher).userByEmail account.email = some user ∧
        s.Stores env.hasher account user := by
  intro account haccount
  obtain ⟨i, hplace⟩ := List.getElem?_of_mem haccount
  have hi : (account, i) ∈ SeedData.users.zipIdx := List.mem_zipIdx_iff_getElem?.2 hplace
  have hrow : s.userRow env.hasher account i ∈ (s.db env.hasher).users :=
    List.mem_map.2 ⟨(account, i), hi, rfl⟩
  refine ⟨_, (Seeding.db_initial h).wf.db.userByEmail_of_mem hrow, rfl, ⟨i, rfl⟩, rfl, rfl,
    fun resource action => ?_⟩
  rw [Db.hasPermission_userToEntity]
  exact or_congr_right (s.grants_iff env.hasher hi resource action)

/-- A service that starts on an empty schema with the seeder on starts well.  It starts in
a world that satisfies the constraints of the schema, with an account for every row of the
seed data: under its address, with its password, and with the rights of its role. -/
theorem demo_service {s : Seeding} (h : s.GoesOn env.supply) :
    ∃ db, seedDemoData env s World.blank.db = .ok db ∧
      Initial env (World.blank.withDb db) ∧
      ∀ account ∈ SeedData.users, ∃ user, db.userByEmail account.email = some user ∧
        s.Stores env.hasher account user :=
  ⟨s.db env.hasher, seedDemoData_empty s, Seeding.db_initial h, Seeding.stores h⟩

theorem Sample.seeding_goesOn : Sample.seeding.GoesOn Sample.env.supply where
  users := fun n k => (by decide : 0 + SeedData.users.length < 1000).trans_le
    (Nat.le_add_left 1000 (Nat.pair n k))
  roles := fun n k => (by decide : 0 + SeedData.roleGrants.length < 1000).trans_le
    (Nat.le_add_left 1000 (Nat.pair n k))
  permissions := fun n k => (by decide : 0 + SeedData.permissions.length < 1000).trans_le
    (Nat.le_add_left 1000 (Nat.pair n k))

theorem demo_service_sample :
    ∃ db, seedDemoData Sample.env Sample.seeding World.blank.db = .ok db ∧
      Initial Sample.env (World.blank.withDb db) ∧
      ∀ account ∈ SeedData.users, ∃ user, db.userByEmail account.email = some user ∧
        Sample.seeding.Stores Sample.env.hasher account user :=
  demo_service Sample.seeding_goesOn

end VideoSite.Users
