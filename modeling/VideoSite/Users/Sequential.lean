import VideoSite.Users.Rules

/-!
# Sequential runs

`Call` names every use case with its arguments, and `runCall` runs one of them
to completion.  A run is a list of calls with the times at which they are made;
the times do not decrease.

`Initial` are the worlds the service starts from: any accounts, roles and
permissions that satisfy the constraints of the schema, and nothing else yet.

* `runCalls_induction_along` is the induction over a run, with a condition that every call
  meets.
-/

namespace VideoSite.Users

open Effects Program

/-- A use case with its arguments. -/
inductive Call where
  | register (data : RegisterUserDTO) (device : Option DeviceInfoDTO)
  | login (data : LoginDTO) (device : Option DeviceInfoDTO)
  | logout (token : Token) (device : Option DeviceInfoDTO)
  | refresh (token : Token) (device : Option DeviceInfoDTO)
  | authenticate (token : Token)
  | changePassword (userId : UserId) (data : ChangePasswordDTO)
      (device : Option DeviceInfoDTO)
  | forgotPassword (email : String) (device : Option DeviceInfoDTO)
  | resetPassword (data : ResetPasswordDTO) (device : Option DeviceInfoDTO)
  | verifyEmail (token : String) (device : Option DeviceInfoDTO)
  | updateUser (userId : UserId) (data : UpdateUserDTO)
  | deleteUser (userId : UserId) (device : Option DeviceInfoDTO)
  | banUser (actor : User) (targetId : UserId) (reason : Option String)
      (device : Option DeviceInfoDTO)
  | unbanUser (actor : User) (targetId : UserId) (device : Option DeviceInfoDTO)
  | getUserProfile (userId : UserId)
  | listUserSessions (userId : UserId)
  | revokeAllSessions (userId : UserId) (exceptJti : Option String)
      (device : Option DeviceInfoDTO)
  | revokeUserSession (userId : UserId) (sessionId : SessionId)
      (device : Option DeviceInfoDTO)
  | listRoles
  | createRole (name : String) (description : Option String)
  | deleteRole (roleId : RoleId)
  | grantPermissionToRole (roleId : RoleId) (permissionId : PermissionId)
  | revokePermissionFromRole (roleId : RoleId) (permissionId : PermissionId)
  | listPermissions
  | createPermission (resource action : String) (description : Option String)
  | listUsers
  | assignRoleToUser (userId : UserId) (roleId : RoleId)
  | revokeRoleFromUser (userId : UserId) (roleId : RoleId)

/-- What a use case returns. -/
inductive Answer where
  | done
  | count (n : Nat)
  | user (user : User)
  | auth (result : AuthResultDTO)
  | users (users : List User)
  | sessions (sessions : List AuthSession)
  | role (role : Role)
  | roles (roles : List Role)
  | permission (permission : Permission)
  | permissions (permissions : List Permission)
  deriving DecidableEq

/-- The program of a call. -/
@[simp] def Call.program (env : Env) : Call → UseCase Answer
  | .register data device => (registerUser env data device).map .user
  | .login data device => (Users.login env data device).map .auth
  | .logout token device => (Users.logout token device).map fun _ => .done
  | .refresh token device => (refreshToken token device).map .auth
  | .authenticate token => (Users.authenticate env token).map .user
  | .changePassword userId data device =>
      (Users.changePassword userId data device).map .count
  | .forgotPassword email device =>
      (Users.forgotPassword env email device).map fun _ => .done
  | .resetPassword data device =>
      (Users.resetPassword env data device).map fun _ => .done
  | .verifyEmail token device => (Users.verifyEmail env token device).map .user
  | .updateUser userId data => (Users.updateUser env userId data).map .user
  | .deleteUser userId device => (Users.deleteUser userId device).map fun _ => .done
  | .banUser actor targetId reason device =>
      (Users.banUser actor targetId reason device).map .user
  | .unbanUser actor targetId device => (Users.unbanUser actor targetId device).map .user
  | .getUserProfile userId => (Users.getUserProfile userId).map .user
  | .listUserSessions userId => (Users.listUserSessions userId).map .sessions
  | .revokeAllSessions userId exceptJti device =>
      (Users.revokeAllSessions userId exceptJti device).map .count
  | .revokeUserSession userId sessionId device =>
      (Users.revokeUserSession userId sessionId device).map fun _ => .done
  | .listRoles => Users.listRoles.map .roles
  | .createRole name description => (Users.createRole name description).map .role
  | .deleteRole roleId => (Users.deleteRole roleId).map fun _ => .done
  | .grantPermissionToRole roleId permissionId =>
      (Users.grantPermissionToRole roleId permissionId).map .role
  | .revokePermissionFromRole roleId permissionId =>
      (Users.revokePermissionFromRole roleId permissionId).map .role
  | .listPermissions => Users.listPermissions.map .permissions
  | .createPermission resource action description =>
      (Users.createPermission resource action description).map .permission
  | .listUsers => Users.listUsers.map .users
  | .assignRoleToUser userId roleId => (Users.assignRoleToUser userId roleId).map .user
  | .revokeRoleFromUser userId roleId =>
      (Users.revokeRoleFromUser userId roleId).map .user

/-- The next call has the next number. -/
@[simps] def World.nextCall (w : World) : World := { w with calls := w.calls + 1 }

/-- Run one call to completion at time `t`. -/
def runCall (env : Env) (w : World) (t : Time) (c : Call) :
    World × Except Failure Answer :=
  let r := (c.program env).run (handler env t) (w, Tx.fresh w.calls)
  (r.1.1.nextCall, r.2)

/-- A schedule of calls. -/
abbrev Calls := List (Time × Call)

/-- Run calls one after another. -/
def runCalls (env : Env) (w : World) (calls : Calls) : World :=
  calls.foldl (fun w s => (runCall env w s.1 s.2).1) w

@[simp] theorem runCalls_nil (env : Env) (w : World) : runCalls env w [] = w := rfl

@[simp] theorem runCalls_cons (env : Env) (w : World) (s : Time × Call) (rest : Calls) :
    runCalls env w (s :: rest) = runCalls env (runCall env w s.1 s.2).1 rest := rfl

theorem runCalls_append (env : Env) (w : World) (a b : Calls) :
    runCalls env w (a ++ b) = runCalls env (runCalls env w a) b := by
  simp [runCalls, List.foldl_append]

/-- Times that do not decrease, from `t` on. -/
def OrderedFrom (t : Time) : Calls → Prop
  | [] => True
  | s :: rest => t ≤ s.1 ∧ OrderedFrom s.1 rest

instance (t : Time) (calls : Calls) : Decidable (OrderedFrom t calls) := by
  induction calls generalizing t with
  | nil => exact isTrue trivial
  | cons s rest ih =>
    have := ih s.1
    exact inferInstanceAs (Decidable (t ≤ s.1 ∧ OrderedFrom s.1 rest))

/-- The time of the last call. -/
def lastTime (t : Time) : Calls → Time
  | [] => t
  | s :: rest => lastTime s.1 rest

theorem orderedFrom_append {t : Time} {a b : Calls} :
    OrderedFrom t (a ++ b) ↔ OrderedFrom t a ∧ OrderedFrom (lastTime t a) b := by
  induction a generalizing t with
  | nil => simp [OrderedFrom, lastTime]
  | cons s rest ih => simp [OrderedFrom, lastTime, ih, and_assoc]

/-- Every call of the run from `w` meets `C` in the world before it. -/
def AlongCalls (env : Env) (C : World → Time → Call → Prop) : Calls → World → Prop
  | [], _ => True
  | s :: rest, w => C w s.1 s.2 ∧ AlongCalls env C rest (runCall env w s.1 s.2).1

@[simp] theorem alongCalls_nil (env : Env) (C : World → Time → Call → Prop) (w : World) :
    AlongCalls env C [] w := trivial

@[simp] theorem alongCalls_cons (env : Env) (C : World → Time → Call → Prop)
    (s : Time × Call) (rest : Calls) (w : World) :
    AlongCalls env C (s :: rest) w ↔
      C w s.1 s.2 ∧ AlongCalls env C rest (runCall env w s.1 s.2).1 := Iff.rfl

theorem AlongCalls.and {env : Env} {C D : World → Time → Call → Prop} {calls : Calls}
    {w : World} (hc : AlongCalls env C calls w) (hd : AlongCalls env D calls w) :
    AlongCalls env (fun w t c => C w t c ∧ D w t c) calls w := by
  induction calls generalizing w with
  | nil => trivial
  | cons s rest ih => exact ⟨⟨hc.1, hd.1⟩, ih hc.2 hd.2⟩

/-- What holds at the start and is preserved by every call that meets `C`, holds
after a run whose calls meet `C`. -/
theorem runCalls_induction_along {env : Env} {I : Time → World → Prop}
    {C : World → Time → Call → Prop}
    (hstep : ∀ now w t c, I now w → now ≤ t → C w t c → I t (runCall env w t c).1)
    {t₀ : Time} {w : World} {calls : Calls} (h₀ : I t₀ w) (hord : OrderedFrom t₀ calls)
    (halong : AlongCalls env C calls w) :
    I (lastTime t₀ calls) (runCalls env w calls) := by
  induction calls generalizing t₀ w with
  | nil => exact h₀
  | cons s rest ih => exact ih (hstep t₀ w s.1 s.2 h₀ hord.1 halong.1) hord.2 halong.2

theorem OrderedFrom.le_lastTime {t : Time} {calls : Calls} (h : OrderedFrom t calls) :
    t ≤ lastTime t calls := by
  induction calls generalizing t with
  | nil => exact le_rfl
  | cons s rest ih => exact h.1.trans (ih h.2)

/-! ## Starting worlds -/

/-- The service starts with accounts, roles and permissions that satisfy the
schema, whose ids the sequences will not hand out again. -/
structure Initial (env : Env) (w : World) : Prop where
  userIds : (w.db.users.map (·.id)).Nodup
  userEmails : (w.db.users.map (·.email)).Nodup
  usernames : (w.db.users.map (·.username)).Nodup
  roleIds : (w.db.roles.map (·.id)).Nodup
  roleNames : (w.db.roles.map (·.name)).Nodup
  permissionIds : (w.db.permissions.map (·.id)).Nodup
  freshUserIds : ∀ row ∈ w.db.users, ∀ n k, env.supply.rowId n k ≠ row.id
  freshRoleIds : ∀ row ∈ w.db.roles, ∀ n k, env.supply.rowId n k ≠ row.id
  freshPermissionIds : ∀ row ∈ w.db.permissions, ∀ n k, env.supply.rowId n k ≠ row.id
  userRoles : ∀ link ∈ w.db.userRoles, w.db.hasUser link.1 = true ∧ w.db.hasRole link.2 = true
  rolePermissions : ∀ link ∈ w.db.rolePermissions,
    w.db.hasRole link.1 = true ∧ w.db.hasPermission link.2 = true
  sessions : w.db.sessions = []
  securityTokens : w.db.securityTokens = []
  auditLogs : w.db.auditLogs = []
  signed : w.signed = []
  cache : w.cache = fun _ => none
  limits : w.limits = Limits.empty
  outbox : w.outbox = []
  checks : w.checks = []
  calls : w.calls = 0

/-! ### A world to start from -/

namespace Sample

/-- An active account with the password `secret`. -/
def account (id : UserId) (email : String) : UserRow where
  id := id
  email := email
  username := email
  passwordHash := "secret"
  displayName := none
  isActive := true
  isSuperuser := false
  emailVerifiedAt := none
  visitorId := none
  createdAt := 0
  updatedAt := 0

/-- Alice, who may read. -/
def db : Db where
  users := [account 1 "alice"]
  roles := [⟨1, "reader", none⟩]
  permissions := [⟨1, "content", "read", none⟩]
  userRoles := [(1, 1)]
  rolePermissions := [(1, 1)]
  sessions := []
  securityTokens := []
  auditLogs := []

def world : World where
  db := db
  signed := []
  cache := fun _ => none
  limits := Limits.empty
  outbox := []
  checks := []
  calls := 0

theorem rowId_ne_one (n k : Nat) : supply.rowId n k ≠ 1 := by
  change Nat.pair n k + 1000 ≠ 1
  omega

theorem initial : Initial env world where
  userIds := by decide
  userEmails := by decide
  usernames := by decide
  roleIds := by decide
  roleNames := by decide
  permissionIds := by decide
  freshUserIds := by
    intro row hrow n k
    rw [List.mem_singleton.1 hrow]
    exact rowId_ne_one n k
  freshRoleIds := by
    intro row hrow n k
    rw [List.mem_singleton.1 hrow]
    exact rowId_ne_one n k
  freshPermissionIds := by
    intro row hrow n k
    rw [List.mem_singleton.1 hrow]
    exact rowId_ne_one n k
  userRoles := by decide
  rolePermissions := by decide
  sessions := rfl
  securityTokens := rfl
  auditLogs := rfl
  signed := rfl
  cache := rfl
  limits := rfl
  outbox := rfl
  checks := rfl
  calls := rfl

/-- Alice logs in. -/
def login (password : String) : Call := .login ⟨"alice", password⟩ none

/-- The access token she gets when she does so at time 10, as the first call. -/
def access : Token := .jwt ⟨1, label 0 0, .access, 1810⟩

/-- Alice is logged in. -/
def loggedIn : World := runCalls Sample.env world [(10, login "secret")]

end Sample

end VideoSite.Users
