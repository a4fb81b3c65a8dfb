import VideoSite.Gateway.Proxy
import VideoSite.Lib.Separators
import VideoSite.Users.Sequential

/-!
# The rights that are announced downstream

users-service decides with `User.has_permission`, which looks at the pairs of resource and
action that an account holds.  The services behind the gateway see the header
`X-User-Permissions`: the codes `resource.action` of the pairs, joined with commas.

Whether the header determines the rights depends on the names that permissions have.
`Names` says where the two separators may occur in them.

* `User.hasPermission_congr` says that accounts with the same headers have the same rights,
  when the names keep the separators apart.
* `rights_announced_iff` says that this is all that can be allowed: for any other choice
  there are roles and permissions that the use cases build and the header confuses.
-/

namespace VideoSite

open Separators

namespace Users

/-! ## The profile -/

/-- The permissions that the roles of the account carry. -/
def User.rights (user : User) : List Permission := user.roles.flatMap (·.permissions)

/-- Flattened, de-duplicated and sorted list of `resource.action` codes. -/
def User.permissionCodes (user : User) : List String :=
  ((user.rights.map Permission.code).dedup).insertionSort (· ≤ ·)

/-- A role as it appears on the profile of an account. -/
structure RoleSummary where
  id : RoleId
  name : String
  description : Option String
  deriving DecidableEq, Repr

/-- The account as its owner sees it. -/
structure UserResponse where
  id : UserId
  email : String
  username : String
  displayName : Option String
  isActive : Bool
  isSuperuser : Bool
  emailVerified : Bool
  emailVerifiedAt : Option Time
  visitorId : Option String
  createdAt : Option Time
  roles : List RoleSummary
  permissions : List String
  deriving DecidableEq, Repr

def toUserResponse (user : User) : UserResponse where
  id := user.id
  email := user.email
  username := user.username
  displayName := user.displayName
  isActive := user.isActive
  isSuperuser := user.isSuperuser
  emailVerified := user.isEmailVerified
  emailVerifiedAt := user.emailVerifiedAt
  visitorId := user.visitorId
  createdAt := user.createdAt
  roles := user.roles.map fun r => ⟨r.id, r.name, r.description⟩
  permissions := user.permissionCodes

end Users

open Users

/-- The caller, from the profile that `/auth/me` answers with. -/
def Gateway.Identity.fromProfile (profile : UserResponse) : Gateway.Identity where
  userId := profile.id
  username := profile.username
  permissions := profile.permissions
  isSuperuser := profile.isSuperuser
  emailVerified := profile.emailVerified
  visitorId := profile.visitorId

namespace Users

/-- The headers that the gateway sends for the account. -/
def User.identityHeaders (user : User) : List (String × String) :=
  (Gateway.Identity.fromProfile (toUserResponse user)).asHeaders

/-- The values of `X-User-Superuser` and `X-User-Permissions`. -/
def User.announced (user : User) : Option String × Option String :=
  (user.identityHeaders.lookup "X-User-Superuser",
    user.identityHeaders.lookup "X-User-Permissions")

theorem User.announced_eq (user : User) : user.announced =
    (some (if user.isSuperuser then "true" else "false"),
      some (",".intercalate user.permissionCodes)) := rfl

/-! ## Codes -/

/-- The two names of a permission, as words. -/
def Permission.names (p : Permission) : List Char × List Char :=
  (p.resource.toList, p.action.toList)

theorem Permission.toList_code (p : Permission) :
    p.code.toList = p.names.1 ++ '.' :: p.names.2 := by
  simp [code, names, toString]

theorem User.mem_permissionCodes {user : User} {c : String} :
    c ∈ user.permissionCodes ↔ ∃ p ∈ user.rights, p.code = c := by
  simp [permissionCodes]

theorem User.hasPermission_iff {user : User} (h : user.isSuperuser = false)
    {resource action : String} : user.hasPermission resource action = true ↔
      ∃ p ∈ user.rights, p.resource = resource ∧ p.action = action := by
  simp only [hasPermission, h, Role.grants, rights, Bool.false_eq_true, if_false, List.any_eq_true,
    Bool.and_eq_true, beq_iff_eq, List.mem_flatMap]
  constructor
  · intro hrole
    obtain ⟨role, hrole, p, hp, hnames⟩ := hrole
    exact ⟨p, ⟨role, hrole, hp⟩, hnames⟩
  · intro hright
    obtain ⟨p, ⟨role, hrole, hp⟩, hnames⟩ := hright
    exact ⟨role, hrole, p, hp, hnames⟩

/-- The codes are those of some of the rights. -/
theorem User.exists_rights (user : User) : ∃ ps : List Permission,
    (∀ p ∈ ps, p ∈ user.rights) ∧ user.permissionCodes = ps.map Permission.code := by
  have hcodes : ∀ c ∈ user.permissionCodes, ∃ p ∈ user.rights, p.code = c :=
    fun c hc => mem_permissionCodes.1 hc
  generalize user.permissionCodes = codes at hcodes
  induction codes with
  | nil => exact ⟨[], fun p hp => absurd hp List.not_mem_nil, rfl⟩
  | cons c rest ih =>
    obtain ⟨p, hp, hc⟩ := hcodes c List.mem_cons_self
    obtain ⟨ps, hps, hrest⟩ := ih fun d hd => hcodes d (List.mem_cons_of_mem _ hd)
    refine ⟨p :: ps, fun q hq => ?_, by rw [List.map_cons, hc, hrest]⟩
    rcases List.mem_cons.1 hq with he | hq
    · rw [he]
      exact hp
    · exact hps q hq

/-- The header is the names of the permissions between separators. -/
theorem toList_joined (ps : List Permission) :
    (",".intercalate (ps.map Permission.code)).toList =
      joinPairs '.' ',' (ps.map Permission.names) := by
  unfold joinPairs
  rw [String.toList_intercalate, List.map_map, List.map_map]
  have hcode : String.toList ∘ Permission.code =
      (fun p => p.1 ++ '.' :: p.2) ∘ Permission.names := by
    funext p
    exact p.toList_code
  rw [hcode]
  rfl

/-! ## Names -/

/-- Where the separators may occur in the names of permissions. -/
structure Names where
  resourceDot : Bool
  resourceComma : Bool
  actionDot : Bool
  actionComma : Bool
  deriving DecidableEq, Repr

namespace Names

/-- The permission has names of the kind. -/
structure Admits (ρ : Names) (p : Permission) : Prop where
  resourceDot : ρ.resourceDot = false → '.' ∉ p.resource.toList
  resourceComma : ρ.resourceComma = false → ',' ∉ p.resource.toList
  actionDot : ρ.actionDot = false → '.' ∉ p.action.toList
  actionComma : ρ.actionComma = false → ',' ∉ p.action.toList

instance (ρ : Names) (p : Permission) : Decidable (ρ.Admits p) :=
  decidable_of_iff ((ρ.resourceDot = false → '.' ∉ p.resource.toList) ∧
    (ρ.resourceComma = false → ',' ∉ p.resource.toList) ∧
    (ρ.actionDot = false → '.' ∉ p.action.toList) ∧
    (ρ.actionComma = false → ',' ∉ p.action.toList))
    ⟨fun h => ⟨h.1, h.2.1, h.2.2.1, h.2.2.2⟩, fun h => ⟨h.1, h.2, h.3, h.4⟩⟩

/-- Where `ρ` has a separator, `ρ'` has it as well. -/
def Le (ρ ρ' : Names) : Prop :=
  ρ.resourceDot ≤ ρ'.resourceDot ∧ ρ.resourceComma ≤ ρ'.resourceComma ∧
    ρ.actionDot ≤ ρ'.actionDot ∧ ρ.actionComma ≤ ρ'.actionComma

instance (ρ ρ' : Names) : Decidable (ρ.Le ρ') := by
  unfold Le
  infer_instance

theorem eq_false_of_le {a b : Bool} (h : a ≤ b) (hb : b = false) : a = false := by
  rw [hb] at h
  exact le_bot_iff.1 h

theorem Admits.mono {ρ ρ' : Names} {p : Permission} (h : ρ.Admits p) (hle : ρ.Le ρ') :
    ρ'.Admits p where
  resourceDot hno := h.resourceDot (eq_false_of_le hle.1 hno)
  resourceComma hno := h.resourceComma (eq_false_of_le hle.2.1 hno)
  actionDot hno := h.actionDot (eq_false_of_le hle.2.2.1 hno)
  actionComma hno := h.actionComma (eq_false_of_le hle.2.2.2 hno)

/-- No separator may occur on both sides, and no side may have both. -/
def Separable (ρ : Names) : Prop :=
  (ρ.resourceDot && ρ.actionDot) = false ∧ (ρ.resourceComma && ρ.actionComma) = false ∧
    (ρ.resourceDot && ρ.resourceComma) = false ∧ (ρ.actionDot && ρ.actionComma) = false

instance (ρ : Names) : Decidable ρ.Separable := by
  unfold Separable
  infer_instance

/-- The header can then be read from the left or from the right. -/
theorem Separable.cases {ρ : Names} (h : ρ.Separable) :
    (ρ.resourceDot = false ∧ ρ.actionComma = false) ∨
      (ρ.resourceComma = false ∧ ρ.actionDot = false) := by
  obtain ⟨rd, rc, ad, ac⟩ := ρ
  unfold Separable at h
  revert h
  cases rd <;> cases rc <;> cases ad <;> cases ac <;> decide

/-- Lists of permissions that are written alike have the same names. -/
theorem Separable.names_eq {ρ : Names} (h : ρ.Separable) {ps qs : List Permission}
    (hps : ∀ p ∈ ps, ρ.Admits p) (hqs : ∀ q ∈ qs, ρ.Admits q)
    (he : ",".intercalate (ps.map Permission.code) = ",".intercalate (qs.map Permission.code)) :
    ps.map Permission.names = qs.map Permission.names := by
  have hjoined := congrArg String.toList he
  rw [toList_joined, toList_joined] at hjoined
  rcases h.cases with ⟨hdot, hcomma⟩ | ⟨hcomma, hdot⟩
  · have havoid {rs : List Permission} (hrs : ∀ p ∈ rs, ρ.Admits p) :
        AvoidLeft '.' ',' (rs.map Permission.names) := by
      intro names hnames
      obtain ⟨p, hp, rfl⟩ := List.mem_map.1 hnames
      exact ⟨(hrs p hp).resourceDot hdot, (hrs p hp).actionComma hcomma⟩
    exact joinPairs_injective (havoid hps) (havoid hqs) hjoined
  · have havoid {rs : List Permission} (hrs : ∀ p ∈ rs, ρ.Admits p) :
        AvoidRight '.' ',' (rs.map Permission.names) := by
      intro names hnames
      obtain ⟨p, hp, rfl⟩ := List.mem_map.1 hnames
      exact ⟨(hrs p hp).resourceComma hcomma, (hrs p hp).actionDot hdot⟩
    exact joinPairs_injective_right (havoid hps) (havoid hqs) hjoined

/-- Two rights with one code have the same names. -/
theorem Separable.code_injective {ρ : Names} (h : ρ.Separable) {p q : Permission}
    (hp : ρ.Admits p) (hq : ρ.Admits q) (he : p.code = q.code) : p.names = q.names := by
  have hnames := @names_eq ρ h [p] [q] (by simpa using hp) (by simpa using hq) (by simp [he])
  simpa using hnames

end Names

/-- The headers are the same for a superuser only if both are, and otherwise only if the
codes are joined to the same string. -/
theorem User.announced_eq_iff {user user' : User} : user.announced = user'.announced ↔
    user.isSuperuser = user'.isSuperuser ∧
      ",".intercalate user.permissionCodes = ",".intercalate user'.permissionCodes := by
  rw [announced_eq, announced_eq, Prod.mk.injEq, Option.some.injEq, Option.some.injEq]
  refine and_congr_left' ?_
  cases user.isSuperuser <;> cases user'.isSuperuser <;> decide

/-- A right that one account has, another with the same headers has as well. -/
theorem User.hasPermission_of_announced {ρ : Names} (hρ : ρ.Separable) {user user' : User}
    (hrights : ∀ p ∈ user.rights, ρ.Admits p) (hrights' : ∀ p ∈ user'.rights, ρ.Admits p)
    (he : user.announced = user'.announced) {resource action : String}
    (h : user.hasPermission resource action = true) :
    user'.hasPermission resource action = true := by
  obtain ⟨hsuper, hcodes⟩ := announced_eq_iff.1 he
  cases hs : user.isSuperuser with
  | true =>
    rw [hs] at hsuper
    simp [hasPermission, ← hsuper]
  | false =>
    rw [hs] at hsuper
    obtain ⟨p, hp, hresource, haction⟩ := (hasPermission_iff hs).1 h
    obtain ⟨ps, hps, hlist⟩ := user.exists_rights
    obtain ⟨qs, hqs, hlist'⟩ := user'.exists_rights
    rw [hlist, hlist'] at hcodes
    have hnames := hρ.names_eq (fun p hp => hrights p (hps p hp))
      (fun q hq => hrights' q (hqs q hq)) hcodes
    -- the code of the right is among the codes, and comes from a right of the same names
    obtain ⟨r, hr, hcode⟩ : ∃ r ∈ ps, r.code = p.code := by
      have hmem : p.code ∈ user.permissionCodes := mem_permissionCodes.2 ⟨p, hp, rfl⟩
      rw [hlist] at hmem
      exact List.mem_map.1 hmem
    have hsame := hρ.code_injective (hrights r (hps r hr)) (hrights p hp) hcode
    have hmem : p.names ∈ qs.map Permission.names := by
      rw [← hnames, ← hsame]
      exact List.mem_map_of_mem hr
    obtain ⟨q, hq, hpq⟩ := List.mem_map.1 hmem
    refine (hasPermission_iff hsuper.symm).2 ⟨q, hqs q hq, ?_, ?_⟩
    · exact (String.toList_inj.1 (congrArg Prod.fst hpq)).trans hresource
    · exact (String.toList_inj.1 (congrArg Prod.snd hpq)).trans haction

/-- Accounts with the same headers have the same rights, if the names of these keep the
separators apart. -/
theorem User.hasPermission_congr {ρ : Names} (hρ : ρ.Separable) {user user' : User}
    (hrights : ∀ p ∈ user.rights, ρ.Admits p) (hrights' : ∀ p ∈ user'.rights, ρ.Admits p)
    (he : user.announced = user'.announced) (resource action : String) :
    user.hasPermission resource action = user'.hasPermission resource action :=
  Bool.eq_iff_iff.2 ⟨hasPermission_of_announced hρ hrights hrights' he,
    hasPermission_of_announced hρ hrights' hrights he.symm⟩

/-! ## Roles and permissions that are built -/

/-- The rights of an account are permissions of the database. -/
theorem Db.rights_subset {db : Db} {u : UserId} {user : User} (h : db.userById u = some user) :
    ∀ p ∈ user.rights, p ∈ db.permissions := by
  intro p hp
  unfold userById at h
  obtain ⟨row, -, rfl⟩ := Option.map_eq_some_iff.1 h
  obtain ⟨role, hrole, hmem⟩ := List.mem_flatMap.1 hp
  obtain ⟨r, -, rfl⟩ := List.mem_map.1 hrole
  exact (List.mem_filter.1 hmem).1

/-- The text has between one and `n` characters. -/
def fits (n : Nat) (text : String) : Bool := 1 ≤ text.length && text.length ≤ n

/-- A call that builds roles and permissions, with a body that its request model admits. -/
def Call.BuildsAccess : Call → Bool
  | .createPermission resource action description =>
      fits 100 resource && fits 100 action && description.all fun d => d.length ≤ 255
  | .createRole name description =>
      fits 100 name && description.all fun d => d.length ≤ 255
  | .grantPermissionToRole _ _ | .assignRoleToUser _ _ => true
  | _ => false

/-- There are accounts, and no roles or permissions yet. -/
structure World.NoAccess (w : World) : Prop where
  roles : w.db.roles = []
  permissions : w.db.permissions = []
  userRoles : w.db.userRoles = []
  rolePermissions : w.db.rolePermissions = []

/-- In any two states that are built from one world, with names of the kind, an account
with the same headers has the same rights. -/
def RightsAnnounced (ρ : Names) : Prop :=
  ∀ (env : Env) (w : World) (calls calls' : Calls), Initial env w → w.NoAccess →
    OrderedFrom 0 calls → OrderedFrom 0 calls' →
    (∀ s ∈ calls ++ calls', s.2.BuildsAccess = true) →
    (∀ p ∈ (runCalls env w calls).db.permissions, ρ.Admits p) →
    (∀ p ∈ (runCalls env w calls').db.permissions, ρ.Admits p) →
    ∀ u user user', (runCalls env w calls).db.userById u = some user →
      (runCalls env w calls').db.userById u = some user' →
      user.announced = user'.announced →
      ∀ resource action, user.hasPermission resource action = user'.hasPermission resource action

theorem Names.Separable.rightsAnnounced {ρ : Names} (h : ρ.Separable) : RightsAnnounced ρ := by
  intro env w calls calls' _ _ _ _ _ hnames hnames' u user user' hu hu' he resource action
  exact User.hasPermission_congr h (fun p hp => hnames p (Db.rights_subset hu p hp))
    (fun p hp => hnames' p (Db.rights_subset hu' p hp)) he resource action

/-! ### Names that are confused -/

namespace Sample

/-- Alice alone. -/
def aliceOnly : World :=
  { world with
    db := { db with
      roles := []
      permissions := []
      userRoles := []
      rolePermissions := [] } }

/-- Alice gets one role with the given rights.  Call `n` hands out the id `rowId n 0`. -/
def granting (rights : List (String × String)) : Calls :=
  (rights.map fun right => (0, .createPermission right.1 right.2 none)) ++
    (0, .createRole "role" none) ::
    ((List.range rights.length).map fun k =>
      (0, .grantPermissionToRole (rowId rights.length 0) (rowId k 0))) ++
    [(0, .assignRoleToUser 1 (rowId rights.length 0))]

/-- Alice, with the given rights. -/
def granted (rights : List (String × String)) : Option User :=
  (runCalls Sample.env aliceOnly (granting rights)).db.userById 1

/-- Two lists of rights that are announced alike, a right that only the first has, and
the kind of names they need. -/
structure Confusion where
  kind : Names
  rights : List (String × String)
  rights' : List (String × String)
  right : String × String

/-- One confusion for each way to break the rule. -/
def confusions : List Confusion := [
  { kind := ⟨true, false, true, false⟩
    rights := [("a.b", "c")]
    rights' := [("a", "b.c")]
    right := ("a.b", "c") },
  { kind := ⟨false, true, false, true⟩
    rights := [("a", "b,c"), ("d", "e")]
    rights' := [("a", "b"), ("c,d", "e")]
    right := ("d", "e") },
  { kind := ⟨true, true, false, false⟩
    rights := [("a", "b"), ("c", "d")]
    rights' := [("a.b,c", "d")]
    right := ("a", "b") },
  { kind := ⟨false, false, true, true⟩
    rights := [("a", "b"), ("c", "d")]
    rights' := [("a", "b,c.d")]
    right := ("a", "b") }]

/-- The confusion is one, in states that the use cases build. -/
structure Confusion.Holds (c : Confusion) : Prop where
  ordered : OrderedFrom 0 (granting c.rights) ∧ OrderedFrom 0 (granting c.rights')
  builds : ∀ s ∈ granting c.rights ++ granting c.rights', s.2.BuildsAccess = true
  names : ∀ p ∈ (runCalls Sample.env aliceOnly (granting c.rights)).db.permissions,
    c.kind.Admits p
  names' : ∀ p ∈ (runCalls Sample.env aliceOnly (granting c.rights')).db.permissions,
    c.kind.Admits p
  alike : (granted c.rights).map User.announced = (granted c.rights').map User.announced
  has : (granted c.rights).any (fun user => user.hasPermission c.right.1 c.right.2) = true
  hasNot : (granted c.rights').any (fun user => user.hasPermission c.right.1 c.right.2) = false

theorem confusions_hold : ∀ c ∈ confusions, c.Holds := by
  have hordered : ∀ c ∈ confusions,
      OrderedFrom 0 (granting c.rights) ∧ OrderedFrom 0 (granting c.rights') := by
    decide +kernel
  have hbuilds : ∀ c ∈ confusions, ∀ s ∈ granting c.rights ++ granting c.rights',
      s.2.BuildsAccess = true := by
    decide +kernel
  have hnames : ∀ c ∈ confusions,
      ∀ p ∈ (runCalls Sample.env aliceOnly (granting c.rights)).db.permissions,
        c.kind.Admits p := by
    decide +kernel
  have hnames' : ∀ c ∈ confusions,
      ∀ p ∈ (runCalls Sample.env aliceOnly (granting c.rights')).db.permissions,
        c.kind.Admits p := by
    decide +kernel
  have hrights : ∀ c ∈ confusions,
      (granted c.rights).map User.announced = (granted c.rights').map User.announced ∧
      (granted c.rights).any (fun user => user.hasPermission c.right.1 c.right.2) = true ∧
      (granted c.rights').any (fun user => user.hasPermission c.right.1 c.right.2) = false := by
    decide +kernel
  intro c hc
  exact ⟨hordered c hc, hbuilds c hc, hnames c hc, hnames' c hc, (hrights c hc).1,
    (hrights c hc).2.1, (hrights c hc).2.2⟩

theorem initial_aliceOnly : Initial Sample.env aliceOnly where
  userIds := by decide
  userEmails := by decide
  usernames := by decide
  roleIds := by decide
  roleNames := by decide
  permissionIds := by decide
  freshUserIds := initial.freshUserIds
  freshRoleIds := fun row hrow => absurd hrow List.not_mem_nil
  freshPermissionIds := fun row hrow => absurd hrow List.not_mem_nil
  userRoles := by decide
  rolePermissions := by decide
  sessions := rfl
  securityTokens := rfl
  auditLogs := rfl
  signed := rfl
  cache := rfl
  limits := rfl
  outbox := rfl
  checks := rfl
  calls := rfl

end Sample

/-- Names that do not keep the separators apart are confused. -/
theorem exists_confusion {ρ : Names} (h : ¬ ρ.Separable) :
    ∃ c ∈ Sample.confusions, c.kind.Le ρ := by
  obtain ⟨rd, rc, ad, ac⟩ := ρ
  revert h
  cases rd <;> cases rc <;> cases ad <;> cases ac <;> decide

/-- A confusion of names of the kind shows that the rights are not announced. -/
theorem Sample.Confusion.Holds.not_rightsAnnounced {c : Sample.Confusion} (h : c.Holds)
    {ρ : Names} (hle : c.kind.Le ρ) : ¬ RightsAnnounced ρ := by
  intro hannounced
  obtain ⟨user, huser, hhas⟩ := Option.any_eq_true _ _ |>.1 h.has
  have halike := h.alike
  rw [huser] at halike
  obtain ⟨user', huser', he⟩ := Option.map_eq_some_iff.1 halike.symm
  have hhasNot := h.hasNot
  rw [huser'] at hhasNot
  have hsame := hannounced Sample.env Sample.aliceOnly _ _ Sample.initial_aliceOnly
    ⟨rfl, rfl, rfl, rfl⟩ h.ordered.1 h.ordered.2 h.builds
    (fun p hp => (h.names p hp).mono hle) (fun p hp => (h.names' p hp).mono hle) 1 user user'
    huser huser' he.symm c.right.1 c.right.2
  rw [hhas] at hsame
  exact Bool.true_eq_false.mp (hsame.trans hhasNot)

/-- The headers determine the rights, in all states that the use cases build with names of
a kind, if and only if the names keep the separators apart. -/
theorem rights_announced_iff (ρ : Names) : RightsAnnounced ρ ↔ ρ.Separable := by
  constructor
  · intro h
    by_contra hρ
    obtain ⟨c, hc, hle⟩ := exists_confusion hρ
    exact (Sample.confusions_hold c hc).not_rightsAnnounced hle h
  · intro h
    exact h.rightsAnnounced

/-- The rights `("a", "b")` and `("c", "d")` are announced like the one right
`("a", "b,c.d")`. -/
theorem rights_confused :
    (Sample.granted [("a", "b"), ("c", "d")]).map User.announced =
        some (some "false", some "a.b,c.d") ∧
      (Sample.granted [("a", "b,c.d")]).map User.announced =
        some (some "false", some "a.b,c.d") ∧
      (Sample.granted [("a", "b"), ("c", "d")]).map (·.hasPermission "a" "b") = some true ∧
      (Sample.granted [("a", "b,c.d")]).map (·.hasPermission "a" "b") = some false := by
  decide +kernel

end Users

end VideoSite
