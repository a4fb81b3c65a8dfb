import VideoSite.Users.Entities

/-!
# The cache codec of accounts

`users_service/application/common/user_cache_codec.py`: an account with its
roles and their permissions, as the JSON document the auth cache stores.  Here
the account is as Python has it: an id is any integer, and a `datetime` is of a
type of its own, for it may be aware or naive.

`json.dumps` and `json.loads` are inverse to each other on JSON values, so the
document stands for its text.  What `isoformat` writes, `fromisoformat` reads:
that is the one thing `DateFormat` asks of the two.

* `PyUser.loads_dumps` is the round trip, for every account.
* `UserCacheCodec` is the codec at the accounts of the database, whose dates are
  points in time.
-/

namespace VideoSite.Users

/-- `datetime.isoformat` and `datetime.fromisoformat`, on the values of type `D`. -/
structure DateFormat (D : Type) where
  isoformat : D → String
  fromisoformat : String → Option D
  fromisoformat_isoformat : ∀ d, fromisoformat (isoformat d) = some d

/-- A format for points in time. -/
abbrev IsoFormat := DateFormat Time

/-- A JSON value. -/
inductive Json where
  | null
  | bool (value : Bool)
  | num (value : Int)
  | str (value : String)
  | arr (items : List Json)
  | obj (fields : List (String × Json))

namespace Json

/-- An optional string as a JSON value. -/
def ofOption : Option String → Json
  | some s => .str s
  | none => .null

/-- `data[name]`. -/
def get (data : Json) (name : String) : Except Failure Json :=
  match data with
  | .obj fields =>
      match fields.lookup name with
      | some value => .ok value
      | none => .error .malformedCache
  | _ => .error .malformedCache

def asInt : Json → Except Failure Int
  | .num n => .ok n
  | _ => .error .malformedCache

def asBool : Json → Except Failure Bool
  | .bool b => .ok b
  | _ => .error .malformedCache

def asStr : Json → Except Failure String
  | .str s => .ok s
  | _ => .error .malformedCache

def asOption : Json → Except Failure (Option String)
  | .str s => .ok (some s)
  | .null => .ok none
  | _ => .error .malformedCache

def asArr : Json → Except Failure (List Json)
  | .arr items => .ok items
  | _ => .error .malformedCache

/-- Where no name occurs twice, a field is found under its name. -/
theorem get_of_getElem? {data : Json} {fields : List (String × Json)}
    (hdata : data = .obj fields) (hnodup : (fields.map Prod.fst).Nodup) (i : Nat)
    {name : String} {value : Json} (h : fields[i]? = some (name, value)) :
    data.get name = .ok value := by
  subst hdata
  have hlookup : fields.lookup name = some value := by
    induction fields generalizing i with
    | nil => cases h
    | cons field rest ih =>
      obtain ⟨hnotin, hrest⟩ := List.nodup_cons.1 hnodup
      cases i with
      | zero =>
        injection h with h
        rw [h, List.lookup_cons_self]
      | succ i =>
        have hmem : name ∈ rest.map Prod.fst :=
          List.mem_map.2 ⟨_, List.mem_of_getElem? (i := i) h, rfl⟩
        have hne : (name == field.1) = false := by
          rw [beq_eq_false_iff_ne]
          intro heq
          exact hnotin (heq ▸ hmem)
        rw [List.lookup_cons, hne]
        exact ih hrest i h
  unfold get
  simp only [hlookup]

@[simp] theorem asOption_ofOption (s : Option String) :
    (ofOption s).asOption = .ok s := by
  cases s <;> rfl

end Json

/-- The cache key of an account. -/
def userCacheKey (userId : UserId) : String := s!"auth:user:{userId}"

/-- Two accounts never share a cache key. -/
theorem userCacheKey_injective : Function.Injective userCacheKey := by
  intro a b h
  have hdigits : Nat.toDigits 10 a = Nat.toDigits 10 b := by
    simpa [userCacheKey] using congrArg String.toList h
  have hnumber := congrArg (Nat.ofDigitChars 10 · 0) hdigits
  simpa only [Nat.ofDigitChars_ten_toDigits] using hnumber

/-! ## Accounts with any dates -/

structure PyPermission where
  id : Int
  resource : String
  action : String
  description : Option String

structure PyRole where
  id : Int
  name : String
  description : Option String
  permissions : List PyPermission

structure PyUser (D : Type) where
  id : Int
  email : String
  username : String
  passwordHash : String
  displayName : Option String
  isActive : Bool
  isSuperuser : Bool
  emailVerifiedAt : Option D
  visitorId : Option String
  createdAt : Option D
  updatedAt : Option D
  roles : List PyRole

def PyRole.grants (role : PyRole) (resource action : String) : Bool :=
  role.permissions.any fun perm => perm.resource == resource && perm.action == action

/-- `_iso`. -/
def DateFormat.iso {D : Type} (fmt : DateFormat D) (value : Option D) : Json :=
  Json.ofOption (value.map fmt.isoformat)

/-- `_parse`. -/
def DateFormat.parse {D : Type} (fmt : DateFormat D) (value : Json) :
    Except Failure (Option D) := do
  match ← value.asOption with
  | some text =>
      match fmt.fromisoformat text with
      | some d => pure (some d)
      | none => throw .malformedCache
  | none => pure none

namespace PyUser

variable {D : Type} (fmt : DateFormat D)

def isEmailVerified (user : PyUser D) : Bool := user.emailVerifiedAt.isSome

def hasPermission (user : PyUser D) (resource action : String) : Bool :=
  if user.isSuperuser then true
  else user.roles.any fun role => role.grants resource action

/-! ## The codec -/

def dumpsPermission (perm : PyPermission) : Json :=
  .obj [("id", .num perm.id), ("resource", .str perm.resource),
    ("action", .str perm.action), ("description", Json.ofOption perm.description)]

def dumpsRole (role : PyRole) : Json :=
  .obj [("id", .num role.id), ("name", .str role.name),
    ("description", Json.ofOption role.description),
    ("permissions", .arr (role.permissions.map dumpsPermission))]

/-- `dumps`. -/
def dumps (user : PyUser D) : Json :=
  .obj [
    ("id", .num user.id),
    ("email", .str user.email),
    ("username", .str user.username),
    ("password_hash", .str user.passwordHash),
    ("display_name", Json.ofOption user.displayName),
    ("is_active", .bool user.isActive),
    ("is_superuser", .bool user.isSuperuser),
    ("email_verified_at", fmt.iso user.emailVerifiedAt),
    ("visitor_id", Json.ofOption user.visitorId),
    ("created_at", fmt.iso user.createdAt),
    ("updated_at", fmt.iso user.updatedAt),
    ("roles", .arr (user.roles.map dumpsRole))]

def loadsPermission (perm : Json) : Except Failure PyPermission := do
  return {
    id := ← (← perm.get "id").asInt
    resource := ← (← perm.get "resource").asStr
    action := ← (← perm.get "action").asStr
    description := ← (← perm.get "description").asOption }

def loadsRole (role : Json) : Except Failure PyRole := do
  return {
    id := ← (← role.get "id").asInt
    name := ← (← role.get "name").asStr
    description := ← (← role.get "description").asOption
    permissions := ← (← (← role.get "permissions").asArr).mapM loadsPermission }

/-- `loads`. -/
def loads (data : Json) : Except Failure (PyUser D) := do
  let roles ← (← (← data.get "roles").asArr).mapM loadsRole
  let visitorId ← (← data.get "visitor_id").asOption
  return {
    id := ← (← data.get "id").asInt
    email := ← (← data.get "email").asStr
    username := ← (← data.get "username").asStr
    passwordHash := ← (← data.get "password_hash").asStr
    displayName := ← (← data.get "display_name").asOption
    isActive := ← (← data.get "is_active").asBool
    isSuperuser := ← (← data.get "is_superuser").asBool
    emailVerifiedAt := ← fmt.parse (← data.get "email_verified_at")
    visitorId := visitorId
    createdAt := ← fmt.parse (← data.get "created_at")
    updatedAt := ← fmt.parse (← data.get "updated_at")
    roles := roles }

/-! ## The round trip -/

theorem parse_iso (value : Option D) : fmt.parse (fmt.iso value) = .ok value := by
  cases value with
  | none => rfl
  | some d =>
    simp [DateFormat.parse, DateFormat.iso, Json.ofOption, Json.asOption, bind, Except.bind,
      fmt.fromisoformat_isoformat, pure, Except.pure]

theorem loadsPermission_dumps (perm : PyPermission) :
    loadsPermission (dumpsPermission perm) = .ok perm := by
  have hnames : ["id", "resource", "action", "description"].Nodup := by decide +kernel
  have hget := Json.get_of_getElem? (rfl : dumpsPermission perm = .obj _) hnames
  simp [loadsPermission, hget 0 rfl, hget 1 rfl, hget 2 rfl, hget 3 rfl, Json.asInt,
    Json.asStr, bind, Except.bind, pure, Except.pure]

/-- A list of documents loads entry by entry. -/
theorem mapM_loads {α : Type} (dump : α → Json) (load : Json → Except Failure α)
    (h : ∀ a, load (dump a) = .ok a) (items : List α) :
    (items.map dump).mapM load = .ok items := by
  induction items with
  | nil => rfl
  | cons a rest ih =>
    rw [List.map_cons, List.mapM_cons, h, ih]
    rfl

theorem loadsRole_dumps (role : PyRole) : loadsRole (dumpsRole role) = .ok role := by
  have hnames : ["id", "name", "description", "permissions"].Nodup := by decide +kernel
  have hget := Json.get_of_getElem? (rfl : dumpsRole role = .obj _) hnames
  simp [loadsRole, hget 0 rfl, hget 1 rfl, hget 2 rfl, hget 3 rfl, Json.asInt, Json.asStr,
    Json.asArr, mapM_loads _ _ loadsPermission_dumps, bind, Except.bind, pure,
    Except.pure]

/-- What `loads` gives back is the account that `dumps` was given. -/
theorem loads_dumps (user : PyUser D) : loads fmt (dumps fmt user) = .ok user := by
  have hnames : ["id", "email", "username", "password_hash", "display_name", "is_active",
      "is_superuser", "email_verified_at", "visitor_id", "created_at", "updated_at",
      "roles"].Nodup := by decide +kernel
  have hget := Json.get_of_getElem? (rfl : dumps fmt user = .obj _) hnames
  simp [loads, hget 0 rfl, hget 1 rfl, hget 2 rfl, hget 3 rfl, hget 4 rfl, hget 5 rfl,
    hget 6 rfl, hget 7 rfl, hget 8 rfl, hget 9 rfl, hget 10 rfl, hget 11 rfl, Json.asInt,
    Json.asStr, Json.asBool, Json.asArr, mapM_loads _ _ loadsRole_dumps,
    parse_iso, bind, Except.bind, pure, Except.pure]

end PyUser

/-! ## The accounts of the database -/

namespace PyPermission

def ofPermission (perm : Permission) : PyPermission where
  id := perm.id
  resource := perm.resource
  action := perm.action
  description := perm.description

def toPermission (perm : PyPermission) : Permission where
  id := perm.id.toNat
  resource := perm.resource
  action := perm.action
  description := perm.description

theorem toPermission_of (perm : Permission) : (ofPermission perm).toPermission = perm := rfl

end PyPermission

namespace PyRole

def ofRole (role : Role) : PyRole where
  id := role.id
  name := role.name
  description := role.description
  permissions := role.permissions.map .ofPermission

def toRole (role : PyRole) : Role where
  id := role.id.toNat
  name := role.name
  description := role.description
  permissions := role.permissions.map (·.toPermission)

theorem toRole_of (role : Role) : (ofRole role).toRole = role := by
  simp [ofRole, toRole, Function.comp_def, PyPermission.toPermission_of]

end PyRole

namespace PyUser

/-- An account of the database as Python has it. -/
def ofUser (user : User) : PyUser Time where
  id := user.id
  email := user.email
  username := user.username
  passwordHash := user.passwordHash
  displayName := user.displayName
  isActive := user.isActive
  isSuperuser := user.isSuperuser
  emailVerifiedAt := user.emailVerifiedAt
  visitorId := user.visitorId
  createdAt := user.createdAt
  updatedAt := user.updatedAt
  roles := user.roles.map .ofRole

def toUser (user : PyUser Time) : User where
  id := user.id.toNat
  email := user.email
  username := user.username
  passwordHash := user.passwordHash
  displayName := user.displayName
  isActive := user.isActive
  isSuperuser := user.isSuperuser
  emailVerifiedAt := user.emailVerifiedAt
  visitorId := user.visitorId
  createdAt := user.createdAt
  updatedAt := user.updatedAt
  roles := user.roles.map (·.toRole)

theorem toUser_of (user : User) : (ofUser user).toUser = user := by
  simp [ofUser, toUser, Function.comp_def, PyRole.toRole_of]

end PyUser

namespace UserCacheCodec

variable (fmt : IsoFormat)

/-- `dumps`, for an account of the database. -/
def dumps (user : User) : Json := PyUser.dumps fmt (.ofUser user)

/-- `loads`, for an account of the database. -/
def loads (data : Json) : Except Failure User := (PyUser.loads fmt data).map (·.toUser)

/-- What the cache gives back is the account that was put into it. -/
theorem loads_dumps (user : User) : loads fmt (dumps fmt user) = .ok user := by
  rw [loads, dumps, PyUser.loads_dumps]
  exact congrArg Except.ok (PyUser.toUser_of user)

end UserCacheCodec

end VideoSite.Users
