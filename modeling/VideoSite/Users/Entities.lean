import Mathlib.Data.Rat.Floor
import Mathlib.Algebra.Order.Ring.Rat

/-!
# The entities of users-service

The dataclasses of `users_service/entities`, the DTOs the use cases read and
the errors they raise.  Identifiers are the `int` newtypes of the source.  A
`datetime` is a rational number of seconds since the epoch: every value the
service handles is timezone aware, so the instant is all there is to it.
-/

namespace VideoSite.Users

/-- A point in time, in seconds. -/
abbrev Time := ℚ

abbrev UserId := Nat
abbrev RoleId := Nat
abbrev PermissionId := Nat
abbrev SessionId := Nat
abbrev SecurityTokenId := Nat
abbrev AuditEventId := Nat

/-- The rows of an association table are pairs of identifiers. -/
instance linkLawfulBEq : LawfulBEq (Nat × Nat) := inferInstance

/-- Python's `int(x)` on a number: the fraction is cut off towards zero. -/
def pyInt (x : ℚ) : ℤ := if 0 ≤ x then ⌊x⌋ else ⌈x⌉

/-- Python's `a or b` on optional strings: an empty string counts as absent. -/
def pyOr (a b : Option String) : Option String :=
  match a with
  | some s => if s = "" then b else some s
  | none => b

/-! ## Roles and permissions -/

/-- A single access rule: the right to perform `action` on `resource`. -/
structure Permission where
  id : PermissionId
  resource : String
  action : String
  description : Option String
  deriving DecidableEq, Repr

/-- Human-readable identifier, such as `content.read`. -/
def Permission.code (p : Permission) : String := s!"{p.resource}.{p.action}"

/-- A named bundle of permissions. -/
structure Role where
  id : RoleId
  name : String
  description : Option String
  permissions : List Permission
  deriving DecidableEq, Repr

/-- Whether the role permits `action` on `resource`. -/
def Role.grants (role : Role) (resource action : String) : Bool :=
  role.permissions.any fun perm =>
    perm.resource == resource && perm.action == action

/-! ## Accounts -/

structure User where
  id : UserId
  email : String
  username : String
  passwordHash : String
  displayName : Option String
  isActive : Bool
  isSuperuser : Bool
  emailVerifiedAt : Option Time
  visitorId : Option String
  createdAt : Option Time
  updatedAt : Option Time
  roles : List Role
  deriving DecidableEq, Repr

namespace User

def isEmailVerified (user : User) : Bool := user.emailVerifiedAt.isSome

def withPasswordHash (user : User) (hash : String) : User :=
  { user with passwordHash := hash }

def withActive (user : User) (active : Bool) : User := { user with isActive := active }

def withVerifiedAt (user : User) (moment : Time) : User :=
  { user with emailVerifiedAt := some moment }

/-- A new address arrives unverified. -/
def withNewEmail (user : User) (email : String) : User :=
  { user with email := email, emailVerifiedAt := none }

def withUsername (user : User) (username : String) : User :=
  { user with username := username }

def withDisplayName (user : User) (displayName : String) : User :=
  { user with displayName := some displayName }

/-- Superusers bypass the role check; everyone else needs a role that carries
the permission. -/
def hasPermission (user : User) (resource action : String) : Bool :=
  if user.isSuperuser then true
  else user.roles.any fun role => role.grants resource action

end User

/-! ## Sessions -/

/-- A server-side record of one login on one device. -/
structure AuthSession where
  id : SessionId
  userId : UserId
  jti : String
  createdAt : Time
  expiresAt : Time
  revokedAt : Option Time
  visitorId : Option String
  userAgent : Option String
  ipAddress : Option String
  device : Option String
  lastSeenAt : Option Time
  deriving DecidableEq, Repr

namespace AuthSession

def isRevoked (s : AuthSession) : Bool := s.revokedAt.isSome

def notExpired (s : AuthSession) (now : Time) : Bool := decide (now < s.expiresAt)

/-- The stored row of a session: the database gives it its id. -/
def withId (s : AuthSession) (id : SessionId) : AuthSession := { s with id := id }

/-- Whether the session is still usable at `now`. -/
def isValid (s : AuthSession) (now : Time) : Bool := !s.isRevoked && s.notExpired now

end AuthSession

/-! ## One-time tokens -/

/-- What a one-time token entitles its bearer to do. -/
inductive TokenPurpose where
  | emailVerification
  | passwordReset
  deriving DecidableEq, Repr

/-- A single-use, expiring secret mailed to a user; only its hash is stored. -/
structure SecurityToken where
  id : SecurityTokenId
  userId : UserId
  purpose : TokenPurpose
  tokenHash : String
  createdAt : Time
  expiresAt : Time
  usedAt : Option Time
  deriving DecidableEq, Repr

namespace SecurityToken

def isUsed (token : SecurityToken) : Bool := token.usedAt.isSome

def withId (token : SecurityToken) (id : SecurityTokenId) : SecurityToken :=
  { token with id := id }

/-- Whether the token may still be spent at `now`. -/
def isUsable (token : SecurityToken) (now : Time) : Bool :=
  !token.isUsed && decide (now < token.expiresAt)

end SecurityToken

/-! ## The audit log -/

inductive AuditAction where
  | register
  | login
  | loginFailed
  | logout
  | passwordChanged
  | passwordReset
  | emailVerified
  | sessionRevoked
  | userBanned
  | userUnbanned
  deriving DecidableEq, Repr

/-- A value in the JSON metadata of an audit row. -/
inductive MetaValue where
  | null
  | int (value : Int)
  | str (value : String)
  deriving DecidableEq, Repr

/-- An optional string as a metadata value. -/
def MetaValue.ofOption : Option String → MetaValue
  | some s => .str s
  | none => .null

structure AuditEvent where
  id : AuditEventId
  action : AuditAction
  createdAt : Time
  userId : Option UserId
  ipAddress : Option String
  userAgent : Option String
  metadata : List (String × MetaValue)
  deriving DecidableEq, Repr

def AuditEvent.withId (event : AuditEvent) (id : AuditEventId) : AuditEvent :=
  { event with id := id }

/-! ## Data transfer objects -/

/-- Where a request is coming from. -/
structure DeviceInfoDTO where
  visitorId : Option String := none
  userAgent : Option String := none
  ipAddress : Option String := none
  device : Option String := none
  deriving DecidableEq, Repr

structure RegisterUserDTO where
  email : String
  username : String
  password : String
  passwordRepeat : String
  displayName : Option String := none
  visitorId : Option String := none
  deriving DecidableEq, Repr

/-- Partial profile update; `none` fields are left unchanged. -/
structure UpdateUserDTO where
  username : Option String := none
  displayName : Option String := none
  email : Option String := none
  deriving DecidableEq, Repr

structure LoginDTO where
  email : String
  password : String
  deriving DecidableEq, Repr

structure ChangePasswordDTO where
  currentPassword : String
  newPassword : String
  newPasswordRepeat : String
  deriving DecidableEq, Repr

structure ResetPasswordDTO where
  token : String
  password : String
  passwordRepeat : String
  deriving DecidableEq, Repr

/-- One transactional email. -/
structure EmailMessageDTO where
  sendTo : String
  subject : String
  body : String
  deriving DecidableEq, Repr

/-! ## Signed tokens -/

inductive TokenType where
  | access
  | refresh
  deriving DecidableEq, Repr

/-- The claims a token carries.  `exp` is a whole number of seconds. -/
structure Claims where
  sub : UserId
  jti : String
  type : TokenType
  exp : Int
  deriving DecidableEq, Repr

/-- A bearer token as a client presents it.  A token is its claims under the
server's signature; `text` is any string that is not of that shape. -/
inductive Token where
  | jwt (claims : Claims)
  | text (raw : String)
  deriving DecidableEq, Repr

/-- What decoding a token yields. -/
structure TokenPayload where
  userId : UserId
  jti : String
  tokenType : TokenType
  expiresAt : Time
  deriving DecidableEq, Repr

/-- A freshly signed token. -/
structure IssuedToken where
  token : Token
  jti : String
  expiresAt : Time
  deriving DecidableEq, Repr

/-- The token pair handed back to a client after login or refresh. -/
structure AuthTokenDTO where
  accessToken : Token
  refreshToken : Token
  tokenType : String
  accessExpiresAt : Time
  refreshExpiresAt : Time
  deriving DecidableEq, Repr

structure AuthResultDTO where
  tokens : AuthTokenDTO
  user : User
  deriving DecidableEq, Repr

/-- A one-time secret and what is stored of it. -/
structure GeneratedSecret where
  plain : String
  hashed : String
  deriving DecidableEq, Repr

/-! ## Errors -/

/-- The application-layer errors, with what each carries. -/
inductive ApplicationError where
  | authentication (message : String)
  | invalidCredentials (message : String)
  | authorization (message : String)
  | rateLimited (retryAfterSeconds : Int) (message : String)
  | accountLocked (retryAfterSeconds : Int)
  | userNotFound
  | roleNotFound
  | permissionNotFound
  | sessionNotFound
  | conflict (message : String)
  | emailAlreadyExists
  | usernameAlreadyExists
  | validation (message : String)
  | passwordMismatch
  | invalidToken
  deriving DecidableEq, Repr

/-- The message of an error. -/
def ApplicationError.message : ApplicationError → String
  | .authentication m => m
  | .invalidCredentials m => m
  | .authorization m => m
  | .rateLimited _ m => m
  | .accountLocked s =>
      s!"Too many failed login attempts. Try again in {s} seconds."
  | .userNotFound => "User not found"
  | .roleNotFound => "Role not found"
  | .permissionNotFound => "Permission not found"
  | .sessionNotFound => "Session not found"
  | .conflict m => m
  | .emailAlreadyExists => "A user with this email already exists"
  | .usernameAlreadyExists => "This username is already taken"
  | .validation m => m
  | .passwordMismatch => "Passwords do not match"
  | .invalidToken => "This link is invalid or has expired"

/-- The declared constraints a statement can violate. -/
inductive Constraint where
  | usersEmail
  | usersUsername
  | rolesName
  | permissionsResourceAction
  | userRolesKeys
  | rolePermissionsKeys
  | sessionsJti
  | sessionsUserId
  | securityTokenHash
  | securityTokensUserId
  | auditLogsUserId
  deriving DecidableEq, Repr

/-- Whatever a use case can raise. -/
inductive Failure where
  | application (error : ApplicationError)
  | integrity (constraint : Constraint)
  | valueError (message : String)
  | assertion
  | malformedCache
  deriving DecidableEq, Repr

end VideoSite.Users
