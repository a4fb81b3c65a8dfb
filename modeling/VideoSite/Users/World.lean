import VideoSite.Lib.Interleaving
import VideoSite.Users.Repositories
import Mathlib.Tactic.Simps.Basic

/-!
# The running service

Everything a use case can do to the outside is an `Op`: read the clock, draw a
fresh value, hash or verify a password, sign or decode a token, call a
repository, commit, call the limiter, the cache or the mail server.  `World` is
what all calls share, and `machine` says how one `Op` acts on it and on the
transaction of the call that makes it.

* `machine env` is the `Effects.Machine` of the service, `handler env t` what it
  does for a call that runs alone at time `t`.
-/

namespace VideoSite.Users

open Effects

/-- A value in the cache, and when Redis drops it. -/
structure CacheEntry where
  value : Json
  expireAt : Time

abbrev Cache := String → Option CacheEntry

/-- A run of `hasher.verify` against the stored hash of an account. -/
structure PasswordCheck where
  time : Time
  userId : UserId
  plain : String
  ok : Bool
  deriving DecidableEq, Repr

/-- What all calls share.  `signed` are the claims of the tokens issued so far,
`checks` the password checks made so far, `calls` the number of calls. -/
structure World where
  db : Db
  signed : List Claims
  cache : Cache
  limits : Limits
  outbox : List EmailMessageDTO
  checks : List PasswordCheck
  calls : Nat

/-- What a use case can do. -/
inductive Op where
  | now
  | uuid4
  | generateSecret
  | hashPassword (plain : String)
  | verifyPassword (plain : String) (user : User)
  | issue (userId : UserId) (jti : String) (type : TokenType)
  | decode (token : Token)
  | sql (statement : Statement)
  | commit
  | close
  | limiterHit (key : String) (policy : RateLimitPolicy)
  | limiterPeek (key : String) (policy : RateLimitPolicy)
  | limiterReset (key : String)
  | cacheGet (key : String)
  | cacheSet (key : String) (value : Json) (ttl : Int)
  | cacheDelete (key : String)
  | mailSend (message : EmailMessageDTO)

/-- The answer to each operation. -/
@[reducible] def Op.Res : Op → Type
  | .now => Time
  | .uuid4 => String
  | .generateSecret => GeneratedSecret
  | .hashPassword _ => String
  | .verifyPassword _ _ => Bool
  | .issue _ _ _ => IssuedToken
  | .decode _ => Except Failure TokenPayload
  | .sql s => s.Res
  | .commit => Unit
  | .close => Unit
  | .limiterHit _ _ => RateLimitDecision
  | .limiterPeek _ _ => RateLimitDecision
  | .limiterReset _ => Unit
  | .cacheGet _ => Option Json
  | .cacheSet _ _ _ => Unit
  | .cacheDelete _ => Unit
  | .mailSend _ => Unit

/-- The signature of the service. -/
@[reducible] def sig : Signature := ⟨Op, Op.Res⟩

/-- A use case in progress. -/
abbrev UseCase (α : Type) := Program sig Failure α

/-! ## The token service -/

namespace JwtTokenService

/-- How long a token of each type lives, in minutes. -/
def minutes (config : Config) : TokenType → Int
  | .access => config.accessTokenExpireMinutes
  | .refresh => config.refreshTokenExpireMinutes

/-- `expires_at` of a token issued at `t`. -/
def expiresAt (config : Config) (t : Time) (type : TokenType) : Time :=
  t + 60 * (minutes config type)

/-- The claims of a token issued at `t`. -/
def claims (config : Config) (t : Time) (userId : UserId) (jti : String)
    (type : TokenType) : Claims where
  sub := userId
  jti := jti
  type := type
  exp := pyInt (expiresAt config t type)

/-- `_issue`. -/
def issue (config : Config) (t : Time) (userId : UserId) (jti : String)
    (type : TokenType) : IssuedToken where
  token := .jwt (claims config t userId jti type)
  jti := jti
  expiresAt := expiresAt config t type

/-- The payload of decoded claims. -/
def payload (c : Claims) : TokenPayload where
  userId := c.sub
  jti := c.jti
  tokenType := c.type
  expiresAt := c.exp

/-- `decode`: the signature holds for the tokens that were issued, and a token
is expired from its `exp` on. -/
def decode (signed : List Claims) (t : Time) : Token → Except Failure TokenPayload
  | .jwt c =>
      if c ∈ signed then
        if t < c.exp then .ok (payload c)
        else .error (.application (.authentication "Token has expired"))
      else .error (.application (.authentication "Invalid token"))
  | .text _ => .error (.application (.authentication "Invalid token"))

end JwtTokenService

/-! ## What an operation does to the shared state -/

variable (env : Env)

/-- `OneTimeTokenService.generate`. -/
def generatedSecret (plain : String) : GeneratedSecret where
  plain := plain
  hashed := env.tokenHash plain

namespace Cache

/-- `ICache.get`: a miss without Redis, else the value that has not expired. -/
def get (cache : Cache) (t : Time) (key : String) : Option Json :=
  match env.backend with
  | .memory => none
  | .redis => ((cache key).filter fun e => decide (t < e.expireAt)).map (·.value)

/-- `ICache.set`.  The times to live that the service sets are positive, as Redis wants
them: `Env.authCacheTtl_pos`. -/
def set (cache : Cache) (t : Time) (key : String) (value : Json) (ttl : Int) : Cache :=
  match env.backend with
  | .memory => cache
  | .redis => Function.update cache key (some ⟨value, t + ttl⟩)

/-- `ICache.delete`. -/
def delete (cache : Cache) (key : String) : Cache :=
  match env.backend with
  | .memory => cache
  | .redis => Function.update cache key none

end Cache

namespace World

/-- One more password check was made. -/
@[simps] def checked (w : World) (check : PasswordCheck) : World :=
  { w with checks := w.checks ++ [check] }

/-- One more token was signed. -/
@[simps] def sign (w : World) (c : Claims) : World := { w with signed := w.signed ++ [c] }

/-- A transaction was committed. -/
@[simps] def withDb (w : World) (db : Db) : World := { w with db := db }

@[simps] def withLimits (w : World) (limits : Limits) : World := { w with limits := limits }

@[simps] def withCache (w : World) (cache : Cache) : World := { w with cache := cache }

/-- One more mail was sent. -/
@[simps] def mailed (w : World) (message : EmailMessageDTO) : World :=
  { w with outbox := w.outbox ++ [message] }

@[simp] theorem withLimits_withLimits (w : World) (a b : Limits) :
    (w.withLimits a).withLimits b = w.withLimits b := rfl

end World

/-! ## The machine -/

/-- One operation at time `t`; a statement on the rows it got hold of. -/
def perform (t : Time) : (op : Op) → List RowKey → World → Tx → (World × Tx) × op.Res
  | .now, _, w, tx => ((w, tx), t)
  | .uuid4, _, w, tx => ((w, tx.draw), env.supply.jti tx.call tx.draws)
  | .generateSecret, _, w, tx =>
      ((w, tx.draw), generatedSecret env (env.supply.secret tx.call tx.draws))
  | .hashPassword plain, _, w, tx =>
      ((w, tx.draw), env.hasher.hash (env.supply.salt tx.call tx.draws) plain)
  | .verifyPassword plain user, _, w, tx =>
      let ok := env.hasher.verify plain user.passwordHash
      ((w.checked ⟨t, user.id, plain, ok⟩, tx), ok)
  | .issue userId jti type, _, w, tx =>
      ((w.sign (JwtTokenService.claims env.config t userId jti type), tx),
        JwtTokenService.issue env.config t userId jti type)
  | .decode token, _, w, tx => ((w, tx), JwtTokenService.decode w.signed t token)
  | .sql s, rows, w, tx =>
      let r := s.exec env.supply t rows (tx.view w.db) (tx.begin_ t)
      ((w, r.1), r.2)
  | .commit, _, w, tx => ((w.withDb (tx.view w.db), tx.ended), ())
  | .close, _, w, tx => ((w, tx.ended), ())
  | .limiterHit key policy, _, w, tx =>
      let r := Limits.hit env.backend w.limits t key policy
      ((w.withLimits r.1, tx), r.2)
  | .limiterPeek key policy, _, w, tx =>
      ((w, tx), Limits.peek env.backend w.limits t key policy)
  | .limiterReset key, _, w, tx =>
      ((w.withLimits (Limits.reset env.backend w.limits key), tx), ())
  | .cacheGet key, _, w, tx => ((w, tx), Cache.get env w.cache t key)
  | .cacheSet key value ttl, _, w, tx =>
      ((w.withCache (Cache.set env w.cache t key value ttl), tx), ())
  | .cacheDelete key, _, w, tx => ((w.withCache (Cache.delete env w.cache key), tx), ())
  | .mailSend message, _, w, tx => ((w.mailed message, tx), ())

/-- What an operation is going to change, as the transaction sees it. -/
def targets : Op → World → Tx → List RowKey
  | .sql s, w, tx => s.targets (tx.view w.db)
  | _, _, _ => []

/-- The service as a machine. -/
@[reducible] def machine : Machine sig where
  Shared := World
  Loc := Tx
  Key := RowKey
  Clock := Time
  keyEq := inferInstance
  locked := Tx.locks
  targets := targets
  perform := perform env

/-- All operations of a call that runs alone at time `t`. -/
abbrev handler (t : Time) : Program.Handler sig (World × Tx) := (machine env).alone t

end VideoSite.Users
