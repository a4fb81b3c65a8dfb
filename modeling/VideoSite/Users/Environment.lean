import VideoSite.Users.CacheCodec
import VideoSite.Users.RateLimit
import Mathlib.Logic.Function.Basic
import Mathlib.Data.Nat.Pairing

/-!
# What users-service is deployed with

The settings of `infrastructure/config.py` that the use cases read, and the
code the service calls but does not contain: the password hasher, the digest of
one-time secrets, the sources of randomness and the normalisation of strings.
Results about the service hold for every `Env`; what one needs of the foreign
code beyond the fields here is a hypothesis of that result.
-/

namespace VideoSite.Users

/-- A link with `{token}` in it: the text between the places it stands in. -/
structure UrlTemplate where
  parts : List String

/-- `template.format(token=secret)`. -/
def UrlTemplate.format (template : UrlTemplate) (secret : String) : String :=
  secret.intercalate template.parts

/-- The settings the use cases are built with. -/
structure Config where
  loginIpPolicy : RateLimitPolicy
  loginAccountPolicy : RateLimitPolicy
  registerIpPolicy : RateLimitPolicy
  forgotPasswordEmailPolicy : RateLimitPolicy
  forgotPasswordIpPolicy : RateLimitPolicy
  resetPasswordIpPolicy : RateLimitPolicy
  defaultRoleName : String
  accessTokenExpireMinutes : Int
  refreshTokenExpireMinutes : Int
  authCacheTtlSeconds : Int
  emailVerificationUrl : UrlTemplate
  emailVerificationTtlHours : Int
  passwordResetUrl : UrlTemplate
  passwordResetTtlMinutes : Int

/-- `IPasswordHasher`: a salted hash, and its verification. -/
structure PasswordHasher where
  hash : (salt plain : String) → String
  verify : (plain passwordHash : String) → Bool

/-- The fresh values of a run.  Call `n` gets `jti n k` when it draws its
`k`-th value as a `uuid4().hex`, and so for the other kinds.  Two draws never
give the same `jti`, secret or row id. -/
structure Supply where
  jti : Nat → Nat → String
  secret : Nat → Nat → String
  salt : Nat → Nat → String
  rowId : Nat → Nat → Nat
  jti_injective : Function.Injective2 jti
  secret_injective : Function.Injective2 secret
  rowId_injective : Function.Injective2 rowId

/-- A deployment of the service.  Redis refuses `SET … EX n` for an `n` that is not
positive, so with Redis the cache has to have a positive lifetime. -/
structure Env where
  config : Config
  backend : Backend
  authCacheTtl_pos : backend = .redis → 0 < config.authCacheTtlSeconds
  hasher : PasswordHasher
  /-- `OneTimeTokenService.hash`. -/
  tokenHash : String → String
  /-- `str.strip`. -/
  strip : String → String
  /-- `str.lower`. -/
  lower : String → String
  isoFormat : IsoFormat
  supply : Supply

/-- `email.strip().lower()`. -/
def Env.normalize (env : Env) (email : String) : String := env.lower (env.strip email)

/-! ## A small deployment

One `Env` that can be evaluated: what it takes for a hash or a fresh value is as
simple as the fields allow. -/

namespace Sample

/-- A string for every pair of numbers. -/
def label (n k : Nat) : String :=
  String.ofList (List.replicate n 'a' ++ 'b' :: List.replicate k 'c')

theorem label_injective : Function.Injective2 label := by
  intro n m k l h
  have hlist : List.replicate n 'a' ++ 'b' :: List.replicate k 'c' =
      List.replicate m 'a' ++ 'b' :: List.replicate l 'c' := String.ofList_injective h
  have ha := congrArg (List.count 'a') hlist
  have hc := congrArg (List.count 'c') hlist
  simp [List.count_replicate] at ha hc
  exact ⟨ha, hc⟩

/-- Row ids from 1000 on. -/
def rowId (n k : Nat) : Nat := Nat.pair n k + 1000

theorem rowId_injective : Function.Injective2 rowId := by
  intro n m k l h
  exact Nat.pair_eq_pair.1 (Nat.add_right_cancel h)

def supply : Supply where
  jti := label
  secret := label
  salt := label
  rowId := rowId
  jti_injective := label_injective
  secret_injective := label_injective
  rowId_injective := rowId_injective

/-- A time as a numerator and a denominator in unary. -/
def isoformat (t : Time) : String :=
  String.ofList ((if t < 0 then ['-'] else []) ++
    (List.replicate t.num.natAbs 'n' ++ List.replicate t.den 'd'))

def fromisoformat (text : String) : Option Time :=
  let chars := text.toList
  let magnitude : Time := (chars.count 'n' : Time) / (chars.count 'd' : Time)
  some (if '-' ∈ chars then -magnitude else magnitude)

theorem fromisoformat_isoformat (t : Time) : fromisoformat (isoformat t) = some t := by
  have hnum : (t.num : Time) / (t.den : Time) = t := Rat.num_div_den t
  by_cases ht : t < 0
  · have hneg : t.num < 0 := Rat.num_neg.2 ht
    have habs : ((t.num.natAbs : ℕ) : Time) = -(t.num : Time) := by
      have hcast : ((t.num.natAbs : ℕ) : ℤ) = -t.num := by omega
      rw [← Int.cast_natCast, hcast, Int.cast_neg]
    simp [fromisoformat, isoformat, ht, List.count_replicate, habs, neg_div, hnum]
  · have hpos : 0 ≤ t.num := Rat.num_nonneg.2 (not_lt.1 ht)
    have habs : ((t.num.natAbs : ℕ) : Time) = (t.num : Time) := by
      have hcast : ((t.num.natAbs : ℕ) : ℤ) = t.num := by omega
      rw [← Int.cast_natCast, hcast]
    simp [fromisoformat, isoformat, ht, List.count_replicate, habs, hnum]

def isoFormat : IsoFormat where
  isoformat := isoformat
  fromisoformat := fromisoformat
  fromisoformat_isoformat := fromisoformat_isoformat

/-- A policy that allows `limit` attempts a minute. -/
def policy (limit : Int) : RateLimitPolicy where
  limit := limit
  windowSeconds := 60

def config : Config where
  loginIpPolicy := policy 0
  loginAccountPolicy := policy 1
  registerIpPolicy := policy 0
  forgotPasswordEmailPolicy := policy 0
  forgotPasswordIpPolicy := policy 0
  resetPasswordIpPolicy := policy 0
  defaultRoleName := "viewer"
  accessTokenExpireMinutes := 30
  refreshTokenExpireMinutes := 60
  authCacheTtlSeconds := 300
  emailVerificationUrl := ⟨["/verify?token=", ""]⟩
  emailVerificationTtlHours := 24
  passwordResetUrl := ⟨["/reset?token=", ""]⟩
  passwordResetTtlMinutes := 30

/-- The deployment with Redis. -/
def env : Env where
  config := config
  backend := .redis
  authCacheTtl_pos := fun _ => by decide
  hasher := { hash := fun _ plain => plain, verify := fun plain hash => plain == hash }
  tokenHash := fun plain => plain
  strip := fun text => text
  lower := fun text => text
  isoFormat := isoFormat
  supply := supply

end Sample

end VideoSite.Users
