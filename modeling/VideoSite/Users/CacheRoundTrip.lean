import VideoSite.Users.Inversion

/-!
# An account from the cache

`Authenticate` answers with an account of the database or with one that was read from a
document in the cache.

* `authenticate_answer` says what `Authenticate` answers, from the session and from the
  account it loads.
* `cached_same_as_stored` is the result: a document made from the account in the database
  changes no answer.
-/

namespace VideoSite.Users

open Effects Program

variable {env : Env} {t : Time} {w : World}

/-- The account that `_load_user` comes to. -/
def AuthenticateUseCase.loaded (env : Env) (w : World) (t : Time) (userId : UserId) :
    Except Failure (Option User) :=
  match Cache.get env w.cache t (userCacheKey userId) with
  | some data => (UserCacheCodec.loads env.isoFormat data).map some
  | none => .ok (w.db.userById userId)

/-- An account that is loaded has to be active. -/
def AuthenticateUseCase.checked : Except Failure (Option User) → Except Failure User
  | .error e => .error e
  | .ok found =>
      match found.filter (·.isActive) with
      | some user => .ok user
      | none => .error (.application (.authentication "User is inactive or missing"))

/-- The account that a token stands for. -/
def AuthenticateUseCase.owner (env : Env) (w : World) (t : Time) (token : Token) :
    Except Failure User :=
  match JwtTokenService.decode w.signed t token with
  | .error e => .error e
  | .ok payload =>
      if payload.tokenType = .access then
        match (w.db.sessionByJti payload.jti).filter (·.isValid t) with
        | some _ => AuthenticateUseCase.checked
            (AuthenticateUseCase.loaded env w t payload.userId)
        | none => .error (.application (.authentication "Session is no longer valid"))
      else .error (.application (.authentication "An access token is required"))

/-- `_load_user` answers with the account it comes to. -/
theorem wp_loadUser_loaded {tx : Tx} {userId : UserId} {Q : Post (Option User)}
    (hview : tx.view w.db = w.db)
    (hQ : ∀ s, Q s (AuthenticateUseCase.loaded env w t userId)) :
    wp (handler env t) (AuthenticateUseCase.loadUser env userId) Q (w, tx) := by
  unfold AuthenticateUseCase.loaded at hQ
  unfold AuthenticateUseCase.loadUser
  simp only [monad_bind, wp_bind, wp_cacheGet, andThen_ok]
  cases hget : Cache.get env w.cache t (userCacheKey userId) with
  | some cached =>
    rw [hget] at hQ
    simp only [wp_bind, wp_ofExcept]
    cases hload : UserCacheCodec.loads env.isoFormat cached with
    | error e =>
      simp only [hload, Except.map] at hQ
      exact hQ _
    | ok user =>
      simp only [hload, Except.map] at hQ
      exact hQ _
  | none =>
    rw [hget] at hQ
    simp only [wp_bind, wp_usersGetById, andThen_ok, hview]
    cases huser : w.db.userById userId with
    | none =>
      simp only [huser] at hQ
      exact hQ _
    | some user =>
      simp only [huser] at hQ
      exact hQ _

/-- `Authenticate` answers with the account that the token stands for. -/
theorem authenticate_answer (token : Token) :
    (runCall env w t (.authenticate token)).2 =
      (AuthenticateUseCase.owner env w t token).map .user := by
  have hrun : wp (handler env t) ((Call.authenticate token).program env)
      (fun _ out => out = (AuthenticateUseCase.owner env w t token).map .user)
      (w, Tx.fresh w.calls) := by
    simp only [Call.program, Users.authenticate]
    simp
    refine ⟨?_, fun e hdecode => ?_⟩
    · rintro c rfl hs ht
      have hdecode : JwtTokenService.decode w.signed t (.jwt c) =
          .ok (JwtTokenService.payload c) := by
        simp [JwtTokenService.decode, hs, ht]
      refine ⟨fun htype => ⟨fun session hsession hvalid => ?_, fun hinvalid => ?_⟩,
        fun htype => ?_⟩
      · have howner : AuthenticateUseCase.owner env w t (.jwt c) = AuthenticateUseCase.checked
            (AuthenticateUseCase.loaded env w t (JwtTokenService.payload c).userId) := by
          have hfound : (w.db.sessionByJti (JwtTokenService.payload c).jti).filter
              (·.isValid t) = some session := by
            rw [hsession, Option.filter_some, if_pos hvalid]
          simp only [AuthenticateUseCase.owner, hdecode, htype, hfound, if_true]
        rw [howner]
        apply wp_loadUser_loaded rfl
        intro s
        cases AuthenticateUseCase.loaded env w t (JwtTokenService.payload c).userId with
        | error e => rfl
        | ok found =>
          rw [andThen_ok, wp_orRaise]
          refine ⟨fun user huser => ?_, fun hnone => ?_⟩
          · simp only [AuthenticateUseCase.checked, huser]
          · simp only [AuthenticateUseCase.checked, hnone]
      · have howner : AuthenticateUseCase.owner env w t (.jwt c) =
            .error (.application (.authentication "Session is no longer valid")) := by
          have hmissing : (w.db.sessionByJti (JwtTokenService.payload c).jti).filter
              (·.isValid t) = none := by
            rw [Option.filter_eq_none_iff]
            intro session hsession
            simp [hinvalid session hsession]
          simp only [AuthenticateUseCase.owner, hdecode, htype, hmissing, if_true]
        rw [howner]
      · have howner : AuthenticateUseCase.owner env w t (.jwt c) =
            .error (.application (.authentication "An access token is required")) := by
          simp [AuthenticateUseCase.owner, hdecode, htype]
        rw [howner]
    · have howner : AuthenticateUseCase.owner env w t token = .error e := by
        simp [AuthenticateUseCase.owner, hdecode]
      rw [howner]
  exact hrun

/-- The world with this in the cache under the key of an account. -/
def World.caching (w : World) (userId : UserId) (entry : Option CacheEntry) : World :=
  w.withCache (Function.update w.cache (userCacheKey userId) entry)

/-- With the account of the database in the cache, `_load_user` comes to the same account as
with nothing there. -/
theorem loaded_caching {u : UserId} {user : User} (huser : w.db.userById u = some user)
    (expireAt : Time) (userId : UserId) :
    AuthenticateUseCase.loaded env
        (w.caching u (some ⟨UserCacheCodec.dumps env.isoFormat user, expireAt⟩)) t
        userId =
      AuthenticateUseCase.loaded env (w.caching u none) t userId := by
  unfold AuthenticateUseCase.loaded World.caching Cache.get
  cases env.backend with
  | memory => rfl
  | redis =>
    by_cases hsame : userId = u
    · subst hsame
      by_cases hexpired : t < expireAt
      · simp [Option.filter_some, hexpired, UserCacheCodec.loads_dumps,
          Except.map, huser]
      · simp [Option.filter_some, hexpired]
    · have hkey : userCacheKey userId ≠ userCacheKey u :=
        fun h => hsame (userCacheKey_injective h)
      simp [Function.update_of_ne hkey]

/-- Reading a written document gives the account back, whatever its dates are, and with it
what the account may do; and with the document of the account that is in the database,
`Authenticate` answers for every token what it answers without. -/
theorem cached_same_as_stored :
    (∀ (D : Type) (fmt : DateFormat D) (user : PyUser D),
      PyUser.loads fmt (PyUser.dumps fmt user) = .ok user ∧
      ∀ cached, PyUser.loads fmt (PyUser.dumps fmt user) = .ok cached →
        cached.isActive = user.isActive ∧ cached.isEmailVerified = user.isEmailVerified ∧
          ∀ resource action,
            cached.hasPermission resource action = user.hasPermission resource action) ∧
    ∀ (env : Env) (w : World) (t : Time) (token : Token) (u : UserId) (user : User)
      (expireAt : Time), w.db.userById u = some user →
      (runCall env
          (w.caching u (some ⟨UserCacheCodec.dumps env.isoFormat user, expireAt⟩)) t
          (.authenticate token)).2 =
        (runCall env (w.caching u none) t (.authenticate token)).2 := by
  constructor
  · intro D fmt user
    have hround := PyUser.loads_dumps fmt user
    refine ⟨hround, fun cached hcached => ?_⟩
    rw [hround] at hcached
    cases hcached
    exact ⟨rfl, rfl, fun _ _ => rfl⟩
  · intro env w t token u user expireAt huser
    have hloaded := @loaded_caching env t w u user huser expireAt
    rw [authenticate_answer, authenticate_answer]
    unfold AuthenticateUseCase.owner
    simp only [hloaded]
    rfl

/-- Alice has logged in, and her account is put into the cache. -/
theorem cached_same_as_stored_alice :
    ∃ alice, Sample.loggedIn.db.userById 1 = some alice ∧
      (runCall Sample.env (Sample.loggedIn.caching 1
          (some ⟨UserCacheCodec.dumps Sample.env.isoFormat alice, 100⟩)) 11
          (.authenticate Sample.access)).2 =
        (runCall Sample.env (Sample.loggedIn.caching 1 none) 11
          (.authenticate Sample.access)).2 := by
  have hsome : (Sample.loggedIn.db.userById 1).isSome = true := by decide +kernel
  obtain ⟨alice, halice⟩ := Option.isSome_iff_exists.1 hsome
  exact ⟨alice, halice, cached_same_as_stored.2 _ _ _ _ _ _ _ halice⟩

end VideoSite.Users
