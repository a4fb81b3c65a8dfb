import VideoSite.Users.Concurrent

/-!
# Authenticating while an account changes

A use case that changes an account commits, and then deletes the account's cache entry.
`Authenticate` fills the cache after a miss, with the record that it has read before.
A reader that has read the old record and fills the cache after the deletion undoes it.

* `CacheRace.writer_follows` and `CacheRace.reader_follows` are the protocol of the two
  sides: a writer commits once and deletes the entry after that, and a reader caches what
  it has read.
* `cache_not_overtaken` says that whoever starts to authenticate after the writer has
  returned gets the record as it is committed, in a run in which no reader caches an
  older one after the deletion.
* `cache_overtaken` is a run in which a reader does.
-/

namespace VideoSite.Users

open Effects Program Protocol

variable {env : Env} {t : Time} {w : World} {n : Nat} {u : UserId}

/-- The call changes account `u`, and deletes its cache entry after that.  Where it is
given a mailed secret, the secret is one of that account. -/
def Call.Drops (env : Env) (db : Db) (u : UserId) : Call → Prop
  | .updateUser userId _ | .deleteUser userId _ | .changePassword userId _ _
  | .banUser _ userId _ _ | .unbanUser _ userId _
  | .assignRoleToUser userId _ | .revokeRoleFromUser userId _ => userId = u
  | .verifyEmail secret _ => ∀ token,
      db.tokenByHash (env.tokenHash secret) .emailVerification = some token → token.userId = u
  | .resetPassword data _ => ∀ token,
      db.tokenByHash (env.tokenHash data.token) .passwordReset = some token → token.userId = u
  | _ => False

/-- The operation reads or computes, and has to do with neither the cache nor an account
that is looked up by its id. -/
def Op.plain : Op → Bool
  | .sql (.usersGetById _) | .cacheGet _ | .cacheSet _ _ _ | .cacheDelete _ => false
  | op => op.reads

/-- What the operation puts into the cache. -/
def Op.fill? : Op → Option Json
  | .cacheSet _ data _ => some data
  | _ => none

theorem Op.reads_of_plain {op : Op} (h : op.plain = true) : op.reads = true := by
  unfold Op.plain at h
  split at h <;> first | exact h | cases h

/-- The operation deletes a cache entry. -/
def Op.drops : Op → Bool
  | .cacheDelete _ => true
  | _ => false

namespace CacheRace

/-! ## The protocol -/

/-- How far a call is: a writer before and after its commit, or a reader without and with
the record that it is going to answer with. -/
inductive State where
  | waiting
  | writing
  | committed
  | dropped
  | closed
  | fresh
  | holds (user : User)
  deriving DecidableEq, Repr

/-- The call is the one that changes the account. -/
def State.writes : State → Bool
  | .fresh | .holds _ => false
  | _ => true

/-- What a call may do next. -/
inductive May (fmt : IsoFormat) (u : UserId) : State → Op → Prop
  | plain {q op} (h : op.plain = true) : May fmt u q op
  | close {q} : May fmt u q .close
  | find {q userId} (hq : q.writes = true) : May fmt u q (.sql (.usersGetById userId))
  | write {q s} (hq : q = .waiting ∨ q = .writing) (hs : s.reads = false) : May fmt u q (.sql s)
  | commit {q} (hq : q = .waiting ∨ q = .writing) : May fmt u q .commit
  | drop : May fmt u .committed (.cacheDelete (userCacheKey u))
  | lookUp : May fmt u .fresh (.cacheGet (userCacheKey u))
  | load : May fmt u .fresh (.sql (.usersGetById u))
  | fill {user ttl} :
      May fmt u (.holds user) (.cacheSet (userCacheKey u) (UserCacheCodec.dumps fmt user) ttl)

/-- What is taken for granted about answers: a writer that has written nothing sees the
one-time tokens of `db`. -/
def expects (db : Db) : State → (op : Op) → op.Res → Prop
  | .waiting, .sql (.tokensGetByHash hash purpose), r =>
      ∀ token, r = some token → db.tokenByHash hash purpose = some token
  | _, .sql (.usersGetById userId), r => ∀ user, r = some user → user.id = userId
  | _, .sql (.usersUpdate user), r => ∀ updated, r = .ok updated → updated.id = user.id
  | _, .decode token, r => ∀ payload, r = .ok payload →
      ∃ c, token = .jwt c ∧ payload = JwtTokenService.payload c
  | _, _, _ => True

/-- Where the answer leads. -/
def next (fmt : IsoFormat) : State → (op : Op) → op.Res → State
  | .fresh, .cacheGet _, some data =>
      match UserCacheCodec.loads fmt data with
      | .ok user => .holds user
      | .error _ => .fresh
  | .fresh, .sql (.usersGetById _), some user => .holds user
  | .waiting, .sql s, _ => if s.reads = true then .waiting else .writing
  | .waiting, .commit, _ | .writing, .commit, _ => .committed
  | .waiting, .close, _ | .writing, .close, _ => .closed
  | .committed, .cacheDelete _, _ => .dropped
  | q, _, _ => q

/-- The protocol of both sides. -/
@[reducible] def protocol (fmt : IsoFormat) (u : UserId) (db : Db) : Protocol sig where
  State := State
  may := May fmt u
  expects := expects db
  next := next fmt

/-- A reader keeps to the protocol, and answers with the record in its hands. -/
theorem reader_follows {db : Db} {token : Token} (hsub : ∀ c, token = .jwt c → c.sub = u) :
    (protocol env.isoFormat u db).Follows ((Call.authenticate token).program env)
      (fun q out => ∀ user, out = .ok (.user user) → q = .holds user) State.fresh := by
  simp only [Call.program, authenticate, AuthenticateUseCase.loadUser]
  simp [May.close, expects, next, Except.map]
  refine ⟨.plain rfl, ?_⟩
  rintro _ c rfl rfl -
  have howner : (JwtTokenService.payload c).userId = u := hsub c rfl
  rw [howner]
  refine ⟨.plain rfl, fun found => ⟨.plain rfl, fun _ session _ _ => ⟨.lookUp, fun cached => ?_⟩⟩⟩
  cases cached with
  | some data =>
    cases hload : UserCacheCodec.loads env.isoFormat data with
    | error e => simp [hload]
    | ok user => simp [hload]
  | none =>
    simp only
    refine ⟨.load, fun owner _ => ?_⟩
    cases owner with
    | none => simp
    | some user =>
      simp [next]
      exact .fill

theorem next_of_plain {fmt : IsoFormat} {op : Op} (h : op.plain = true) (q : State)
    (r : op.Res) : next fmt q op r = q := by
  cases op with
  | sql s =>
    cases s with
    | usersGetById userId => cases h
    | usersGetByEmail | usersGetByUsername | usersListAll | rolesGetById | rolesGetByName
    | rolesListAll | permissionsGetById | permissionsGetByResourceAction | permissionsListAll
    | sessionsGetById | sessionsGetByJti | sessionsListActiveForUser | tokensGetByHash =>
      cases q <;> rfl
    | _ => cases h
  | commit | close | cacheGet | cacheSet | cacheDelete => cases h
  | _ => cases q <;> rfl

/-- What looks something up leads nowhere. -/
theorem follows_of_plain {α : Type} {db : Db} {p : UseCase α} {q : State}
    (hp : p.Only fun op : Op => op.plain = true) {Q : State → Except Failure α → Prop}
    (hQ : ∀ out, Q q out) : (protocol env.isoFormat u db).Follows p Q q :=
  Follows.of_only hp (fun _ h => ⟨May.plain h, next_of_plain h q⟩) hQ

/-- The outcome of a writer: when it succeeds it has deleted the entry, or has found
nothing to change. -/
def Settled (q : State) (out : Except Failure Answer) : Prop :=
  out.isOk = true → q = .dropped ∨ q = .closed

@[simp] theorem settled_error (q : State) (e : Failure) : Settled q (.error e) :=
  fun h => by cases h

@[simp] theorem settled_dropped (out : Except Failure Answer) : Settled .dropped out :=
  fun _ => .inl rfl

@[simp] theorem settled_closed (out : Except Failure Answer) : Settled .closed out :=
  fun _ => .inr rfl

attribute [simp] May.close May.drop

section Writers

attribute [local simp] expects next Statement.reads May.commit

variable {db : Db}

theorem updateUser_follows (data : UpdateUserDTO) :
    (protocol env.isoFormat u db).Follows ((Call.updateUser u data).program env) Settled
      State.waiting := by
  simp only [Call.program, updateUser]
  simp [Except.map]
  refine ⟨.find rfl, fun found _ user _ => ?_⟩
  refine follows_of_plain (only_changeEmail (fun _ => rfl) _ _) fun out => ?_
  cases out with
  | error e => simp
  | ok user =>
    rw [followsThen_ok, follows_bind]
    refine follows_of_plain (only_changeUsername (fun _ => rfl) _ _) fun out => ?_
    cases out with
    | error e => simp
    | ok user =>
      simp [UpdateUserUseCase.issueIfUnverified, EmailVerificationIssuer.issue,
        UpdateUserUseCase.sendPending, EmailVerificationIssuer.send]
      refine ⟨.write (.inl rfl) rfl, fun _ _ _ => ⟨.write (.inr rfl) rfl, .plain rfl, fun _ => ?_⟩⟩
      exact ⟨.plain rfl, fun _ => ⟨.write (.inr rfl) rfl, fun _ => .plain rfl⟩⟩

theorem deleteUser_follows (device : Option DeviceInfoDTO) :
    (protocol env.isoFormat u db).Follows ((Call.deleteUser u device).program env) Settled
      State.waiting := by
  simp only [Call.program, deleteUser, audit.record]
  simp [Except.map]
  refine ⟨.find rfl, fun _ _ user _ => ⟨.write (.inl rfl) rfl, fun _ _ => ⟨.plain rfl, ?_⟩⟩⟩
  exact fun _ => ⟨.write (.inr rfl) rfl, fun _ => ⟨.plain rfl, fun _ => .write (.inr rfl) rfl⟩⟩

theorem changePassword_follows (data : ChangePasswordDTO) (device : Option DeviceInfoDTO) :
    (protocol env.isoFormat u db).Follows ((Call.changePassword u data device).program env)
      Settled State.waiting := by
  simp only [Call.program, changePassword, audit.record]
  simp [Except.map]
  intro _
  refine ⟨.find rfl, fun _ _ user _ => ⟨.plain rfl, fun _ => ⟨.plain rfl, fun _ => ?_⟩⟩⟩
  refine ⟨.write (.inl rfl) rfl, .write (.inr rfl) rfl, .plain rfl, fun _ => ?_⟩
  exact ⟨.write (.inr rfl) rfl, fun _ => ⟨.plain rfl, fun _ => .write (.inr rfl) rfl⟩⟩

theorem banUser_follows (actor : User) (reason : Option String)
    (device : Option DeviceInfoDTO) :
    (protocol env.isoFormat u db).Follows ((Call.banUser actor u reason device).program env)
      Settled State.waiting := by
  simp only [Call.program, banUser, BanUserUseCase.deactivate, forgetIfChanged, audit.record]
  simp [Except.map]
  intro _
  refine ⟨.find rfl, fun _ _ user _ _ _ => ⟨.write (.inl rfl) rfl, fun _ _ => ⟨.plain rfl, ?_⟩⟩⟩
  exact fun _ => ⟨.write (.inr rfl) rfl, fun _ => ⟨.plain rfl, fun _ => .write (.inr rfl) rfl⟩⟩

theorem unbanUser_follows (actor : User) (device : Option DeviceInfoDTO) :
    (protocol env.isoFormat u db).Follows ((Call.unbanUser actor u device).program env)
      Settled State.waiting := by
  simp only [Call.program, unbanUser, UnbanUserUseCase.reactivate, forgetIfChanged,
    audit.record]
  simp [Except.map]
  refine ⟨.find rfl, fun _ _ user _ _ => ⟨.write (.inl rfl) rfl, fun _ _ => ⟨.plain rfl, ?_⟩⟩⟩
  exact fun _ => .write (.inr rfl) rfl

theorem assignRoleToUser_follows (r : RoleId) :
    (protocol env.isoFormat u db).Follows ((Call.assignRoleToUser u r).program env)
      Settled State.waiting := by
  simp only [Call.program, assignRoleToUser]
  simp [Except.map]
  refine ⟨.find rfl, fun _ _ user _ => ⟨.plain rfl, fun _ => ⟨.write (.inl rfl) rfl, ?_⟩⟩⟩
  exact .find rfl

theorem revokeRoleFromUser_follows (r : RoleId) :
    (protocol env.isoFormat u db).Follows ((Call.revokeRoleFromUser u r).program env)
      Settled State.waiting := by
  simp only [Call.program, revokeRoleFromUser]
  simp [Except.map]
  refine ⟨.find rfl, fun _ _ user _ => ⟨.write (.inl rfl) rfl, ?_⟩⟩
  exact .find rfl

theorem verifyEmail_follows {secret : String} (device : Option DeviceInfoDTO)
    (howner : ∀ token, db.tokenByHash (env.tokenHash secret) .emailVerification = some token →
      token.userId = u) :
    (protocol env.isoFormat u db).Follows ((Call.verifyEmail secret device).program env)
      Settled State.waiting := by
  simp only [Call.program, verifyEmail, VerifyEmailUseCase.stamp, audit.record]
  simp [Except.map]
  refine ⟨.plain rfl, fun found hfound => ⟨.plain rfl, fun _ token htoken _ => ⟨.find rfl, ?_⟩⟩⟩
  have htokenUser : token.userId = u := howner token (hfound token htoken)
  intro _ hid user huser _
  have huid : user.id = u := (hid user huser).trans htokenUser
  refine ⟨.write (.inl rfl) rfl, fun _ => ?_, fun _ => ?_⟩
  · refine ⟨.plain rfl, fun _ => ⟨.write (.inr rfl) rfl, fun _ => ?_⟩⟩
    rw [huid]
    exact .drop
  · refine ⟨.plain rfl, fun moment => ⟨.write (.inr rfl) rfl, fun updated hupdated => ?_⟩⟩
    refine ⟨.plain rfl, fun _ => ⟨.write (.inr rfl) rfl, fun _ => ?_⟩⟩
    rw [hupdated, show (user.withVerifiedAt moment).id = u from huid]
    exact .drop

theorem resetPassword_follows {data : ResetPasswordDTO} (device : Option DeviceInfoDTO)
    (howner : ∀ token, db.tokenByHash (env.tokenHash data.token) .passwordReset = some token →
      token.userId = u) :
    (protocol env.isoFormat u db).Follows ((Call.resetPassword data device).program env)
      Settled State.waiting := by
  simp only [Call.program, resetPassword, audit.record, monad_bind, follows_map, follows_bind]
  have hcharge : (ResetPasswordUseCase.checkRateLimit env (device.getD {})).Only
      fun op : Op => op.plain = true := only_chargeIpOrRefuse (fun _ => rfl) _ _ _
  refine follows_of_plain hcharge fun out => ?_
  cases out with
  | error e => exact settled_error _ _
  | ok _ =>
    simp [Except.map]
    intro _
    refine ⟨.plain rfl, fun found hfound => ⟨.plain rfl, fun _ token htoken _ => ?_⟩⟩
    have htokenUser : token.userId = u := howner token (hfound token htoken)
    refine ⟨.find rfl, fun _ hid user huser _ => ⟨.plain rfl, fun _ => ⟨.plain rfl, ?_⟩⟩⟩
    have huid : user.id = u := (hid user huser).trans htokenUser
    intro _
    refine ⟨.write (.inl rfl) rfl, .write (.inr rfl) rfl, .write (.inr rfl) rfl, ?_⟩
    refine ⟨.write (.inr rfl) rfl, fun _ => ⟨.plain rfl, fun _ => ⟨.write (.inr rfl) rfl, ?_⟩⟩⟩
    rw [huid]
    exact fun _ => .drop

end Writers

/-- A call that changes the account keeps to the protocol. -/
theorem writer_follows {db : Db} {c : Call} (hc : c.Drops env db u) :
    (protocol env.isoFormat u db).Follows (c.program env) Settled State.waiting := by
  cases c with
  | updateUser userId data =>
    obtain rfl : userId = u := hc
    exact updateUser_follows data
  | deleteUser userId device =>
    obtain rfl : userId = u := hc
    exact deleteUser_follows device
  | changePassword userId data device =>
    obtain rfl : userId = u := hc
    exact changePassword_follows data device
  | banUser actor userId reason device =>
    obtain rfl : userId = u := hc
    exact banUser_follows actor reason device
  | unbanUser actor userId device =>
    obtain rfl : userId = u := hc
    exact unbanUser_follows actor device
  | assignRoleToUser userId r =>
    obtain rfl : userId = u := hc
    exact assignRoleToUser_follows r
  | revokeRoleFromUser userId r =>
    obtain rfl : userId = u := hc
    exact revokeRoleFromUser_follows r
  | verifyEmail secret device => exact verifyEmail_follows device hc
  | resetPassword data device => exact resetPassword_follows device hc
  | _ => exact absurd hc fun h => h

/-! ## The invariant -/

/-- What the cache says about the account is what the database says. -/
def Current (env : Env) (u : UserId) (w : World) : Prop :=
  ∀ t data user, Cache.get env w.cache t (userCacheKey u) = some data →
    UserCacheCodec.loads env.isoFormat data = .ok user → w.db.userById u = some user

/-- How far call `i` is, when call `m` is the one that changes the account. -/
abbrev stateOf (u : UserId) (db : Db) (m : Fin n)
    (pool : Pool (machine env) n Failure Answer) : Fin n → State :=
  pool.states (protocol env.isoFormat u db)
    fun i => if i = m then State.waiting else State.fresh

theorem Current.congr {w w' : World} (h : Current env u w) (hdb : w'.db = w.db)
    (hcache : w'.cache = w.cache) : Current env u w' := by
  unfold Current
  rw [hdb, hcache]
  exact h

variable (u) in
/-- The writer's progress shows in the database and in the cache. -/
structure Inv (db : Db) (m : Fin n) (pool : Pool (machine env) n Failure Answer) : Prop where
  sides : ∀ i, (stateOf u db m pool i).writes = true ↔ i = m
  tx : ∀ i, i ≠ m ∨ stateOf u db m pool i = .waiting → (pool.procs i).loc.pending = []
  before : stateOf u db m pool m = .waiting → pool.shared.db = db
  committed : did Op.commits pool m = true →
    stateOf u db m pool m = .committed ∨ stateOf u db m pool m = .dropped
  deleted : stateOf u db m pool m = .dropped → did Op.drops pool m = true
  dropped : stateOf u db m pool m = .dropped → Current env u pool.shared

/-- No answer turns a reader into a writer. -/
theorem next_writes (fmt : IsoFormat) (q : State) (op : Op) (r : op.Res) :
    (next fmt q op r).writes = q.writes := by
  unfold next
  split <;> first | rfl | (split <;> rfl)

section Step

variable {db : Db} {m : Fin n} {pool : Pool (machine env) n Failure Answer} {i : Fin n}
  {op : Op} {k : op.Res → Program sig Failure Answer}

/-- The state of a call after a step. -/
theorem stateOf_advance_self : stateOf u db m (pool.advance i t op k) i =
    next env.isoFormat (stateOf u db m pool i) op (pool.effect i t op).2 := by
  unfold stateOf
  rw [Pool.states_advance, Function.update_self]

theorem stateOf_advance_of_ne {j : Fin n} (hj : j ≠ i) :
    stateOf u db m (pool.advance i t op k) j = stateOf u db m pool j := by
  unfold stateOf
  rw [Pool.states_advance, Function.update_of_ne hj]

theorem Inv.sides_advance (h : Inv u db m pool) (j : Fin n) :
    (stateOf u db m (pool.advance i t op k) j).writes = true ↔ j = m := by
  by_cases hj : j = i
  · subst hj
    rw [stateOf_advance_self, next_writes]
    exact h.sides j
  · rw [stateOf_advance_of_ne hj]
    exact h.sides j

/-- The step of a reader, after which the cache is right if the entry has been deleted. -/
theorem Inv.reader (h : Inv u db m pool) (hi : i ≠ m) (hop : op ≠ .commit)
    (hpending : (pool.effect i t op).1.2.pending = [])
    (hcurrent : stateOf u db m pool m = .dropped → Current env u (pool.effect i t op).1.1) :
    Inv u db m (pool.advance i t op k) := by
  have hm : stateOf u db m (pool.advance i t op k) m = stateOf u db m pool m :=
    stateOf_advance_of_ne (Ne.symm hi)
  have hdb : (pool.advance i t op k).shared.db = pool.shared.db := perform_db hop
  refine ⟨h.sides_advance, fun j hj => ?_, ?_, ?_, ?_, ?_⟩
  · by_cases hji : j = i
    · subst hji
      rw [Pool.advance_procs_self]
      exact hpending
    · rw [stateOf_advance_of_ne hji] at hj
      rw [Pool.advance_procs_of_ne pool t op k hji]
      exact h.tx j hj
  · rw [hm, hdb]
    exact h.before
  · rw [hm, did_advance_of_ne _ (Ne.symm hi)]
    exact h.committed
  · rw [hm, did_advance_of_ne _ (Ne.symm hi)]
    exact h.deleted
  · rw [hm]
    exact hcurrent

/-- The step of a writer to state `q`. -/
theorem Inv.writer (h : Inv u db m pool) {q : State}
    (hq : next env.isoFormat (stateOf u db m pool m) op (pool.effect m t op).2 = q)
    (hwaiting : q = .waiting → (pool.effect m t op).1.2.pending = [] ∧
      (pool.effect m t op).1.1.db = db)
    (hcommitted : did Op.commits pool m = true ∨ op.commits = true →
      q = .committed ∨ q = .dropped)
    (hdropped : q = .dropped → (did Op.drops pool m = true ∨ op.drops = true) ∧
      Current env u (pool.effect m t op).1.1) :
    Inv u db m (pool.advance m t op k) := by
  have hm : stateOf u db m (pool.advance m t op k) m = q := stateOf_advance_self.trans hq
  refine ⟨h.sides_advance, fun j hj => ?_, ?_, ?_, ?_, ?_⟩
  · by_cases hjm : j = m
    · subst hjm
      rw [hm] at hj
      rw [Pool.advance_procs_self]
      exact (hwaiting (hj.resolve_left fun hne => hne rfl)).1
    · rw [Pool.advance_procs_of_ne pool t op k hjm]
      exact h.tx j (.inl hjm)
  · rw [hm]
    exact fun hw => (hwaiting hw).2
  · rw [hm, did_advance_self, Bool.or_eq_true]
    exact hcommitted
  · rw [hm, did_advance_self, Bool.or_eq_true]
    exact fun hd => (hdropped hd).1
  · rw [hm]
    exact fun hd => (hdropped hd).2

/-- The step of a writer that leads nowhere. -/
theorem Inv.still (h : Inv u db m pool) (hop : op ≠ .commit)
    (hcache : (pool.effect m t op).1.1.cache = pool.shared.cache)
    (hpending : stateOf u db m pool m = .waiting → (pool.effect m t op).1.2.pending = [])
    (hq : next env.isoFormat (stateOf u db m pool m) op (pool.effect m t op).2 =
      stateOf u db m pool m) : Inv u db m (pool.advance m t op k) := by
  have hdb : (pool.effect m t op).1.1.db = pool.shared.db := perform_db hop
  have hcommits : op.commits ≠ true := by
    cases op with
    | commit => exact absurd rfl hop
    | _ => exact fun hc => by cases hc
  refine h.writer hq (fun hw => ⟨hpending hw, ?_⟩)
    (fun hc => h.committed (hc.resolve_right hcommits))
    fun hd => ⟨.inl (h.deleted hd), (h.dropped hd).congr hdb hcache⟩
  rw [hdb]
  exact h.before hw

/-- So does what looks something up. -/
theorem Inv.lookup (h : Inv u db m pool) (hreads : op.reads = true)
    (hcache : (pool.effect m t op).1.1.cache = pool.shared.cache)
    (hq : next env.isoFormat (stateOf u db m pool m) op (pool.effect m t op).2 =
      stateOf u db m pool m) : Inv u db m (pool.advance m t op k) := by
  refine h.still (by rintro rfl; cases hreads) hcache (fun hw => ?_) hq
  rw [(effect_reads pool m t hreads).1]
  exact h.tx m (.inr hw)

/-- A step of the writer keeps the invariant. -/
theorem Inv.advance_writer (h : Inv u db m pool)
    (hmay : May env.isoFormat u (stateOf u db m pool m) op) :
    Inv u db m (pool.advance m t op k) := by
  have hwrites : (stateOf u db m pool m).writes = true := (h.sides m).2 rfl
  have hearly (hc : did Op.commits pool m = true) :
      stateOf u db m pool m ≠ .waiting ∧ stateOf u db m pool m ≠ .writing := by
    rcases h.committed hc with hs | hs
    · rw [hs]
      decide
    · rw [hs]
      decide
  generalize hq : stateOf u db m pool m = q at hmay hwrites hearly
  cases hmay with
  | plain hplain =>
    refine h.lookup (Op.reads_of_plain hplain) (perform_cache ?_ ?_) (next_of_plain hplain _ _)
    · rintro _ _ _ rfl
      cases hplain
    · rintro _ rfl
      cases hplain
  | find =>
    refine h.lookup rfl rfl ?_
    rw [hq]
    cases q with
    | fresh | holds => cases hwrites
    | _ => rfl
  | close =>
    cases q with
    | fresh | holds => cases hwrites
    | waiting | writing =>
      refine h.writer (q := .closed) (by rw [hq]; rfl) (fun hw => by cases hw) (fun hc => ?_)
        fun hd => by cases hd
      rcases hc with hc | hc
      · simp at hearly
        rw [hearly] at hc
        cases hc
      · cases hc
    | committed | dropped | closed =>
      refine h.still (by rintro ⟨⟩) rfl (fun hw => ?_) (by rw [hq]; rfl)
      rw [hq] at hw
      cases hw
  | @write _ s hstate hs =>
    have hnext : next env.isoFormat q (.sql s) (pool.effect m t (.sql s)).2 = .writing := by
      rcases hstate with rfl | rfl
      · simp [next, hs]
      · rfl
    refine h.writer (q := .writing) (by rw [hq]; exact hnext) (fun hw => by cases hw)
      (fun hc => ?_) fun hd => by cases hd
    rcases hc with hc | hc
    · exact absurd hstate (by simp [hearly hc])
    · cases hc
  | commit hstate =>
    refine h.writer (q := .committed) ?_ (fun hw => by cases hw) (fun _ => .inl rfl)
      fun hd => by cases hd
    rcases hstate with rfl | rfl
    · rw [hq]
      rfl
    · rw [hq]
      rfl
  | drop =>
    refine h.writer (q := .dropped) (by rw [hq]; rfl) (fun hw => by cases hw)
      (fun _ => .inr rfl) fun _ => ⟨.inr rfl, ?_⟩
    intro now data user hget _
    exact absurd rfl (Cache.get_delete hget).1
  | lookUp | load | fill => cases hwrites

/-- A reader that comes to fill the cache, when the entry has been deleted, holds the
account as it stands. -/
def FillsCurrent (u : UserId) (m : Fin n) (pool : Pool (machine env) n Failure Answer) (i : Fin n)
    (_t : Time) : Prop :=
  did Op.drops pool m = true → ∀ data ∈ (pool.procs i).prog.nextOp?.bind Op.fill?,
    (UserCacheCodec.loads env.isoFormat data).toOption = pool.shared.db.userById u

instance (m : Fin n) (pool : Pool (machine env) n Failure Answer) (i : Fin n) (t : Time) :
    Decidable (FillsCurrent u m pool i t) := by
  unfold FillsCurrent
  infer_instance

instance (m : Fin n) (sched : Pool.Schedule (machine env) n)
    (pool : Pool (machine env) n Failure Answer) :
    Decidable (Pool.Along (FillsCurrent u m) sched pool) :=
  Pool.decidableAlong (fun _ _ _ => inferInstance) sched pool

/-- A step of a reader keeps the invariant. -/
theorem Inv.advance_reader (h : Inv u db m pool) (hi : i ≠ m)
    (hfill : FillsCurrent u m pool i t) (hprog : (pool.procs i).prog = .call op k)
    (hmay : May env.isoFormat u (stateOf u db m pool i) op) :
    Inv u db m (pool.advance i t op k) := by
  have hreader : (stateOf u db m pool i).writes ≠ true := fun hw => hi ((h.sides i).1 hw)
  have hpending : (pool.procs i).loc.pending = [] := h.tx i (.inl hi)
  have hlookup (hreads : op.reads = true)
      (hcache : (pool.effect i t op).1.1.cache = pool.shared.cache) :
      Inv u db m (pool.advance i t op k) := by
    refine h.reader hi (by rintro rfl; cases hreads) ?_ fun hd => ?_
    · rw [(effect_reads pool i t hreads).1]
      exact hpending
    · exact (h.dropped hd).congr (perform_reads hreads).1 hcache
  generalize hq : stateOf u db m pool i = q at hmay hreader
  cases hmay with
  | plain hplain =>
    refine hlookup (Op.reads_of_plain hplain) (perform_cache ?_ ?_)
    · rintro _ _ _ rfl
      cases hplain
    · rintro _ rfl
      cases hplain
  | lookUp | load => exact hlookup rfl rfl
  | close => exact h.reader hi (by rintro ⟨⟩) rfl fun hd => (h.dropped hd).congr rfl rfl
  | @fill user ttl =>
    refine h.reader hi (by rintro ⟨⟩) hpending fun hd => ?_
    intro now data other hget hload
    rcases Cache.get_set hget with hold | ⟨-, rfl⟩
    · exact h.dropped hd now data other hold hload
    · unfold FillsCurrent at hfill
      rw [hprog] at hfill
      have hcurrent := hfill (h.deleted hd) _ rfl
      rw [hload] at hcurrent
      exact hcurrent.symm
  | find hwrites => exact absurd hwrites hreader
  | write hstate | commit hstate =>
    rcases hstate with rfl | rfl
    · exact absurd rfl hreader
    · exact absurd rfl hreader
  | drop => exact absurd rfl hreader

/-- Every step that meets the condition keeps the invariant. -/
theorem Inv.advance (h : Inv u db m pool) (hfill : FillsCurrent u m pool i t)
    (hprog : (pool.procs i).prog = .call op k)
    (hmay : May env.isoFormat u (stateOf u db m pool i) op) :
    Inv u db m (pool.advance i t op k) := by
  by_cases hi : i = m
  · subst hi
    exact h.advance_writer hmay
  · exact h.advance_reader hi hfill hprog hmay

/-- The answers are as the protocol expects them. -/
theorem Inv.expects (h : Inv u db m pool) (i : Fin n) (t : Time) (op : Op) :
    CacheRace.expects db (stateOf u db m pool i) op (pool.effect i t op).2 := by
  cases op with
  | decode token =>
    have hdecode := effect_expects pool i t (.decode token)
    cases stateOf u db m pool i with
    | _ => exact hdecode
  | sql s =>
    cases s with
    | tokensGetByHash hash purpose =>
      generalize hq : stateOf u db m pool i = q
      cases q with
      | waiting =>
        have hi : i = m := (h.sides i).1 (by rw [hq]; rfl)
        subst hi
        intro token htoken
        have hview : (pool.procs i).loc.view pool.shared.db = db := by
          rw [Tx.view_of_pending_nil (h.tx i (.inr hq)), h.before hq]
        have hanswer : (pool.effect i t (.sql (.tokensGetByHash hash purpose))).2 =
            ((pool.procs i).loc.view pool.shared.db).tokenByHash hash purpose := rfl
        rw [hanswer, hview] at htoken
        exact htoken
      | _ => trivial
    | usersGetById userId =>
      have hanswer : ∀ user, (pool.effect i t (.sql (.usersGetById userId))).2 = some user →
          user.id = userId := fun user huser => (userById_row huser).1
      cases stateOf u db m pool i with
      | _ => exact hanswer
    | usersUpdate user =>
      have hanswer : ∀ updated, (pool.effect i t (.sql (.usersUpdate user))).2 = .ok updated →
          updated.id = user.id := fun updated h => perform_usersUpdate_id h
      cases stateOf u db m pool i with
      | _ => exact hanswer
    | _ => cases stateOf u db m pool i <;> trivial
  | _ => cases stateOf u db m pool i <;> trivial

end Step

theorem Inv.wait {db : Db} {m : Fin n} {pool : Pool (machine env) n Failure Answer}
    (h : Inv u db m pool) (i : Fin n) (op : Op) : Inv u db m (pool.wait i op) := by
  have hstates : stateOf u db m (pool.wait i op) = stateOf u db m pool :=
    Pool.states_wait (P := protocol env.isoFormat u db) i op
  refine ⟨?_, fun j hj => ?_, ?_, ?_, ?_, ?_⟩
  · rw [hstates]
    exact h.sides
  · rw [hstates] at hj
    rw [Pool.wait_loc]
    exact h.tx j hj
  · rw [hstates]
    exact h.before
  · rw [hstates, did_wait]
    exact h.committed
  · rw [hstates, did_wait]
    exact h.deleted
  · rw [hstates]
    exact h.dropped

theorem Inv.initial (u : UserId) (m : Fin n) (calls : Fin n → Call) :
    Inv u w.db m (w.pool env calls) := by
  have hstates (i : Fin n) : stateOf u w.db m (w.pool env calls) i =
      if i = m then State.waiting else State.fresh := rfl
  have hm : stateOf u w.db m (w.pool env calls) m = .waiting := by
    rw [hstates, if_pos rfl]
  refine ⟨fun i => ?_, fun _ _ => rfl, fun _ => rfl, fun h => ?_, fun h => ?_, fun h => ?_⟩
  · rw [hstates]
    split
    · simp [State.writes, *]
    · simp [State.writes, *]
  · cases h
  · rw [hm] at h
    cases h
  · rw [hm] at h
    cases h

/-! ## After the writer has returned -/

variable (u) in
/-- The writer has deleted the entry, and `done` is the database that it has left.  A
reader that has started since holds the account as it is there. -/
structure Late (db done : Db) (m : Fin n) (late : Fin n → Prop)
    (pool : Pool (machine env) n Failure Answer) : Prop extends Inv u db m pool where
  gone : stateOf u db m pool m = .dropped
  settled : pool.shared.db = done
  holds : ∀ i, late i → ∀ user, stateOf u db m pool i = .holds user →
    done.userById u = some user

section Step

variable {db done : Db} {m : Fin n} {late : Fin n → Prop}
  {pool : Pool (machine env) n Failure Answer} {i : Fin n} {op : Op}
  {k : op.Res → Program sig Failure Answer}

/-- What a reader gets hold of, once the entry has been deleted, is the account as it
stands. -/
theorem Inv.gets (h : Inv u db m pool) (hgone : stateOf u db m pool m = .dropped) (hi : i ≠ m)
    (hmay : May env.isoFormat u (stateOf u db m pool i) op) {user : User}
    (hq : next env.isoFormat (stateOf u db m pool i) op (pool.effect i t op).2 = .holds user) :
    stateOf u db m pool i = .holds user ∨ pool.shared.db.userById u = some user := by
  have hreader : (stateOf u db m pool i).writes ≠ true := fun hw => hi ((h.sides i).1 hw)
  generalize stateOf u db m pool i = q at hmay hreader hq
  cases hmay with
  | plain hplain =>
    rw [next_of_plain hplain] at hq
    exact .inl hq
  | lookUp =>
    have hanswer : (pool.effect i t (.cacheGet (userCacheKey u))).2 =
        Cache.get env pool.shared.cache t (userCacheKey u) := rfl
    rw [hanswer] at hq
    cases hget : Cache.get env pool.shared.cache t (userCacheKey u) with
    | none =>
      rw [hget] at hq
      cases hq
    | some data =>
      rw [hget] at hq
      cases hload : UserCacheCodec.loads env.isoFormat data with
      | error e => simp [next, hload] at hq
      | ok found =>
        simp only [next, hload, State.holds.injEq] at hq
        rw [hq] at hload
        exact .inr (h.dropped hgone t data user hget hload)
  | load =>
    have hanswer : (pool.effect i t (.sql (.usersGetById u))).2 =
        ((pool.procs i).loc.view pool.shared.db).userById u := rfl
    rw [hanswer, Tx.view_of_pending_nil (h.tx i (.inl hi))] at hq
    cases hfound : pool.shared.db.userById u with
    | none =>
      rw [hfound] at hq
      cases hq
    | some found =>
      rw [hfound] at hq
      simp only [next, State.holds.injEq] at hq
      rw [hq]
      exact .inr rfl
  | close =>
    cases q with
    | fresh => cases hq
    | holds found => exact .inl hq
    | _ => exact absurd rfl hreader
  | fill => exact .inl hq
  | find hwrites => exact absurd hwrites hreader
  | write hstate | commit hstate =>
    rcases hstate with rfl | rfl
    · exact absurd rfl hreader
    · exact absurd rfl hreader
  | drop => exact absurd rfl hreader

/-- A writer that has deleted the entry stays where it is, and commits no more. -/
theorem May.of_dropped (hmay : May env.isoFormat u .dropped op) (r : op.Res) :
    op ≠ .commit ∧ next env.isoFormat .dropped op r = .dropped := by
  cases hmay with
  | plain hplain =>
    refine ⟨?_, next_of_plain hplain _ r⟩
    rintro rfl
    cases hplain
  | close | find => exact ⟨(by rintro ⟨⟩), rfl⟩
  | write hstate | commit hstate =>
    rcases hstate with hstate | hstate
    · cases hstate
    · cases hstate

/-- Nor does a reader commit. -/
theorem May.ne_commit {q : State} (hmay : May env.isoFormat u q op) (hq : q.writes ≠ true) :
    op ≠ .commit := by
  rintro rfl
  cases hmay with
  | plain hplain => cases hplain
  | commit hstate =>
    rcases hstate with rfl | rfl
    · exact hq rfl
    · exact hq rfl

/-- Every step that meets the condition keeps the late readers right. -/
theorem Late.advance (h : Late u db done m late pool) (hfill : FillsCurrent u m pool i t)
    (hprog : (pool.procs i).prog = .call op k)
    (hmay : May env.isoFormat u (stateOf u db m pool i) op) :
    Late u db done m late (pool.advance i t op k) := by
  have hinv : Inv u db m (pool.advance i t op k) := h.toInv.advance hfill hprog hmay
  have hgone := h.gone
  by_cases hi : i = m
  · subst hi
    have hdropped := hmay
    rw [hgone] at hdropped
    obtain ⟨hop, hnext⟩ := hdropped.of_dropped (pool.effect i t op).2
    have hself : stateOf u db i (pool.advance i t op k) i = .dropped := by
      rw [stateOf_advance_self, hgone]
      exact hnext
    refine ⟨hinv, hself, (perform_db hop).trans h.settled, fun j hj user hq => ?_⟩
    by_cases hji : j = i
    · rw [hji, hself] at hq
      cases hq
    · rw [stateOf_advance_of_ne hji] at hq
      exact h.holds j hj user hq
  · have hop : op ≠ .commit := hmay.ne_commit fun hw => hi ((h.sides i).1 hw)
    refine ⟨hinv, ?_, (perform_db hop).trans h.settled, fun j hj user hq => ?_⟩
    · rw [stateOf_advance_of_ne (Ne.symm hi)]
      exact hgone
    · by_cases hji : j = i
      · subst hji
        rw [stateOf_advance_self] at hq
        rcases h.toInv.gets hgone hi hmay hq with hold | hnew
        · exact h.holds j hj user hold
        · rw [← h.settled]
          exact hnew
      · rw [stateOf_advance_of_ne hji] at hq
        exact h.holds j hj user hq

end Step

theorem Late.wait {db done : Db} {m : Fin n} {late : Fin n → Prop}
    {pool : Pool (machine env) n Failure Answer} (h : Late u db done m late pool) (i : Fin n)
    (op : Op) : Late u db done m late (pool.wait i op) := by
  have hstates : stateOf u db m (pool.wait i op) = stateOf u db m pool :=
    Pool.states_wait (P := protocol env.isoFormat u db) i op
  refine ⟨h.toInv.wait i op, ?_, h.settled, ?_⟩
  · rw [hstates]
    exact h.gone
  · rw [hstates]
    exact h.holds

end CacheRace

open CacheRace in
/-- Whoever starts to authenticate after a call that has changed the account has returned
gets the account as that call has committed it, in a run in which no reader fills the
cache with another one after the deletion. -/
theorem cache_not_overtaken {calls : Fin n → Call} {m : Fin n}
    (hwriter : (calls m).Drops env w.db u)
    (hreaders : ∀ i, i ≠ m → ∃ token, calls i = .authenticate token ∧
      ∀ c, token = .jwt c → c.sub = u)
    (before after : Pool.Schedule (machine env) n)
    (hfills : Pool.Along (FillsCurrent u m) (before ++ after) (w.pool env calls))
    (hreturned : ((w.pool env calls).run before).Succeeded m)
    (hcommitted : did Op.commits ((w.pool env calls).run before) m = true)
    {i : Fin n} (hi : i ≠ m) (hlate : (((w.pool env calls).run before).procs i).log = [])
    {user : User} (hanswer : (((w.pool env calls).run (before ++ after)).procs i).prog.outcome? =
      some (.ok (.user user))) :
    ((w.pool env calls).run before).shared.db.userById u = some user := by
  rw [Pool.along_append] at hfills
  have hfollows : (w.pool env calls).Follows (protocol env.isoFormat u w.db)
      (fun i => if i = m then State.waiting else State.fresh)
      (fun i q out => if i = m then Settled q out
        else ∀ user, out = .ok (.user user) → q = .holds user) := by
    intro j
    rw [World.pool_states, World.pool_prog]
    by_cases hj : j = m
    · subst hj
      simp only [if_pos]
      exact writer_follows hwriter
    · obtain ⟨token, htoken, hsub⟩ := hreaders j hj
      simp only [if_neg hj]
      rw [htoken]
      exact reader_follows hsub
  obtain ⟨hinv, hmid⟩ := Pool.run_follows (fun pool i op h => h.wait i op)
    (fun pool i t op k h hc hprog _ hmay => ⟨h.expects i t op, h.advance hc hprog hmay⟩)
    before hfills.1 (Inv.initial u m calls) hfollows
  -- the writer has deleted the entry
  have hgone : stateOf u w.db m ((w.pool env calls).run before) m = .dropped := by
    obtain ⟨a, ha⟩ := hmid.of_succeeded hreturned
    rw [if_pos rfl] at ha
    rcases ha rfl with hdropped | hclosed
    · exact hdropped
    · rcases hinv.committed hcommitted with hq | hq
      · exact absurd (hclosed.symm.trans hq) (by decide)
      · exact hq
  have hstart : Late u w.db ((w.pool env calls).run before).shared.db m (· = i)
      ((w.pool env calls).run before) := by
    refine ⟨hinv, hgone, rfl, ?_⟩
    rintro j rfl user hq
    unfold stateOf Pool.states at hq
    rw [hlate, Protocol.after_nil] at hq
    simp only [if_neg hi] at hq
    cases hq
  obtain ⟨hlast, hend⟩ := Pool.run_follows (fun pool i op h => h.wait i op)
    (fun pool i t op k h hc hprog _ hmay => ⟨h.expects i t op, h.advance hc hprog hmay⟩)
    after hfills.2 hstart hmid
  rw [← Pool.run_append] at hlast hend
  have hholds := hend.of_outcome hanswer
  simp only [if_neg hi] at hholds
  exact hlast.holds i rfl user (hholds user rfl)

/-! ## Reading while an account changes -/

namespace Sample

/-- Alice changes her name while two requests of hers come in. -/
def renames (i : Fin 3) : Call :=
  if i = 0 then .updateUser 1 ⟨none, some "Alice", none⟩ else .authenticate access

/-- Her account, before and after. -/
def named : User := db.userToEntity (account 1 "alice")

def renamed : User :=
  db.userToEntity { account 1 "alice" with displayName := some "Alice", updatedAt := 21 }

end Sample

/-- The first request fills the cache before the change. -/
theorem cache_not_overtaken_sample :
    let before : Pool.Schedule (machine Sample.env) 3 :=
      List.replicate 7 (1, 20) ++ List.replicate 10 (0, 21)
    ((Sample.loggedIn.pool Sample.env Sample.renames).run before).shared.db.userById 1 =
      some Sample.renamed :=
  @cache_not_overtaken Sample.env Sample.loggedIn 3 1 Sample.renames 0 rfl
    (fun i hi => ⟨Sample.access, if_neg hi, fun c h => by cases h; rfl⟩)
    _ (List.replicate 7 (2, 22)) (by decide +kernel) (by decide +kernel) (by decide +kernel)
    2 (by decide) (by decide +kernel) _ (by decide +kernel)

/-- The first request reads the account before the change and fills the cache after it.
The second one starts when the change has returned, and is answered with the account as
it was. -/
theorem cache_overtaken :
    let before : Pool.Schedule (machine Sample.env) 3 :=
      List.replicate 5 (1, 20) ++ List.replicate 10 (0, 21)
    let after : Pool.Schedule (machine Sample.env) 3 :=
      List.replicate 2 (1, 21) ++ List.replicate 5 (2, 22)
    let pool := Sample.loggedIn.pool Sample.env Sample.renames
    (Sample.renames 0).Drops Sample.env Sample.loggedIn.db 1 ∧
      Sample.renames 1 = .authenticate Sample.access ∧
      Sample.renames 2 = .authenticate Sample.access ∧
      ((pool.run before).Succeeded 0 ∧ did Op.commits (pool.run before) 0 = true ∧
        ((pool.run before).procs 2).log = []) ∧
      ((pool.run (before ++ after)).procs 2).prog.outcome? = some (.ok (.user Sample.named)) ∧
      (pool.run before).shared.db.userById 1 = some Sample.renamed ∧
      Sample.named ≠ Sample.renamed :=
  ⟨rfl, rfl, rfl, by decide +kernel, by decide +kernel, by decide +kernel, by decide +kernel⟩

end VideoSite.Users
