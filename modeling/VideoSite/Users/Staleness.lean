import VideoSite.Users.CacheRace
import VideoSite.Users.Inventory

/-!
# How old a cached account can be

`Authenticate` reads an account and puts it into the cache, in two steps, while other
calls change the account.  The entry lives for `AUTH_CACHE_TTL_SECONDS` from the second
step.  A call of a repository is one atomic statement: an account is read together with
its roles and their permissions.

* `Call.follows_cache` is the order that every call keeps: only `Authenticate` fills the
  cache, with the account that it has just read, and it writes nothing.
* `records_are_recent` says what comes of it, whatever runs side by side: the account
  that `Authenticate` answers with was in the database not longer ago than the lifetime
  of an entry and the time that a call takes.
-/

namespace VideoSite.Users

open Effects Program Protocol

variable {env : Env} {n : Nat}

/-- The operation writes neither to the database nor to the cache. -/
def Op.leavesAlone : Op → Bool
  | .cacheSet _ _ _ | .cacheDelete _ => false
  | op => op.reads

namespace Staleness

/-! ## The protocol -/

/-- Where the account in the hands of a call comes from.  `other` is a call that does not
authenticate anybody. -/
inductive State where
  | other
  | reading
  | found (user : User)
  | loaded (user : User)

/-- What a call may do next. -/
inductive May (env : Env) : State → Op → Prop
  | other {op} (h : ∀ key data ttl, op ≠ .cacheSet key data ttl) : May env .other op
  | look {q op} (h : op.leavesAlone = true) : May env q op
  | close {q} : May env q .close
  | fill {user} : May env (.loaded user) (.cacheSet (userCacheKey user.id)
      (UserCacheCodec.dumps env.isoFormat user) env.config.authCacheTtlSeconds)

/-- An account that is found by an id has it. -/
def expects : (op : Op) → op.Res → Prop
  | .sql (.usersGetById userId), r => ∀ user, r = some user → user.id = userId
  | _, _ => True

/-- Where the answer leads. -/
def next (fmt : IsoFormat) : State → (op : Op) → op.Res → State
  | .other, _, _ => .other
  | _, .cacheGet _, some data =>
      match UserCacheCodec.loads fmt data with
      | .ok user => .found user
      | .error _ => .reading
  | _, .sql (.usersGetById _), some user => .loaded user
  | q, _, _ => q

@[reducible] def protocol (env : Env) : Protocol sig where
  State := State
  may := May env
  expects := fun _ => expects
  next := next env.isoFormat

/-- Which protocol state a call starts in. -/
def start (c : Call) : State := if c.fillsCache then .reading else .other

/-- What a call ends with: `Authenticate` returns the account in its hands. -/
def Ends (c : Call) (q : State) (out : Except Failure Answer) : Prop :=
  c.fillsCache = true → ∀ user, out = .ok (.user user) → q = .found user ∨ q = .loaded user

@[simp] theorem next_close (fmt : IsoFormat) (q : State) (r : Unit) :
    next fmt q .close r = q := by
  cases q <;> rfl

theorem authenticate_follows (token : Token) :
    (protocol env).Follows ((Call.authenticate token).program env)
      (Ends (.authenticate token)) State.reading := by
  simp only [Call.program, authenticate, AuthenticateUseCase.loadUser]
  simp [May.close, expects, Except.map, Ends]
  refine ⟨.look rfl, fun payload _ => ⟨.look rfl, fun found => ⟨.look rfl, ?_⟩⟩⟩
  refine fun _ session _ _ => ⟨.look rfl, fun cached => ?_⟩
  cases cached with
  | some data =>
    cases hload : UserCacheCodec.loads env.isoFormat data with
    | error e => simp [hload]
    | ok user => simp [next, hload]
  | none =>
    simp [next, expects]
    refine ⟨.look rfl, fun owner hid => ?_⟩
    cases owner with
    | none => simp
    | some user =>
      have howner : user.id = payload.userId := hid user rfl
      simp [next, ← howner]
      exact .fill

/-- Every call keeps to the protocol. -/
theorem follows (c : Call) :
    (protocol env).Follows (c.program env) (Ends c) (start c) := by
  cases hc : c.fillsCache with
  | true =>
    cases c with
    | authenticate token => exact authenticate_follows token
    | _ => cases hc
  | false =>
    have hstart : start c = State.other := by simp [start, hc]
    rw [hstart]
    refine Follows.of_only c.asks (fun op h => ?_) fun out hfills => ?_
    · have hop : ∀ key data ttl, op ≠ .cacheSet key data ttl := by
        rintro key data ttl rfl
        exact absurd (hc.symm.trans h) Bool.false_ne_true
      exact ⟨May.other hop, fun _ => rfl⟩
    · exact absurd (hc.symm.trans hfills) Bool.false_ne_true

/-! ## The invariant -/

variable {t latency : Time} {rows : List RowKey} {w : World} {tx : Tx} {q : State} {op : Op}

/-- An account from a database of a moment `s`, and the entry made of it. -/
structure EntryOf (env : Env) (held : User → Time → Prop) (latency : Time) (key : String)
    (e : CacheEntry) (user : User) (s : Time) : Prop where
  key : key = userCacheKey user.id
  value : e.value = UserCacheCodec.dumps env.isoFormat user
  held : held user s
  fresh : e.expireAt ≤ s + latency + env.config.authCacheTtlSeconds

/-- Every entry was made of an account that the database has held. -/
def Filled (env : Env) (held : User → Time → Prop) (latency : Time) (cache : Cache) : Prop :=
  ∀ key e, cache key = some e → ∃ user s, EntryOf env held latency key e user s

/-- What is known about the account in the hands of a call that makes its steps at the
times `moves`. -/
def Holds (env : Env) (held : User → Time → Prop) (latency : Time) (moves : Time → Prop) :
    State → Tx → Prop
  | .other, _ => True
  | .reading, tx => tx.pending = []
  | .found user, tx => tx.pending = [] ∧ ∃ s g, held user s ∧ moves g ∧
      g < s + latency + env.config.authCacheTtlSeconds
  | .loaded user, tx => tx.pending = [] ∧ ∃ s, held user s ∧ moves s

/-- An entry that is found is made of an account that was held recently. -/
theorem Filled.get {held : User → Time → Prop} {cache : Cache}
    (h : Filled env held latency cache) {key : String} {data : Json}
    (hget : Cache.get env cache t key = some data) :
    ∃ user s, UserCacheCodec.loads env.isoFormat data = .ok user ∧ held user s ∧
      t < s + latency + env.config.authCacheTtlSeconds := by
  unfold Cache.get at hget
  cases hbackend : env.backend with
  | memory =>
    rw [hbackend] at hget
    cases hget
  | redis =>
    rw [hbackend] at hget
    obtain ⟨e, he, rfl⟩ := Option.map_eq_some_iff.1 hget
    obtain ⟨hentry, hlive⟩ := Option.filter_eq_some_iff.1 he
    obtain ⟨user, s, hmade⟩ := h key e hentry
    refine ⟨user, s, ?_, hmade.held, ?_⟩
    · rw [hmade.value, UserCacheCodec.loads_dumps]
    · exact (of_decide_eq_true hlive).trans_le hmade.fresh

/-- Filling the cache with an account that was read by the same call. -/
theorem Filled.set {held : User → Time → Prop} {cache : Cache}
    (h : Filled env held latency cache) {user : User} {s : Time} (hheld : held user s)
    (hfresh : t ≤ s + latency) :
    Filled env held latency (Cache.set env cache t (userCacheKey user.id)
      (UserCacheCodec.dumps env.isoFormat user) env.config.authCacheTtlSeconds) := by
  intro key e hentry
  unfold Cache.set at hentry
  cases hbackend : env.backend with
  | memory =>
    rw [hbackend] at hentry
    exact h key e hentry
  | redis =>
    rw [hbackend] at hentry
    dsimp only at hentry
    by_cases hkey : key = userCacheKey user.id
    · subst hkey
      rw [Function.update_self] at hentry
      cases hentry
      exact ⟨user, s, rfl, rfl, hheld, by simpa using hfresh⟩
    · rw [Function.update_of_ne hkey] at hentry
      exact h key e hentry

theorem Filled.delete {held : User → Time → Prop} {cache : Cache}
    (h : Filled env held latency cache) (key : String) :
    Filled env held latency (Cache.delete env cache key) := by
  intro other e hentry
  unfold Cache.delete at hentry
  cases hbackend : env.backend with
  | memory =>
    rw [hbackend] at hentry
    exact h other e hentry
  | redis =>
    rw [hbackend] at hentry
    dsimp only at hentry
    by_cases hkey : other = key
    · subst hkey
      rw [Function.update_self] at hentry
      cases hentry
    · rw [Function.update_of_ne hkey] at hentry
      exact h other e hentry

theorem expects_perform : expects op (perform env t op rows w tx).2 := by
  cases op with
  | sql s =>
    cases s with
    | usersGetById userId =>
      intro user huser
      have hfind : (tx.view w.db).userById userId = some user := huser
      exact (userById_row hfind).1
    | _ => trivial
  | _ => trivial

/-- What a call holds depends on its transaction by what that has written. -/
theorem Holds.congr {held : User → Time → Prop} {moves : Time → Prop} {tx' : Tx}
    (h : Holds env held latency moves q tx) (hpending : tx'.pending = tx.pending) :
    Holds env held latency moves q tx' := by
  cases q with
  | other => trivial
  | reading => exact hpending.trans h
  | found user => exact ⟨hpending.trans h.1, h.2⟩
  | loaded user => exact ⟨hpending.trans h.1, h.2⟩

theorem Holds.pending {held : User → Time → Prop} {moves : Time → Prop}
    (h : Holds env held latency moves q tx) (hq : q ≠ .other) : tx.pending = [] := by
  cases q with
  | other => exact absurd rfl hq
  | reading => exact h
  | found user => exact h.1
  | loaded user => exact h.1

/-- A look at the cache or at the account decides what a call holds; nothing else does. -/
theorem next_eq (fmt : IsoFormat) (q : State) (op : Op) (r : op.Res) :
    next fmt q op r = q ∨ (q ≠ .other ∧
      ((∃ key, op = .cacheGet key) ∨ ∃ userId, op = .sql (.usersGetById userId))) := by
  cases q with
  | other => exact .inl rfl
  | _ =>
    cases op with
    | cacheGet key => exact .inr ⟨nofun, .inl ⟨key, rfl⟩⟩
    | sql s =>
      cases s with
      | usersGetById userId => exact .inr ⟨nofun, .inr ⟨userId, rfl⟩⟩
      | _ => exact .inl rfl
    | _ => exact .inl rfl

/-- One operation of a call at time `t`: what it finds was held, now or when the entry
was made. -/
theorem Holds.perform {held : User → Time → Prop} {moves : Time → Prop}
    (h : Holds env held latency moves q tx) (hmay : May env q op) (ht : moves t)
    (hnow : ∀ user, w.db.userById user.id = some user → held user t)
    (hfilled : Filled env held latency w.cache) :
    Holds env held latency moves (next env.isoFormat q op (perform env t op rows w tx).2)
      (Users.perform env t op rows w tx).1.2 := by
  rcases next_eq env.isoFormat q op (Users.perform env t op rows w tx).2 with
    hsame | ⟨hq, ⟨key, rfl⟩ | ⟨userId, rfl⟩⟩
  · rw [hsame]
    cases hmay with
    | other => trivial
    | look hlook =>
      have hreads : op.reads = true := by
        unfold Op.leavesAlone at hlook
        split at hlook <;> first | exact hlook | cases hlook
      exact h.congr (perform_reads hreads).2.1
    | close =>
      cases q with
      | other => trivial
      | _ => exact h.congr (h.pending nofun).symm
    | fill => exact h
  · have hpending := h.pending hq
    show Holds env held latency moves
      (next env.isoFormat q (.cacheGet key) (Cache.get env w.cache t key)) tx
    cases hget : Cache.get env w.cache t key with
    | none => cases q <;> exact h
    | some data =>
      obtain ⟨user, s, hload, hheld, hlt⟩ := hfilled.get hget
      have hfound : next env.isoFormat q (.cacheGet key) (some data) = .found user := by
        cases q with
        | other => exact absurd rfl hq
        | _ => simp [next, hload]
      rw [hfound]
      exact ⟨hpending, s, t, hheld, ht, hlt⟩
  · have hpending := h.pending hq
    show Holds env held latency moves
      (next env.isoFormat q (.sql (.usersGetById userId)) ((tx.view w.db).userById userId))
      (tx.begin_ t)
    rw [Tx.view_of_pending_nil hpending]
    cases hfind : w.db.userById userId with
    | none => cases q <;> exact h.congr rfl
    | some user =>
      have hloaded : next env.isoFormat q (.sql (.usersGetById userId)) (some user) =
          .loaded user := by
        cases q with
        | other => exact absurd rfl hq
        | _ => rfl
      have hid : user.id = userId := (userById_row hfind).1
      rw [hloaded]
      exact ⟨hpending, t, hnow user (hid ▸ hfind), ht⟩

/-- The cache after an operation: an entry is made by the call that has read it. -/
theorem Filled.perform {held : User → Time → Prop} {moves : Time → Prop}
    (h : Filled env held latency w.cache) (hholds : Holds env held latency moves q tx)
    (hmay : May env q op) (hlatency : ∀ s, moves s → t ≤ s + latency) :
    Filled env held latency (Users.perform env t op rows w tx).1.1.cache := by
  by_cases hset : ∃ key data ttl, op = .cacheSet key data ttl
  · obtain ⟨key, data, ttl, rfl⟩ := hset
    cases hmay with
    | other hnot => exact absurd rfl (hnot key data ttl)
    | look hlook => cases hlook
    | fill =>
      obtain ⟨-, s, hheld, hs⟩ := hholds
      exact h.set hheld (hlatency s hs)
  · by_cases hdelete : ∃ key, op = .cacheDelete key
    · obtain ⟨key, rfl⟩ := hdelete
      exact h.delete key
    · rw [perform_cache (fun key data ttl he => hset ⟨key, data, ttl, he⟩)
        fun key he => hdelete ⟨key, he⟩]
      exact h

end Staleness

/-! ## Calls side by side -/

/-- No call of the schedule takes longer than `latency`. -/
def Prompt (latency : Time) (schedule : Pool.Schedule (machine env) n) : Prop :=
  ∀ a ∈ schedule, ∀ b ∈ schedule, a.1 = b.1 → b.2 ≤ a.2 + latency

/-- The account was in the database at time `s`, in front of some step of the run. -/
def HeldAt (pool : Pool (machine env) n Failure Answer)
    (schedule : Pool.Schedule (machine env) n) (user : User) (s : Time) : Prop :=
  ∃ before j after, schedule = before ++ (j, s) :: after ∧
    (pool.run before).shared.db.userById user.id = some user

namespace Staleness

/-- What holds while calls run side by side, when call `i` makes its steps at the times
`moves i`. -/
structure Inv (env : Env) (calls : Fin n → Call) (held : User → Time → Prop) (latency : Time)
    (moves : Fin n → Time → Prop) (pool : Pool (machine env) n Failure Answer) : Prop where
  holds : ∀ i, Holds env held latency (moves i)
    (pool.states (protocol env) (fun i => start (calls i)) i) (pool.procs i).loc
  filled : Filled env held latency pool.shared.cache

theorem Inv.advance {calls : Fin n → Call} {held : User → Time → Prop} {latency t : Time}
    {moves : Fin n → Time → Prop} {pool : Pool (machine env) n Failure Answer} {i : Fin n}
    {op : Op} {k : op.Res → Program sig Failure Answer}
    (h : Inv env calls held latency moves pool)
    (hmay : May env (pool.states (protocol env) (fun i => start (calls i)) i) op)
    (ht : moves i t) (hlatency : ∀ s, moves i s → t ≤ s + latency)
    (hnow : ∀ user, pool.shared.db.userById user.id = some user → held user t) :
    Inv env calls held latency moves (pool.advance i t op k) := by
  have hself : Holds env held latency (moves i)
      (next env.isoFormat (pool.states (protocol env) (fun i => start (calls i)) i) op
        (pool.effect i t op).2) (pool.effect i t op).1.2 :=
    (h.holds i).perform hmay ht hnow h.filled
  refine ⟨fun j => ?_, h.filled.perform (h.holds i) hmay hlatency⟩
  by_cases hj : j = i
  · subst hj
    rw [Pool.states_advance, Function.update_self, Pool.advance_procs_self]
    exact hself
  · rw [Pool.states_advance, Function.update_of_ne hj, Pool.advance_procs_of_ne pool t op k hj]
    exact h.holds j

end Staleness

/-- The account that `Authenticate` answers with was in the database at a time from
which at most the lifetime of a cache entry and twice the latency have passed.  Each call
of a repository is one atomic statement. -/
theorem records_are_recent {w : World} (hcache : w.cache = fun _ => none)
    (calls : Fin n → Call) {latency : Time} {schedule : Pool.Schedule (machine env) n}
    (hprompt : Prompt latency schedule) {i : Fin n} {token : Token}
    (hcall : calls i = .authenticate token) {user : User}
    (hout : (((w.pool env calls).run schedule).procs i).prog.outcome? =
      some (.ok (.user user))) :
    ∃ s, HeldAt (w.pool env calls) schedule user s ∧
      ∀ t, (i, t) ∈ schedule →
        t ≤ s + latency + max 0 (latency + env.config.authCacheTtlSeconds) := by
  have hfollows : (w.pool env calls).Follows (Staleness.protocol env)
      (fun i => Staleness.start (calls i)) (fun i => Staleness.Ends (calls i)) :=
    fun i => Staleness.follows (calls i)
  have hstart : Staleness.Inv env calls (HeldAt (w.pool env calls) schedule) latency
      (fun i t => (i, t) ∈ schedule) (w.pool env calls) := by
    refine ⟨fun i => ?_, fun key e he => ?_⟩
    · rw [World.pool_states, World.pool_loc]
      unfold Staleness.start
      split
      · rfl
      · trivial
    · rw [World.pool_shared, hcache] at he
      cases he
  -- in front of a step, what the database has is held
  have halong : Pool.Along (fun pool i t => (i, t) ∈ schedule ∧
      ∀ user, pool.shared.db.userById user.id = some user →
        HeldAt (w.pool env calls) schedule user t) schedule (w.pool env calls) := by
    refine Pool.along_of_split fun before i t after he => ⟨?_, fun user huser => ?_⟩
    · rw [he]
      exact List.mem_append_right _ List.mem_cons_self
    · exact ⟨before, i, after, he, huser⟩
  obtain ⟨hinv, hends⟩ := Pool.run_follows (fun pool i op h => ⟨fun j => by
      rw [Pool.wait_loc, Pool.states_wait]; exact h.holds j, h.filled⟩)
    (fun pool i t op next h hC _ _ hmay => ⟨Staleness.expects_perform,
      h.advance hmay hC.1 (fun s hs => hprompt (i, s) hs (i, t) hC.1 rfl) hC.2⟩)
    schedule halong hstart hfollows
  have hfills : (calls i).fillsCache = true := by rw [hcall]; rfl
  have hheld := hinv.holds i
  rcases hends.of_outcome hout hfills user rfl with hq | hq
  · rw [hq] at hheld
    obtain ⟨-, s, g, hmoment, hg, hlt⟩ := hheld
    refine ⟨s, hmoment, fun t ht => ?_⟩
    have hlate : t ≤ g + latency := hprompt (i, g) hg (i, t) ht rfl
    have hmax := le_max_right 0 (latency + (env.config.authCacheTtlSeconds : Time))
    linarith
  · rw [hq] at hheld
    obtain ⟨-, s, hmoment, hs⟩ := hheld
    refine ⟨s, hmoment, fun t ht => ?_⟩
    have hlate : t ≤ s + latency := hprompt (i, s) hs (i, t) ht rfl
    have hmax := le_max_left 0 (latency + (env.config.authCacheTtlSeconds : Time))
    linarith

/-- The request that is answered with the account as it was before a change: the account
is as old as the other request, which has cached it after the change. -/
theorem records_are_recent_named :
    let schedule : Pool.Schedule (machine Sample.env) 3 :=
      List.replicate 5 (1, 20) ++ List.replicate 10 (0, 21) ++ List.replicate 2 (1, 21) ++
        List.replicate 5 (2, 22)
    ∃ s, HeldAt (Sample.loggedIn.pool Sample.env Sample.renames) schedule Sample.named s ∧
      ∀ t, (2, t) ∈ schedule →
        t ≤ s + 1 + max 0 (1 + (Sample.env.config.authCacheTtlSeconds : Time)) :=
  have hprompt : @Prompt Sample.env 3 1
      (List.replicate 5 (1, 20) ++ List.replicate 10 (0, 21) ++ List.replicate 2 (1, 21) ++
        List.replicate 5 (2, 22)) := by
    unfold Prompt
    decide +kernel
  records_are_recent rfl Sample.renames hprompt rfl (by decide +kernel)

end VideoSite.Users
