import VideoSite.Users.Concurrent
import VideoSite.Users.LimiterRuns

/-!
# Hits that are cut short

`RedisRateLimiter.hit` makes two round trips: a pipeline of `INCR` and `TTL`, and then
`EXPIRE` if the key has no expiry yet.  Here logins run side by side over Redis, and each
may stop before its next operation, or between the two round trips of a hit.  What is left
then is a counter without an expiry.

* `Mortal` is the invariant of a counter: it runs out within a window, or it has no expiry
  and is below the limit, so that a later hit may still give it one.
* `Mortal.recovers` says that a refused key with such a counter is let through again.
* `counters_recover_iff` says which cuts are harmless, and `counter_immortal` is a run
  with one that is not.
-/

namespace VideoSite.Users

open Effects Program Protocol

namespace Redis

/-! ## Round trips -/

/-- A hit of which only the pipeline was executed. -/
def cutHit (keys : Keyspace) (now : Time) (key : String) : Keyspace := (incr keys now key).1

/-- A call, or a hit that was cut short. -/
inductive CutCall where
  | whole (made : LimiterCall)
  | cut (key : String)
  deriving DecidableEq, Repr

/-- It counts an attempt on `key`. -/
def CutCall.hits (key : String) : CutCall → Bool
  | .whole made => made.hits key
  | .cut other => other == key

/-- What the call leaves. -/
def CutCall.apply (keys : Keyspace) (t : Time) : CutCall → Keyspace
  | .whole made => (step keys t made).1
  | .cut key => cutHit keys t key

/-- What some calls leave, each at its time. -/
def after : Keyspace → List (Time × CutCall) → Keyspace
  | keys, [] => keys
  | keys, s :: rest => after (s.2.apply keys s.1) rest

variable {keys : Keyspace} {now t : Time} {key other : String}

theorem incr_of_ne (h : other ≠ key) : (incr keys now key).1 other = keys other := by
  unfold incr
  split
  · exact Function.update_of_ne h _ _
  · exact Function.update_of_ne h _ _

theorem expire_of_ne (h : other ≠ key) (seconds : Int) :
    expire keys now key seconds other = keys other := by
  unfold expire
  split
  · exact Function.update_of_ne h _ _
  · cases live keys now key with
    | some counter => exact Function.update_of_ne h _ _
    | none => rfl

theorem hit_of_ne (h : other ≠ key) (limit length : Int) :
    (hit keys now key limit length).1 other = keys other := by
  unfold hit
  dsimp only
  split
  · exact (expire_of_ne h length).trans (incr_of_ne h)
  · exact incr_of_ne h

/-- A call that does not hit the key leaves its counter, or deletes it. -/
theorem CutCall.apply_key {c : CutCall} (h : c.hits key = false) :
    c.apply keys t key = keys key ∨ c.apply keys t key = none := by
  cases c with
  | cut other =>
    have hne : key ≠ other := fun he => by
      rw [he] at h
      exact Bool.noConfusion ((beq_self_eq_true other).symm.trans h)
    exact Or.inl (incr_of_ne hne)
  | whole made =>
    cases made with
    | hit other limit length =>
      have hne : key ≠ other := fun he => by
        rw [he] at h
        exact Bool.noConfusion ((beq_self_eq_true other).symm.trans h)
      exact Or.inl (hit_of_ne hne limit length)
    | peek other limit => exact Or.inl rfl
    | reset other =>
      show Function.update keys other none key = _ ∨ Function.update keys other none key = _
      by_cases he : key = other
      · rw [he, Function.update_self]
        exact Or.inr rfl
      · rw [Function.update_of_ne he]
        exact Or.inl rfl

theorem after_key {calls : List (Time × CutCall)} (h : ∀ s ∈ calls, s.2.hits key = false) :
    after keys calls key = keys key ∨ after keys calls key = none := by
  induction calls generalizing keys with
  | nil => exact Or.inl rfl
  | cons s rest ih =>
    have hfirst := @CutCall.apply_key keys s.1 key s.2 (h s List.mem_cons_self)
    rcases @ih (s.2.apply keys s.1) (fun c hc => h c (List.mem_cons_of_mem _ hc)) with he | he
    · show after (s.2.apply keys s.1) rest key = _ ∨ after (s.2.apply keys s.1) rest key = _
      rw [he]
      exact hfirst
    · exact Or.inr he

/-- A key without a live counter is let through. -/
theorem peek_of_live_none {limit : Int} (hlimit : 0 < limit) (h : live keys now key = none) :
    (peek keys now key limit).allowed = true := by
  unfold peek
  rw [h]
  exact decide_eq_true hlimit

/-- A live counter is refused once it is at the limit. -/
theorem peek_of_live_some {limit : Int} {counter : Counter} (h : live keys now key = some counter) :
    (peek keys now key limit).allowed = Decidable.decide ((counter.value : Int) < limit) := by
  unfold peek
  rw [h]
  rfl

/-! ## Counters that run out -/

/-- The calls made until `t`. -/
def until_ (t : Time) (calls : List (Time × CutCall)) : List (Time × CutCall) :=
  calls.takeWhile fun s => Decidable.decide (s.1 ≤ t)

/-- If a peek refuses the key, at `now` or later, then one within a window after it does
not, unless there is a hit on the key in between. -/
def Recovers (keys : Keyspace) (now : Time) (key : String) (policy : RateLimitPolicy) : Prop :=
  ∀ t, now ≤ t → (peek keys t key policy.limit).allowed = false →
    ∀ calls : List (Time × CutCall), (∀ s ∈ calls, t ≤ s.1) →
      (∀ s ∈ calls, s.2.hits key = false) →
      ∃ t', t ≤ t' ∧ t' ≤ t + policy.windowSeconds ∧
        (peek (after keys (until_ t' calls)) t' key policy.limit).allowed = true

/-- The counter of the key runs out within a window, or has room for one more hit. -/
def Mortal (keys : Keyspace) (now : Time) (key : String) (policy : RateLimitPolicy) : Prop :=
  ∀ counter, keys key = some counter →
    match counter.expireAt with
    | some e => e ≤ now + policy.windowSeconds
    | none => (counter.value : Int) < policy.limit

/-- A hit that is cut short does no harm to a key: the counter that it counts on has an
expiry, or stays below the limit. -/
def CutHarmless (keys : Keyspace) (now : Time) (key : String) (policy : RateLimitPolicy) :
    Prop :=
  (live keys now key).any (·.expireAt.isSome) = true ∨
    ((live keys now key).elim 0 (·.value) : Int) + 1 < policy.limit

instance (policy : RateLimitPolicy) : Decidable (CutHarmless keys now key policy) := by
  unfold CutHarmless
  infer_instance

variable {policy : RateLimitPolicy}

theorem Mortal.later (h : Mortal keys now key policy) (ht : now ≤ t) :
    Mortal keys t key policy := by
  intro counter hc
  have hm := h counter hc
  cases he : counter.expireAt with
  | none =>
    rw [he] at hm
    exact hm
  | some e =>
    rw [he] at hm
    exact hm.trans (by linarith)

theorem Mortal.of_key {keys' : Keyspace} (h : Mortal keys now key policy)
    (hkey : keys' key = keys key ∨ keys' key = none) : Mortal keys' now key policy := by
  intro counter hc
  rcases hkey with he | he
  · exact h counter (he.symm.trans hc)
  · rw [he] at hc
    cases hc

/-- The counter that is live is the one that is stored. -/
theorem key_of_live {counter : Counter} (h : live keys now key = some counter) :
    keys key = some counter := by
  unfold live at h
  cases hk : keys key with
  | none =>
    rw [hk] at h
    cases h
  | some stored =>
    rw [hk] at h
    cases he : stored.expireAt with
    | none =>
      simp only [he] at h
      exact h
    | some e =>
      simp only [he] at h
      split at h
      · exact h
      · cases h

theorem lt_of_live {counter : Counter} {e : Time} (h : live keys now key = some counter)
    (he : counter.expireAt = some e) : now < e := by
  have hk := key_of_live h
  unfold live at h
  rw [hk] at h
  simp only [he] at h
  by_contra hle
  rw [if_neg hle] at h
  cases h

/-- A refused key with a mortal counter is let through again when that runs out. -/
theorem Mortal.recovers (h : Mortal keys now key policy) (hlimit : 0 < policy.limit) :
    Recovers keys now key policy := by
  intro t ht hrefused calls _ hcalls
  cases hlive : live keys t key with
  | none =>
    rw [peek_of_live_none hlimit hlive] at hrefused
    cases hrefused
  | some counter =>
    rw [peek_of_live_some hlive] at hrefused
    have hfull : ¬ (counter.value : Int) < policy.limit := of_decide_eq_false hrefused
    have hm := h.later ht counter (key_of_live hlive)
    cases he : counter.expireAt with
    | none =>
      rw [he] at hm
      exact absurd hm hfull
    | some e =>
      rw [he] at hm
      have hlt := lt_of_live hlive he
      refine ⟨e, hlt.le, hm, peek_of_live_none hlimit ?_⟩
      have hkey := @after_key keys key (until_ e calls)
        fun s hs => hcalls s ((List.takeWhile_sublist _).subset hs)
      unfold live
      rcases hkey with hsame | hgone
      · rw [hsame, key_of_live hlive]
        simp [he]
      · rw [hgone]

/-- A counter without an expiry that is at the limit is refused for ever. -/
theorem refused_of_immortal {counter : Counter} {limit : Int} (hk : keys key = some counter)
    (he : counter.expireAt = none) (hfull : limit ≤ counter.value) (t : Time) :
    (peek keys t key limit).allowed = false := by
  have hlive : live keys t key = some counter := by
    unfold live
    rw [hk]
    simp [he]
  rw [peek_of_live_some hlive]
  exact decide_eq_false (not_lt.2 hfull)

theorem not_recovers {counter : Counter} (hk : keys key = some counter)
    (he : counter.expireAt = none) (hfull : policy.limit ≤ counter.value) :
    ¬ Recovers keys now key policy := by
  intro h
  obtain ⟨t', -, -, hallowed⟩ := h now le_rfl (refused_of_immortal hk he hfull now) []
    (fun s hs => absurd hs List.not_mem_nil) fun s hs => absurd hs List.not_mem_nil
  have hsame : (peek keys t' key policy.limit).allowed = true := hallowed
  rw [refused_of_immortal hk he hfull t'] at hsame
  cases hsame

/-! ## What a hit leaves -/

/-- The counter of the key after the pipeline. -/
def counted (keys : Keyspace) (now : Time) (key : String) : Counter :=
  match live keys now key with
  | some counter => { counter with value := counter.value + 1 }
  | none => { value := 1, expireAt := none }

theorem incr_self : (incr keys now key).1 key = some (counted keys now key) := by
  unfold incr counted
  cases live keys now key with
  | none => exact Function.update_self _ _ _
  | some counter => exact Function.update_self _ _ _

/-- The counter that was just counted on is live. -/
theorem live_incr : live (incr keys now key).1 now key = some (counted keys now key) := by
  have hstored := @incr_self keys now key
  unfold live
  rw [hstored]
  cases he : (counted keys now key).expireAt with
  | none => simp [he]
  | some e =>
    have hlt : now < e := by
      cases hlive : live keys now key with
      | none =>
        unfold counted at he
        rw [hlive] at he
        cases he
      | some counter =>
        unfold counted at he
        rw [hlive] at he
        exact lt_of_live hlive he
    simp [he, hlt]

/-- A counter that had an expiry keeps it in a hit, and one that had none gets it, or is
deleted when the window is not positive. -/
theorem hit_self (limit length : Int) : (hit keys now key limit length).1 key =
    if (counted keys now key).expireAt.isSome then some (counted keys now key)
    else if length ≤ 0 then none
    else some { counted keys now key with expireAt := some (now + length) } := by
  have hlive := @live_incr keys now key
  unfold hit
  dsimp only
  cases he : (counted keys now key).expireAt with
  | some e =>
    have hlt : now < e := lt_of_live hlive he
    have hleft : ¬ ttl (incr keys now key).1 now key < 0 := by
      unfold ttl
      rw [hlive]
      simp only [he]
      exact not_lt.2 (nearest_nonneg (sub_pos.2 hlt).le)
    rw [if_neg hleft]
    exact incr_self
  | none =>
    have hleft : ttl (incr keys now key).1 now key < 0 := by
      unfold ttl
      rw [hlive]
      simp only [he]
      decide
    rw [if_pos hleft]
    unfold expire
    by_cases hlength : length ≤ 0
    · rw [if_pos hlength]
      simp [hlength]
    · rw [if_neg hlength, hlive]
      simp [hlength]

/-- A whole hit leaves no counter, or one that runs out. -/
theorem Mortal.hit (h : Mortal keys t key policy) :
    Mortal (hit keys t key policy.limit policy.windowSeconds).1 t key policy := by
  intro counter hc
  rw [hit_self] at hc
  cases he : (counted keys t key).expireAt with
  | some e =>
    rw [he, if_pos Option.isSome_some] at hc
    cases hc
    rw [he]
    -- the expiry is the one that the counter had before
    cases hlive : live keys t key with
    | none =>
      unfold counted at he
      rw [hlive] at he
      cases he
    | some stored =>
      have hm := h stored (key_of_live hlive)
      unfold counted at he
      rw [hlive] at he
      rw [he] at hm
      exact hm
  | none =>
    rw [he, if_neg (by decide)] at hc
    by_cases hlength : policy.windowSeconds ≤ 0
    · rw [if_pos hlength] at hc
      cases hc
    · rw [if_neg hlength] at hc
      cases hc
      exact le_rfl

/-- A hit that is cut short is harmless if the counter has an expiry, or room for one
more hit after it. -/
theorem Mortal.cutHit (h : Mortal keys t key policy) (hcut : CutHarmless keys t key policy) :
    Mortal (cutHit keys t key) t key policy := by
  intro counter hc
  unfold Redis.cutHit at hc
  rw [incr_self] at hc
  cases hc
  unfold CutHarmless at hcut
  unfold counted
  cases hlive : live keys t key with
  | none =>
    rw [hlive] at hcut
    exact hcut.resolve_left Bool.false_ne_true
  | some stored =>
    rw [hlive] at hcut
    have hm := h stored (key_of_live hlive)
    cases he : stored.expireAt with
    | some e =>
      rw [he] at hm
      simpa [he] using hm
    | none =>
      have hroom := hcut.resolve_left (by simp [he])
      simpa [he] using hroom

theorem not_recovers_cutHit (hcut : ¬ CutHarmless keys t key policy) :
    ¬ Recovers (cutHit keys t key) t key policy := by
  have hexpires : ¬ (live keys t key).any (·.expireAt.isSome) = true := fun h => hcut (Or.inl h)
  have hfull : ¬ ((live keys t key).elim 0 (·.value) : Int) + 1 < policy.limit :=
    fun h => hcut (Or.inr h)
  refine not_recovers (@incr_self keys t key) ?_ ?_
  · unfold counted
    cases hlive : live keys t key with
    | none => rfl
    | some stored =>
      rw [hlive] at hexpires
      simpa using hexpires
  · unfold counted
    cases hlive : live keys t key with
    | none =>
      rw [hlive] at hfull
      exact not_lt.1 hfull
    | some stored =>
      rw [hlive] at hfull
      simpa using hfull

end Redis

/-! ## Logins that may be cut short -/

/-- `policy` is the one that a login enforces on `key`. -/
def LoginUseCase.Guards (env : Env) (key : String) (policy : RateLimitPolicy) : Prop :=
  policy.isEnforced = true ∧
    ((∃ ip, key = LoginUseCase.ipKey ip ∧ policy = env.config.loginIpPolicy) ∨
      ∃ email, key = LoginUseCase.accountKey email ∧ policy = env.config.loginAccountPolicy)

/-- A key has one policy. -/
theorem LoginUseCase.Guards.unique {env : Env} {key : String} {policy policy' : RateLimitPolicy}
    (h : LoginUseCase.Guards env key policy) (h' : LoginUseCase.Guards env key policy') :
    policy = policy' := by
  obtain ⟨-, ⟨ip, hkey, hpolicy⟩ | ⟨email, hkey, hpolicy⟩⟩ := h
  · obtain ⟨-, ⟨ip', hkey', hpolicy'⟩ | ⟨email', hkey', hpolicy'⟩⟩ := h'
    · exact hpolicy.trans hpolicy'.symm
    · exact absurd (hkey.symm.trans hkey') (LoginUseCase.ipKey_ne_accountKey ip email')
  · obtain ⟨-, ⟨ip', hkey', hpolicy'⟩ | ⟨email', hkey', hpolicy'⟩⟩ := h'
    · exact absurd (hkey'.symm.trans hkey) (LoginUseCase.ipKey_ne_accountKey ip' email)
    · exact hpolicy.trans hpolicy'.symm

namespace LimiterCrash

/-- What a login may ask of the limiter. -/
def May (env : Env) : Op → Prop
  | .limiterHit key policy => LoginUseCase.Guards env key policy
  | _ => True

/-- A login hits the keys it guards only. -/
@[reducible] def protocol (env : Env) : Protocol sig where
  State := Unit
  may := fun _ => May env
  expects := fun _ _ _ => True
  next := fun _ _ _ => ()

variable {env : Env}

theorem charge_follows {key : String} {policy : RateLimitPolicy}
    (h : policy.isEnforced = true → LoginUseCase.Guards env key policy)
    {Q : Unit → Except Failure Unit → Prop} (hQ : ∀ out, Q () out) :
    (protocol env).Follows (LoginUseCase.charge policy key) Q () := by
  by_cases he : policy.isEnforced = true
  · simp [LoginUseCase.charge, he, May, h he, hQ]
  · simp [LoginUseCase.charge, he, hQ]

theorem fail_follows (email : String) (user : Option User) (device : DeviceInfoDTO)
    {Q : Unit → Except Failure (User × IssuedToken × IssuedToken) → Prop} (hQ : ∀ out, Q () out) :
    (protocol env).Follows (LoginUseCase.fail env email user device) Q () := by
  have haccount (h : env.config.loginAccountPolicy.isEnforced = true) :
      LoginUseCase.Guards env (LoginUseCase.accountKey email) env.config.loginAccountPolicy :=
    ⟨h, Or.inr ⟨email, rfl, rfl⟩⟩
  have hrest {Q : Unit → Except Failure Unit → Prop} (hQ : ∀ out, Q () out) :
      (protocol env).Follows (LoginUseCase.countFailure env email device) Q () := by
    unfold LoginUseCase.countFailure
    cases device.ipAddress with
    | none => exact charge_follows haccount hQ
    | some ip =>
      simp only [monad_bind, follows_bind]
      refine charge_follows (fun h => ⟨h, Or.inl ⟨ip, rfl, rfl⟩⟩) fun out => ?_
      cases out with
      | error e => exact hQ _
      | ok _ => exact charge_follows haccount hQ
  simp only [LoginUseCase.fail, monad_bind, follows_bind]
  refine hrest fun out => ?_
  cases out with
  | error e => exact hQ _
  | ok _ => simp [audit.record, May, hQ]

theorem succeed_follows (user : User) (device : DeviceInfoDTO)
    {Q : Unit → Except Failure (User × IssuedToken × IssuedToken) → Prop} (hQ : ∀ out, Q () out) :
    (protocol env).Follows (LoginUseCase.succeed user device) Q () := by
  simp [LoginUseCase.succeed, audit.record, May, hQ]

/-- A login keeps to the protocol. -/
theorem login_follows (data : LoginDTO) (device : Option DeviceInfoDTO) :
    (protocol env).Follows ((Call.login data device).program env) (fun _ _ => True) () := by
  have hfail (user : Option User)
      {Q : Unit → Except Failure (User × IssuedToken × IssuedToken) → Prop}
      (hQ : ∀ out, Q () out) :
      (protocol env).Follows
        (LoginUseCase.fail env (env.normalize data.email) user (device.getD {})) Q () :=
    fail_follows _ user _ hQ
  have hguardIp : (LoginUseCase.guardIp env (device.getD {})).Only (May env) := by
    refine only_ite (fun _ => ?_) fun _ => trivial
    cases (device.getD {}).ipAddress with
    | none => trivial
    | some ip => exact ⟨trivial, fun _ => only_require _ _⟩
  have hguardAccount : (LoginUseCase.guardAccount env (env.normalize data.email)).Only (May env) :=
    only_ite (fun _ => ⟨trivial, fun _ => only_require _ _⟩) fun _ => trivial
  have hstay (op : Op) (hop : May env op) :
      (protocol env).may () op ∧ ∀ r, (protocol env).next () op r = () := ⟨hop, fun _ => rfl⟩
  have hend (out : Except Failure (User × IssuedToken × IssuedToken)) :
      (protocol env).may () .close ∧ ∀ r, (protocol env).expects () .close r →
        (protocol env).followsThen (fun found => (limiter.reset
          (LoginUseCase.accountKey (env.normalize data.email))).bind fun _ =>
            .pure (⟨tokenPair found.2.1 found.2.2, found.1⟩ : AuthResultDTO))
          (fun _ _ => True) ((protocol env).next () .close r) out := by
    refine ⟨trivial, fun _ _ => ?_⟩
    cases out with
    | error e => trivial
    | ok _ => exact ⟨trivial, fun _ _ => trivial⟩
  simp only [Call.program, login, monad_bind, follows_map, follows_bind]
  refine Follows.of_only hguardIp hstay fun out => ?_
  cases out with
  | error e => trivial
  | ok _ =>
    rw [followsThen_ok, follows_bind]
    refine Follows.of_only hguardAccount hstay fun out => ?_
    cases out with
    | error e => trivial
    | ok _ =>
      simp only [followsThen_ok, follows_withUow, follows_bind, follows_usersGetByEmail]
      refine ⟨trivial, fun found _ => ?_⟩
      cases found with
      | none => exact hfail none hend
      | some user =>
        by_cases hactive : user.isActive = true
        · simp only [LoginUseCase.valid, if_pos hactive, follows_verify]
          refine ⟨trivial, fun valid _ => ?_⟩
          cases valid with
          | false => exact hfail (some user) hend
          | true =>
            exact succeed_follows user _ hend
        · simp only [LoginUseCase.valid, if_neg hactive, follows_pure, followsThen_ok]
          exact hfail (some user) hend

/-! ## Runs with crashes -/

variable {n : Nat}

/-- What becomes of a login at its next operation: it makes it, it ends before it, or, if
that is a hit, it ends between the two round trips. -/
inductive Fate where
  | runs
  | ends (failure : Failure)
  | cutShort (failure : Failure)
  deriving DecidableEq, Repr

/-- It ends between two round trips. -/
def Fate.cuts : Fate → Bool
  | .cutShort _ => true
  | _ => false

/-- Login `i` comes to its next operation at time `time`. -/
structure Event (n : Nat) where
  i : Fin n
  time : Time
  fate : Fate
  deriving DecidableEq

/-- Login `i` makes no more operations, and its transaction is rolled back. -/
def ended (pool : Pool (machine env) n Failure Answer) (i : Fin n) (failure : Failure) :
    Pool (machine env) n Failure Answer where
  shared := pool.shared
  procs := Function.update pool.procs i
    { pool.procs i with
      prog := .raise failure
      loc := Tx.ended (pool.procs i).loc
      waiting := none }

/-- What is left of an operation that was cut short. -/
def leftOf (w : World) (t : Time) : Option Op → World
  | some (.limiterHit key _) =>
      w.withLimits { w.limits with keyspace := Redis.cutHit w.limits.keyspace t key }
  | _ => w

/-- One event. -/
def step (pool : Pool (machine env) n Failure Answer) (e : Event n) :
    Pool (machine env) n Failure Answer :=
  match e.fate with
  | .runs => pool.step e.i e.time
  | .ends failure => ended pool e.i failure
  | .cutShort failure =>
      { ended pool e.i failure with
        shared := leftOf pool.shared e.time (pool.procs e.i).prog.nextOp? }

/-- Some events, one after another. -/
def run (pool : Pool (machine env) n Failure Answer) (events : List (Event n)) :
    Pool (machine env) n Failure Answer :=
  events.foldl step pool

/-- Times that do not decrease, from `now` on. -/
def Ordered (now : Time) : List (Event n) → Prop
  | [] => True
  | e :: rest => now ≤ e.time ∧ Ordered e.time rest

instance (now : Time) (events : List (Event n)) : Decidable (Ordered now events) := by
  induction events generalizing now with
  | nil => exact isTrue trivial
  | cons e rest ih =>
    have := ih e.time
    exact inferInstanceAs (Decidable (now ≤ e.time ∧ Ordered e.time rest))

/-- The time of the last event. -/
def lastTime : Time → List (Event n) → Time
  | now, [] => now
  | _, e :: rest => lastTime e.time rest

/-- The key and the policy of a hit. -/
def hitOf? : Op → Option (String × RateLimitPolicy)
  | .limiterHit key policy => some (key, policy)
  | _ => none

/-- If the event cuts a hit short, that does no harm. -/
def Harmless (pool : Pool (machine env) n Failure Answer) (e : Event n) : Prop :=
  e.fate.cuts = true → ∀ made ∈ (pool.procs e.i).prog.nextOp?.bind hitOf?,
    Redis.CutHarmless pool.shared.limits.keyspace e.time made.1 made.2

instance (pool : Pool (machine env) n Failure Answer) (e : Event n) :
    Decidable (Harmless pool e) := by
  unfold Harmless
  infer_instance

/-- Every cut of the run from `pool` does no harm. -/
def CutsHarmless : List (Event n) → Pool (machine env) n Failure Answer → Prop
  | [], _ => True
  | e :: rest, pool => Harmless pool e ∧ CutsHarmless rest (step pool e)

instance (events : List (Event n)) (pool : Pool (machine env) n Failure Answer) :
    Decidable (CutsHarmless events pool) := by
  induction events generalizing pool with
  | nil => exact isTrue trivial
  | cons e rest ih =>
    have := ih (step pool e)
    exact inferInstanceAs (Decidable (Harmless pool e ∧ CutsHarmless rest (step pool e)))

/-- Every key that a login guards recovers. -/
def Recovering (pool : Pool (machine env) n Failure Answer) (now : Time) : Prop :=
  ∀ key policy, LoginUseCase.Guards env key policy →
    Redis.Recovers pool.shared.limits.keyspace now key policy

/-- Every key that a login guards has a mortal counter. -/
def AllMortal (env : Env) (w : World) (now : Time) : Prop :=
  ∀ key policy, LoginUseCase.Guards env key policy →
    Redis.Mortal w.limits.keyspace now key policy

theorem AllMortal.later {w : World} {now t : Time} (h : AllMortal env w now) (ht : now ≤ t) :
    AllMortal env w t :=
  fun key policy hkey => (h key policy hkey).later ht

theorem AllMortal.recovering {pool : Pool (machine env) n Failure Answer} {now : Time}
    (h : AllMortal env pool.shared now) : Recovering pool now :=
  fun key policy hkey => (h key policy hkey).recovers (of_decide_eq_true hkey.1)

/-- An operation that a login may make. -/
theorem AllMortal.of_perform (hredis : env.backend = .redis) {w : World} {t : Time}
    (h : AllMortal env w t) {op : Op} (hmay : May env op) (rows : List RowKey) (tx : Tx) :
    AllMortal env (perform env t op rows w tx).1.1 t := by
  intro key policy hkey
  have hm := h key policy hkey
  cases op with
  | limiterHit other charged =>
    have hlimits : (perform env t (.limiterHit other charged) rows w tx).1.1.limits.keyspace =
        (Redis.hit w.limits.keyspace t other charged.limit charged.windowSeconds).1 := by
      show (Limits.hit env.backend w.limits t other charged).1.keyspace = _
      rw [hredis]
      rfl
    rw [hlimits]
    by_cases he : key = other
    · subst he
      rw [LoginUseCase.Guards.unique hkey hmay] at hm ⊢
      exact hm.hit
    · exact hm.of_key (Or.inl (Redis.hit_of_ne he _ _))
  | limiterReset other =>
    have hlimits : (perform env t (.limiterReset other) rows w tx).1.1.limits.keyspace =
        Function.update w.limits.keyspace other none := by
      show (Limits.reset env.backend w.limits other).keyspace = _
      rw [hredis]
      rfl
    rw [hlimits]
    refine hm.of_key ?_
    by_cases he : key = other
    · subst he
      exact Or.inr (Function.update_self _ _ _)
    · exact Or.inl (Function.update_of_ne he _ _)
  | _ => exact hm

/-- A hit that is cut short and does no harm. -/
theorem AllMortal.of_cutHit {w w' : World} {t : Time} (h : AllMortal env w t) {key : String}
    {policy : RateLimitPolicy} (hkey : LoginUseCase.Guards env key policy)
    (hcut : Redis.CutHarmless w.limits.keyspace t key policy)
    (hleft : w'.limits.keyspace = Redis.cutHit w.limits.keyspace t key) : AllMortal env w' t := by
  intro other policy' hother
  have hm := h other policy' hother
  rw [hleft]
  by_cases he : other = key
  · subst he
    rw [LoginUseCase.Guards.unique hother hkey] at hm ⊢
    exact hm.cutHit hcut
  · exact hm.of_key (Or.inl (Redis.incr_of_ne he))

/-- An operation that is no hit leaves nothing behind when it is cut short. -/
theorem leftOf_of_none (w : World) (t : Time) {next : Option Op}
    (h : next.bind hitOf? = none) : leftOf w t next = w := by
  cases next with
  | none => rfl
  | some op =>
    cases op with
    | limiterHit key policy => cases h
    | _ => rfl

variable {pool : Pool (machine env) n Failure Answer} {e : Event n}

/-- What is left of the logins keeps to the protocol. -/
abbrev Keeps (pool : Pool (machine env) n Failure Answer) : Prop :=
  pool.Follows (protocol env) (fun _ => ()) fun _ _ _ => True

theorem Keeps.ended (h : Keeps pool) (i : Fin n) (failure : Failure) (w : World) :
    Keeps ({ ended pool i failure with shared := w } : Pool (machine env) n Failure Answer) := by
  intro j
  by_cases hj : j = i
  · subst hj
    show (protocol env).Follows (Function.update pool.procs j _ j).prog _ _
    rw [Function.update_self]
    trivial
  · show (protocol env).Follows (Function.update pool.procs i _ j).prog _ _
    rw [Function.update_of_ne hj]
    exact h j

/-- One event, with nothing said about cuts. -/
theorem Keeps.step (h : Keeps pool) (e : Event n) : Keeps (step pool e) := by
  unfold LimiterCrash.step
  cases e.fate with
  | ends failure => exact h.ended e.i failure _
  | cutShort failure => exact h.ended e.i failure _
  | runs =>
    exact (Pool.step_follows (J := fun _ => True) (K := fun _ => True) (fun _ => trivial)
      (fun _ _ => trivial) (fun op next _ _ _ _ => ⟨trivial, trivial⟩) trivial h).2

/-- What a cut hit is: it is on a key that a login guards, and its pipeline was executed. -/
theorem step_of_cut (hkeeps : Keeps pool) (hcuts : e.fate.cuts = true)
    {made : String × RateLimitPolicy}
    (hmade : made ∈ (pool.procs e.i).prog.nextOp?.bind hitOf?) :
    LoginUseCase.Guards env made.1 made.2 ∧ (step pool e).shared.limits.keyspace =
      Redis.cutHit pool.shared.limits.keyspace e.time made.1 := by
  cases hprog : (pool.procs e.i).prog with
  | pure a =>
    rw [hprog] at hmade
    cases hmade
  | raise failure =>
    rw [hprog] at hmade
    cases hmade
  | call op next =>
    have hmay := hkeeps.may hprog
    rw [hprog] at hmade
    cases op with
    | limiterHit key policy =>
      cases hmade
      refine ⟨hmay, ?_⟩
      unfold LimiterCrash.step
      cases hfate : e.fate with
      | cutShort failure =>
        show (leftOf pool.shared e.time (pool.procs e.i).prog.nextOp?).limits.keyspace = _
        rw [hprog]
        rfl
      | _ =>
        rw [hfate] at hcuts
        cases hcuts
    | _ => cases hmade

/-- One event whose cut does no harm. -/
theorem AllMortal.step (hredis : env.backend = .redis) (h : AllMortal env pool.shared e.time)
    (hkeeps : Keeps pool) (hcut : Harmless pool e) :
    AllMortal env (step pool e).shared e.time := by
  unfold LimiterCrash.step
  cases hfate : e.fate with
  | ends failure => exact h
  | runs =>
    exact (Pool.step_follows (K := fun pool => AllMortal env pool.shared e.time)
      (J := fun pool => AllMortal env pool.shared e.time) (fun h => h) (fun _ h => h)
      (fun op next h _ _ hmay => ⟨trivial, h.of_perform hredis hmay _ _⟩) h hkeeps).1
  | cutShort failure =>
    have hcuts : e.fate.cuts = true := by
      rw [hfate]
      rfl
    cases hmade : (pool.procs e.i).prog.nextOp?.bind hitOf? with
    | none =>
      show AllMortal env (leftOf pool.shared e.time (pool.procs e.i).prog.nextOp?) e.time
      rw [leftOf_of_none _ _ hmade]
      exact h
    | some made =>
      obtain ⟨hguards, hleft⟩ := step_of_cut hkeeps hcuts hmade
      unfold LimiterCrash.step at hleft
      rw [hfate] at hleft
      exact h.of_cutHit hguards (hcut hcuts made hmade) hleft

/-- An event whose cut does harm leaves a key that does not recover. -/
theorem not_recovering_of_harm (hkeeps : Keeps pool) (hharm : ¬ Harmless pool e) :
    ¬ Recovering (step pool e) e.time := by
  intro hrecovers
  apply hharm
  intro hcuts made hmade
  by_contra hcut
  obtain ⟨hguards, hleft⟩ := step_of_cut hkeeps hcuts hmade
  have hkey := hrecovers made.1 made.2 hguards
  rw [hleft] at hkey
  exact Redis.not_recovers_cutHit hcut hkey

/-- The keys recover in every state of a run if and only if no cut does harm. -/
theorem recovering_iff (hredis : env.backend = .redis) {events : List (Event n)} {now : Time}
    (hordered : Ordered now events) (hmortal : AllMortal env pool.shared now)
    (hkeeps : Keeps pool) :
    (∀ before rest, events = before ++ rest → Recovering (run pool before) (lastTime now before)) ↔
      CutsHarmless events pool := by
  induction events generalizing now pool with
  | nil =>
    refine ⟨fun _ => trivial, fun _ before rest he => ?_⟩
    have hnil : before = [] := (List.append_eq_nil_iff.1 he.symm).1
    rw [hnil]
    exact hmortal.recovering
  | cons e events ih =>
    have hlater := hmortal.later hordered.1
    constructor
    · intro h
      have hcut : Harmless pool e := by
        by_contra hharm
        exact not_recovering_of_harm hkeeps hharm (h [e] events rfl)
      refine ⟨hcut, (ih hordered.2 (hlater.step hredis hkeeps hcut) (hkeeps.step e)).1 ?_⟩
      intro before rest he
      exact h (e :: before) rest (by rw [he]; rfl)
    · rintro ⟨hcut, hcuts⟩ before rest he
      cases before with
      | nil => exact hmortal.recovering
      | cons first before =>
        have hparts := List.cons.inj he
        rw [← hparts.1]
        exact (ih hordered.2 (hlater.step hredis hkeeps hcut) (hkeeps.step e)).2 hcuts before rest
          hparts.2

end LimiterCrash

open LimiterCrash

/-- Logins side by side over an empty Redis, any of which may stop before an operation or
between the two round trips of a hit.  In every state that is reached each guarded key
recovers from a refusal within its window, if and only if every hit that is cut short finds
a counter with an expiry or leaves the counter below the limit. -/
theorem counters_recover_iff {env : Env} (hredis : env.backend = .redis) {w : World} {n : Nat}
    (hempty : w.limits.keyspace = Redis.empty)
    (logins : Fin n → LoginDTO × Option DeviceInfoDTO) {events : List (Event n)}
    (hordered : Ordered 0 events) :
    let pool := w.pool env fun i => .login (logins i).1 (logins i).2
    (∀ before rest, events = before ++ rest →
      Recovering (LimiterCrash.run pool before) (LimiterCrash.lastTime 0 before)) ↔
      CutsHarmless events pool := by
  intro pool
  refine recovering_iff hredis hordered ?_ fun i => login_follows _ _
  intro key policy _ counter hcounter
  have hnone : w.limits.keyspace key = some counter := hcounter
  rw [hempty] at hnone
  cases hnone

/-! ### Two wrong passwords -/

namespace Sample

/-- Two logins with a wrong password. -/
def guess (i : Fin 2) : LoginDTO × Option DeviceInfoDTO := (⟨"alice", s!"guess {i}"⟩, none)

/-- The first login charges the account, and then the charge of the second is cut short. -/
def harmlessCut : List (Event 2) :=
  ⟨1, 20, .runs⟩ :: List.replicate 4 ⟨0, 20, .runs⟩ ++
    List.replicate 2 ⟨1, 21, .runs⟩ ++ [⟨1, 21, .cutShort (.valueError "Connection closed")⟩]

/-- The charge of the first login is cut short. -/
def harmfulCut : List (Event 2) :=
  List.replicate 3 ⟨0, 20, .runs⟩ ++ [⟨0, 20, .cutShort (.valueError "Connection closed")⟩]

/-- The logins side by side. -/
def guessing : Pool (machine Sample.env) 2 Failure Answer :=
  Sample.world.pool Sample.env fun i => .login (guess i).1 (guess i).2

end Sample

theorem counters_recover_sample :
    Recovering (LimiterCrash.run Sample.guessing Sample.harmlessCut) 21 :=
  (@counters_recover_iff Sample.env rfl Sample.world 2 rfl Sample.guess Sample.harmlessCut
    (by decide +kernel)).2 (by decide +kernel) Sample.harmlessCut [] (List.append_nil _).symm

/-- With a limit of one, the counter of the account is at the limit and never runs out.
The account is locked for good. -/
theorem counter_immortal :
    let keys := (LimiterCrash.run Sample.guessing Sample.harmfulCut).shared.limits.keyspace
    let key := LoginUseCase.accountKey "alice"
    LimiterCrash.Ordered 0 Sample.harmfulCut ∧
      LoginUseCase.Guards Sample.env key (Sample.policy 1) ∧
      (∀ t, (Redis.peek keys t key 1).allowed = false) ∧
      ¬ Redis.Recovers keys 20 key (Sample.policy 1) := by
  intro keys key
  have hcounter : keys key = some ⟨1, none⟩ := by decide +kernel
  exact ⟨by decide +kernel, ⟨rfl, Or.inr ⟨"alice", rfl, rfl⟩⟩,
    Redis.refused_of_immortal hcounter rfl le_rfl, Redis.not_recovers hcounter rfl le_rfl⟩

end VideoSite.Users
