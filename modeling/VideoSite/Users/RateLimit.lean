import VideoSite.Lib.FixedWindow
import VideoSite.Users.Entities
import Mathlib.Logic.Function.Basic
import Mathlib.Tactic.Linarith

/-!
# The rate limiters

`RateLimitPolicy`, and the two implementations of `IRateLimiter` that the
container chooses between: `InMemoryRateLimiter` and `RedisRateLimiter`.  Each
is a set of functions on its own store of counters.

A `FixedWindow.Window` is what the two have in common: the running window of a
key, if there is one.  `InMemory.window` and `Redis.window` read it off the stores,
and the lemmas below say what `hit`, `peek` and `reset` do to it.  Later modules use
those and never look into a store again.
-/

namespace VideoSite.Users

/-- How many attempts a key gets, and over what window. -/
structure RateLimitPolicy where
  limit : Int
  windowSeconds : Int
  deriving DecidableEq, Repr

/-- A non-positive limit disables the rule outright. -/
def RateLimitPolicy.isEnforced (policy : RateLimitPolicy) : Bool :=
  decide (0 < policy.limit)

/-- The verdict on one attempt against a rate-limited key. -/
structure RateLimitDecision where
  allowed : Bool
  remaining : Int
  retryAfterSeconds : Int
  deriving DecidableEq, Repr

/-! ## The in-process limiter -/

namespace InMemory

/-- `_counters`: the count of a key and when it expires. -/
abbrev Counters := String → Option (Nat × Time)

/-- `InMemoryRateLimiter._decide`. -/
def decide (count : Nat) (limit : Int) (ttl : Time) (counted : Bool) :
    RateLimitDecision :=
  let allowed : Bool :=
    if counted then Decidable.decide ((count : Int) ≤ limit)
    else Decidable.decide ((count : Int) < limit)
  { allowed := allowed
    remaining := max (limit - count) 0
    retryAfterSeconds := if allowed then 0 else max (pyInt ttl) 1 }

/-- `self._counters.get(key, (0, 0.0))`. -/
def get (counters : Counters) (key : String) : Nat × Time :=
  (counters key).getD (0, 0)

/-- The count and expiry that `hit` goes on from: a counter that has run out
starts again. -/
def current (counters : Counters) (now : Time) (key : String) (window : Int) :
    Nat × Time :=
  if (get counters key).2 ≤ now then (0, now + window) else get counters key

/-- `InMemoryRateLimiter.hit`. -/
def hit (counters : Counters) (now : Time) (key : String) (limit window : Int) :
    Counters × RateLimitDecision :=
  let (count, expiresAt) := current counters now key window
  (Function.update counters key (some (count + 1, expiresAt)),
    decide (count + 1) limit (expiresAt - now) true)

/-- `InMemoryRateLimiter.peek`. -/
def peek (counters : Counters) (now : Time) (key : String) (limit : Int) :
    RateLimitDecision :=
  let (count, expiresAt) := get counters key
  if expiresAt ≤ now then decide 0 limit 0 false
  else decide count limit (expiresAt - now) false

/-- `InMemoryRateLimiter.reset`. -/
def reset (counters : Counters) (key : String) : Counters :=
  Function.update counters key none

end InMemory

/-! ## The Redis limiter -/

namespace Redis

/-- A counter key: its value, and its expiry if one is set. -/
structure Counter where
  value : Nat
  expireAt : Option Time
  deriving DecidableEq, Repr

abbrev Keyspace := String → Option Counter

/-- Round to the nearest whole number, as `TTL` reports a remaining time. -/
def nearest (x : ℚ) : ℤ := ⌊x + 1 / 2⌋

/-- The counter of a key that has not expired yet. -/
def live (keys : Keyspace) (now : Time) (key : String) : Option Counter :=
  match keys key with
  | some counter =>
      match counter.expireAt with
      | some e => if now < e then some counter else none
      | none => some counter
  | none => none

/-- `INCR`: a missing key starts at zero and without an expiry, a present one
keeps the expiry it has. -/
def incr (keys : Keyspace) (now : Time) (key : String) : Keyspace × Nat :=
  match live keys now key with
  | some counter =>
      (Function.update keys key (some { counter with value := counter.value + 1 }),
        counter.value + 1)
  | none => (Function.update keys key (some { value := 1, expireAt := none }), 1)

/-- `TTL`: negative when there is no key or no expiry. -/
def ttl (keys : Keyspace) (now : Time) (key : String) : Int :=
  match live keys now key with
  | some counter =>
      match counter.expireAt with
      | some e => nearest (e - now)
      | none => -1
  | none => -2

/-- `EXPIRE`: a non-positive time deletes the key at once. -/
def expire (keys : Keyspace) (now : Time) (key : String) (seconds : Int) :
    Keyspace :=
  if seconds ≤ 0 then Function.update keys key none
  else
    match live keys now key with
    | some counter =>
        Function.update keys key
          (some { counter with expireAt := some (now + seconds) })
    | none => keys

/-- `RedisRateLimiter._decide`. -/
def decide (count : Nat) (limit : Int) (ttl : Int) (counted : Bool) :
    RateLimitDecision :=
  let allowed : Bool :=
    if counted then Decidable.decide ((count : Int) ≤ limit)
    else Decidable.decide ((count : Int) < limit)
  { allowed := allowed
    remaining := max (limit - count) 0
    retryAfterSeconds := if allowed then 0 else max ttl 1 }

/-- `RedisRateLimiter.hit`: the pipeline of `INCR` and `TTL`, then `EXPIRE` if
the key has no expiry yet. -/
def hit (keys : Keyspace) (now : Time) (key : String) (limit window : Int) :
    Keyspace × RateLimitDecision :=
  let (keys', count) := incr keys now key
  let left := ttl keys' now key
  if left < 0 then
    (expire keys' now key window, decide count limit window true)
  else (keys', decide count limit left true)

/-- `RedisRateLimiter.peek`. -/
def peek (keys : Keyspace) (now : Time) (key : String) (limit : Int) :
    RateLimitDecision :=
  let count := match live keys now key with
    | some counter => counter.value
    | none => 0
  decide count limit (max (ttl keys now key) 0) false

/-- `RedisRateLimiter.reset`. -/
def reset (keys : Keyspace) (key : String) : Keyspace :=
  Function.update keys key none

end Redis

/-! ## The running window of a key -/

open FixedWindow

namespace InMemory

theorem get_update_self (counters : Counters) (key : String) (c : Nat × Time) :
    get (Function.update counters key (some c)) key = c := by
  simp [get]

theorem get_update_of_ne (counters : Counters) {key other : String}
    (c : Option (Nat × Time)) (h : other ≠ key) :
    get (Function.update counters key c) other = get counters other := by
  simp [get, Function.update_of_ne h]

/-- The running window of a key in the in-process store. -/
def window (counters : Counters) (now : Time) (key : String) : Option (Window Time) :=
  if now < (get counters key).2 then
    some ⟨(get counters key).1, (get counters key).2⟩
  else none

theorem window_of_le (counters : Counters) {now t : Time} (key : String) (h : now ≤ t) :
    window counters t key = Window.at_ (window counters now key) t := by
  unfold window
  by_cases ht : t < (get counters key).2
  · rw [if_pos ht, if_pos (lt_of_le_of_lt h ht), Window.at_some, if_pos ht]
  · by_cases hn : now < (get counters key).2
    · rw [if_neg ht, if_pos hn, Window.at_some, if_neg ht]
    · rw [if_neg ht, if_neg hn, Window.at_none]

theorem peek_allowed (counters : Counters) (now : Time) (key : String) (limit : Int) :
    (peek counters now key limit).allowed =
      Decidable.decide ((Window.countOf (window counters now key) : Int) < limit) := by
  unfold peek window
  by_cases he : (get counters key).2 ≤ now
  · simp [decide, he, not_lt.2 he]
  · simp [decide, he, not_le.1 he]

theorem window_hit_self (counters : Counters) (now : Time) (key : String)
    (limit length : Int) :
    window (hit counters now key limit length).1 now key =
      Window.afterHit (window counters now key) now length := by
  unfold hit window current Window.afterHit
  dsimp only
  rw [get_update_self]
  by_cases he : (get counters key).2 ≤ now
  · rw [if_pos he, if_neg (not_lt.2 he)]
    simp only [lt_add_iff_pos_right]
  · have hlt : now < (get counters key).2 := not_le.1 he
    rw [if_neg he, if_pos hlt, if_pos hlt]

theorem window_hit_of_ne (counters : Counters) (now t : Time) {key other : String}
    (limit length : Int) (h : other ≠ key) :
    window (hit counters now key limit length).1 t other = window counters t other := by
  unfold hit window
  dsimp only
  rw [get_update_of_ne _ _ h]

@[simp] theorem countOf_window_reset (counters : Counters) (now : Time) (key : String) :
    Window.countOf (window (reset counters key) now key) = 0 := by
  unfold window
  split <;> simp [reset, get]

theorem window_reset_of_ne (counters : Counters) (now : Time) {key other : String}
    (h : other ≠ key) :
    window (reset counters key) now other = window counters now other := by
  unfold reset window
  rw [get_update_of_ne _ _ h]

end InMemory

namespace Redis

/-- Every counter has an expiry. -/
def Timed (keys : Keyspace) : Prop :=
  ∀ key counter, keys key = some counter → counter.expireAt.isSome = true

/-- The running window of a key in Redis. -/
def window (keys : Keyspace) (now : Time) (key : String) : Option (Window Time) :=
  match live keys now key with
  | some ⟨value, some e⟩ => some ⟨value, e⟩
  | _ => none

/-- In a timed keyspace a live counter is a running window. -/
theorem live_of_timed {keys : Keyspace} (h : Timed keys) (now : Time) (key : String) :
    live keys now key =
      (window keys now key).map fun w => ⟨w.count, some w.expiresAt⟩ := by
  unfold window live
  cases hk : keys key with
  | none => rfl
  | some counter =>
    obtain ⟨value, expireAt⟩ := counter
    cases expireAt with
    | none => simpa using h key _ hk
    | some e =>
      by_cases hlt : now < e <;> simp [hlt]

theorem lt_of_window {keys : Keyspace} {now : Time} {key : String} {w : Window Time}
    (h : window keys now key = some w) : now < w.expiresAt := by
  unfold window live at h
  cases hk : keys key with
  | none => simp [hk] at h
  | some counter =>
    obtain ⟨value, expireAt⟩ := counter
    cases expireAt with
    | none => simp [hk] at h
    | some e =>
      by_cases hlt : now < e
      · simp [hk, hlt] at h
        subst h
        exact hlt
      · simp [hk, hlt] at h

theorem window_of_le (keys : Keyspace) {now t : Time} (key : String) (h : now ≤ t) :
    window keys t key = Window.at_ (window keys now key) t := by
  unfold window live
  cases hk : keys key with
  | none => rfl
  | some counter =>
    obtain ⟨value, expireAt⟩ := counter
    cases expireAt with
    | none => rfl
    | some e =>
      by_cases ht : t < e
      · simp [ht, lt_of_le_of_lt h ht, Window.at_some]
      · by_cases hn : now < e <;> simp [ht, hn, Window.at_some]

theorem peek_allowed {keys : Keyspace} (h : Timed keys) (now : Time) (key : String)
    (limit : Int) :
    (peek keys now key limit).allowed =
      Decidable.decide ((Window.countOf (window keys now key) : Int) < limit) := by
  unfold peek
  rw [live_of_timed h]
  cases window keys now key <;> rfl

/-- What `hit` leaves of a running window, and what it starts without one. -/
theorem hit_of_window {keys : Keyspace} (h : Timed keys) (now : Time) (key : String)
    (limit length : Int) :
    (hit keys now key limit length).1 =
      Function.update keys key
        ((Window.afterHit (window keys now key) now length).map fun w =>
          ⟨w.count, some w.expiresAt⟩) := by
  unfold hit incr
  rw [live_of_timed h]
  cases hw : window keys now key with
  | some w =>
    have hlt := lt_of_window hw
    have hge : 0 ≤ nearest (w.expiresAt - now) := by
      unfold nearest
      apply Int.floor_nonneg.2
      have : 0 < w.expiresAt - now := sub_pos.2 hlt
      linarith
    simp [ttl, live, hlt, not_lt.2 hge, Window.afterHit]
  | none =>
    by_cases hl : 0 < length
    · simp [ttl, live, expire, Window.afterHit, hl, not_le.2 hl]
    · simp [ttl, live, expire, Window.afterHit, hl, not_lt.1 hl]

theorem timed_hit {keys : Keyspace} (h : Timed keys) (now : Time) (key : String)
    (limit length : Int) : Timed (hit keys now key limit length).1 := by
  rw [hit_of_window h]
  intro other counter hc
  by_cases ho : other = key
  · subst ho
    rw [Function.update_self] at hc
    cases hw : Window.afterHit (window keys now other) now length with
    | none => simp [hw] at hc
    | some w =>
      rw [hw] at hc
      simp only [Option.map_some, Option.some.injEq] at hc
      subst hc
      rfl
  · rw [Function.update_of_ne ho] at hc
    exact h other counter hc

theorem window_hit_self {keys : Keyspace} (h : Timed keys) (now : Time) (key : String)
    (limit length : Int) :
    window (hit keys now key limit length).1 now key =
      Window.afterHit (window keys now key) now length := by
  rw [hit_of_window h]
  cases hw : window keys now key with
  | some w => simp [window, live, Window.afterHit, lt_of_window hw]
  | none =>
    by_cases hl : 0 < length
    · simp [window, live, Window.afterHit, hl]
    · simp [window, live, Window.afterHit, hl]

theorem window_hit_of_ne {keys : Keyspace} (h : Timed keys) (now t : Time)
    {key other : String} (limit length : Int) (hne : other ≠ key) :
    window (hit keys now key limit length).1 t other = window keys t other := by
  rw [hit_of_window h]
  simp [window, live, Function.update_of_ne hne]

@[simp] theorem countOf_window_reset (keys : Keyspace) (now : Time) (key : String) :
    Window.countOf (window (reset keys key) now key) = 0 := by
  simp [window, live, reset]

theorem window_reset_of_ne (keys : Keyspace) (now : Time) {key other : String}
    (h : other ≠ key) :
    window (reset keys key) now other = window keys now other := by
  simp [window, live, reset, Function.update_of_ne h]

theorem timed_reset {keys : Keyspace} (h : Timed keys) (key : String) :
    Timed (reset keys key) := by
  intro other counter hc
  by_cases ho : other = key
  · subst ho
    simp [reset] at hc
  · simp only [reset, Function.update_of_ne ho] at hc
    exact h other counter hc

end Redis

/-! ## The limiter that is in use -/

/-- Which limiter and which cache the container selects. -/
inductive Backend where
  | redis
  | memory
  deriving DecidableEq, Repr

/-- The stores of both limiters; only the selected one is ever touched. -/
structure Limits where
  counters : InMemory.Counters
  keyspace : Redis.Keyspace

namespace Limits

variable (backend : Backend)

/-- No attempt was counted yet. -/
def empty : Limits where
  counters := fun _ => none
  keyspace := fun _ => none

/-- `IRateLimiter.hit`. -/
def hit (limits : Limits) (t : Time) (key : String) (policy : RateLimitPolicy) :
    Limits × RateLimitDecision :=
  match backend with
  | .memory =>
      let r := InMemory.hit limits.counters t key policy.limit policy.windowSeconds
      ({ limits with counters := r.1 }, r.2)
  | .redis =>
      let r := Redis.hit limits.keyspace t key policy.limit policy.windowSeconds
      ({ limits with keyspace := r.1 }, r.2)

/-- `IRateLimiter.peek`. -/
def peek (limits : Limits) (t : Time) (key : String) (policy : RateLimitPolicy) :
    RateLimitDecision :=
  match backend with
  | .memory => InMemory.peek limits.counters t key policy.limit
  | .redis => Redis.peek limits.keyspace t key policy.limit

/-- `IRateLimiter.reset`. -/
def reset (limits : Limits) (key : String) : Limits :=
  match backend with
  | .memory => { limits with counters := InMemory.reset limits.counters key }
  | .redis => { limits with keyspace := Redis.reset limits.keyspace key }

/-- The running window of a key. -/
def window (limits : Limits) (t : Time) (key : String) : Option (Window Time) :=
  match backend with
  | .memory => InMemory.window limits.counters t key
  | .redis => Redis.window limits.keyspace t key

/-- No counter without an expiry: what the limiter keeps of itself. -/
def Timed (limits : Limits) : Prop := Redis.Timed limits.keyspace

variable {backend} {limits : Limits}

theorem timed_empty : Timed empty := by
  intro key counter h
  cases h

theorem timed_hit (h : limits.Timed) (t : Time) (key : String)
    (policy : RateLimitPolicy) : (hit backend limits t key policy).1.Timed := by
  cases backend with
  | memory => exact h
  | redis => exact Redis.timed_hit h t key _ _

theorem timed_reset (h : limits.Timed) (key : String) :
    (reset backend limits key).Timed := by
  cases backend with
  | memory => exact h
  | redis => exact Redis.timed_reset h key

theorem window_of_le {now t : Time} (key : String) (h : now ≤ t) :
    window backend limits t key = Window.at_ (window backend limits now key) t := by
  cases backend with
  | memory => exact InMemory.window_of_le _ key h
  | redis => exact Redis.window_of_le _ key h

/-- A key is refused once its running window has used up the limit. -/
theorem peek_allowed (h : limits.Timed) (t : Time) (key : String)
    (policy : RateLimitPolicy) :
    (peek backend limits t key policy).allowed =
      decide ((Window.countOf (window backend limits t key) : Int) < policy.limit) := by
  cases backend with
  | memory => exact InMemory.peek_allowed _ t key _
  | redis => exact Redis.peek_allowed h t key _

theorem window_hit_self (h : limits.Timed) (t : Time) (key : String)
    (policy : RateLimitPolicy) :
    window backend (hit backend limits t key policy).1 t key =
      Window.afterHit (window backend limits t key) t policy.windowSeconds := by
  cases backend with
  | memory => exact InMemory.window_hit_self _ t key policy.limit _
  | redis => exact Redis.window_hit_self h t key policy.limit _

theorem window_hit_of_ne (h : limits.Timed) (now t : Time) {key other : String}
    (policy : RateLimitPolicy) (hne : other ≠ key) :
    window backend (hit backend limits now key policy).1 t other =
      window backend limits t other := by
  cases backend with
  | memory => exact InMemory.window_hit_of_ne _ now t policy.limit _ hne
  | redis => exact Redis.window_hit_of_ne h now t policy.limit _ hne

theorem window_reset_of_ne (t : Time) {key other : String} (hne : other ≠ key) :
    window backend (reset backend limits key) t other = window backend limits t other := by
  cases backend with
  | memory => exact InMemory.window_reset_of_ne _ t hne
  | redis => exact Redis.window_reset_of_ne _ t hne

end Limits

end VideoSite.Users
