import VideoSite.Users.RateLimit
import Mathlib.Algebra.Order.Group.MinMax

/-!
# Runs of the two rate limiters

`InMemoryRateLimiter` and `RedisRateLimiter` under any sequence of `hit`, `peek` and
`reset`, each call at its own time.

* `hits_budget` bounds the hits that `InMemoryRateLimiter` allows on a key.
* `limiters_agree` says that the two limiters answer alike.
* `retry_after_obeyed_iff` says when a client that waits as long as it is told is let
  through, and `retry_too_early` is a case in which it is not.
-/

namespace VideoSite.Users

open FixedWindow

/-- A call to a limiter. -/
inductive LimiterCall where
  | hit (key : String) (limit window : Int)
  | peek (key : String) (limit : Int)
  | reset (key : String)
  deriving DecidableEq, Repr

/-- The key that the call is made on. -/
def LimiterCall.key : LimiterCall → String
  | .hit key _ _ | .peek key _ | .reset key => key

/-- It is a hit on `key`. -/
def LimiterCall.hits (key : String) : LimiterCall → Bool
  | .hit other _ _ => other == key
  | _ => false

/-- It only looks at the counter. -/
def LimiterCall.isPeek : LimiterCall → Bool
  | .peek _ _ => true
  | _ => false

/-- Calls with the times at which they are made. -/
abbrev LimiterCalls := List (Time × LimiterCall)

/-- Times that do not decrease, from `now` on. -/
def LimiterCalls.Since (now : Time) : LimiterCalls → Prop
  | [] => True
  | s :: rest => now ≤ s.1 ∧ LimiterCalls.Since s.1 rest

instance (now : Time) (calls : LimiterCalls) : Decidable (calls.Since now) := by
  induction calls generalizing now with
  | nil => exact isTrue trivial
  | cons s rest ih =>
    have := ih s.1
    exact inferInstanceAs (Decidable (now ≤ s.1 ∧ LimiterCalls.Since s.1 rest))

/-- On `key` there are only hits with one limit and one window, and peeks. -/
def LimiterCalls.Fixed (key : String) (L W : Int) (calls : LimiterCalls) : Prop :=
  ∀ s ∈ calls, s.2.key = key → s.2 = .hit key L W ∨ s.2.isPeek = true

instance (key : String) (L W : Int) (calls : LimiterCalls) : Decidable (calls.Fixed key L W) := by
  unfold LimiterCalls.Fixed
  infer_instance

/-- What a limiter that moves by `step` answers. -/
def LimiterCalls.answers {S : Type} (step : S → Time → LimiterCall → S × Option RateLimitDecision) :
    S → LimiterCalls → List (Option RateLimitDecision)
  | _, [] => []
  | s, c :: rest => (step s c.1 c.2).2 :: answers step (step s c.1 c.2).1 rest

namespace InMemory

/-- One call to `InMemoryRateLimiter` at time `t`. -/
def step (counters : Counters) (t : Time) : LimiterCall → Counters × Option RateLimitDecision
  | .hit key limit window =>
      let r := hit counters t key limit window
      (r.1, some r.2)
  | .peek key limit => (counters, some (peek counters t key limit))
  | .reset key => (reset counters key, none)

/-- No counter. -/
def empty : Counters := fun _ => none

/-- The hits on a key, each with the answer it got. -/
def hitsOn (key : String) : Counters → LimiterCalls → List (Time × Bool)
  | _, [] => []
  | counters, s :: rest =>
      let r := step counters s.1 s.2
      if s.2.hits key then (s.1, r.2.any (·.allowed)) :: hitsOn key r.1 rest
      else hitsOn key r.1 rest

theorem window_empty {t : Time} (ht : 0 ≤ t) (key : String) : window empty t key = none :=
  if_neg (not_lt.2 ht)

theorem window_reset_self {t : Time} (ht : 0 ≤ t) (counters : Counters) (key : String) :
    window (reset counters key) t key = none := by
  unfold window reset get
  rw [Function.update_self]
  exact if_neg (not_lt.2 ht)

/-- A call on another key leaves the window alone. -/
theorem window_step_of_ne (counters : Counters) (now t : Time) {call : LimiterCall}
    {key : String} (h : call.key ≠ key) :
    window (step counters now call).1 t key = window counters t key := by
  cases call with
  | hit other limit length => exact window_hit_of_ne counters now t limit length (Ne.symm h)
  | peek other limit => rfl
  | reset other => exact window_reset_of_ne counters t (Ne.symm h)

/-- What `hit` answers, from the running window. -/
theorem hit_decision (counters : Counters) (now : Time) (key : String) (limit length : Int) :
    (hit counters now key limit length).2 =
      decide (Window.countOf (window counters now key) + 1) limit
        (Window.left (window counters now key) now length) true := by
  unfold hit window current
  by_cases he : (get counters key).2 ≤ now
  · simp [he, not_lt.2 he]
  · simp [he, not_le.1 he]

/-- What `peek` answers, from the running window. -/
theorem peek_decision (counters : Counters) (now : Time) (key : String) (limit : Int) :
    peek counters now key limit =
      decide (Window.countOf (window counters now key)) limit
        (Window.left (window counters now key) now 0) false := by
  unfold peek window
  by_cases he : (get counters key).2 ≤ now
  · simp [he, not_lt.2 he]
  · simp [he, not_le.1 he]

/-- A hit is allowed while there is room in the window. -/
theorem hit_allowed (counters : Counters) (now : Time) (key : String) (limit length : Int) :
    (hit counters now key limit length).2.allowed =
      Decidable.decide ((Window.countOf (window counters now key) : Int) < limit) := by
  rw [hit_decision]
  show Decidable.decide (((Window.countOf (window counters now key) + 1 : Nat) : Int) ≤ limit) = _
  refine decide_eq_decide.2 ?_
  omega

end InMemory

/-! ## The budget of a key -/

theorem LimiterCalls.Since.le {now : Time} {calls : LimiterCalls} (h : calls.Since now) :
    ∀ s ∈ calls, now ≤ s.1 := by
  induction calls generalizing now with
  | nil =>
    intro s hs
    cases hs
  | cons c rest ih =>
    intro s hs
    rcases List.mem_cons.1 hs with rfl | hlater
    · exact h.1
    · exact h.1.trans (ih h.2 s hlater)

/-- The counter only looks at windows that are still running. -/
theorem judged_at {limit : Nat} {length t : Time} {running : Option (Window Time)}
    {times : List Time} (h : ∀ s ∈ times, t ≤ s) :
    judged limit length (Window.at_ running t) times = judged limit length running times := by
  cases times with
  | nil => rfl
  | cons s rest =>
    have hat : Window.at_ (Window.at_ running t) s = Window.at_ running s := by
      cases running with
      | none => rfl
      | some v =>
        have hle : t ≤ s := h s List.mem_cons_self
        rw [Window.at_some, Window.at_some]
        by_cases hs : s < v.expiresAt
        · rw [if_pos (lt_of_le_of_lt hle hs), if_pos hs, Window.at_some, if_pos hs]
        · rw [if_neg hs]
          split
          · rw [Window.at_some, if_neg hs]
          · rfl
    rw [judged, judged, hat]

namespace InMemory

theorem hitsOn_cons_of_hits {key : String} {counters : Counters} {s : Time × LimiterCall}
    {rest : LimiterCalls} (h : s.2.hits key = true) :
    hitsOn key counters (s :: rest) = (s.1, (step counters s.1 s.2).2.any (·.allowed)) ::
      hitsOn key (step counters s.1 s.2).1 rest := by
  rw [hitsOn]
  exact if_pos h

theorem hitsOn_cons_of_not {key : String} {counters : Counters} {s : Time × LimiterCall}
    {rest : LimiterCalls} (h : s.2.hits key ≠ true) :
    hitsOn key counters (s :: rest) = hitsOn key (step counters s.1 s.2).1 rest := by
  rw [hitsOn]
  exact if_neg h

/-- The times of the hits are times of calls. -/
theorem hitsOn_sublist (key : String) (counters : Counters) (calls : LimiterCalls) :
    ((hitsOn key counters calls).map Prod.fst).Sublist (calls.map Prod.fst) := by
  induction calls generalizing counters with
  | nil => exact List.Sublist.refl _
  | cons s rest ih =>
    by_cases h : s.2.hits key = true
    · rw [hitsOn_cons_of_hits h, List.map_cons, List.map_cons]
      exact (ih _).cons_cons _
    · rw [hitsOn_cons_of_not h, List.map_cons]
      exact (ih _).cons _

/-- On a key that sees hits with one limit and one window, and peeks, the limiter is a
fixed-window counter. -/
theorem hitsOn_eq_judged {key : String} {L W : Int} (hlimit : 0 ≤ L) (calls : LimiterCalls)
    {now : Time} {counters : Counters} (hsince : calls.Since now) (hfixed : calls.Fixed key L W) :
    hitsOn key counters calls = judged L.toNat (W : Time) (window counters now key)
      ((hitsOn key counters calls).map Prod.fst) := by
  induction calls generalizing now counters with
  | nil => rfl
  | cons s rest ih =>
    have hrest := @ih s.1 (step counters s.1 s.2).1 hsince.2 fun c hc =>
      hfixed c (List.mem_cons_of_mem _ hc)
    have hcall := hfixed s List.mem_cons_self
    have hmoved : window counters s.1 key = Window.at_ (window counters now key) s.1 :=
      window_of_le counters key hsince.1
    by_cases hhits : s.2.hits key = true
    · have hhit : s.2 = .hit key L W := by
        cases hc : s.2 with
        | hit other limit length =>
          rw [hc] at hhits hcall
          have hkey : other = key := beq_iff_eq.1 hhits
          exact (hcall hkey).resolve_right Bool.false_ne_true
        | peek | reset =>
          rw [hc] at hhits
          cases hhits
      have hwindow : window (step counters s.1 s.2).1 s.1 key =
          Window.afterHit (window counters s.1 key) s.1 (W : Time) := by
        rw [hhit]
        exact window_hit_self counters s.1 key L W
      have hallowed : (step counters s.1 s.2).2.any (·.allowed) =
          Decidable.decide (Window.countOf (window counters s.1 key) < L.toNat) := by
        rw [hhit]
        show (hit counters s.1 key L W).2.allowed = _
        rw [hit_allowed]
        refine decide_eq_decide.2 ?_
        omega
      rw [hitsOn_cons_of_hits hhits, List.map_cons, judged, ← hmoved, hallowed, ← hwindow]
      exact congrArg _ hrest
    · have hwindow : window (step counters s.1 s.2).1 s.1 key = window counters s.1 key := by
        by_cases hkey : s.2.key = key
        · cases hc : s.2 with
          | hit other limit length =>
            rw [hc] at hhits hkey
            exact absurd (beq_iff_eq.2 hkey) hhits
          | peek other asked => rfl
          | reset other =>
            rw [hc] at hcall hkey
            obtain h | h := hcall hkey <;> cases h
        · exact window_step_of_ne counters s.1 s.1 hkey
      have hlater : ∀ t ∈ (hitsOn key (step counters s.1 s.2).1 rest).map Prod.fst, s.1 ≤ t := by
        intro t ht
        obtain ⟨c, hc, rfl⟩ := List.mem_map.1 ((hitsOn_sublist _ _ _).subset ht)
        exact hsince.2.le c hc
      rw [hwindow, hmoved, judged_at hlater] at hrest
      rw [hitsOn_cons_of_not hhits]
      exact hrest

end InMemory

theorem LimiterCalls.Since.pairwise {now : Time} {calls : LimiterCalls} (h : calls.Since now) :
    (calls.map Prod.fst).Pairwise (· ≤ ·) := by
  induction calls generalizing now with
  | nil => exact List.Pairwise.nil
  | cons s rest ih =>
    refine List.pairwise_cons.2 ⟨fun t ht => ?_, ih h.2⟩
    obtain ⟨c, hc, rfl⟩ := List.mem_map.1 ht
    exact h.2.le c hc

/-- The budget of a key on which every hit has the limit `L` and the window `W`: at most
`2 * L` hits are allowed in any half-open interval as long as the window, and in each
window the first ones, as many as there are up to `L`. -/
theorem hits_budget {key : String} {L W : Int} {calls : LimiterCalls} (hlimit : 0 ≤ L)
    (hwindow : 0 < W) (hsince : calls.Since 0) (hfixed : calls.Fixed key L W) :
    (∀ a : Time,
      (admittedIn (W : Time) a (InMemory.hitsOn key InMemory.empty calls) : Int) ≤ 2 * L ∧
      (admittedAfter (W : Time) a (InMemory.hitsOn key InMemory.empty calls) : Int) ≤ 2 * L) ∧
    ∀ hits ∈ windows (W : Time) (InMemory.hitsOn key InMemory.empty calls),
      hits.map Prod.snd = List.replicate (min L.toNat hits.length) true ++
        List.replicate (hits.length - L.toNat) false := by
  have hjudged := @InMemory.hitsOn_eq_judged key L W hlimit calls 0 InMemory.empty hsince hfixed
  rw [InMemory.window_empty le_rfl key] at hjudged
  have hsorted := hsince.pairwise.sublist
    (InMemory.hitsOn_sublist key InMemory.empty calls)
  have hlength : (0 : Time) < W := by exact_mod_cast hwindow
  refine ⟨fun a => ⟨?_, ?_⟩, ?_⟩
  · rw [hjudged]
    have hle := @admitted_le _ _ _ L.toNat _ _ hlength a _ none hsorted
    omega
  · rw [hjudged]
    have hle := @admittedAfter_judged_le _ _ _ L.toNat _ _ _ hlength a _ none hsorted
    omega
  · rw [hjudged]
    exact windows_judged hlength _

/-- Five attempts within two windows of a minute, and calls in between. -/
def Sample.attempts : LimiterCalls :=
  [(0, .hit "login:ip:a" 2 60), (30, .peek "login:ip:a" 5), (59, .hit "login:ip:a" 2 60),
    (59, .hit "login:ip:a" 2 60), (119 / 2, .reset "login:ip:b"), (60, .hit "login:ip:a" 2 60),
    (61, .hit "login:ip:a" 2 60)]

theorem hits_budget_attempts :
    admittedIn (60 : Time) 30 (InMemory.hitsOn "login:ip:a" InMemory.empty Sample.attempts) = 3 ∧
    ∀ a : Time, (admittedIn ((60 : Int) : Time) a
      (InMemory.hitsOn "login:ip:a" InMemory.empty Sample.attempts) : Int) ≤ 2 * 2 :=
  ⟨by decide +kernel, fun a =>
    ((hits_budget (by decide) (by decide) (by decide +kernel) (by decide +kernel)).1 a).1⟩

/-! ## The answers of the two limiters -/

namespace Redis

/-- One call to `RedisRateLimiter` at time `t`. -/
def step (keys : Keyspace) (t : Time) : LimiterCall → Keyspace × Option RateLimitDecision
  | .hit key limit window =>
      let r := hit keys t key limit window
      (r.1, some r.2)
  | .peek key limit => (keys, some (peek keys t key limit))
  | .reset key => (reset keys key, none)

/-- No counter. -/
def empty : Keyspace := fun _ => none

theorem nearest_intCast (n : Int) : nearest (n : ℚ) = n := by
  unfold nearest
  rw [Int.floor_intCast_add]
  norm_num

theorem nearest_nonneg {x : ℚ} (h : 0 ≤ x) : 0 ≤ nearest x := by
  unfold nearest
  exact Int.floor_nonneg.2 (by linarith)

variable {keys : Keyspace}

theorem timed_step (h : Timed keys) (t : Time) (call : LimiterCall) :
    Timed (step keys t call).1 := by
  cases call with
  | hit key limit length => exact timed_hit h t key limit length
  | peek key limit => exact h
  | reset key => exact timed_reset h key

theorem window_step_of_ne (h : Timed keys) (now t : Time) {call : LimiterCall} {key : String}
    (hne : call.key ≠ key) :
    window (step keys now call).1 t key = window keys t key := by
  cases call with
  | hit other limit length => exact window_hit_of_ne h now t limit length (Ne.symm hne)
  | peek other limit => rfl
  | reset other => exact window_reset_of_ne keys t (Ne.symm hne)

@[simp] theorem window_reset_self (now : Time) (key : String) :
    window (reset keys key) now key = none := by
  simp [window, live, reset]

/-- What `hit` answers, from the running window. -/
theorem hit_decision (h : Timed keys) (now : Time) (key : String) (limit length : Int) :
    (hit keys now key limit length).2 =
      decide (Window.countOf (window keys now key) + 1) limit
        (nearest (Window.left (window keys now key) now length)) true := by
  unfold hit incr
  rw [live_of_timed h]
  cases hw : window keys now key with
  | some w =>
    have hlt := lt_of_window hw
    have hge : 0 ≤ nearest (w.expiresAt - now) := nearest_nonneg (sub_pos.2 hlt).le
    simp [ttl, live, hlt, not_lt.2 hge]
  | none => simp [ttl, live, nearest_intCast]

/-- What `peek` answers, from the running window. -/
theorem peek_decision (h : Timed keys) (now : Time) (key : String) (limit : Int) :
    peek keys now key limit =
      decide (Window.countOf (window keys now key)) limit
        (nearest (Window.left (window keys now key) now 0)) false := by
  unfold peek ttl
  rw [live_of_timed h]
  cases hw : window keys now key with
  | some w =>
    have hge : 0 ≤ nearest (w.expiresAt - now) :=
      nearest_nonneg (sub_pos.2 (lt_of_window hw)).le
    simp [max_eq_left hge]
  | none =>
    have hzero : nearest 0 = 0 := nearest_intCast 0
    simp [hzero]

end Redis

/-- Two decisions that a client can only tell apart by a second of waiting. -/
structure RateLimitDecision.Agree (a b : RateLimitDecision) : Prop where
  allowed : a.allowed = b.allowed
  remaining : a.remaining = b.remaining
  retryAfter : |a.retryAfterSeconds - b.retryAfterSeconds| ≤ 1

/-- Cutting a time to seconds or rounding it makes a difference of one second at most. -/
theorem abs_pyInt_sub_nearest_le (x : ℚ) : |pyInt x - Redis.nearest x| ≤ 1 := by
  unfold pyInt Redis.nearest
  have hcut := Int.floor_le x
  have hcut' := Int.lt_floor_add_one x
  have hup := Int.le_ceil x
  have hup' := Int.ceil_lt_add_one x
  have hround := Int.floor_le (x + 1 / 2)
  have hround' := Int.lt_floor_add_one (x + 1 / 2)
  rw [abs_le]
  split
  · refine ⟨?_, ?_⟩
    · have h : ((⌊x + 1 / 2⌋ : ℤ) : ℚ) < (⌊x⌋ + 2 : ℤ) := by push_cast; linarith
      have h' := Int.cast_lt.1 h
      omega
    · have h : ((⌊x⌋ : ℤ) : ℚ) < (⌊x + 1 / 2⌋ + 1 : ℤ) := by push_cast; linarith
      have h' := Int.cast_lt.1 h
      omega
  · refine ⟨?_, ?_⟩
    · have h : ((⌊x + 1 / 2⌋ : ℤ) : ℚ) < (⌈x⌉ + 1 : ℤ) := by push_cast; linarith
      have h' := Int.cast_lt.1 h
      omega
    · have h : ((⌈x⌉ : ℤ) : ℚ) < (⌊x + 1 / 2⌋ + 2 : ℤ) := by push_cast; linarith
      have h' := Int.cast_lt.1 h
      omega

theorem RateLimitDecision.agree_decide (count : Nat) (limit : Int) (x : ℚ) (counted : Bool) :
    Agree (InMemory.decide count limit x counted)
      (Redis.decide count limit (Redis.nearest x) counted) where
  allowed := rfl
  remaining := rfl
  retryAfter := by
    have hle := (abs_max_sub_max_le_abs (pyInt x) (Redis.nearest x) 1).trans
      (abs_pyInt_sub_nearest_le x)
    unfold InMemory.decide Redis.decide
    dsimp only
    generalize (if counted = true then _ else _ : Bool) = allowed
    cases allowed with
    | true => simp
    | false => simpa using hle

/-- The two stores have the same windows running. -/
structure SameWindows (counters : InMemory.Counters) (keys : Redis.Keyspace) (now : Time) :
    Prop where
  nonneg : 0 ≤ now
  timed : Redis.Timed keys
  window : ∀ key, InMemory.window counters now key = Redis.window keys now key

namespace SameWindows

variable {counters : InMemory.Counters} {keys : Redis.Keyspace} {now : Time}

theorem later (h : SameWindows counters keys now) {t : Time} (ht : now ≤ t) :
    SameWindows counters keys t where
  nonneg := h.nonneg.trans ht
  timed := h.timed
  window key := by
    rw [InMemory.window_of_le counters key ht, Redis.window_of_le keys key ht, h.window key]

/-- A call to both limiters. -/
theorem step (h : SameWindows counters keys now) (call : LimiterCall) :
    SameWindows (InMemory.step counters now call).1 (Redis.step keys now call).1 now where
  nonneg := h.nonneg
  timed := Redis.timed_step h.timed now call
  window key := by
    by_cases hkey : call.key = key
    · subst hkey
      cases call with
      | hit key limit length =>
        show InMemory.window (InMemory.hit counters now key limit length).1 now key =
          Redis.window (Redis.hit keys now key limit length).1 now key
        rw [InMemory.window_hit_self, Redis.window_hit_self h.timed, h.window key]
      | peek key limit => exact h.window key
      | reset key =>
        show InMemory.window (InMemory.reset counters key) now key =
          Redis.window (Redis.reset keys key) now key
        rw [InMemory.window_reset_self h.nonneg, Redis.window_reset_self]
    · rw [InMemory.window_step_of_ne counters now now hkey,
        Redis.window_step_of_ne h.timed now now hkey, h.window key]

/-- Their answers to it. -/
theorem answer (h : SameWindows counters keys now) (call : LimiterCall) :
    Option.Rel RateLimitDecision.Agree (InMemory.step counters now call).2
      (Redis.step keys now call).2 := by
  cases call with
  | hit key limit length =>
    show Option.Rel _ (some (InMemory.hit counters now key limit length).2)
      (some (Redis.hit keys now key limit length).2)
    rw [InMemory.hit_decision, Redis.hit_decision h.timed, h.window key]
    exact .some (RateLimitDecision.agree_decide _ _ _ _)
  | peek key limit =>
    show Option.Rel _ (some (InMemory.peek counters now key limit))
      (some (Redis.peek keys now key limit))
    rw [InMemory.peek_decision, Redis.peek_decision h.timed, h.window key]
    exact .some (RateLimitDecision.agree_decide _ _ _ _)
  | reset key => exact .none

/-- Before any call. -/
theorem initial : SameWindows InMemory.empty Redis.empty 0 where
  nonneg := le_rfl
  timed := by
    intro key counter h
    cases h
  window key := InMemory.window_empty le_rfl key

/-- From stores with the same windows on, the limiters answer alike. -/
theorem answers {counters : InMemory.Counters} {keys : Redis.Keyspace} {now : Time}
    (h : SameWindows counters keys now) {calls : LimiterCalls} (hsince : calls.Since now) :
    List.Forall₂ (Option.Rel RateLimitDecision.Agree)
      (calls.answers InMemory.step counters) (calls.answers Redis.step keys) := by
  induction calls generalizing now counters keys with
  | nil => exact .nil
  | cons s rest ih =>
    have hnow := h.later hsince.1
    exact .cons (hnow.answer s.2) (ih (hnow.step s.2) hsince.2)

end SameWindows

/-- The two limiters can stand in for one another: started empty and given the same calls,
at times that do not decrease, they allow the same, report the same number of attempts
left, and differ by at most a second in how long to wait. -/
theorem limiters_agree {calls : LimiterCalls} (hsince : calls.Since 0) :
    List.Forall₂ (Option.Rel RateLimitDecision.Agree)
      (calls.answers InMemory.step InMemory.empty) (calls.answers Redis.step Redis.empty) :=
  SameWindows.initial.answers hsince

theorem limiters_agree_attempts :
    Sample.attempts.answers InMemory.step InMemory.empty ≠ [] ∧
    List.Forall₂ (Option.Rel RateLimitDecision.Agree)
      (Sample.attempts.answers InMemory.step InMemory.empty)
      (Sample.attempts.answers Redis.step Redis.empty) :=
  ⟨by decide +kernel, limiters_agree (by decide +kernel)⟩

/-! ## Waiting as long as the limiter says -/

/-- It asks the limiter whether an attempt on `key` is within `limit`. -/
def LimiterCall.asks (key : String) (limit : Int) : LimiterCall → Bool
  | .hit other asked _ | .peek other asked => other == key && asked == limit
  | .reset _ => false

namespace InMemory

/-- The counters after some calls. -/
def run : Counters → LimiterCalls → Counters
  | counters, [] => counters
  | counters, s :: rest => run (step counters s.1 s.2).1 rest

/-- Calls on other keys leave the window of a key alone. -/
theorem window_run_of_ne {counters : Counters} {calls : LimiterCalls} {key : String}
    (h : ∀ s ∈ calls, s.2.key ≠ key) (t : Time) :
    window (run counters calls) t key = window counters t key := by
  induction calls generalizing counters with
  | nil => rfl
  | cons s rest ih =>
    rw [run, ih fun c hc => h c (List.mem_cons_of_mem _ hc),
      window_step_of_ne counters s.1 t (h s List.mem_cons_self)]

theorem lt_of_window {counters : Counters} {now : Time} {key : String} {v : Window Time}
    (h : window counters now key = some v) : now < v.expiresAt := by
  unfold window at h
  by_cases hnow : now < (get counters key).2
  · rw [if_pos hnow] at h
    cases h
    exact hnow
  · rw [if_neg hnow] at h
    cases h

/-- A refusal comes from a running window that has used up the limit, and tells how long
it still runs, in whole seconds. -/
theorem refused_window {counters : Counters} {t : Time} {key : String} {limit : Int}
    {call : LimiterCall} {decision : RateLimitDecision} (hlimit : 1 ≤ limit)
    (hasks : call.asks key limit = true) (hanswer : (step counters t call).2 = some decision)
    (hrefused : decision.allowed = false) :
    ∃ v v', window counters t key = some v ∧
      window (step counters t call).1 t key = some v' ∧ v'.expiresAt = v.expiresAt ∧
      limit ≤ v'.count ∧ decision.retryAfterSeconds = max (pyInt (v.expiresAt - t)) 1 := by
  cases call with
  | reset other => cases hasks
  | peek other asked =>
    obtain ⟨rfl, rfl⟩ : other = key ∧ asked = limit := by simpa [LimiterCall.asks] using hasks
    have hd : decision = peek counters t other asked := (Option.some.inj hanswer).symm
    rw [peek_decision] at hd
    subst hd
    cases hw : window counters t other with
    | none =>
      rw [hw] at hrefused
      have hle : asked ≤ 0 := by simpa [decide] using hrefused
      omega
    | some v =>
      rw [hw] at hrefused
      have hle : asked ≤ (v.count : Int) := not_lt.1 (of_decide_eq_false hrefused)
      refine ⟨v, v, rfl, hw, rfl, hle, ?_⟩
      simp [decide, not_lt.2 hle]
  | hit other asked length =>
    obtain ⟨rfl, rfl⟩ : other = key ∧ asked = limit := by simpa [LimiterCall.asks] using hasks
    have hd : decision = (hit counters t other asked length).2 :=
      (Option.some.inj hanswer).symm
    rw [hit_decision] at hd
    subst hd
    cases hw : window counters t other with
    | none =>
      rw [hw] at hrefused
      have hlt : asked < 1 := by simpa [decide] using hrefused
      omega
    | some v =>
      rw [hw] at hrefused
      have hlt : asked < ((v.count + 1 : Nat) : Int) := not_le.1 (of_decide_eq_false hrefused)
      refine ⟨v, { v with count := v.count + 1 }, rfl, ?_, rfl, ?_, ?_⟩
      · show window (hit counters t other asked length).1 t other = _
        rw [window_hit_self, hw, Window.afterHit_some]
      · show asked ≤ ((v.count + 1 : Nat) : Int)
        omega
      · simp only [decide, Window.left_some, Window.countOf_some, if_pos]
        rw [if_neg]
        simpa using hlt

/-- A window that runs at `t` has run out after the whole seconds that are left, if these
are all that is left, and otherwise after the one second that is waited at least. -/
theorem expired_iff {t e : Time} (h : t < e) :
    e ≤ t + (max (pyInt (e - t)) 1 : Int) ↔ e - t ≤ 1 ∨ ∃ n : Int, e - t = n := by
  have hpos : 0 ≤ e - t := (sub_pos.2 h).le
  have hcut : pyInt (e - t) = ⌊e - t⌋ := if_pos hpos
  have hmax : ((max ⌊e - t⌋ 1 : Int) : ℚ) = max (⌊e - t⌋ : ℚ) 1 := by push_cast; rfl
  rw [hcut, hmax, ← sub_le_iff_le_add', le_max_iff]
  constructor
  · intro hle
    obtain hle | hle := hle
    · exact Or.inr ⟨⌊e - t⌋, le_antisymm hle (Int.floor_le _)⟩
    · exact Or.inl hle
  · intro hwhole
    obtain hle | ⟨n, hn⟩ := hwhole
    · exact Or.inr hle
    · left
      rw [hn, Int.floor_intCast]

end InMemory

/-- When waiting for as long as a refusal says is enough.  After it, and whatever is called
on other keys meanwhile, an attempt on the key is let through if and only if the time that
was left of the window is a whole number of seconds, or not more than one. -/
theorem retry_after_obeyed_iff {counters : InMemory.Counters} {t : Time} {key : String}
    {limit length : Int} {call : LimiterCall} {decision : RateLimitDecision}
    {between : LimiterCalls} (hlimit : 1 ≤ limit) (hasks : call.asks key limit = true)
    (hanswer : (InMemory.step counters t call).2 = some decision)
    (hrefused : decision.allowed = false) (hother : ∀ s ∈ between, s.2.key ≠ key) :
    let later := InMemory.run (InMemory.step counters t call).1 between
    let again := t + decision.retryAfterSeconds
    let left := Window.left (InMemory.window counters t key) t 0
    ((InMemory.peek later again key limit).allowed = true ↔ left ≤ 1 ∨ ∃ n : Int, left = n) ∧
    ((InMemory.hit later again key limit length).2.allowed = true ↔
      left ≤ 1 ∨ ∃ n : Int, left = n) := by
  intro later again left
  obtain ⟨v, v', hv, hv', hexpires, hfull, hretry⟩ :=
    InMemory.refused_window hlimit hasks hanswer hrefused
  have hleft : left = v.expiresAt - t := by
    show Window.left (InMemory.window counters t key) t 0 = _
    rw [hv, Window.left_some]
  have hrunning : t < v.expiresAt := InMemory.lt_of_window hv
  have hagain : t ≤ again := by
    have hone : (1 : Time) ≤ decision.retryAfterSeconds := by
      rw [hretry]
      exact_mod_cast le_max_right _ _
    show t ≤ t + decision.retryAfterSeconds
    linarith
  have hlater : InMemory.window later again key = Window.at_ (some v') again := by
    show InMemory.window (InMemory.run _ between) again key = _
    rw [InMemory.window_run_of_ne hother, InMemory.window_of_le _ key hagain, hv']
  have hroom : ((Window.countOf (InMemory.window later again key) : Int) < limit) ↔
      left ≤ 1 ∨ ∃ n : Int, left = n := by
    rw [hleft, ← InMemory.expired_iff hrunning, hlater, Window.at_some, ← hretry, hexpires]
    by_cases hout : v.expiresAt ≤ again
    · rw [if_neg (not_lt.2 hout)]
      exact ⟨fun _ => hout, fun _ => Int.lt_of_lt_of_le Int.one_pos hlimit⟩
    · rw [if_pos (not_le.1 hout)]
      exact ⟨fun h => absurd h (not_lt.2 hfull), fun h => absurd h hout⟩
  rw [InMemory.peek_allowed, InMemory.hit_allowed, decide_eq_true_iff]
  exact ⟨hroom, hroom⟩

/-- The counters after one failed attempt at time zero. -/
def Sample.oneHit : InMemory.Counters :=
  InMemory.run InMemory.empty [(0, .hit "login:ip:a" 1 60)]

theorem retry_after_obeyed_on_the_second :
    (InMemory.peek Sample.oneHit 60 "login:ip:a" 1).allowed = true := by
  have h := (@retry_after_obeyed_iff Sample.oneHit 1 "login:ip:a" 1 60 (.peek "login:ip:a" 1)
    ⟨false, 0, 59⟩ [] (by decide) (by decide) (by decide +kernel) rfl (by decide)).1.2
    (Or.inr ⟨59, by decide +kernel⟩)
  have htime : (1 : Time) + ((59 : Int) : Time) = 60 := by norm_num
  rwa [htime] at h

/-- Half a second into the window the client is told to wait for 59 seconds, and is then
refused again. -/
theorem retry_too_early :
    InMemory.peek Sample.oneHit (1 / 2) "login:ip:a" 1 =
      { allowed := false, remaining := 0, retryAfterSeconds := 59 } ∧
    (InMemory.peek Sample.oneHit (1 / 2 + 59) "login:ip:a" 1).allowed = false ∧
    (InMemory.hit Sample.oneHit (1 / 2 + 59) "login:ip:a" 1 60).2.allowed = false := by
  decide +kernel

end VideoSite.Users
