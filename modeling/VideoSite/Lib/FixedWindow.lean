import Mathlib.Algebra.Order.Monoid.Defs
import Mathlib.Order.MinMax
import Mathlib.Tactic.Common

/-!
# Fixed-window counters

A counter of a fixed-window limiter starts with its first hit, counts the hits
until it runs out a fixed time later, and then starts again with the next one.
`Window` is such a counter while it runs, over any ordered clock.

An interval as long as a window meets at most two windows of a key: one that
was running when the interval began, and one that started in it.  So a limiter
that admits a hit only while the count is below the limit admits at most twice
the limit in the interval.  `Spent` is the invariant behind that bound.

* `Spent.at_` and `Spent.admitted` say how it moves with the clock and with a hit
  that was admitted, and `Spent.mono` that a hit need not be counted.
* `Spent.le` is the bound.

`judged` is a counter over a list of hits, with the verdict on each.

* `admitted_le` and `admittedAfter_judged_le` are the bound for it, for the intervals open
  on the right and on the left.
* `windows_judged` says that the verdicts of one window are those of its first hits, as
  many as the limit allows.

`ofHits` reads a counter off the hits of its window: `at_ofHits` and `afterHit_ofHits` say
that the counter moves as the list of hits does.
-/

namespace FixedWindow

/-- A running window: the hits counted in it, and when it ends. -/
structure Window (T : Type) where
  count : Nat
  expiresAt : T
  deriving DecidableEq, Repr

namespace Window

variable {T : Type} [LinearOrder T]

/-- What is left at `t` of a window that was running earlier. -/
def at_ (running : Option (Window T)) (t : T) : Option (Window T) :=
  running.filter fun v => decide (t < v.expiresAt)

/-- The window after one more hit at `now`: the running one with its count
raised, or a new one of the given length.  A window of no length never runs. -/
def afterHit [AddCommMonoid T] (running : Option (Window T)) (now length : T) :
    Option (Window T) :=
  match running with
  | some v => some { v with count := v.count + 1 }
  | none => if 0 < length then some { count := 1, expiresAt := now + length } else none

/-- The count that the next hit is judged by. -/
def countOf (running : Option (Window T)) : Nat :=
  match running with
  | some v => v.count
  | none => 0

/-- The time until the window runs out, or `idle` if there is none. -/
def left [Sub T] (running : Option (Window T)) (now idle : T) : T :=
  match running with
  | some v => v.expiresAt - now
  | none => idle

omit [LinearOrder T] in
@[simp] theorem left_some [Sub T] (v : Window T) (now idle : T) :
    left (some v) now idle = v.expiresAt - now := rfl

omit [LinearOrder T] in
@[simp] theorem left_none [Sub T] (now idle : T) : left none now idle = idle := rfl

omit [LinearOrder T] in
@[simp] theorem countOf_some (v : Window T) : countOf (some v) = v.count := rfl

omit [LinearOrder T] in
@[simp] theorem countOf_none : countOf (none : Option (Window T)) = 0 := rfl

theorem at_some {v : Window T} {t : T} :
    at_ (some v) t = if t < v.expiresAt then some v else none := by
  by_cases h : t < v.expiresAt <;> simp [at_, Option.filter, h]

@[simp] theorem at_none (t : T) : at_ (none : Option (Window T)) t = none := rfl

@[simp] theorem afterHit_some [AddCommMonoid T] (v : Window T) (now length : T) :
    afterHit (some v) now length = some { v with count := v.count + 1 } := rfl

theorem afterHit_none [AddCommMonoid T] (now length : T) :
    afterHit none now length =
      if 0 < length then some { count := 1, expiresAt := now + length } else none := rfl

end Window

open Window

variable {T : Type} [LinearOrder T]

/-! ## The hits of an interval -/

/-- `n` hits were admitted so far in an interval that ends at `stop` and is as
long as a window.  A window that runs out before `stop` was running when the
interval began and counted them all; one that outlives it started in it, on
top of at most `limit` hits of the window before. -/
def Spent (limit : Nat) (stop : T) (running : Option (Window T)) (n : Nat) : Prop :=
  match running with
  | none => n ≤ limit
  | some v =>
      if v.expiresAt < stop then n ≤ min v.count limit
      else n ≤ limit + min v.count limit

namespace Spent

variable {limit n : Nat} {stop : T} {running : Option (Window T)}

theorem of_none (h : n ≤ limit) : Spent limit stop none n := h

theorem some_iff {v : Window T} :
    Spent limit stop (some v) n ↔
      if v.expiresAt < stop then n ≤ min v.count limit
      else n ≤ limit + min v.count limit := Iff.rfl

theorem of_before {v : Window T} (hv : v.expiresAt < stop) (h : n ≤ min v.count limit) :
    Spent limit stop (some v) n := by
  rwa [some_iff, if_pos hv]

theorem of_within {v : Window T} (hv : stop ≤ v.expiresAt)
    (h : n ≤ limit + min v.count limit) : Spent limit stop (some v) n := by
  rwa [some_iff, if_neg (not_lt.2 hv)]

theorem before {v : Window T} (h : Spent limit stop (some v) n)
    (hv : v.expiresAt < stop) : n ≤ min v.count limit := by
  rwa [some_iff, if_pos hv] at h

theorem within {v : Window T} (h : Spent limit stop (some v) n)
    (hv : stop ≤ v.expiresAt) : n ≤ limit + min v.count limit := by
  rwa [some_iff, if_neg (not_lt.2 hv)] at h

theorem zero : Spent limit stop running 0 := by
  cases running with
  | none => exact of_none (Nat.zero_le _)
  | some v =>
    rcases lt_or_ge v.expiresAt stop with hv | hv
    · exact of_before hv (Nat.zero_le _)
    · exact of_within hv (Nat.zero_le _)

theorem mono {m : Nat} (h : Spent limit stop running n) (hm : m ≤ n) :
    Spent limit stop running m := by
  cases running with
  | none => exact hm.trans h
  | some v =>
    rcases lt_or_ge v.expiresAt stop with hv | hv
    · exact of_before hv (hm.trans (h.before hv))
    · exact of_within hv (hm.trans (h.within hv))

/-- The bound: two windows. -/
theorem le (h : Spent limit stop running n) : n ≤ 2 * limit := by
  cases running with
  | none =>
    have hn : n ≤ limit := h
    omega
  | some v =>
    rcases lt_or_ge v.expiresAt stop with hv | hv
    · have hn := h.before hv
      omega
    · have hn := h.within hv
      omega

/-- The clock moves on, inside the interval. -/
theorem at_ (h : Spent limit stop running n) {t : T} (ht : t < stop) :
    Spent limit stop (Window.at_ running t) n := by
  cases running with
  | none => exact h
  | some v =>
    rw [at_some]
    by_cases hv : t < v.expiresAt
    · rwa [if_pos hv]
    · rw [if_neg hv]
      have hbefore : v.expiresAt < stop := lt_of_le_of_lt (not_lt.1 hv) ht
      have hn := h.before hbefore
      exact of_none (hn.trans (min_le_right _ _))

variable [AddCommMonoid T] [IsOrderedAddMonoid T] {a t length : T}

/-- A hit of the interval that the limiter admitted. -/
theorem admitted (h : Spent limit (a + length) running n) (ht : a ≤ t)
    (hlength : 0 < length) (hopen : countOf running < limit) :
    Spent limit (a + length) (Window.afterHit running t length) (n + 1) := by
  cases running with
  | none =>
    have hn : n ≤ limit := h
    rw [countOf_none] at hopen
    rw [afterHit_none, if_pos hlength]
    exact of_within (add_le_add_left ht length)
      (by show n + 1 ≤ limit + min 1 limit; omega)
  | some v =>
    rw [countOf_some] at hopen
    rw [afterHit_some]
    rcases lt_or_ge v.expiresAt (a + length) with hv | hv
    · have hn := h.before hv
      exact of_before hv (by show n + 1 ≤ min (v.count + 1) limit; omega)
    · have hn := h.within hv
      exact of_within hv (by show n + 1 ≤ limit + min (v.count + 1) limit; omega)

end Spent

/-! ## A counter over a list of hits -/

namespace Spent

/-- A hit that was refused. -/
theorem refused [AddCommMonoid T] {limit n : Nat} {stop t length : T}
    {running : Option (Window T)} (h : Spent limit stop running n)
    (hfull : ¬ countOf running < limit) (hlimit : 0 < limit) :
    Spent limit stop (Window.afterHit running t length) n := by
  cases running with
  | none =>
    rw [countOf_none] at hfull
    omega
  | some v =>
    rw [afterHit_some]
    rcases lt_or_ge v.expiresAt stop with hv | hv
    · have hn := h.before hv
      exact of_before hv (by show n ≤ min (v.count + 1) limit; omega)
    · have hn := h.within hv
      exact of_within hv (by show n ≤ limit + min (v.count + 1) limit; omega)

end Spent

section Judged

variable [AddCommMonoid T] (limit : Nat) (length : T)

/-- The verdicts on the hits at the given times. -/
def judged : Option (Window T) → List T → List (T × Bool)
  | _, [] => []
  | running, t :: rest =>
      (t, decide (countOf (Window.at_ running t) < limit)) ::
        judged (Window.afterHit (Window.at_ running t) t length) rest

/-- How many hits at a time in `[a, a + length)` were admitted. -/
def admittedIn (a : T) (hits : List (T × Bool)) : Nat :=
  hits.countP fun hit => hit.2 && decide (a ≤ hit.1) && decide (hit.1 < a + length)

variable {limit length}

theorem admittedIn_cons (a : T) (hit : T × Bool) (rest : List (T × Bool)) :
    admittedIn length a (hit :: rest) = admittedIn length a rest +
      if hit.2 = true ∧ a ≤ hit.1 ∧ hit.1 < a + length then 1 else 0 := by
  unfold admittedIn
  rw [List.countP_cons]
  simp [and_assoc]

theorem judged_map_fst : ∀ (running : Option (Window T)) (times : List T),
    (judged limit length running times).map Prod.fst = times
  | _, [] => rfl
  | running, t :: rest => by
      rw [judged, List.map_cons, judged_map_fst]

/-- Hits after the interval do not count. -/
theorem admittedIn_of_le {a : T} {hits : List (T × Bool)}
    (h : ∀ hit ∈ hits, a + length ≤ hit.1) : admittedIn length a hits = 0 := by
  unfold admittedIn
  rw [List.countP_eq_zero]
  intro hit hmem
  simp [not_lt.2 (h hit hmem)]

variable [IsOrderedAddMonoid T]

/-- What is left of the interval, once `n` of its hits were admitted. -/
theorem Spent.admittedIn_le (hlength : 0 < length) (hlimit : 0 < limit) {a : T} :
    ∀ (times : List T) {running : Option (Window T)} {n : Nat},
      times.Pairwise (· ≤ ·) → (∀ t ∈ times, a ≤ t) →
      Spent limit (a + length) running n →
      n + admittedIn length a (judged limit length running times) ≤ 2 * limit
  | [], _, n, _, _, h => h.le
  | t :: rest, running, n, hsorted, hfrom, h => by
      obtain ⟨hfirst, hrest⟩ := List.pairwise_cons.1 hsorted
      have hat : a ≤ t := hfrom t List.mem_cons_self
      have hfrom' : ∀ s ∈ rest, a ≤ s := fun s hs => hfrom s (List.mem_cons_of_mem _ hs)
      rcases lt_or_ge t (a + length) with hin | hout
      · have hmoved := h.at_ hin
        rw [judged, admittedIn_cons]
        by_cases hopen : countOf (Window.at_ running t) < limit
        · have hnext := Spent.admittedIn_le hlength hlimit rest hrest hfrom'
            (hmoved.admitted hat hlength hopen)
          rw [if_pos ⟨decide_eq_true hopen, hat, hin⟩]
          omega
        · have hfull : Spent limit (a + length)
              (Window.afterHit (Window.at_ running t) t length) n := hmoved.refused hopen hlimit
          have hnext := Spent.admittedIn_le hlength hlimit rest hrest hfrom' hfull
          rw [if_neg fun hc => hopen (of_decide_eq_true hc.1)]
          omega
      · have hlate : admittedIn length a (judged limit length running (t :: rest)) = 0 := by
          refine admittedIn_of_le fun hit hhit => ?_
          have hmem : hit.1 ∈ (judged limit length running (t :: rest)).map Prod.fst :=
            List.mem_map_of_mem hhit
          rw [judged_map_fst] at hmem
          rcases List.mem_cons.1 hmem with he | hs
          · rw [he]
            exact hout
          · exact hout.trans (hfirst _ hs)
        have hn := h.le
        omega

theorem admitted_le_of_pos (hlength : 0 < length) (hlimit : 0 < limit) (a : T) :
    ∀ (times : List T) (running : Option (Window T)), times.Pairwise (· ≤ ·) →
      admittedIn length a (judged limit length running times) ≤ 2 * limit
  | [], _, _ => Nat.zero_le _
  | t :: rest, running, hsorted => by
      obtain ⟨hfirst, hrest⟩ := List.pairwise_cons.1 hsorted
      by_cases hat : a ≤ t
      · have hfrom : ∀ s ∈ t :: rest, a ≤ s := by
          intro s hs
          rcases List.mem_cons.1 hs with rfl | hs
          · exact hat
          · exact hat.trans (hfirst s hs)
        have hzero : Spent limit (a + length) running 0 := Spent.zero
        have hle := Spent.admittedIn_le hlength hlimit (t :: rest) hsorted hfrom hzero
        omega
      · -- the interval has not begun
        rw [judged, admittedIn_cons, if_neg fun hc => hat hc.2.1]
        exact admitted_le_of_pos hlength hlimit a rest _ hrest

omit [IsOrderedAddMonoid T] in
/-- A limit of zero admits nothing. -/
theorem admittedIn_judged_zero (a : T) : ∀ (times : List T) (running : Option (Window T)),
    admittedIn length a (judged 0 length running times) = 0
  | [], _ => rfl
  | t :: rest, running => by
      have hnone : ¬ countOf (Window.at_ running t) < 0 := Nat.not_lt_zero _
      rw [judged, admittedIn_cons, if_neg fun hc => hnone (of_decide_eq_true hc.1),
        admittedIn_judged_zero a rest]

/-- The bound: at most twice the limit in an interval as long as a window. -/
theorem admitted_le (hlength : 0 < length) (a : T) (times : List T)
    (running : Option (Window T)) (hsorted : times.Pairwise (· ≤ ·)) :
    admittedIn length a (judged limit length running times) ≤ 2 * limit := by
  cases limit with
  | zero =>
    have hnone : admittedIn length a (judged 0 length running times) = 0 :=
      admittedIn_judged_zero a times running
    omega
  | succ limit => exact admitted_le_of_pos hlength (Nat.succ_pos limit) a times running hsorted

/-! ### Intervals open on the left -/

/-- How many hits at a time in `(a, a + length]` were admitted. -/
def admittedAfter (length a : T) (hits : List (T × Bool)) : Nat :=
  hits.countP fun hit => hit.2 && decide (a < hit.1) && decide (hit.1 ≤ a + length)

omit [IsOrderedAddMonoid T] in
theorem admittedAfter_cons_of_not {a : T} {hit : T × Bool} (rest : List (T × Bool))
    (h : ¬ a < hit.1) : admittedAfter length a (hit :: rest) = admittedAfter length a rest := by
  unfold admittedAfter
  rw [List.countP_cons_of_neg]
  simp [h]

omit [IsOrderedAddMonoid T] in
/-- The hits that follow one in the interval all fall into the closed-open interval that
begins with it. -/
theorem admittedAfter_le [AddLeftStrictMono T] {a t : T} (ht : a < t)
    {hits : List (T × Bool)} (hfrom : ∀ hit ∈ hits, t ≤ hit.1) :
    admittedAfter length a hits ≤ admittedIn length t hits := by
  unfold admittedAfter admittedIn
  refine List.countP_mono_left fun hit hmem hin => ?_
  simp only [Bool.and_eq_true, decide_eq_true_eq] at hin ⊢
  exact ⟨⟨hin.1.1, hfrom hit hmem⟩, lt_of_le_of_lt hin.2 (add_lt_add_left ht length)⟩

/-- The bound holds as well of the intervals that are open on the left. -/
theorem admittedAfter_judged_le [AddLeftStrictMono T] (hlength : 0 < length) (a : T) :
    ∀ (times : List T) (running : Option (Window T)), times.Pairwise (· ≤ ·) →
      admittedAfter length a (judged limit length running times) ≤ 2 * limit
  | [], _, _ => Nat.zero_le _
  | t :: rest, running, hsorted => by
      obtain ⟨hfirst, hrest⟩ := List.pairwise_cons.1 hsorted
      by_cases hat : a < t
      · refine le_trans (admittedAfter_le hat fun hit hmem => ?_)
          (admitted_le hlength t (t :: rest) running hsorted)
        have hmem' := List.mem_map_of_mem (f := Prod.fst) hmem
        rw [judged_map_fst] at hmem'
        rcases List.mem_cons.1 hmem' with he | hs
        · exact he.ge
        · exact hfirst _ hs
      · rw [judged, admittedAfter_cons_of_not _ hat]
        exact admittedAfter_judged_le hlength a rest _ hrest

end Judged

/-! ## The hits of one window -/

section Windows

variable [AddCommMonoid T] {limit : Nat} {length : T}

/-- Hits by the window they fall into.  A window begins with the first hit after the one
before it has run out, and lasts `length`. -/
def windows (length : T) : List (T × Bool) → List (List (T × Bool))
  | [] => []
  | hit :: rest =>
      (hit :: rest.takeWhile fun other => decide (other.1 < hit.1 + length)) ::
        windows length (rest.dropWhile fun other => decide (other.1 < hit.1 + length))
termination_by hits => hits.length
decreasing_by
  have hle := (List.dropWhile_suffix (l := rest)
    fun other => decide (other.1 < hit.1 + length)).length_le
  simp only [List.length_cons]
  omega

/-- The verdicts of `k` hits in a window that has counted `c` before. -/
def verdicts (limit c : Nat) : Nat → List Bool
  | 0 => []
  | k + 1 => decide (c < limit) :: verdicts limit (c + 1) k

theorem length_verdicts (c k : Nat) : (verdicts limit c k).length = k := by
  induction k generalizing c with
  | zero => rfl
  | succ k ih => rw [verdicts, List.length_cons, ih]

/-- The first hits are admitted, as many as the limit has room for. -/
theorem verdicts_eq (c k : Nat) : verdicts limit c k =
    List.replicate (min (limit - c) k) true ++ List.replicate (k - (limit - c)) false := by
  induction k generalizing c with
  | zero => simp [verdicts]
  | succ k ih =>
    rw [verdicts, ih]
    by_cases hc : c < limit
    · have hleft : min (limit - c) (k + 1) = min (limit - (c + 1)) k + 1 := by omega
      have hover : k + 1 - (limit - c) = k - (limit - (c + 1)) := by omega
      rw [hleft, hover, List.replicate_succ, decide_eq_true hc, List.cons_append]
    · have hnone : min (limit - c) (k + 1) = 0 := by omega
      have hnone' : min (limit - (c + 1)) k = 0 := by omega
      have hall : k + 1 - (limit - c) = k - (limit - (c + 1)) + 1 := by omega
      rw [hnone, hnone', hall, List.replicate_succ, decide_eq_false hc]
      rfl

/-- The hits in a running window are judged by its count. -/
theorem judged_takeWhile (e : T) : ∀ (times : List T) (c : Nat),
    ∃ k, ((judged limit length (some ⟨c, e⟩) times).takeWhile
      fun hit => decide (hit.1 < e)).map Prod.snd = verdicts limit c k
  | [], _ => ⟨0, rfl⟩
  | t :: rest, c => by
      by_cases ht : t < e
      · obtain ⟨k, hk⟩ := judged_takeWhile e rest (c + 1)
        refine ⟨k + 1, ?_⟩
        rw [judged, at_some, if_pos ht, List.takeWhile_cons_of_pos (by simpa using ht),
          List.map_cons, afterHit_some, hk]
        rfl
      · refine ⟨0, ?_⟩
        rw [judged, List.takeWhile_cons_of_neg (by simpa using ht)]
        rfl

/-- When the window has run out, the counter starts again. -/
theorem judged_dropWhile (e : T) : ∀ (times : List T) (c : Nat),
    (judged limit length (some ⟨c, e⟩) times).dropWhile (fun hit => decide (hit.1 < e)) =
      judged limit length none (times.dropWhile fun t => decide (t < e))
  | [], _ => rfl
  | t :: rest, c => by
      by_cases ht : t < e
      · rw [judged, at_some, if_pos ht, List.dropWhile_cons_of_pos (by simpa using ht),
          List.dropWhile_cons_of_pos (by simpa using ht), afterHit_some]
        exact judged_dropWhile e rest (c + 1)
      · rw [judged, List.dropWhile_cons_of_neg (by simpa using ht),
          List.dropWhile_cons_of_neg (by simpa using ht), judged, at_some, if_neg ht, at_none]

/-- Of the hits of a window the first ones are admitted, as many as the limit allows. -/
theorem windows_judged (hlength : 0 < length) (times : List T) :
    ∀ hits ∈ windows length (judged limit length none times), hits.map Prod.snd =
      List.replicate (min limit hits.length) true ++
        List.replicate (hits.length - limit) false := by
  induction hn : times.length using Nat.strong_induction_on generalizing times with
  | _ n ih =>
    cases times with
    | nil =>
      intro hits hhits
      rw [judged, windows] at hhits
      cases hhits
    | cons t rest =>
      intro hits hhits
      rw [judged, windows, at_none, afterHit_none, if_pos hlength, judged_dropWhile] at hhits
      rcases List.mem_cons.1 hhits with rfl | hlater
      · obtain ⟨k, hk⟩ := @judged_takeWhile T _ _ limit length (t + length) rest 1
        have hall : List.map Prod.snd ((t, decide (countOf (none : Option (Window T)) < limit)) ::
            (judged limit length (some ⟨1, t + length⟩) rest).takeWhile
              fun hit => decide (hit.1 < t + length)) = verdicts limit 0 (k + 1) := by
          rw [List.map_cons, hk]
          rfl
        have hcount := congrArg List.length hall
        rw [List.length_map, length_verdicts] at hcount
        rw [hall, hcount, verdicts_eq]
        rfl
      · refine ih _ ?_ _ rfl hits hlater
        refine lt_of_le_of_lt (List.dropWhile_suffix _).length_le ?_
        rw [← hn, List.length_cons]
        omega

end Windows

/-! ## A window as the list of its hits -/

section Hits

variable [AddCommGroup T] [IsOrderedAddMonoid T] {length t t' : T}

/-- What is left at `t` of a window with the given hits: all of them, for as long as it
lasts from the first one on. -/
def hitsAt (length t : T) : List T → List T
  | [] => []
  | s :: rest => if t < s + length then s :: rest else []

/-- One more hit at `t`: in the window, or the first one of the next. -/
def hitsAfter (length t : T) (hits : List T) : List T := hitsAt length t hits ++ [t]

/-- The counter of a window. -/
def Window.ofHits (length : T) : List T → Option (Window T)
  | [] => none
  | s :: rest => some ⟨rest.length + 1, s + length⟩

omit [LinearOrder T] [IsOrderedAddMonoid T] in
theorem countOf_ofHits (hits : List T) : countOf (Window.ofHits length hits) = hits.length := by
  cases hits <;> rfl

omit [IsOrderedAddMonoid T] in
theorem at_ofHits (hits : List T) :
    Window.at_ (Window.ofHits length hits) t = Window.ofHits length (hitsAt length t hits) := by
  cases hits with
  | nil => rfl
  | cons s rest =>
    rw [Window.ofHits, at_some, hitsAt]
    show (if t < s + length then _ else _) = _
    split
    · rfl
    · rfl

omit [IsOrderedAddMonoid T] in
/-- The clock moves on. -/
theorem hitsAt_hitsAt (h : t ≤ t') (hits : List T) :
    hitsAt length t' (hitsAt length t hits) = hitsAt length t' hits := by
  cases hits with
  | nil => rfl
  | cons s rest =>
    by_cases ht : t < s + length
    · rw [hitsAt, if_pos ht]
    · have ht' : ¬ t' < s + length := fun hlt => ht (lt_of_le_of_lt h hlt)
      rw [hitsAt, if_neg ht, hitsAt, hitsAt, if_neg ht']

/-- A hit on the counter is one more hit in the list. -/
theorem afterHit_ofHits (hits : List T) :
    Window.afterHit (Window.ofHits length (hitsAt length t hits)) t length =
      Window.ofHits length (hitsAt length t (hitsAfter length t hits)) := by
  unfold hitsAfter
  cases hrunning : hitsAt length t hits with
  | nil =>
    rw [Window.ofHits, afterHit_none, List.nil_append, hitsAt]
    by_cases hlength : 0 < length
    · rw [if_pos hlength, if_pos (lt_add_of_pos_right t hlength)]
      rfl
    · rw [if_neg hlength, if_neg fun hlt => hlength ((lt_add_iff_pos_right t).1 hlt)]
      rfl
  | cons s rest =>
    have hlt : t < s + length := by
      cases hits with
      | nil => cases hrunning
      | cons s' rest' =>
        rw [hitsAt] at hrunning
        split at hrunning
        · cases hrunning
          assumption
        · cases hrunning
    rw [Window.ofHits, afterHit_some, List.cons_append, hitsAt, if_pos hlt, Window.ofHits]
    simp

end Hits

end FixedWindow
