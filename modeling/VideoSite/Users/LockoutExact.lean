import VideoSite.Users.Lockout
import VideoSite.Users.LoginAnswer
import VideoSite.Users.LimiterRuns

/-!
# The lockout as a function of the history

What `LoginUseCase` answers is compared with a reference that keeps nothing but the list
of past attempts: for an address, the failures since its window began, and for an account
the same, with a success in between clearing it.

* `LoginUseCase.verdictOf` is the reference: the verdict on an attempt, from the history
  and from whether the credentials are right.
* `Counts` says that the counters are those of the history, and `Counts.step` that an
  attempt keeps it.
* `lockout_exact` says that every attempt of a run gets the verdict of the reference, and
  that a refused one changes nothing.
-/

namespace VideoSite.Users

open Effects Program FixedWindow

variable {env : Env} {t now : Time} {w : World}

/-! ## The reference -/

/-- How an attempt to log in can end. -/
inductive Verdict where
  | rateLimited
  | locked
  | invalid
  | success
  deriving DecidableEq, Repr

/-- The verdict that an answer carries. -/
def Verdict.of? {α : Type} : Except Failure α → Option Verdict
  | .ok _ => some .success
  | .error (.application (.rateLimited _ _)) => some .rateLimited
  | .error (.application (.accountLocked _)) => some .locked
  | .error (.application (.invalidCredentials _)) => some .invalid
  | .error _ => none

/-- An attempt was refused by one of the counters. -/
def Verdict.refused : Verdict → Bool
  | .rateLimited | .locked => true
  | _ => false

/-- An attempt of the past. -/
structure Attempt where
  time : Time
  ip : Option String
  email : String
  verdict : Verdict
  deriving DecidableEq

namespace LoginUseCase

/-- The failures from `ip` in its window, after one more attempt. -/
def ipStep (length : Time) (ip : String) (failures : List Time) (a : Attempt) : List Time :=
  if a.ip = some ip ∧ a.verdict = .invalid then hitsAfter length a.time failures else failures

/-- The failures from `ip` in its window, as of the last attempt. -/
def ipFailures (length : Time) (ip : String) (history : List Attempt) : List Time :=
  history.foldl (ipStep length ip) []

/-- The failures on `email` in its window, after one more attempt. -/
def accountStep (length : Time) (email : String) (failures : List Time) (a : Attempt) :
    List Time :=
  if a.email = email then
    match a.verdict with
    | .invalid => hitsAfter length a.time failures
    | .success => []
    | _ => failures
  else failures

/-- The failures on `email` in its window, as of the last attempt. -/
def accountFailures (length : Time) (email : String) (history : List Attempt) : List Time :=
  history.foldl (accountStep length email) []

/-- At least `limit` of the failures are in the window that runs at `t`. -/
def usedUp (policy : RateLimitPolicy) (t : Time) (failures : List Time) : Bool :=
  decide (policy.limit ≤ ((hitsAt (policy.windowSeconds : Time) t failures).length : Int))

/-- The failures from the address have used up its limit. -/
def ipUsedUp (env : Env) (history : List Attempt) (t : Time) (ip : Option String) : Bool :=
  ip.any fun ip => usedUp env.config.loginIpPolicy t
    (ipFailures env.config.loginIpPolicy.windowSeconds ip history)

/-- The failures on the account have used up its limit. -/
def accountUsedUp (env : Env) (history : List Attempt) (t : Time) (email : String) : Bool :=
  usedUp env.config.loginAccountPolicy t
    (accountFailures env.config.loginAccountPolicy.windowSeconds email history)

/-- The verdict on an attempt. -/
def verdictOf (env : Env) (history : List Attempt) (t : Time) (ip : Option String)
    (email : String) (accepted : Bool) : Verdict :=
  if ipUsedUp env history t ip then .rateLimited
  else if accountUsedUp env history t email then .locked
  else if accepted then .success
  else .invalid

@[simp] theorem ipFailures_append (length : Time) (ip : String) (history : List Attempt)
    (a : Attempt) : ipFailures length ip (history ++ [a]) =
      ipStep length ip (ipFailures length ip history) a := by
  simp [ipFailures]

@[simp] theorem accountFailures_append (length : Time) (email : String)
    (history : List Attempt) (a : Attempt) : accountFailures length email (history ++ [a]) =
      accountStep length email (accountFailures length email history) a := by
  simp [accountFailures]

end LoginUseCase

/-! ## The counters are those of the history -/

/-- The running window of a key, from the failures that are counted in it. -/
abbrev windowOf (policy : RateLimitPolicy) (t : Time) (failures : List Time) :
    Option (Window Time) :=
  Window.ofHits (policy.windowSeconds : Time) (hitsAt (policy.windowSeconds : Time) t failures)

/-- The counters of addresses and accounts are those of the history. -/
structure Counts (env : Env) (history : List Attempt) (now : Time) (limits : Limits) :
    Prop where
  ip : ∀ ip, Limits.window env.backend limits now (LoginUseCase.ipKey ip) =
    windowOf env.config.loginIpPolicy now
      (LoginUseCase.ipFailures env.config.loginIpPolicy.windowSeconds ip history)
  account : ∀ email, Limits.window env.backend limits now (LoginUseCase.accountKey email) =
    windowOf env.config.loginAccountPolicy now
      (LoginUseCase.accountFailures env.config.loginAccountPolicy.windowSeconds email history)

theorem windowOf_later (policy : RateLimitPolicy) (h : now ≤ t) (failures : List Time) :
    Window.at_ (windowOf policy now failures) t = windowOf policy t failures := by
  unfold windowOf
  rw [at_ofHits, hitsAt_hitsAt h]

/-- A failure at `t` counts as one more hit. -/
theorem windowOf_hit (policy : RateLimitPolicy) (t : Time) (failures : List Time) :
    Window.afterHit (windowOf policy t failures) t policy.windowSeconds =
      windowOf policy t (hitsAfter (policy.windowSeconds : Time) t failures) :=
  afterHit_ofHits failures

namespace Counts

variable {history : List Attempt} {limits : Limits}

theorem later (h : Counts env history now limits) (ht : now ≤ t) :
    Counts env history t limits where
  ip ip := by
    rw [Limits.window_of_le _ ht, h.ip ip, windowOf_later _ ht]
  account email := by
    rw [Limits.window_of_le _ ht, h.account email, windowOf_later _ ht]

/-- Before any attempt. -/
theorem initial : Counts env [] 0 Limits.empty where
  ip ip := by
    cases hb : env.backend with
    | memory => exact InMemory.window_empty le_rfl _
    | redis => rfl
  account email := by
    cases hb : env.backend with
    | memory => exact InMemory.window_empty le_rfl _
    | redis => rfl

/-- A key is refused once its failures have used up the limit. -/
theorem allowed (hl : limits.Timed) {key : String} {policy : RateLimitPolicy}
    {failures : List Time}
    (hkey : Limits.window env.backend limits t key = windowOf policy t failures) :
    (Limits.peek env.backend limits t key policy).allowed =
      !LoginUseCase.usedUp policy t failures := by
  rw [Limits.peek_allowed hl, hkey, countOf_ofHits]
  unfold LoginUseCase.usedUp
  by_cases hused : policy.limit ≤ ((hitsAt (policy.windowSeconds : Time) t failures).length : Int)
  · rw [decide_eq_true hused, decide_eq_false (not_lt.2 hused)]
    rfl
  · rw [decide_eq_false hused, decide_eq_true (not_le.1 hused)]
    rfl

end Counts

/-! ## One attempt -/

theorem LoginUseCase.ipKey_injective : Function.Injective LoginUseCase.ipKey := by
  intro a b h
  have hlist := congrArg String.toList h
  simpa [LoginUseCase.ipKey, toString, String.toList_inj] using hlist

/-- A failed login raises the counter of the address it came from and of no other. -/
theorem LoginUseCase.window_charged_ip {limits : Limits} (hl : limits.Timed)
    (henforced : env.config.loginIpPolicy.isEnforced = true) (email ip : String)
    (device : DeviceInfoDTO) :
    Limits.window env.backend (charged env limits t email device) t (ipKey ip) =
      if device.ipAddress = some ip then
        Window.afterHit (Limits.window env.backend limits t (ipKey ip)) t
          env.config.loginIpPolicy.windowSeconds
      else Limits.window env.backend limits t (ipKey ip) := by
  unfold charged
  cases device.ipAddress with
  | none =>
    rw [if_neg (Option.some_ne_none ip).symm]
    exact Limits.window_charge_of_ne hl t _ (ipKey_ne_accountKey ip email)
  | some own =>
    have hkeys : (ipKey ip = ipKey own) = (some own = some ip) :=
      propext (ipKey_injective.eq_iff.trans (eq_comm.trans Option.some_inj.symm))
    show Limits.window env.backend ((limits.charge env t env.config.loginIpPolicy
      (ipKey own)).charge env t env.config.loginAccountPolicy (accountKey email)) t _ = _
    rw [Limits.window_charge_of_ne (Limits.timed_charge hl _ _ _) t _
        (ipKey_ne_accountKey ip email), Limits.window_charge hl t henforced,
      if_congr (iff_of_eq hkeys) rfl rfl]

theorem Limits.window_reset_self {limits : Limits} (ht : 0 ≤ t) (backend : Backend)
    (key : String) : Limits.window backend (Limits.reset backend limits key) t key = none := by
  cases backend with
  | memory => exact InMemory.window_reset_self ht _ key
  | redis => exact Redis.window_reset_self t key

namespace Counts

variable {history : List Attempt} {limits : Limits} {email : String} {device : DeviceInfoDTO}

/-- An attempt that is refused, or that leaves no trace in the history. -/
theorem refused (h : Counts env history t limits) {v : Verdict} (hv : v.refused = true) :
    Counts env (history ++ [⟨t, device.ipAddress, email, v⟩]) t limits where
  ip ip := by
    have hno : ¬ (device.ipAddress = some ip ∧ v = .invalid) := by
      intro hboth
      rw [hboth.2] at hv
      cases hv
    rw [h.ip ip, LoginUseCase.ipFailures_append, LoginUseCase.ipStep, if_neg hno]
  account other := by
    rw [h.account other, LoginUseCase.accountFailures_append, LoginUseCase.accountStep]
    split
    · cases v with
      | rateLimited | locked => rfl
      | _ => cases hv
    · rfl

/-- A failure is one more in both windows. -/
theorem invalid (h : Counts env history t limits) (hl : limits.Timed)
    (hip : env.config.loginIpPolicy.isEnforced = true)
    (haccount : env.config.loginAccountPolicy.isEnforced = true) :
    Counts env (history ++ [⟨t, device.ipAddress, email, .invalid⟩]) t
      (LoginUseCase.charged env limits t email device) where
  ip ip := by
    rw [LoginUseCase.window_charged_ip hl hip, LoginUseCase.ipFailures_append,
      LoginUseCase.ipStep, h.ip ip]
    by_cases he : device.ipAddress = some ip
    · rw [if_pos he, if_pos ⟨he, rfl⟩]
      exact windowOf_hit _ _ _
    · rw [if_neg he, if_neg fun hboth => he hboth.1]
  account other := by
    rw [LoginUseCase.window_charged hl haccount, LoginUseCase.accountFailures_append,
      LoginUseCase.accountStep, h.account other]
    by_cases he : other = email
    · rw [if_pos he, if_pos he.symm]
      exact windowOf_hit _ _ _
    · rw [if_neg he, if_neg (Ne.symm he)]

/-- A success clears the window of the account, and nothing else. -/
theorem success (h : Counts env history t limits) (ht : 0 ≤ t) :
    Counts env (history ++ [⟨t, device.ipAddress, email, .success⟩]) t
      (Limits.reset env.backend limits (LoginUseCase.accountKey email)) where
  ip ip := by
    rw [Limits.window_reset_of_ne t (LoginUseCase.ipKey_ne_accountKey ip email), h.ip ip,
      LoginUseCase.ipFailures_append, LoginUseCase.ipStep,
      if_neg fun hboth => Verdict.noConfusion hboth.2]
  account other := by
    rw [LoginUseCase.accountFailures_append, LoginUseCase.accountStep]
    by_cases he : other = email
    · subst he
      rw [Limits.window_reset_self ht, if_pos rfl]
      rfl
    · have hne : LoginUseCase.accountKey other ≠ LoginUseCase.accountKey email :=
        fun hkey => he (LoginUseCase.accountKey_injective hkey)
      rw [Limits.window_reset_of_ne t hne, h.account other, if_neg (Ne.symm he)]

/-- The guard of the address refuses as the reference does. -/
theorem ipRefusal_of_usedUp (h : Counts env history t limits) (hl : limits.Timed)
    (hip : env.config.loginIpPolicy.isEnforced = true)
    (hused : LoginUseCase.ipUsedUp env history t device.ipAddress = true) :
    ∃ wait message, LoginUseCase.ipRefusal env limits t device =
      some (.rateLimited wait message) := by
  unfold LoginUseCase.ipUsedUp at hused
  unfold LoginUseCase.ipRefusal
  cases hdevice : device.ipAddress with
  | none =>
    rw [hdevice] at hused
    cases hused
  | some ip =>
    rw [hdevice, Option.any_some] at hused
    simp [hip, allowed hl (h.ip ip), hused]

theorem ipRefusal_of_not_usedUp (h : Counts env history t limits) (hl : limits.Timed)
    (hused : LoginUseCase.ipUsedUp env history t device.ipAddress = false) :
    LoginUseCase.ipRefusal env limits t device = none := by
  unfold LoginUseCase.ipUsedUp at hused
  unfold LoginUseCase.ipRefusal
  cases hdevice : device.ipAddress with
  | none => simp
  | some ip =>
    rw [hdevice, Option.any_some] at hused
    simp [allowed hl (h.ip ip), hused]

/-- The guard of the account refuses as the reference does. -/
theorem accountRefusal_of_usedUp (h : Counts env history t limits) (hl : limits.Timed)
    (haccount : env.config.loginAccountPolicy.isEnforced = true)
    (hused : LoginUseCase.accountUsedUp env history t email = true) :
    ∃ wait, LoginUseCase.accountRefusal env limits t email = some (.accountLocked wait) := by
  unfold LoginUseCase.accountUsedUp at hused
  unfold LoginUseCase.accountRefusal
  simp [haccount, allowed hl (h.account email), hused]

theorem accountRefusal_of_not_usedUp (h : Counts env history t limits) (hl : limits.Timed)
    (hused : LoginUseCase.accountUsedUp env history t email = false) :
    LoginUseCase.accountRefusal env limits t email = none := by
  unfold LoginUseCase.accountUsedUp at hused
  unfold LoginUseCase.accountRefusal
  simp [allowed hl (h.account email), hused]

/-- What a login shows has the verdict of the reference, and leaves the counters of the
longer history. -/
theorem shown (h : Counts env history t limits) (hl : limits.Timed) (ht : 0 ≤ t)
    (hip : env.config.loginIpPolicy.isEnforced = true)
    (haccount : env.config.loginAccountPolicy.isEnforced = true) (accepted : Bool) {v : Verdict}
    (hv : v = LoginUseCase.verdictOf env history t device.ipAddress email accepted) :
    Verdict.of? (LoginUseCase.shown env limits t email device accepted).2 = some v ∧
      Counts env (history ++ [⟨t, device.ipAddress, email, v⟩]) t
        (LoginUseCase.shown env limits t email device accepted).1 := by
  unfold LoginUseCase.verdictOf at hv
  unfold LoginUseCase.shown
  cases hipUsed : LoginUseCase.ipUsedUp env history t device.ipAddress with
  | true =>
    obtain ⟨wait, message, hrefusal⟩ := h.ipRefusal_of_usedUp hl hip hipUsed
    rw [hipUsed, if_pos rfl] at hv
    rw [hrefusal, hv]
    exact ⟨rfl, h.refused rfl⟩
  | false =>
    rw [hipUsed, if_neg Bool.false_ne_true] at hv
    rw [h.ipRefusal_of_not_usedUp hl hipUsed]
    cases haccountUsed : LoginUseCase.accountUsedUp env history t email with
    | true =>
      obtain ⟨wait, hrefusal⟩ := h.accountRefusal_of_usedUp hl haccount haccountUsed
      rw [haccountUsed, if_pos rfl] at hv
      rw [hrefusal, hv]
      exact ⟨rfl, h.refused rfl⟩
    | false =>
      rw [haccountUsed, if_neg Bool.false_ne_true] at hv
      rw [h.accountRefusal_of_not_usedUp hl haccountUsed, hv]
      cases accepted with
      | true => exact ⟨rfl, h.success ht⟩
      | false => exact ⟨rfl, h.invalid hl hip haccount⟩

end Counts

/-- A refused login changes nothing. -/
theorem login_refused {data : LoginDTO} {device : Option DeviceInfoDTO} {e : ApplicationError}
    (h : LoginUseCase.ipRefusal env w.limits t (device.getD {}) = some e ∨
      LoginUseCase.ipRefusal env w.limits t (device.getD {}) = none ∧
        LoginUseCase.accountRefusal env w.limits t (env.normalize data.email) = some e) :
    runCall env w t (.login data device) = (w.nextCall, .error (.application e)) := by
  have hrun : wp (handler env t) ((Call.login data device).program env)
      (fun s out => s.1 = w ∧ out = .error (.application e)) (w, Tx.fresh w.calls) := by
    simp only [Call.program, Users.login, monad_bind, wp_map, wp_bind]
    rw [wp_guardIp_refusal]
    refine ⟨fun hip => ?_, fun e' hip => ?_⟩
    · have haccount := (h.resolve_left fun hsome => by rw [hip] at hsome; cases hsome).2
      simp only [andThen_ok, wp_bind]
      rw [wp_guardAccount_refusal]
      refine ⟨fun hnone => ?_, fun e' hsome => ?_⟩
      · rw [haccount] at hnone
        cases hnone
      · rw [haccount] at hsome
        cases hsome
        exact ⟨rfl, rfl⟩
    · rcases h with hsome | ⟨hnone, -⟩
      · rw [hip] at hsome
        cases hsome
        exact ⟨rfl, rfl⟩
      · rw [hip] at hnone
        cases hnone
  exact Prod.ext (congrArg World.nextCall hrun.1) hrun.2

/-! ## Runs -/

/-- Attempts to log in, each with its time. -/
abbrev Logins := List (Time × LoginDTO × Option DeviceInfoDTO)

/-- The attempts as calls. -/
def Logins.calls (logins : Logins) : Calls := logins.map fun s => (s.1, .login s.2.1 s.2.2)

/-- The history that a run leaves: every attempt with the verdict it got. -/
def Logins.history (env : Env) : World → Logins → List Attempt
  | _, [] => []
  | w, s :: rest =>
      let r := runCall env w s.1 (.login s.2.1 s.2.2)
      ((Verdict.of? r.2).map fun v =>
        (⟨s.1, (s.2.2.getD {}).ipAddress, env.normalize s.2.1.email, v⟩ : Attempt)).toList ++
        Logins.history env r.1 rest

/-- The verdict of the reference on an attempt that is made in `w`. -/
def LoginUseCase.expected (env : Env) (w : World) (history : List Attempt) (t : Time)
    (data : LoginDTO) (device : Option DeviceInfoDTO) : Verdict :=
  LoginUseCase.verdictOf env history t (device.getD {}).ipAddress (env.normalize data.email)
    (LoginUseCase.accepts env (w.db.userByEmail (env.normalize data.email)) data.password)

theorem Verdict.of?_seen (out : Except Failure Answer) :
    Verdict.of? (seen out) = Verdict.of? out := by
  cases out with
  | ok a => rfl
  | error e =>
    cases e with
    | application error => cases error <;> rfl
    | _ => rfl

/-- One attempt: it gets the verdict of the reference, it changes nothing if it is refused,
and the counters are those of the longer history afterwards. -/
theorem Counts.login (hw : w.Wf env) (hip : env.config.loginIpPolicy.isEnforced = true)
    (haccount : env.config.loginAccountPolicy.isEnforced = true) {history : List Attempt}
    (h : Counts env history t w.limits) (ht : 0 ≤ t) (data : LoginDTO)
    (device : Option DeviceInfoDTO) {v : Verdict}
    (hv : v = LoginUseCase.expected env w history t data device) :
    Verdict.of? (runCall env w t (.login data device)).2 = some v ∧
      (v.refused = true → (runCall env w t (.login data device)).1 = w.nextCall) ∧
      Counts env (history ++ [⟨t, (device.getD {}).ipAddress, env.normalize data.email, v⟩]) t
        (runCall env w t (.login data device)).1.limits := by
  have hshows := @login_shows env t w hw data device
  have hshown := h.shown hw.timed ht hip haccount
    (LoginUseCase.accepts env (w.db.userByEmail (env.normalize data.email)) data.password) hv
  rw [← hshows.seen, ← hshows.limits, Verdict.of?_seen] at hshown
  refine ⟨hshown.1, fun hrefused => ?_, hshown.2⟩
  unfold LoginUseCase.expected LoginUseCase.verdictOf at hv
  cases hipUsed : LoginUseCase.ipUsedUp env history t (device.getD {}).ipAddress with
  | true =>
    obtain ⟨wait, message, hrefusal⟩ := h.ipRefusal_of_usedUp hw.timed hip hipUsed
    rw [login_refused (Or.inl hrefusal)]
  | false =>
    have hopen := h.ipRefusal_of_not_usedUp hw.timed hipUsed
    rw [hipUsed, if_neg Bool.false_ne_true] at hv
    cases haccountUsed : LoginUseCase.accountUsedUp env history t (env.normalize data.email) with
    | true =>
      obtain ⟨wait, hrefusal⟩ := h.accountRefusal_of_usedUp hw.timed haccount haccountUsed
      rw [login_refused (Or.inr ⟨hopen, hrefusal⟩)]
    | false =>
      rw [haccountUsed, if_neg Bool.false_ne_true] at hv
      rw [hv] at hrefused
      split at hrefused
      · cases hrefused
      · cases hrefused

/-- After a run the counters are those of its history. -/
theorem Counts.run (hip : env.config.loginIpPolicy.isEnforced = true)
    (haccount : env.config.loginAccountPolicy.isEnforced = true) {logins : Logins}
    {history : List Attempt} (hw : w.Wf env) (h : Counts env history now w.limits)
    (hnow : 0 ≤ now) (hordered : OrderedFrom now logins.calls) :
    (runCalls env w logins.calls).Wf env ∧ 0 ≤ lastTime now logins.calls ∧
      Counts env (history ++ logins.history env w) (lastTime now logins.calls)
        (runCalls env w logins.calls).limits := by
  induction logins generalizing w history now with
  | nil =>
    refine ⟨hw, hnow, ?_⟩
    rw [Logins.history, List.append_nil]
    exact h
  | cons s rest ih =>
    obtain ⟨hlater, hrest⟩ := hordered
    have ht : 0 ≤ s.1 := hnow.trans hlater
    obtain ⟨hverdict, -, hcounts⟩ := (h.later hlater).login hw hip haccount ht s.2.1 s.2.2 rfl
    obtain ⟨hw', ht', hrun⟩ := ih (runCall_wf hw s.1 (.login s.2.1 s.2.2)) hcounts ht hrest
    refine ⟨hw', ht', ?_⟩
    rw [Logins.history, hverdict]
    rw [List.append_assoc] at hrun
    exact hrun

/-- The lockout is exact.  In a run of logins with both policies in force every attempt
gets the verdict of the reference: it is rate-limited if and only if the failures from its
address have used up the limit in the running window, else locked if and only if those on
its account have, and is otherwise decided by the credentials.  A refused attempt changes
nothing, and after every attempt the counters are those of the history. -/
theorem lockout_exact {w₀ : World} (h₀ : Initial env w₀)
    (hip : env.config.loginIpPolicy.isEnforced = true)
    (haccount : env.config.loginAccountPolicy.isEnforced = true) {before rest : Logins}
    {data : LoginDTO} {device : Option DeviceInfoDTO}
    (hordered : OrderedFrom 0 (before ++ (t, data, device) :: rest).calls) :
    let w := runCalls env w₀ before.calls
    let history := before.history env w₀
    let verdict := LoginUseCase.expected env w history t data device
    Verdict.of? (runCall env w t (.login data device)).2 = some verdict ∧
      (verdict.refused = true → (runCall env w t (.login data device)).1 = w.nextCall) ∧
      Counts env
        (history ++ [⟨t, (device.getD {}).ipAddress, env.normalize data.email, verdict⟩]) t
        (runCall env w t (.login data device)).1.limits := by
  intro w history verdict
  have hsplit : OrderedFrom 0 (before.calls ++ (t, .login data device) :: rest.calls) := by
    unfold Logins.calls at hordered ⊢
    rw [List.map_append, List.map_cons] at hordered
    exact hordered
  obtain ⟨hbefore, hlater, -⟩ := orderedFrom_append.1 hsplit
  have hinitial : Counts env [] 0 w₀.limits := by
    rw [h₀.limits]
    exact Counts.initial
  obtain ⟨hw, hnow, hcounts⟩ := hinitial.run hip haccount h₀.wf le_rfl hbefore
  rw [List.nil_append] at hcounts
  exact (hcounts.later hlater).login hw hip haccount (hnow.trans hlater) data device rfl

/-! ### Two wrong passwords and a right one -/

theorem Initial.of_supply {env env' : Env} (h : Initial env w) (he : env'.supply = env.supply) :
    Initial env' w :=
  { h with
    freshUserIds := he ▸ h.freshUserIds
    freshRoleIds := he ▸ h.freshRoleIds
    freshPermissionIds := he ▸ h.freshPermissionIds }

namespace Sample

/-- Both policies are in force: three failures for an address, one for an account. -/
def strict : Env :=
  { Sample.env with
    config := { Sample.config with loginIpPolicy := policy 3 } }

/-- A browser at an address. -/
def device : DeviceInfoDTO := { ipAddress := some "10.0.0.1" }

/-- Alice types a wrong password, and again at once. -/
def wrong : Logins :=
  [(10, ⟨"alice", "guess"⟩, some device), (11, ⟨"alice", "guess"⟩, some device)]

end Sample

theorem lockout_exact_sample :
    Verdict.of? (runCall Sample.strict (runCalls Sample.strict Sample.world Sample.wrong.calls) 12
      (.login ⟨"alice", "secret"⟩ (some Sample.device))).2 = some .locked := by
  have h := (@lockout_exact Sample.strict 12 Sample.world (Sample.initial.of_supply rfl) rfl rfl
    Sample.wrong [] ⟨"alice", "secret"⟩ (some Sample.device) (by decide +kernel)).1
  have hverdict : LoginUseCase.expected Sample.strict
      (runCalls Sample.strict Sample.world Sample.wrong.calls)
      (Sample.wrong.history Sample.strict Sample.world) 12 ⟨"alice", "secret"⟩
      (some Sample.device) = .locked := by
    decide +kernel
  rwa [hverdict] at h

end VideoSite.Users
