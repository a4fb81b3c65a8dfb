import VideoSite.Users.Reachable

/-!
# The lockout of an account over a sequential run

A login counts its failure against the address it was made for, and is refused once
the window of that address has used up the limit.  So an account sees at most two
limits of wrong passwords in an interval as long as a window, as long as every wrong
password is one of a login.  `ChangePassword` checks a password against the same hash
and counts nothing.

* `Effect.guess` says what a call does to the counter of an account and to the number
  of wrong passwords tried on it.
* `guesses_bounded` is the bound for runs in which `ChangePassword` gets no wrong
  password in the interval and the account keeps its address.
* `uncharged_guesses` is a run that exceeds it.
-/

namespace VideoSite.Users

open Effects Program FixedWindow

variable {env : Env} {t now : Time} {w w' : World} {c : Call} {out : Except Failure Answer}
  {u : UserId} {a stop : Time}

/-! ## Wrong passwords -/

/-- A wrong password was checked against the hash of `u` at a time in `[a, stop)`. -/
def PasswordCheck.Guesses (u : UserId) (a stop : Time) (check : PasswordCheck) : Prop :=
  check.userId = u ∧ check.ok = false ∧ a ≤ check.time ∧ check.time < stop

instance (u : UserId) (a stop : Time) (check : PasswordCheck) :
    Decidable (check.Guesses u a stop) := by
  unfold PasswordCheck.Guesses
  infer_instance

/-- How often that happened. -/
def World.guesses (w : World) (u : UserId) (a stop : Time) : Nat :=
  w.checks.countP fun check => decide (check.Guesses u a stop)

theorem World.guesses_congr (h : w'.checks = w.checks) :
    w'.guesses u a stop = w.guesses u a stop := by
  unfold guesses
  rw [h]

theorem World.guesses_append {check : PasswordCheck} (h : w'.checks = w.checks ++ [check]) :
    w'.guesses u a stop =
      w.guesses u a stop + if check.Guesses u a stop then 1 else 0 := by
  unfold guesses
  rw [h, List.countP_append, List.countP_singleton]
  simp

theorem World.guesses_append_of_not {check : PasswordCheck}
    (h : w'.checks = w.checks ++ [check]) (hnot : ¬ check.Guesses u a stop) :
    w'.guesses u a stop = w.guesses u a stop := by
  rw [guesses_append h, if_neg hnot, Nat.add_zero]

theorem World.guesses_append_le {check : PasswordCheck}
    (h : w'.checks = w.checks ++ [check]) :
    w'.guesses u a stop ≤ w.guesses u a stop + 1 := by
  rw [guesses_append h]
  split <;> omega

theorem PasswordCheck.not_guesses_of_ok {check : PasswordCheck} (h : check.ok = true) :
    ¬ check.Guesses u a stop := by
  rintro ⟨-, hwrong, -⟩
  rw [h] at hwrong
  cases hwrong

/-! ## The calls that the lockout does not see -/

/-- The call is a successful login to the account `u`. -/
def Call.LogsIn (env : Env) (w : World) (t : Time) (u : UserId) (c : Call) : Prop :=
  ∃ data device result, c = .login data device ∧
    (runCall env w t c).2 = .ok (.auth result) ∧ result.user.id = u

/-- The call is a `ChangePassword` for `u` with a wrong current password. -/
def Call.GuessesUncharged (env : Env) (w : World) (u : UserId) (c : Call) : Prop :=
  ∃ data device user, c = .changePassword u data device ∧
    data.newPassword = data.newPasswordRepeat ∧ w.db.userById u = some user ∧
    env.hasher.verify data.currentPassword user.passwordHash = false

/-- Every wrong password that the call checks against the hash of `u` is counted, and
counted against the address that the account had before. -/
def Call.Charged (env : Env) (w : World) (u : UserId) (c : Call) : Prop :=
  ¬ c.GuessesUncharged env w u ∧ ¬ c.Readdresses env w u

/-! ## What a call does to a counter -/

/-- The running window of an address. -/
def World.lockout (env : Env) (w : World) (t : Time) (email : String) :
    Option (Window Time) :=
  Limits.window env.backend w.limits t (LoginUseCase.accountKey email)

/-- The length of a window. -/
def Env.lockoutLength (env : Env) : Time := env.config.loginAccountPolicy.windowSeconds

/-- The limit of the policy, as a count. -/
def Env.lockoutLimit (env : Env) : Nat := env.config.loginAccountPolicy.limit.toNat

theorem World.lockout_of_le (w : World) (email : String) (h : now ≤ t) :
    w.lockout env t email = Window.at_ (w.lockout env now email) t :=
  Limits.window_of_le _ h

theorem Charges.lockout {limits : Limits} (h : Charges env t w.limits limits)
    (hw : w.limits.Timed) (email : String) :
    (w.withLimits limits).lockout env t email = w.lockout env t email := by
  unfold World.lockout
  change Limits.window env.backend limits t _ = _
  induction h with
  | refl => rfl
  | tail hfirst hstep ih =>
    obtain ⟨key, policy, hkey, rfl⟩ := hstep
    rw [Limits.window_hit_of_ne (Charges.timed hfirst hw) t t policy (hkey email).symm, ih]

theorem Limits.timed_charge {limits : Limits} (hl : limits.Timed) (t : Time)
    (policy : RateLimitPolicy) (key : String) : (limits.charge env t policy key).Timed := by
  unfold charge
  split
  · exact timed_hit hl _ _ _
  · exact hl

/-- A charge raises one counter. -/
theorem Limits.window_charge {limits : Limits} (hl : limits.Timed) (t : Time)
    {policy : RateLimitPolicy} (henforced : policy.isEnforced = true) (key other : String) :
    Limits.window env.backend (limits.charge env t policy key) t other =
      if other = key then
        Window.afterHit (Limits.window env.backend limits t other) t policy.windowSeconds
      else Limits.window env.backend limits t other := by
  unfold charge
  rw [if_pos henforced]
  by_cases he : other = key
  · subst he
    rw [if_pos rfl, window_hit_self hl]
  · rw [if_neg he]
    exact window_hit_of_ne hl t t _ he

/-- A charge to one key leaves the others alone. -/
theorem Limits.window_charge_of_ne {limits : Limits} (hl : limits.Timed) (t : Time)
    (policy : RateLimitPolicy) {key other : String} (h : other ≠ key) :
    Limits.window env.backend (limits.charge env t policy key) t other =
      Limits.window env.backend limits t other := by
  unfold charge
  split
  · exact window_hit_of_ne hl t t _ h
  · rfl

/-- A failed login raises the counter of its own address and of no other. -/
theorem LoginUseCase.window_charged {limits : Limits} (hl : limits.Timed)
    (henforced : env.config.loginAccountPolicy.isEnforced = true) (email other : String)
    (device : DeviceInfoDTO) :
    Limits.window env.backend (charged env limits t email device) t (accountKey other) =
      if other = email then
        Window.afterHit (Limits.window env.backend limits t (accountKey other)) t
          env.lockoutLength
      else Limits.window env.backend limits t (accountKey other) := by
  have hkeys : (accountKey other = accountKey email) = (other = email) :=
    propext accountKey_injective.eq_iff
  unfold charged
  cases device.ipAddress with
  | none =>
    show Limits.window env.backend (limits.charge env t _ _) t _ = _
    rw [Limits.window_charge hl t henforced, if_congr (iff_of_eq hkeys) rfl rfl]
    rfl
  | some ip =>
    show Limits.window env.backend ((limits.charge env t env.config.loginIpPolicy
      (ipKey ip)).charge env t env.config.loginAccountPolicy (accountKey email)) t _ = _
    rw [Limits.window_charge (Limits.timed_charge hl _ _ _) t henforced,
      Limits.window_charge_of_ne hl t _ (ipKey_ne_accountKey ip other).symm,
      if_congr (iff_of_eq hkeys) rfl rfl]
    rfl

theorem LoginUseCase.Open.countOf_lt {limits : Limits} {email : String}
    (h : LoginUseCase.Open env limits t email) (hl : limits.Timed)
    (henforced : env.config.loginAccountPolicy.isEnforced = true) :
    Window.countOf (Limits.window env.backend limits t (LoginUseCase.accountKey email)) <
      env.lockoutLimit := by
  have hallowed := h henforced
  rw [Limits.peek_allowed hl, decide_eq_true_eq] at hallowed
  unfold Env.lockoutLimit
  omega

/-- The checks of a login attempt that fails: at most one, against the account of the
address. -/
theorem LoginUseCase.tried_checks (env : Env) (w : World) (t : Time) (owner : Option User)
    (password : String) :
    (tried env w t owner password).checks = w.checks ∨
      ∃ user check, owner = some user ∧ check.userId = user.id ∧ check.time = t ∧
        (tried env w t owner password).checks = w.checks ++ [check] := by
  cases owner with
  | none => exact .inl rfl
  | some user =>
    by_cases hactive : user.isActive = true
    · refine .inr ⟨user, ⟨t, user.id, password, env.hasher.verify password user.passwordHash⟩,
        rfl, rfl, rfl, ?_⟩
      simp [tried, hactive]
    · left
      simp [tried, hactive]

/-- A call checks at most one password, at its own time, against the hash of an account
that exists. -/
theorem Effect.checks (hw : w.Wf env) (h : Effect env t w c out w') :
    w'.checks = w.checks ∨ ∃ check, check.time = t ∧
      w.db.hasUser check.userId = true ∧ w'.checks = w.checks ++ [check] := by
  have hbyEmail {email : String} {user : User} (huser : w.db.userByEmail email = some user) :
      w.db.hasUser user.id = true :=
    Db.hasUser_of_userById (hw.db.userById_of_userByEmail huser).1
  have hbyId {id : UserId} {user : User} (huser : w.db.userById id = some user) :
      w.db.hasUser user.id = true := by
    rw [(userById_row huser).1]
    exact Db.hasUser_of_userById huser
  cases h with
  | @loginFailed data device owner db e hopen howner hbad hdb =>
    rcases LoginUseCase.tried_checks env w t owner data.password with
      hsame | ⟨user, check, huser, hid, htime, happend⟩
    · exact .inl hsame
    · refine .inr ⟨check, htime, ?_, happend⟩
      rw [hid]
      exact hbyEmail (howner.trans huser)
  | loginClash hopen huser => exact .inr ⟨_, rfl, hbyEmail huser, rfl⟩
  | loggedIn hopen huser => exact .inr ⟨_, rfl, hbyEmail huser, rfl⟩
  | passwordTried hrepeat huser => exact .inr ⟨_, rfl, hbyId huser, rfl⟩
  | passwordChanged huser => exact .inr ⟨_, rfl, hbyId huser, rfl⟩
  | userUpdated =>
    left
    unfold UpdateUserUseCase.finished
    split <;> rfl
  | _ => exact .inl rfl

/-- What a call does to the wrong passwords tried on an account and to the counter of
its address, when it is no successful login and checks nothing uncharged: a wrong
password is one more hit of a window below the limit, and nothing else is counted. -/
theorem Effect.guess (hw : w.Wf env) (h : Effect env t w c out w')
    (hout : (runCall env w t c).2 = out)
    (henforced : env.config.loginAccountPolicy.isEnforced = true) {row : UserRow}
    (hrow : row ∈ w.db.users) (hlogin : ¬ c.LogsIn env w t row.id)
    (hcharged : ¬ c.GuessesUncharged env w row.id) :
    (w'.guesses row.id a stop = w.guesses row.id a stop ∧
        w'.lockout env t row.email = w.lockout env t row.email) ∨
      (w'.guesses row.id a stop ≤ w.guesses row.id a stop + 1 ∧
        Window.countOf (w.lockout env t row.email) < env.lockoutLimit ∧
        w'.lockout env t row.email =
          Window.afterHit (w.lockout env t row.email) t env.lockoutLength) := by
  have howner {email : String} {user : User} (huser : w.db.userByEmail email = some user)
      (hid : user.id = row.id) : row.email = email := by
    obtain ⟨hfound, hemail⟩ := hw.db.userById_of_userByEmail huser
    rw [← hemail, userById_of_row hfound (hid ▸ hw.db.userRow?_of_mem hrow)]
    rfl
  have hquiet (hchecks : w'.checks = w.checks)
      (hwindow : w'.lockout env t row.email = w.lockout env t row.email) :
      (w'.guesses row.id a stop = w.guesses row.id a stop ∧
        w'.lockout env t row.email = w.lockout env t row.email) :=
    ⟨World.guesses_congr hchecks, hwindow⟩
  cases h with
  | failed hl => exact .inl (hquiet rfl (hl.lockout hw.timed _))
  | observed hc hl => exact .inl (hquiet rfl (hl.lockout hw.timed _))
  | registered hl => exact .inl (hquiet rfl (hl.lockout hw.timed _))
  | resetRequested hl => exact .inl (hquiet rfl (hl.lockout hw.timed _))
  | passwordReset hl => exact .inl (hquiet rfl (hl.lockout hw.timed _))
  | @loginFailed data device owner db e hopen hfound hbad hdb =>
    have hwindow := LoginUseCase.window_charged (t := t) hw.timed henforced
      (env.normalize data.email) row.email (device.getD {})
    by_cases hemail : row.email = env.normalize data.email
    · rw [if_pos hemail] at hwindow
      refine .inr ⟨?_, ?_, hwindow⟩
      · rcases LoginUseCase.tried_checks env w t owner data.password
          with hsame | ⟨user, check, -, -, -, happend⟩
        · exact (World.guesses_congr hsame).le.trans (Nat.le_succ _)
        · exact World.guesses_append_le happend
      · unfold World.lockout
        rw [hemail]
        exact hopen.countOf_lt hw.timed henforced
    · rw [if_neg hemail] at hwindow
      refine .inl ⟨?_, hwindow⟩
      rcases LoginUseCase.tried_checks env w t owner data.password
        with hsame | ⟨user, check, huser, hcheck, -, happend⟩
      · exact World.guesses_congr hsame
      · refine World.guesses_append_of_not happend ?_
        rintro ⟨hid, -⟩
        exact hemail (howner (hfound.trans huser) (hcheck.symm.trans hid))
  | loginClash =>
    exact .inl ⟨World.guesses_append_of_not rfl (PasswordCheck.not_guesses_of_ok rfl), rfl⟩
  | @loggedIn data device user audit hopen huser hactive hverify haudit =>
    refine .inl ⟨World.guesses_append_of_not rfl (PasswordCheck.not_guesses_of_ok rfl), ?_⟩
    refine Limits.window_reset_of_ne t fun hkey => hlogin ⟨data, device, _, rfl, hout, ?_⟩
    have hemail := LoginUseCase.accountKey_injective hkey
    obtain ⟨hfound, hmail⟩ := hw.db.userById_of_userByEmail huser
    obtain ⟨-, other, hother, he⟩ := userById_row hfound
    have hsame : other = row := by
      refine hw.db.email_unique (Db.mem_of_userRow? hother) hrow ?_
      rw [hemail, ← hmail, he]
      rfl
    show user.id = row.id
    rw [he, hsame]
    rfl
  | @passwordTried userId data device e user hrepeat huser =>
    refine .inl ⟨World.guesses_append_of_not rfl ?_, rfl⟩
    rintro ⟨hid, hwrong, -⟩
    have hsame : userId = row.id := (userById_row huser).1.symm.trans hid
    subst hsame
    exact hcharged ⟨data, device, user, rfl, hrepeat, huser, hwrong⟩
  | passwordChanged =>
    exact .inl ⟨World.guesses_append_of_not rfl (PasswordCheck.not_guesses_of_ok rfl), rfl⟩
  | userUpdated =>
    refine .inl (hquiet ?_ ?_)
    · unfold UpdateUserUseCase.finished
      split <;> rfl
    · unfold UpdateUserUseCase.finished
      split <;> rfl
  | _ => exact .inl (hquiet rfl rfl)

/-! ## Runs -/

/-- The bound, as it moves along a run: `now` is the time of the last call. -/
structure World.Guarded (env : Env) (u : UserId) (a now : Time) (w : World) : Prop where
  wf : w.Wf env
  unknown : w.db.hasUser u = false → w.guesses u a (a + env.lockoutLength) = 0
  before : now < a → w.guesses u a (a + env.lockoutLength) = 0
  bound : w.guesses u a (a + env.lockoutLength) ≤ 2 * env.lockoutLimit
  spent : now < a + env.lockoutLength → ∀ row ∈ w.db.users, row.id = u →
    Spent env.lockoutLimit (a + env.lockoutLength) (w.lockout env now row.email)
      (w.guesses u a (a + env.lockoutLength))

theorem Initial.guarded {w : World} (h : Initial env w) (u : UserId) (a now : Time) :
    w.Guarded env u a now := by
  have hzero : w.guesses u a (a + env.lockoutLength) = 0 := by
    unfold World.guesses
    rw [h.checks]
    rfl
  refine ⟨h.wf, fun _ => hzero, fun _ => hzero, ?_, fun _ row _ _ => ?_⟩
  · rw [hzero]
    exact Nat.zero_le _
  · rw [hzero]
    exact Spent.zero

/-- A call outside the interval checks nothing that counts. -/
theorem Effect.guesses_outside (hw : w.Wf env) (h : Effect env t w c out w')
    (ht : t < a ∨ stop ≤ t) : w'.guesses u a stop = w.guesses u a stop := by
  rcases h.checks hw with hsame | ⟨check, htime, -, happend⟩
  · exact World.guesses_congr hsame
  · refine World.guesses_append_of_not happend ?_
    rintro ⟨-, -, hfrom, hto⟩
    rw [htime] at hfrom hto
    rcases ht with hlt | hle
    · exact absurd hfrom (not_le.2 hlt)
    · exact absurd hto (not_lt.2 hle)

/-- Nothing is checked against an account that does not exist. -/
theorem Effect.guesses_unknown (hw : w.Wf env) (h : Effect env t w c out w')
    (hu : w.db.hasUser u = false) : w'.guesses u a stop = w.guesses u a stop := by
  rcases h.checks hw with hsame | ⟨check, -, hknown, happend⟩
  · exact World.guesses_congr hsame
  · refine World.guesses_append_of_not happend ?_
    rintro ⟨hid, -⟩
    rw [hid, hu] at hknown
    cases hknown

/-- A call of the interval that charges what it checks keeps the bound. -/
theorem World.Guarded.within (hg : w.Guarded env u a now) (hle : now ≤ t) (ha : a ≤ t)
    (hstop : t < a + env.lockoutLength) (h : Effect env t w c out w')
    (hout : (runCall env w t c).2 = out)
    (henforced : env.config.loginAccountPolicy.isEnforced = true) {row : UserRow}
    (hrow : row ∈ w.db.users) (hu : row.id = u) (hlogin : ¬ c.LogsIn env w t u)
    (hcharged : ¬ c.GuessesUncharged env w u) :
    Spent env.lockoutLimit (a + env.lockoutLength) (w'.lockout env t row.email)
      (w'.guesses u a (a + env.lockoutLength)) := by
  subst hu
  have hspent := (hg.spent (lt_of_le_of_lt hle hstop) row hrow rfl).at_ hstop
  rw [← World.lockout_of_le w row.email hle] at hspent
  have hlength : 0 < env.lockoutLength := by
    have : a < a + env.lockoutLength := lt_of_le_of_lt ha hstop
    exact lt_add_iff_pos_right a |>.1 this
  rcases h.guess hg.wf hout henforced hrow hlogin hcharged with
    ⟨hsame, hwindow⟩ | ⟨hmore, hopen, hwindow⟩
  · rw [hsame, hwindow]
    exact hspent
  · rw [hwindow]
    exact (hspent.admitted ha hlength hopen).mono hmore

theorem World.Guarded.runCall (hg : w.Guarded env u a now) (hle : now ≤ t)
    (henforced : env.config.loginAccountPolicy.isEnforced = true)
    (hlogin : a ≤ t → t < a + env.lockoutLength → ¬ c.LogsIn env w t u)
    (hcharged : a ≤ t → t < a + env.lockoutLength → c.Charged env w u) :
    (runCall env w t c).1.Guarded env u a t := by
  obtain ⟨w', h, he⟩ := runCall_effect env w t c
  have hw := hg.wf
  obtain ⟨edit, new, hstep⟩ := h.users hw
  have hwf : (Users.runCall env w t c).1.Wf env := runCall_wf hw t c
  rw [he] at hwf ⊢
  -- an account without guesses so far has none after a call that makes none
  have hunknown (hu : w.db.hasUser u = false) :
      w'.guesses u a (a + env.lockoutLength) = 0 :=
    (h.guesses_unknown hw hu).trans (hg.unknown hu)
  have hbefore (hlt : t < a) : w'.guesses u a (a + env.lockoutLength) = 0 :=
    (h.guesses_outside hw (.inl hlt)).trans (hg.before (lt_of_le_of_lt hle hlt))
  have hspent (hstop : t < a + env.lockoutLength) (row' : UserRow)
      (hrow' : row' ∈ w'.db.users) (hid : row'.id = u) :
      Spent env.lockoutLimit (a + env.lockoutLength) (w'.lockout env t row'.email)
        (w'.guesses u a (a + env.lockoutLength)) := by
    rcases lt_or_ge t a with hlt | ha
    · rw [hbefore hlt]
      exact Spent.zero
    rw [hstep.users] at hrow'
    rcases List.mem_append.1 hrow' with hold | hnew
    · obtain ⟨row, hrow, rfl⟩ := List.mem_map.1 hold
      rw [hstep.id row hrow] at hid
      have hemail : (edit row).email = row.email := by
        by_contra hne
        exact (hcharged ha hstop).2 (hid ▸ hstep.email row hrow hne)
      rw [hemail]
      exact hg.within hle ha hstop h rfl henforced hrow hid (hlogin ha hstop)
        (hcharged ha hstop).1
    · have hnone : w.db.hasUser u = false := by
        rw [← hid, (hstep.fresh row' hnew).1]
        exact hw.db.unknown 1
      rw [hunknown hnone]
      exact Spent.zero
  refine ⟨hwf, fun hu => hunknown ?_, hbefore, ?_, hspent⟩
  · by_contra hknown
    rw [Bool.not_eq_false] at hknown
    have hstill : w'.db.hasUser u = true := h.hasUser hw hknown
    rw [show w'.db.hasUser u = false from hu] at hstill
    cases hstill
  · show w'.guesses u a (a + env.lockoutLength) ≤ 2 * env.lockoutLimit
    rcases lt_or_ge t (a + env.lockoutLength) with hstop | hstop
    · by_cases hu : w'.db.hasUser u = true
      · obtain ⟨row, hrow, hid⟩ := List.mem_map.1 (Db.hasUser_iff.1 hu)
        exact (hspent hstop row hrow hid).le
      · rw [Bool.not_eq_true] at hu
        rw [hunknown ?_]
        · exact Nat.zero_le _
        · by_contra hknown
          rw [Bool.not_eq_false] at hknown
          rw [h.hasUser hw hknown] at hu
          cases hu
    · rw [h.guesses_outside hw (.inr hstop)]
      exact hg.bound

/-- At most two limits of wrong passwords are checked against an account in an interval
as long as the window of the lockout, if no login to the account succeeds in it and
every wrong password in it is charged. -/
theorem guesses_bounded {w₀ : World} (h₀ : Initial env w₀) {t₀ : Time} {calls : Calls}
    (hord : OrderedFrom t₀ calls)
    (henforced : env.config.loginAccountPolicy.isEnforced = true) (u : UserId) (a : Time)
    (hlogin : AlongCalls env (fun w t c => a ≤ t → t < a + env.lockoutLength →
      ¬ c.LogsIn env w t u) calls w₀)
    (hcharged : AlongCalls env (fun w t c => a ≤ t → t < a + env.lockoutLength →
      c.Charged env w u) calls w₀) :
    (runCalls env w₀ calls).guesses u a (a + env.lockoutLength) ≤ 2 * env.lockoutLimit := by
  have hguarded : (runCalls env w₀ calls).Guarded env u a (lastTime t₀ calls) := by
    refine runCalls_induction_along (I := fun now w => w.Guarded env u a now)
      (C := fun w t c => (a ≤ t → t < a + env.lockoutLength → ¬ c.LogsIn env w t u) ∧
        (a ≤ t → t < a + env.lockoutLength → c.Charged env w u)) ?_ (h₀.guarded u a t₀) hord
      (hlogin.and hcharged)
    rintro now w t c hg hle ⟨hnone, hc⟩
    exact hg.runCall hle henforced hnone hc
  exact hguarded.bound

/-- A wrong password is charged, and the bound holds. -/
theorem guesses_bounded_login :
    (runCalls Sample.env Sample.world [(10, Sample.login "guess")]).guesses 1 0
      (0 + Sample.env.lockoutLength) ≤ 2 * Sample.env.lockoutLimit := by
  have hord : OrderedFrom 0 [(10, Sample.login "guess")] := by decide +kernel
  have hfails : (runCall Sample.env Sample.world 10 (Sample.login "guess")).2.isOk = false := by
    decide +kernel
  refine guesses_bounded Sample.initial hord rfl 1 0 ⟨fun _ _ => ?_, trivial⟩
    ⟨fun _ _ => ⟨?_, ?_⟩, trivial⟩
  · rintro ⟨data, device, result, -, hout, -⟩
    rw [hout] at hfails
    cases hfails
  · rintro ⟨data, device, user, hc, -⟩
    cases hc
  · rintro ⟨data, email, user, hc, -⟩
    cases hc

/-- Three wrong passwords given to `ChangePassword` within a minute, where the lockout
allows one failure a minute. -/
theorem uncharged_guesses :
    let guess : Call := .changePassword 1 ⟨"guess", "new", "new"⟩ none
    let calls : Calls := [(10, guess), (11, guess), (12, guess)]
    Initial Sample.env Sample.world ∧ OrderedFrom 0 calls ∧
      Sample.env.config.loginAccountPolicy.isEnforced = true ∧
      AlongCalls Sample.env (fun w t c => 0 ≤ t → t < 0 + Sample.env.lockoutLength →
        ¬ c.LogsIn Sample.env w t 1) calls Sample.world ∧
      2 * Sample.env.lockoutLimit <
        (runCalls Sample.env Sample.world calls).guesses 1 0 (0 + Sample.env.lockoutLength) := by
  have hnever (w : World) (t : Time) (data : ChangePasswordDTO) :
      ¬ (Call.changePassword 1 data none).LogsIn Sample.env w t 1 := by
    rintro ⟨_, _, _, hc, -⟩
    cases hc
  exact ⟨Sample.initial, by decide +kernel, rfl,
    ⟨fun _ _ => hnever _ _ _, fun _ _ => hnever _ _ _, fun _ _ => hnever _ _ _, trivial⟩,
    by decide +kernel⟩

end VideoSite.Users
