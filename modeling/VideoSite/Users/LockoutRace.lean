import VideoSite.Users.Concurrent
import VideoSite.Users.Lockout

/-!
# The lockout of an account under concurrency

`LoginUseCase` looks at the counter of the account, checks the password, and charges a
wrong one with a later call to the limiter.  Logins that have looked at the counter and
have charged nothing yet are not in it.

* `LockoutRace.login_follows` is the protocol of a login with a wrong password.
* `LockoutRace.step_cases` says what a step of it can do to the counter, to the number of
  logins in flight and to the passwords checked.
* `attempts_bounded` says that a window sees no more passwords than its limit, in a run in
  which a login is let through only while there is room for it beside those in flight.
* `attempts_exceed` is a run in which one is let through without.
-/

namespace VideoSite.Users

open Effects Program Protocol FixedWindow

variable {env : Env} {now t : Time} {w : World} {n : Nat} {email : String} {db : Db}

/-- The call is a login for the address, with a wrong password if there is an account. -/
def Call.MissesPassword (env : Env) (db : Db) (email : String) : Call → Prop
  | .login data _ => env.normalize data.email = email ∧
      ∀ user, db.userByEmail email = some user →
        env.hasher.verify data.password user.passwordHash = false
  | _ => False

/-- The operation reads the database or the clock. -/
def Op.looks : Op → Bool
  | .sql s => s.reads
  | .now => true
  | _ => false

/-- The operation looks at the counter `key`. -/
def Op.peeksAt (key : String) : Op → Bool
  | .limiterPeek other _ => other == key
  | _ => false

namespace LockoutRace

/-! ## The protocol -/

/-- How far a login is: it has not passed the counter of the account, it has, it has
checked the password after that, or it has charged its failure. -/
inductive State where
  | entering
  | guarded
  | checked
  | charged
  deriving DecidableEq, Repr

/-- The login has passed the counter, and has not charged anything to it. -/
def State.inFlight : State → Bool
  | .guarded | .checked => true
  | _ => false

/-- The login has passed the counter, and has not checked the password. -/
def State.ahead : State → Bool
  | .guarded => true
  | _ => false

theorem State.inFlight_of_ahead {q : State} (h : q.ahead = true) : q.inFlight = true := by
  cases q with
  | guarded => rfl
  | _ => cases h

/-- What a login may do next. -/
inductive May (env : Env) (email : String) : State → Op → Prop
  | look {q op} (h : op.looks = true) : May env email q op
  | guardIp {q key policy} (hkey : key ≠ LoginUseCase.accountKey email) :
      May env email q (.limiterPeek key policy)
  | guardAccount : May env email .entering
      (.limiterPeek (LoginUseCase.accountKey email) env.config.loginAccountPolicy)
  | check {plain user} : May env email .guarded (.verifyPassword plain user)
  | chargeIp {q key policy} (hkey : key ≠ LoginUseCase.accountKey email) :
      May env email q (.limiterHit key policy)
  | chargeAccount {q} (hq : q.inFlight = true) : May env email q
      (.limiterHit (LoginUseCase.accountKey email) env.config.loginAccountPolicy)
  | record {q event} : May env email q (.sql (.auditAdd event))
  | commit {q} : May env email q .commit
  | close {q} : May env email q .close

/-- The accounts are those of `db`, and a password is what its hash makes of it. -/
def expects (env : Env) (db : Db) : (op : Op) → op.Res → Prop
  | .sql (.usersGetByEmail email), r => r = db.userByEmail email
  | .verifyPassword plain user, r => r = env.hasher.verify plain user.passwordHash
  | _, _ => True

/-- Where the answer leads. -/
def next (email : String) : State → (op : Op) → op.Res → State
  | .entering, .limiterPeek key _, decision =>
      if key = LoginUseCase.accountKey email ∧ decision.allowed = true then .guarded
      else .entering
  | .guarded, .verifyPassword _ _, _ => .checked
  | .guarded, .limiterHit key _, _ =>
      if key = LoginUseCase.accountKey email then .charged else .guarded
  | .checked, .limiterHit key _, _ =>
      if key = LoginUseCase.accountKey email then .charged else .checked
  | q, _, _ => q

/-- A login for the address. -/
@[reducible] def protocol (env : Env) (email : String) (db : Db) : Protocol sig where
  State := State
  may := May env email
  expects := fun _ => expects env db
  next := next email

/-- A charge to the account is what the login in flight ends with. -/
theorem next_charge {q : State} (hq : q.inFlight = true) (policy : RateLimitPolicy)
    (decision : RateLimitDecision) :
    next email q (.limiterHit (LoginUseCase.accountKey email) policy) decision = .charged := by
  cases q with
  | guarded | checked => simp [next]
  | _ => cases hq

/-- A charge to another counter leads nowhere. -/
theorem next_chargeIp {key : String} (hkey : key ≠ LoginUseCase.accountKey email) (q : State)
    (policy : RateLimitPolicy) (decision : RateLimitDecision) :
    next email q (.limiterHit key policy) decision = q := by
  cases q with
  | _ => simp [next, hkey]

/-- The failed branch charges the account and refuses the login. -/
theorem fail_follows {q : State} (hq : q.inFlight = true) (user : Option User)
    (device : DeviceInfoDTO) (henforced : env.config.loginAccountPolicy.isEnforced = true)
    {Q : State → Except Failure (User × IssuedToken × IssuedToken) → Prop}
    (hQ : ∀ q e, Q q (.error e)) :
    (protocol env email db).Follows (LoginUseCase.fail env email user device) Q q := by
  have hnow (q : State) : May env email q .now := .look rfl
  simp only [LoginUseCase.fail, LoginUseCase.countFailure, LoginUseCase.charge, henforced,
    audit.record]
  cases device.ipAddress with
  | none =>
    cases q with
    | guarded | checked => simp [next, hQ, hnow, May.record, May.commit, May.chargeAccount hq]
    | _ => cases hq
  | some ip =>
    have hip : LoginUseCase.ipKey ip ≠ LoginUseCase.accountKey email :=
      LoginUseCase.ipKey_ne_accountKey ip email
    cases q with
    | guarded | checked =>
      simp [next, hQ, hip, hnow, May.record, May.commit, May.chargeIp hip, May.chargeAccount hq]
    | _ => cases hq

/-- A login with a wrong password keeps to the protocol. -/
theorem login_follows {c : Call} (hc : c.MissesPassword env db email)
    (henforced : env.config.loginAccountPolicy.isEnforced = true) :
    (protocol env email db).Follows (c.program env) (fun _ _ => True) State.entering := by
  cases c with
  | login data device =>
    obtain ⟨hemail, hwrong⟩ := hc
    simp only [Call.program, login, hemail, monad_bind, follows_map, follows_bind]
    have hguardIp : (LoginUseCase.guardIp env (device.getD {})).Only fun op : Op =>
        ∃ key policy, op = .limiterPeek key policy ∧ key ≠ LoginUseCase.accountKey email := by
      refine only_ite (fun _ => ?_) fun _ => trivial
      cases (device.getD {}).ipAddress with
      | none => trivial
      | some ip =>
        exact ⟨⟨_, _, rfl, LoginUseCase.ipKey_ne_accountKey ip email⟩, fun _ => only_require _ _⟩
    refine Follows.of_only hguardIp ?_ fun out => ?_
    · rintro op ⟨key, policy, rfl, hkey⟩
      exact ⟨May.guardIp hkey, fun _ => if_neg fun h => hkey h.1⟩
    cases out with
    | error e => trivial
    | ok _ =>
      simp [LoginUseCase.guardAccount, henforced, next]
      refine ⟨.guardAccount, fun decision _ hallowed => ?_⟩
      rw [if_pos hallowed]
      refine ⟨.look rfl, fun found hfound => ?_⟩
      cases found with
      | none =>
        simp [LoginUseCase.valid]
        exact fail_follows rfl none _ henforced fun q e => ⟨.close, fun _ _ => trivial⟩
      | some user =>
        by_cases hactive : user.isActive = true
        · simp [LoginUseCase.valid, hactive]
          refine ⟨.check, fun _ => ?_, fun hvalid => ?_⟩
          · exact fail_follows rfl (some user) _ henforced fun q e => ⟨.close, fun _ _ => trivial⟩
          · have hright : true = false := hvalid.trans (hwrong user hfound.symm)
            cases hright
        · simp [LoginUseCase.valid, hactive]
          exact fail_follows rfl (some user) _ henforced fun q e => ⟨.close, fun _ _ => trivial⟩
  | _ => exact absurd hc fun h => h

/-! ## What a step does -/

/-- How far every login is. -/
abbrev stateOf (email : String) (db : Db) (pool : Pool (machine env) n Failure Answer) :
    Fin n → State :=
  pool.states (protocol env email db) fun _ => State.entering

/-- How many logins are between the look at the counter and the charge. -/
def inFlight (email : String) (db : Db) (pool : Pool (machine env) n Failure Answer) : Nat :=
  pool.count (protocol env email db) (fun _ => State.entering) State.inFlight

/-- How many of those have yet to check the password. -/
def ahead (email : String) (db : Db) (pool : Pool (machine env) n Failure Answer) : Nat :=
  pool.count (protocol env email db) (fun _ => State.entering) State.ahead

/-- What a step at `t` does to a login, to the counter and to the passwords checked, with
`busy` logins in flight. -/
inductive Moves (env : Env) (email : String) (busy : Nat) (t : Time) :
    State → State → World → World → Prop
  | still {q w w'} (hcount : ∀ s, w'.lockout env s email = w.lockout env s email)
      (hchecks : w'.checks = w.checks) : Moves env email busy t q q w w'
  | pass {w w'} (hcount : ∀ s, w'.lockout env s email = w.lockout env s email)
      (hchecks : w'.checks = w.checks)
      (hroom : Window.countOf (w.lockout env t email) + busy < env.lockoutLimit) :
      Moves env email busy t .entering .guarded w w'
  | check {w w' check} (hcount : ∀ s, w'.lockout env s email = w.lockout env s email)
      (hchecks : w'.checks = w.checks ++ [check]) (htime : check.time = t) :
      Moves env email busy t .guarded .checked w w'
  | charge {q w w'} (hq : q.inFlight = true)
      (hcount : w'.lockout env t email =
        Window.afterHit (w.lockout env t email) t env.lockoutLength)
      (hchecks : w'.checks = w.checks) : Moves env email busy t q .charged w w'

/-- What has no say in the limiter or in a password check leaves both alone. -/
theorem Moves.of_same {busy : Nat} {q : State} {w' : World} (hlimits : w'.limits = w.limits)
    (hchecks : w'.checks = w.checks) : Moves env email busy t q q w w' := by
  refine .still (fun s => ?_) hchecks
  unfold World.lockout
  rw [hlimits]

theorem next_of_looks {op : Op} (h : op.looks = true) (q : State) (r : op.Res) :
    next email q op r = q := by
  cases op with
  | sql s => cases q <;> rfl
  | now => cases q <;> rfl
  | _ => cases h

theorem perform_looks {op : Op} (h : op.looks = true) (rows : List RowKey) (tx : Tx) :
    (perform env t op rows w tx).1.1.limits = w.limits ∧
      (perform env t op rows w tx).1.1.checks = w.checks := by
  cases op with
  | sql s => exact ⟨rfl, rfl⟩
  | now => exact ⟨rfl, rfl⟩
  | _ => cases h

section Step

variable {pool : Pool (machine env) n Failure Answer} {i : Fin n} {op : Op}
  {k : op.Res → Program sig Failure Answer} {q : State}

/-- When a login comes to look at the counter, and would be let through, there is room
for it beside those in flight. -/
def RoomLeft (email : String) (db : Db) (pool : Pool (machine env) n Failure Answer)
    (i : Fin n) (t : Time) : Prop :=
  (pool.procs i).prog.nextOp?.any (Op.peeksAt (LoginUseCase.accountKey email)) = true →
    Window.countOf (pool.shared.lockout env t email) < env.lockoutLimit →
    Window.countOf (pool.shared.lockout env t email) + inFlight email db pool <
      env.lockoutLimit

instance (pool : Pool (machine env) n Failure Answer) (i : Fin n) (t : Time) :
    Decidable (RoomLeft email db pool i t) := by
  unfold RoomLeft
  infer_instance

instance (sched : Pool.Schedule (machine env) n) (pool : Pool (machine env) n Failure Answer) :
    Decidable (Pool.Along (RoomLeft email db) sched pool) :=
  Pool.decidableAlong (fun _ _ _ => inferInstance) sched pool

/-- The inversion of a step for which there is room. -/
theorem step_cases (htimed : pool.shared.limits.Timed) (hroom : RoomLeft email db pool i t)
    (hprog : (pool.procs i).prog = .call op k) (hmay : May env email q op) :
    Moves env email (inFlight email db pool) t q (next email q op (pool.effect i t op).2)
      pool.shared (pool.effect i t op).1.1 := by
  cases hmay with
  | look hlooks =>
    rw [next_of_looks hlooks]
    obtain ⟨hlimits, hchecks⟩ :=
      perform_looks (w := pool.shared) hlooks (pool.matched i op) (pool.procs i).loc
    exact .of_same hlimits hchecks
  | @guardIp _ key policy hkey =>
    have hnext : next email q (.limiterPeek key policy)
        (pool.effect i t (.limiterPeek key policy)).2 = q := by
      cases q with
      | entering => exact if_neg fun h => hkey h.1
      | _ => rfl
    rw [hnext]
    exact .of_same rfl rfl
  | guardAccount =>
    have hanswer : (pool.effect i t (.limiterPeek (LoginUseCase.accountKey email)
        env.config.loginAccountPolicy)).2.allowed =
        decide ((Window.countOf (pool.shared.lockout env t email) : Int) <
          env.config.loginAccountPolicy.limit) := Limits.peek_allowed htimed t _ _
    simp only [next, hanswer]
    by_cases hopen : (Window.countOf (pool.shared.lockout env t email) : Int) <
        env.config.loginAccountPolicy.limit
    · rw [if_pos ⟨trivial, decide_eq_true hopen⟩]
      refine .pass (fun _ => rfl) rfl ?_
      unfold RoomLeft at hroom
      rw [hprog] at hroom
      refine hroom (beq_self_eq_true _) ?_
      unfold Env.lockoutLimit
      omega
    · rw [if_neg fun h => hopen (of_decide_eq_true h.2)]
      exact .of_same rfl rfl
  | check => exact .check (fun _ => rfl) rfl rfl
  | @chargeIp _ key policy hkey =>
    rw [next_chargeIp hkey]
    exact .still (fun s => Limits.window_hit_of_ne htimed t s policy (Ne.symm hkey)) rfl
  | chargeAccount hq =>
    rw [next_charge hq]
    exact .charge hq (Limits.window_hit_self htimed t _ _) rfl
  | record | commit | close =>
    cases q with
    | _ => exact .of_same rfl rfl

/-! ## The invariant -/

variable (db) in
/-- What no login changes. -/
structure Frame (pool : Pool (machine env) n Failure Answer) : Prop where
  timed : pool.shared.limits.Timed
  accounts : ∀ e, pool.shared.db.userByEmail e = db.userByEmail e
  tx : ∀ i, ∀ write ∈ (pool.procs i).loc.pending, ∃ row, write = .insertAudit row

/-- A login sees the accounts as they are. -/
theorem Frame.view (h : Frame db pool) (i : Fin n) (e : String) :
    ((pool.procs i).loc.view pool.shared.db).userByEmail e = db.userByEmail e := by
  refine Tx.view_preserves (P := fun d => d.userByEmail e = db.userByEmail e) ?_ (h.accounts e)
  intro write hwrite d hd
  obtain ⟨row, rfl⟩ := h.tx i write hwrite
  exact hd

/-- A step of a login keeps that. -/
theorem Frame.advance (h : Frame db pool) (hmay : May env email q op) :
    Frame db (pool.advance i t op k) := by
  have hothers (tx : Tx) (hi : ∀ write ∈ tx.pending, ∃ row, write = .insertAudit row)
      (hself : (pool.effect i t op).1.2.pending = tx.pending) (j : Fin n) :
      ∀ write ∈ ((pool.advance i t op k).procs j).loc.pending, ∃ row, write = .insertAudit row := by
    by_cases hj : j = i
    · subst hj
      rw [Pool.advance_procs_self]
      show ∀ write ∈ (pool.effect j t op).1.2.pending, _
      rw [hself]
      exact hi
    · rw [Pool.advance_procs_of_ne pool t op k hj]
      exact h.tx j
  have hquiet (hreads : op.reads = true) (htimed : (pool.effect i t op).1.1.limits.Timed) :
      Frame db (pool.advance i t op k) := by
    refine ⟨htimed, fun e => ?_, hothers _ (h.tx i) (effect_reads pool i t hreads).1⟩
    show (pool.effect i t op).1.1.db.userByEmail e = _
    rw [show (pool.effect i t op).1.1.db = pool.shared.db from (perform_reads hreads).1]
    exact h.accounts e
  cases hmay with
  | look hlooks =>
    have hreads : op.reads = true := by
      cases op with
      | sql s => exact hlooks
      | now => rfl
      | _ => cases hlooks
    refine hquiet hreads ?_
    rw [show (pool.effect i t op).1.1.limits = pool.shared.limits from
      (perform_looks hlooks _ _).1]
    exact h.timed
  | guardIp | guardAccount | check => exact hquiet rfl h.timed
  | chargeIp | chargeAccount => exact hquiet rfl (Limits.timed_hit h.timed _ _ _)
  | @record _ event =>
    refine ⟨h.timed, h.accounts, ?_⟩
    rcases effect_extends pool i t (.auditAdd event) with ⟨hpending, -⟩ |
      ⟨write, hwrites, -, hpending, -⟩
    · exact hothers _ (h.tx i) hpending
    · refine hothers (pool.effect i t (.sql (.auditAdd event))).1.2 ?_ rfl
      rw [hpending]
      intro other hother
      rcases List.mem_append.1 hother with hold | hnew
      · exact h.tx i other hold
      · rw [List.mem_singleton.1 hnew]
        cases hwrites
        exact ⟨_, rfl⟩
  | commit =>
    refine ⟨h.timed, h.view i, hothers (Tx.fresh 0) (fun _ hw => by cases hw) rfl⟩
  | close =>
    exact ⟨h.timed, h.accounts, hothers (Tx.fresh 0) (fun _ hw => by cases hw) rfl⟩

variable (email db) in
/-- Beside the failures in the counter there is room for the logins in flight. -/
structure Inv (now : Time) (pool : Pool (machine env) n Failure Answer) : Prop
    extends Frame db pool where
  room : inFlight email db pool = 0 ∨
    Window.countOf (pool.shared.lockout env now email) + inFlight email db pool ≤
      env.lockoutLimit

theorem countOf_at_le (running : Option (Window Time)) (t : Time) :
    Window.countOf (Window.at_ running t) ≤ Window.countOf running := by
  cases running with
  | none => exact Nat.le_refl _
  | some v =>
    rw [Window.at_some]
    split
    · exact Nat.le_refl _
    · exact Nat.zero_le _

theorem Inv.later (h : Inv email db now pool) (ht : now ≤ t) : Inv email db t pool := by
  refine ⟨h.toFrame, ?_⟩
  have hle : Window.countOf (pool.shared.lockout env t email) ≤
      Window.countOf (pool.shared.lockout env now email) := by
    rw [pool.shared.lockout_of_le email ht]
    exact countOf_at_le _ _
  rcases h.room with hnone | hroom
  · exact .inl hnone
  · right
    omega

theorem countOf_afterHit_le (running : Option (Window Time)) (t length : Time) :
    Window.countOf (Window.afterHit running t length) ≤ Window.countOf running + 1 := by
  cases running with
  | none =>
    rw [Window.afterHit_none]
    split
    · exact Nat.le_refl _
    · exact Nat.zero_le _
  | some v => exact Nat.le_refl _

theorem inFlight_advance {q' : State}
    (hq : next email (stateOf email db pool i) op (pool.effect i t op).2 = q') :
    inFlight email db (pool.advance i t op k) + (stateOf email db pool i).inFlight.toNat =
      inFlight email db pool + q'.inFlight.toNat :=
  Pool.count_advance (P := protocol env email db) State.inFlight hq

theorem ahead_advance {q' : State}
    (hq : next email (stateOf email db pool i) op (pool.effect i t op).2 = q') :
    ahead email db (pool.advance i t op k) + (stateOf email db pool i).ahead.toNat =
      ahead email db pool + q'.ahead.toNat :=
  Pool.count_advance (P := protocol env email db) State.ahead hq

theorem ahead_le : ahead email db pool ≤ inFlight email db pool := by
  unfold ahead inFlight Pool.count
  refine Finset.card_le_card fun i hi => ?_
  rw [Finset.mem_filter] at hi ⊢
  exact ⟨hi.1, State.inFlight_of_ahead hi.2⟩

/-- What a login leaves in flight when it comes to its charge. -/
theorem inFlight_pos (hq : (stateOf email db pool i).inFlight = true) :
    0 < inFlight email db pool :=
  Finset.card_pos.2 ⟨i, Finset.mem_filter.2 ⟨Finset.mem_univ i, hq⟩⟩

/-- A step for which there is room leaves room for those in flight. -/
theorem Inv.advance (h : Inv email db t pool) (hroom : RoomLeft email db pool i t)
    (hprog : (pool.procs i).prog = .call op k)
    (hmay : May env email (stateOf email db pool i) op) :
    Inv email db t (pool.advance i t op k) := by
  refine ⟨h.toFrame.advance hmay, ?_⟩
  show _ ∨ Window.countOf ((pool.effect i t op).1.1.lockout env t email) + _ ≤ _
  have hmoves := step_cases (t := t) h.timed hroom hprog hmay
  have hbefore := h.room
  generalize hq' : next email (stateOf email db pool i) op (pool.effect i t op).2 = q' at hmoves
  have hbusy := inFlight_advance (k := k) hq'
  have hpos : (stateOf email db pool i).inFlight = true → 0 < inFlight email db pool :=
    inFlight_pos
  generalize stateOf email db pool i = q at hmoves hbusy hpos
  generalize (pool.effect i t op).1.1 = w' at hmoves
  cases hmoves with
  | still hcount =>
    rw [hcount]
    omega
  | pass hcount _ hleft =>
    rw [hcount]
    simp only [State.inFlight, Bool.toNat_true, Bool.toNat_false] at hbusy
    omega
  | check hcount =>
    rw [hcount]
    simp only [State.inFlight, Bool.toNat_true] at hbusy
    omega
  | charge hflight hcount =>
    have hle := countOf_afterHit_le (pool.shared.lockout env t email) t env.lockoutLength
    have hflying := hpos hflight
    rw [hcount]
    rw [hflight] at hbusy
    simp only [State.inFlight, Bool.toNat_true, Bool.toNat_false] at hbusy
    omega

/-- The answers are as the protocol expects them. -/
theorem Frame.expects (h : Frame db pool) (i : Fin n) (t : Time) (op : Op) :
    LockoutRace.expects env db op (pool.effect i t op).2 := by
  cases op with
  | sql s =>
    cases s with
    | usersGetByEmail e => exact h.view i e
    | _ => trivial
  | verifyPassword plain user => rfl
  | _ => trivial

end Step

theorem Frame.wait {pool : Pool (machine env) n Failure Answer} (h : Frame db pool) (i : Fin n)
    (op : Op) : Frame db (pool.wait i op) := by
  refine ⟨h.timed, h.accounts, fun j => ?_⟩
  rw [Pool.wait_loc]
  exact h.tx j

theorem inFlight_wait {pool : Pool (machine env) n Failure Answer} (i : Fin n) (op : Op) :
    inFlight email db (pool.wait i op) = inFlight email db pool :=
  Pool.count_wait (P := protocol env email db) State.inFlight i op

theorem ahead_wait {pool : Pool (machine env) n Failure Answer} (i : Fin n) (op : Op) :
    ahead email db (pool.wait i op) = ahead email db pool :=
  Pool.count_wait (P := protocol env email db) State.ahead i op

theorem Inv.wait {pool : Pool (machine env) n Failure Answer} (h : Inv email db now pool)
    (i : Fin n) (op : Op) : Inv email db now (pool.wait i op) := by
  refine ⟨h.toFrame.wait i op, ?_⟩
  rw [inFlight_wait]
  exact h.room

theorem Inv.initial (hw : w.limits.Timed) (calls : Fin n → Call) :
    Inv email w.db now (w.pool env calls) := by
  refine ⟨⟨hw, fun _ => rfl, fun _ _ h => by cases h⟩, .inl ?_⟩
  unfold inFlight Pool.count
  rw [World.pool_states]
  exact Finset.card_eq_zero.2 (Finset.filter_eq_empty_iff.2 fun _ _ h => by cases h)

/-! ## The passwords of a window -/

/-- The password checks before `stop`, after the first `old` ones. -/
def checksUntil (w : World) (old : Nat) (stop : Time) : Nat :=
  (w.checks.drop old).countP fun check => decide (check.time < stop)

theorem checksUntil_append {w' : World} {check : PasswordCheck} {old : Nat} {stop : Time}
    (hold : old ≤ w.checks.length) (h : w'.checks = w.checks ++ [check]) :
    checksUntil w' old stop = checksUntil w old stop + if check.time < stop then 1 else 0 := by
  unfold checksUntil
  rw [h, List.drop_append_of_le_length hold, List.countP_append, List.countP_singleton]
  simp

variable (email db) in
/-- The window that ends at `stop` has counted its failures, but for those in flight. -/
structure Counted (old : Nat) (stop now : Time) (pool : Pool (machine env) n Failure Answer) :
    Prop extends Inv email db now pool where
  kept : old ≤ pool.shared.checks.length
  bound : checksUntil pool.shared old stop + 1 ≤ env.lockoutLimit
  running : now < stop → ∃ c, pool.shared.lockout env now email = some ⟨c, stop⟩ ∧
    checksUntil pool.shared old stop + 1 + ahead email db pool ≤ c + inFlight email db pool

section Step

variable {pool : Pool (machine env) n Failure Answer} {i : Fin n} {op : Op} {old : Nat}
  {stop : Time} {k : op.Res → Program sig Failure Answer}

theorem Counted.later (h : Counted email db old stop now pool) (ht : now ≤ t) :
    Counted email db old stop t pool := by
  refine ⟨h.toInv.later ht, h.kept, h.bound, fun hlt => ?_⟩
  obtain ⟨c, hwindow, hle⟩ := h.running (lt_of_le_of_lt ht hlt)
  refine ⟨c, ?_, hle⟩
  rw [pool.shared.lockout_of_le email ht, hwindow, Window.at_some, if_pos hlt]

theorem Counted.wait (h : Counted email db old stop now pool) (i : Fin n) (op : Op) :
    Counted email db old stop now (pool.wait i op) := by
  refine ⟨h.toInv.wait i op, h.kept, h.bound, ?_⟩
  rw [inFlight_wait, ahead_wait]
  exact h.running

/-- A step for which there is room keeps the count. -/
theorem Counted.advance (h : Counted email db old stop t pool)
    (hroom : RoomLeft email db pool i t) (hprog : (pool.procs i).prog = .call op k)
    (hmay : May env email (stateOf email db pool i) op) :
    Counted email db old stop t (pool.advance i t op k) := by
  have hinv := h.toInv.advance hroom hprog hmay
  have hmoves := step_cases (t := t) h.timed hroom hprog hmay
  have hbefore := h.room
  have hbound := h.bound
  have hkept := h.kept
  have hrunning := h.running
  generalize hq' : next email (stateOf email db pool i) op (pool.effect i t op).2 = q' at hmoves
  have hbusy := inFlight_advance (k := k) hq'
  have hahead := ahead_advance (k := k) hq'
  have hpos : (stateOf email db pool i).inFlight = true → 0 < inFlight email db pool :=
    inFlight_pos
  generalize stateOf email db pool i = q at hmoves hbusy hahead hpos
  have hshared : (pool.advance i t op k).shared = (pool.effect i t op).1.1 := rfl
  generalize (pool.effect i t op).1.1 = w' at hmoves hshared
  -- what has been checked, and what may still be
  suffices hstep : old ≤ w'.checks.length ∧ checksUntil w' old stop + 1 ≤ env.lockoutLimit ∧
      (t < stop → ∃ c, w'.lockout env t email = some ⟨c, stop⟩ ∧
        checksUntil w' old stop + 1 + ahead email db (pool.advance i t op k) ≤
          c + inFlight email db (pool.advance i t op k)) by
    refine ⟨hinv, ?_, ?_, ?_⟩
    · rw [hshared]
      exact hstep.1
    · rw [hshared]
      exact hstep.2.1
    · rw [hshared]
      exact hstep.2.2
  have hsame (hchecks : w'.checks = pool.shared.checks) :
      checksUntil w' old stop = checksUntil pool.shared old stop := by
    unfold checksUntil
    rw [hchecks]
  cases hmoves with
  | still hcount hchecks =>
    rw [hsame hchecks, hchecks, hcount]
    refine ⟨hkept, hbound, fun hlt => ?_⟩
    obtain ⟨c, hwindow, hle⟩ := hrunning hlt
    exact ⟨c, hwindow, by omega⟩
  | pass hcount hchecks =>
    rw [hsame hchecks, hchecks, hcount]
    refine ⟨hkept, hbound, fun hlt => ?_⟩
    obtain ⟨c, hwindow, hle⟩ := hrunning hlt
    simp only [State.inFlight, State.ahead, Bool.toNat_true, Bool.toNat_false] at hbusy hahead
    exact ⟨c, hwindow, by omega⟩
  | check hcount hchecks htime =>
    rw [checksUntil_append hkept hchecks, htime, hchecks, hcount, List.length_append]
    simp only [State.inFlight, State.ahead, Bool.toNat_true, Bool.toNat_false] at hbusy hahead
    refine ⟨by omega, ?_, fun hlt => ?_⟩
    · by_cases hlt : t < stop
      · obtain ⟨c, hwindow, hle⟩ := hrunning hlt
        have hflying := hpos rfl
        have hleft : c + inFlight email db pool ≤ env.lockoutLimit := by
          rw [hwindow] at hbefore
          exact hbefore.resolve_left (Nat.ne_of_gt hflying)
        rw [if_pos hlt]
        omega
      · rw [if_neg hlt]
        exact hbound
    · obtain ⟨c, hwindow, hle⟩ := hrunning hlt
      rw [if_pos hlt]
      exact ⟨c, hwindow, by omega⟩
  | charge hflight hcount hchecks =>
    rw [hsame hchecks, hchecks, hcount]
    refine ⟨hkept, hbound, fun hlt => ?_⟩
    obtain ⟨c, hwindow, hle⟩ := hrunning hlt
    rw [hwindow, Window.afterHit_some]
    rw [hflight] at hbusy
    simp only [State.inFlight, State.ahead, Bool.toNat_true, Bool.toNat_false] at hbusy hahead
    exact ⟨c + 1, rfl, by omega⟩

/-- The charge that starts a window. -/
theorem Counted.started (h : Inv email db t pool)
    (hnone : pool.shared.lockout env t email = none) {v : Window Time}
    (hroom : RoomLeft email db pool i t) (hprog : (pool.procs i).prog = .call op k)
    (hmay : May env email (stateOf email db pool i) op)
    (hwindow : (pool.advance i t op k).shared.lockout env t email = some v) :
    Counted email db pool.shared.checks.length v.expiresAt t (pool.advance i t op k) := by
  have hinv := h.advance hroom hprog hmay
  have hmoves := step_cases (t := t) h.timed hroom hprog hmay
  have hbefore := h.room
  generalize hq' : next email (stateOf email db pool i) op (pool.effect i t op).2 = q' at hmoves
  have hbusy := inFlight_advance (k := k) hq'
  have hpos : (stateOf email db pool i).inFlight = true → 0 < inFlight email db pool :=
    inFlight_pos
  generalize stateOf email db pool i = q at hmoves hbusy hpos
  have hshared : (pool.advance i t op k).shared = (pool.effect i t op).1.1 := rfl
  rw [hshared] at hwindow
  generalize (pool.effect i t op).1.1 = w' at hmoves hshared hwindow
  cases hmoves with
  | still hcount | pass hcount | check hcount =>
    rw [hcount, hnone] at hwindow
    cases hwindow
  | charge hflight hcount hchecks =>
    rw [hcount, hnone, Window.afterHit_none] at hwindow
    have hflying := hpos hflight
    have hle : ahead email db (pool.advance i t op k) ≤
        inFlight email db (pool.advance i t op k) := ahead_le
    rw [hnone, Window.countOf_none] at hbefore
    by_cases hlength : 0 < env.lockoutLength
    · rw [if_pos hlength] at hwindow
      cases hwindow
      have hnothing : checksUntil w' pool.shared.checks.length (t + env.lockoutLength) = 0 := by
        unfold checksUntil
        rw [hchecks, List.drop_length, List.countP_nil]
      refine ⟨hinv, ?_, ?_, fun hlt => ⟨1, ?_, ?_⟩⟩
      · rw [hshared, hchecks]
      · rw [hshared, hnothing]
        omega
      · rw [hshared, hcount, hnone, Window.afterHit_none, if_pos hlength]
      · rw [hshared, hnothing]
        omega
    · rw [if_neg hlength] at hwindow
      cases hwindow

end Step

end LockoutRace

open LockoutRace in
/-- The passwords that are checked in a window, the one that its first failure is charged
for among them, are no more than its limit, in a run in which a login is let through only
while there is room for it beside those in flight. -/
theorem attempts_bounded {calls : Fin n → Call}
    (hcalls : ∀ i, (calls i).MissesPassword env w.db email)
    (henforced : env.config.loginAccountPolicy.isEnforced = true) (hw : w.limits.Timed)
    {before after : Pool.Schedule (machine env) n} {s : Fin n × Time}
    (hticks : Pool.Ticks now (before ++ s :: after))
    (hroom : Pool.Along (RoomLeft email w.db) (before ++ s :: after) (w.pool env calls))
    (hnone : ((w.pool env calls).run before).shared.lockout env s.2 email = none)
    {v : Window Time}
    (hwindow : ((w.pool env calls).run (before ++ [s])).shared.lockout env s.2 email = some v) :
    checksUntil ((w.pool env calls).run (before ++ s :: after)).shared
      ((w.pool env calls).run before).shared.checks.length v.expiresAt + 1 ≤
        env.lockoutLimit := by
  have hticks := (Pool.ticks_append (M := machine env) (s :: after) now before).1 hticks
  rw [Pool.along_append] at hroom
  rw [Pool.run_append] at hwindow ⊢
  have hfollows : (w.pool env calls).Follows (protocol env email w.db)
      (fun _ => State.entering) fun _ _ _ => True := fun i => login_follows (hcalls i) henforced
  obtain ⟨hinv, hmid⟩ := Pool.run_follows_clocked (M := machine env)
    (J := fun now pool => Inv email w.db now pool) (fun now t pool ht h => h.later ht)
    (fun now pool i op h => h.wait i op)
    (fun pool i t op k h hc hprog _ hmay => ⟨h.expects i t op, h.advance hc hprog hmay⟩)
    before hticks.1 hroom.1 (Inv.initial hw calls) hfollows
  generalize hpool : (w.pool env calls).run before = pool at *
  have hinv := hinv.later hticks.2.1
  obtain ⟨hstart, hnext⟩ := Pool.step_follows (i := s.1) (t := s.2)
    (J := fun pool => Inv email w.db s.2 pool)
    (K := fun pool' => pool'.shared.lockout env s.2 email = some v →
      Counted email w.db pool.shared.checks.length v.expiresAt s.2 pool')
    (fun _ hv => by rw [hnone] at hv; cases hv) (fun op _ hv => by
      rw [Pool.wait_shared, hnone] at hv
      cases hv)
    (fun op k h hprog _ hmay => ⟨h.expects s.1 s.2 op, fun hv =>
      Counted.started h hnone hroom.2.1 hprog hmay hv⟩) hinv hmid
  obtain ⟨hlast, -⟩ := Pool.run_follows_clocked (M := machine env)
    (J := fun now pool' => Counted email w.db pool.shared.checks.length v.expiresAt now pool')
    (fun now t pool ht h => h.later ht) (fun now pool i op h => h.wait i op)
    (fun pool i t op k h hc hprog _ hmay => ⟨h.expects i t op, h.advance hc hprog hmay⟩)
    after hticks.2.2 hroom.2.2 (hstart hwindow) hnext
  exact hlast.bound

/-! ## Three guesses -/

namespace Sample

/-- Three wrong passwords for Alice. -/
def guesses (i : Fin 3) : Call := .login ⟨"alice", s!"guess {i}"⟩ none

theorem guesses_miss (i : Fin 3) : (guesses i).MissesPassword Sample.env world.db "alice" :=
  match i with
  | 0 | 1 | 2 => ⟨rfl, fun user h => by cases h; rfl⟩

end Sample

/-- The second guess comes when the first is done, and is refused. -/
theorem attempts_bounded_sample :
    let pool := Sample.world.pool Sample.env Sample.guesses
    LockoutRace.checksUntil
      (pool.run (List.replicate 3 (0, 20) ++ (0, 20) ::
        (List.replicate 4 (0, 21) ++ List.replicate 2 (1, 22)))).shared
      (pool.run (List.replicate 3 (0, 20))).shared.checks.length 80 + 1 ≤
        Sample.env.lockoutLimit :=
  @attempts_bounded Sample.env 20 Sample.world 3 "alice" Sample.guesses Sample.guesses_miss rfl
    Limits.timed_empty _ _ (0, 20) (by decide +kernel) (by decide +kernel) (by decide +kernel)
    ⟨1, 80⟩ (by decide +kernel)

/-- All guesses look at the counter before one of them is charged.  With a limit of one,
two passwords are checked after the charge that starts the window. -/
theorem attempts_exceed :
    let before : Pool.Schedule (machine Sample.env) 3 :=
      (1, 20) :: (2, 20) :: List.replicate 3 (0, 20)
    let after : Pool.Schedule (machine Sample.env) 3 :=
      List.replicate 2 (1, 21) ++ List.replicate 2 (2, 22)
    let pool := Sample.world.pool Sample.env Sample.guesses
    (∀ i, (Sample.guesses i).MissesPassword Sample.env Sample.world.db "alice") ∧
      Sample.env.config.loginAccountPolicy.isEnforced = true ∧
      Pool.Ticks (M := machine Sample.env) 20 (before ++ (0, 20) :: after) ∧
      (pool.run before).shared.lockout Sample.env 20 "alice" = none ∧
      (pool.run (before ++ [(0, 20)])).shared.lockout Sample.env 20 "alice" = some ⟨1, 80⟩ ∧
      Sample.env.lockoutLimit <
        LockoutRace.checksUntil (pool.run (before ++ (0, 20) :: after)).shared
          (pool.run before).shared.checks.length 80 :=
  ⟨Sample.guesses_miss, rfl, by decide +kernel, by decide +kernel, by decide +kernel,
    by decide +kernel⟩

end VideoSite.Users
