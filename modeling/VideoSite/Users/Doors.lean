import VideoSite.Users.Inventory
import VideoSite.Users.LimiterRuns

/-!
# Doors that count

Register, ForgotPassword and ResetPassword charge a counter before they do anything else,
so that, other than a login, none of them acts while an earlier one has yet to be counted.
A `Door` is such a counter: the address that an account is registered from or a password
is reset from, and the address that reset links are mailed to, without whose cap the
endpoint would be "a free mail cannon aimed at whichever inbox an attacker picks".

* `Door.key_injective` keeps the counters apart; `counts_cases` says which calls touch one.
* `Doors.follows` is the order that every call keeps: through the door first, and only once.
* `doors_hold` is what follows for any calls side by side: nobody acts who was not admitted,
  and within the length of a window at most twice the limit are.  It starts where every
  counter has an expiry, as in every state that calls leave behind (`World.Wf.timed`).
-/

namespace VideoSite.Users

open Effects Program Protocol FixedWindow

variable {env : Env} {n : Nat} {now t : Time} {w : World}

/-- `hit` answers with what was there before it. -/
theorem Limits.hit_allowed {backend : Backend} {limits : Limits} (h : limits.Timed) (t : Time)
    (key : String) (policy : RateLimitPolicy) :
    (hit backend limits t key policy).2.allowed =
      decide ((Window.countOf (window backend limits t key) : Int) < policy.limit) := by
  cases backend with
  | memory => exact InMemory.hit_allowed _ t key _ _
  | redis =>
    have hdecision := Redis.hit_decision h t key policy.limit policy.windowSeconds
    have hanswer : (hit .redis limits t key policy).2.allowed =
        Decidable.decide (((Window.countOf (window .redis limits t key) + 1 : Nat) : Int) ≤
          policy.limit) := congrArg RateLimitDecision.allowed hdecision
    rw [hanswer]
    refine decide_eq_decide.2 ?_
    omega

/-! ## Doors -/

/-- A counter that is charged before anything is done. -/
inductive Door where
  | registerIp (ip : String)
  | forgotPassword (address : String)
  | forgotPasswordIp (ip : String)
  | resetPasswordIp (ip : String)

namespace Door

def key : Door → String
  | .registerIp ip => scopedIpKey "register" ip
  | .forgotPassword address => s!"forgot-password:{address}"
  | .forgotPasswordIp ip => scopedIpKey "forgot-password" ip
  | .resetPasswordIp ip => scopedIpKey "reset-password" ip

def policy (config : Config) : Door → RateLimitPolicy
  | .registerIp _ => config.registerIpPolicy
  | .forgotPassword _ => config.forgotPasswordEmailPolicy
  | .forgotPasswordIp _ => config.forgotPasswordIpPolicy
  | .resetPasswordIp _ => config.resetPasswordIpPolicy

/-- No email address begins like the counter of an IP address. -/
def Plain : Door → Prop
  | .forgotPassword address => ∀ ip, address ≠ "ip:" ++ ip
  | _ => True

theorem key_injective {D D' : Door} (hD : D.Plain) (hD' : D'.Plain) (h : D.key = D'.key) :
    D = D' := by
  have hlist := congrArg String.toList h
  cases D with
  | registerIp ip =>
    cases D' with
    | registerIp ip' =>
      simp [key, scopedIpKey, toString, String.toList_inj] at hlist
      rw [hlist]
    | _ => simp [key, scopedIpKey, toString] at hlist
  | resetPasswordIp ip =>
    cases D' with
    | resetPasswordIp ip' =>
      simp [key, scopedIpKey, toString, String.toList_inj] at hlist
      rw [hlist]
    | _ => simp [key, scopedIpKey, toString] at hlist
  | forgotPassword address =>
    cases D' with
    | forgotPassword address' =>
      simp [key, toString, String.toList_inj] at hlist
      rw [hlist]
    | forgotPasswordIp ip =>
      simp [key, scopedIpKey, toString] at hlist
      exact absurd (String.toList_inj.1 (by simpa using hlist)) (hD ip)
    | _ => simp [key, scopedIpKey, toString] at hlist
  | forgotPasswordIp ip =>
    cases D' with
    | forgotPasswordIp ip' =>
      simp [key, scopedIpKey, toString, String.toList_inj] at hlist
      rw [hlist]
    | forgotPassword address =>
      simp [key, scopedIpKey, toString] at hlist
      exact absurd (String.toList_inj.1 (by simpa using hlist.symm)) (hD' ip)
    | _ => simp [key, scopedIpKey, toString] at hlist

theorem key_ne_accountKey (D : Door) (email : String) :
    D.key ≠ LoginUseCase.accountKey email := by
  intro h
  have hlist := congrArg String.toList h
  cases D <;> simp [key, scopedIpKey, LoginUseCase.accountKey, toString] at hlist

theorem key_ne_ipKey (D : Door) (ip : String) : D.key ≠ LoginUseCase.ipKey ip := by
  intro h
  have hlist := congrArg String.toList h
  cases D <;> simp [key, scopedIpKey, LoginUseCase.ipKey, toString] at hlist

end Door

/-- The call goes through the door. -/
def Call.Enters (env : Env) : Call → Door → Prop
  | .register _ device, .registerIp ip => (device.getD {}).ipAddress = some ip
  | .forgotPassword email _, .forgotPassword address => env.normalize email = address
  | .forgotPassword _ device, .forgotPasswordIp ip => (device.getD {}).ipAddress = some ip
  | .resetPassword _ device, .resetPasswordIp ip => (device.getD {}).ipAddress = some ip
  | _, _ => False

instance (c : Call) (D : Door) : Decidable (c.Enters env D) := by
  cases c <;> cases D <;>
    first | exact isFalse fun h => h | exact inferInstanceAs (Decidable (_ = _))

/-- A counter that a call touches is one of the login, or its door. -/
theorem Call.counts_cases {c : Call} {key : String} (h : c.Counts env key) :
    (∃ email, key = LoginUseCase.accountKey email) ∨ (∃ ip, key = LoginUseCase.ipKey ip) ∨
      ∃ D, c.Enters env D ∧ key = D.key := by
  cases c with
  | login data device =>
    rcases h with haccount | ⟨ip, -, hip⟩
    · exact .inl ⟨_, haccount⟩
    · exact .inr (.inl ⟨ip, hip⟩)
  | register data device =>
    obtain ⟨ip, hip, hkey⟩ := h
    exact .inr (.inr ⟨.registerIp ip, hip, hkey⟩)
  | forgotPassword email device =>
    rcases h with haddress | ⟨ip, hip, hkey⟩
    · exact .inr (.inr ⟨.forgotPassword _, rfl, haddress⟩)
    · exact .inr (.inr ⟨.forgotPasswordIp ip, hip, hkey⟩)
  | resetPassword data device =>
    obtain ⟨ip, hip, hkey⟩ := h
    exact .inr (.inr ⟨.resetPasswordIp ip, hip, hkey⟩)
  | _ => exact absurd h fun h => h

/-- A call that does not go through a door leaves its counter alone. -/
theorem Call.counts_ne {c : Call} {D : Door} (hD : D.Plain)
    (hplain : ∀ D', c.Enters env D' → D'.Plain) (hc : ¬ c.Enters env D) {key : String}
    (h : c.Counts env key) : key ≠ D.key := by
  intro hkey
  rcases Call.counts_cases h with ⟨email, haccount⟩ | ⟨ip, hip⟩ | ⟨D', hD', hkey'⟩
  · exact D.key_ne_accountKey email (hkey.symm.trans haccount)
  · exact D.key_ne_ipKey ip (hkey.symm.trans hip)
  · rw [Door.key_injective hD (hplain D' hD') (hkey.symm.trans hkey')] at hc
    exact hc hD'

/-- The operation does something: to the database or to an inbox. -/
def Op.acts : Op → Bool
  | .sql _ | .commit | .mailSend _ => true
  | _ => false

namespace Doors

/-! ## The order -/

/-- A call that does not go through the door, one that has not yet been admitted, and one
that has. -/
inductive State where
  | bystander
  | outside
  | inside
  deriving DecidableEq

/-- What a call may do next. -/
def May (env : Env) (D : Door) : State → Op → Prop
  | q, .limiterHit key policy => key = D.key → q = .outside ∧ policy = D.policy env.config
  | _, .limiterPeek key _ | _, .limiterReset key => key ≠ D.key
  | q, .sql _ | q, .commit | q, .mailSend _ => q ≠ .outside
  | _, _ => True

/-- Where the answer leads. -/
def next (D : Door) : State → (op : Op) → op.Res → State
  | .outside, .limiterHit key _, decision =>
      if key = D.key ∧ decision.allowed = true then .inside else .outside
  | q, _, _ => q

@[reducible] def protocol (env : Env) (D : Door) : Protocol sig where
  State := State
  may := May env D
  expects := fun _ _ _ => True
  next := next D

variable {D : Door}

@[simp] theorem next_inside (op : Op) (r : op.Res) : next D .inside op r = .inside := by
  cases op <;> rfl

@[simp] theorem next_bystander (op : Op) (r : op.Res) : next D .bystander op r = .bystander := by
  cases op <;> rfl

@[simp] theorem next_hit (policy : RateLimitPolicy) (decision : RateLimitDecision) :
    next D .outside (.limiterHit D.key policy) decision =
      if decision.allowed = true then .inside else .outside := by
  simp [next]

/-- Operations of a call that is not at the door. -/
theorem may_of_asks {c : Call} (hD : D.Plain) (hplain : ∀ D', c.Enters env D' → D'.Plain)
    (hc : ¬ c.Enters env D) {op : Op} (h : c.Asks env op) : May env D .bystander op := by
  cases op with
  | limiterHit key policy => exact fun hkey => absurd hkey (Call.counts_ne hD hplain hc h)
  | limiterPeek key policy => exact Call.counts_ne hD hplain hc h
  | limiterReset key => exact Call.counts_ne hD hplain hc h
  | sql s => exact fun hq => by cases hq
  | commit => exact fun hq => by cases hq
  | mailSend message => exact fun hq => by cases hq
  | _ => trivial

theorem register_follows {data : RegisterUserDTO} {device : Option DeviceInfoDTO} {ip : String}
    (hip : (device.getD {}).ipAddress = some ip)
    (henforced : ((Door.registerIp ip).policy env.config).isEnforced = true) :
    (protocol env (.registerIp ip)).Follows ((Call.register data device).program env)
      (fun _ _ => True) State.outside := by
  have hkey : scopedIpKey "register" ip = (Door.registerIp ip).key := rfl
  have hpolicy : env.config.registerIpPolicy = (Door.registerIp ip).policy env.config := rfl
  simp +contextual [registerUser, RegisterUserUseCase.checkRateLimit, chargeIpOrRefuse, hip,
    chargeOrRefuse, henforced, hkey, hpolicy, RegisterUserUseCase.grantDefault,
    EmailVerificationIssuer.issue, EmailVerificationIssuer.send, audit.record, May, Option.forall]

theorem resetPassword_follows {data : ResetPasswordDTO} {device : Option DeviceInfoDTO}
    {ip : String} (hip : (device.getD {}).ipAddress = some ip)
    (henforced : ((Door.resetPasswordIp ip).policy env.config).isEnforced = true) :
    (protocol env (.resetPasswordIp ip)).Follows ((Call.resetPassword data device).program env)
      (fun _ _ => True) State.outside := by
  have hkey : scopedIpKey "reset-password" ip = (Door.resetPasswordIp ip).key := rfl
  have hpolicy : env.config.resetPasswordIpPolicy = (Door.resetPasswordIp ip).policy env.config :=
    rfl
  simp +contextual [resetPassword, ResetPasswordUseCase.checkRateLimit, chargeIpOrRefuse, hip,
    chargeOrRefuse, henforced, hkey, hpolicy, audit.record, May]

/-- What ForgotPassword does behind its doors. -/
theorem issue_follows (address : String) {Q : State → Except Failure Unit → Prop}
    (hQ : ∀ out, Q .inside out) :
    (protocol env D).Follows (do
      let issued ← withUow do
        let found ← users.getByEmail address
        ForgotPasswordUseCase.issue env (found.filter (·.isActive))
      ForgotPasswordUseCase.sendIssued env address issued) Q State.inside := by
  simp [May]
  intro owner
  cases owner.filter (·.isActive) <;>
    simp [ForgotPasswordUseCase.issue, ForgotPasswordUseCase.sendIssued, hQ, May]

/-- A counter other than the door's. -/
theorem pass_follows {policy : RateLimitPolicy} {key message : String} (hkey : key ≠ D.key)
    {q : State} {Q : State → Except Failure Unit → Prop} (hQ : ∀ out, Q q out) :
    (protocol env D).Follows (chargeOrRefuse policy key message) Q q := by
  have hstays (policy : RateLimitPolicy) (decision : RateLimitDecision) :
      next D q (.limiterHit key policy) decision = q := by
    cases q <;> simp [next, hkey]
  simp [chargeOrRefuse, May, hkey, hstays, hQ]

/-- The counter of the door. -/
theorem knock_follows (D : Door) (henforced : (D.policy env.config).isEnforced = true)
    {message : String} {Q : State → Except Failure Unit → Prop}
    (hok : Q .inside (.ok ())) (herror : ∀ q e, Q q (.error e)) :
    (protocol env D).Follows (chargeOrRefuse (D.policy env.config) D.key message) Q
      State.outside := by
  simp +contextual [chargeOrRefuse, henforced, May, hok, herror]

theorem forgotPassword_follows {email : String} {device : Option DeviceInfoDTO}
    (hplain : ∀ D', (Call.forgotPassword email device).Enters env D' → D'.Plain)
    (hD : (Call.forgotPassword email device).Enters env D)
    (henforced : (D.policy env.config).isEnforced = true) :
    (protocol env D).Follows ((Call.forgotPassword email device).program env)
      (fun _ _ => True) State.outside := by
  have hseparate (ip : String) : scopedIpKey "forgot-password" ip ≠
      (Door.forgotPassword (env.normalize email)).key := by
    intro hkey
    have hsame : Door.forgotPasswordIp ip = .forgotPassword (env.normalize email) :=
      Door.key_injective trivial (hplain _ rfl) hkey
    cases hsame
  simp only [Call.program, forgotPassword, ForgotPasswordUseCase.checkRateLimits, monad_bind,
    follows_map, follows_bind]
  cases D with
  | forgotPassword address =>
    have haddress : env.normalize email = address := hD
    subst haddress
    refine knock_follows (.forgotPassword (env.normalize email)) henforced ?_ fun _ _ => trivial
    rw [followsThen_ok]
    unfold chargeIpOrRefuse
    cases (device.getD {}).ipAddress with
    | none => exact issue_follows _ fun _ => trivial
    | some ip =>
      refine pass_follows (hseparate ip) fun out => ?_
      cases out with
      | error e => trivial
      | ok _ => exact issue_follows _ fun _ => trivial
  | forgotPasswordIp ip =>
    have hip : (device.getD {}).ipAddress = some ip := hD
    refine pass_follows (hseparate ip).symm fun out => ?_
    cases out with
    | error e => trivial
    | ok _ =>
      rw [followsThen_ok]
      unfold chargeIpOrRefuse
      rw [hip]
      exact knock_follows (.forgotPasswordIp ip) henforced (issue_follows _ fun _ => trivial)
        fun _ _ => trivial
  | _ => exact absurd hD fun h => h

/-- Where a call begins. -/
def start (env : Env) (D : Door) (c : Call) : State :=
  if c.Enters env D then .outside else .bystander

/-- Every call keeps to the order. -/
theorem follows {c : Call} (hD : D.Plain) (hplain : ∀ D', c.Enters env D' → D'.Plain)
    (henforced : (D.policy env.config).isEnforced = true) :
    (protocol env D).Follows (c.program env) (fun _ _ => True) (start env D c) := by
  unfold start
  by_cases hc : c.Enters env D
  · rw [if_pos hc]
    cases c with
    | register data device =>
      cases D with
      | registerIp ip => exact register_follows hc henforced
      | _ => exact absurd hc fun h => h
    | resetPassword data device =>
      cases D with
      | resetPasswordIp ip => exact resetPassword_follows hc henforced
      | _ => exact absurd hc fun h => h
    | forgotPassword email device => exact forgotPassword_follows hplain hc henforced
    | _ => exact absurd hc fun h => h
  · rw [if_neg hc]
    exact Follows.of_only c.asks
      (fun op h => ⟨may_of_asks hD hplain hc h, fun r => next_bystander (D := D) op r⟩)
      fun _ => trivial

end Doors

/-! ## Who is admitted -/

/-- The door has let a call in. -/
def Entry.admits (D : Door) (e : Entry (machine env)) : Bool :=
  match e.op, e.answer with
  | .limiterHit key _, decision => decide (key = D.key) && decision.allowed
  | _, _ => false

/-- The call was admitted in the interval from `a` to `stop`. -/
def admittedIn (D : Door) (a stop : Time) (pool : Pool (machine env) n Failure Answer)
    (i : Fin n) : Bool :=
  (pool.procs i).log.any fun e => Entry.admits D e && decide (a ≤ e.clock ∧ e.clock < stop)

/-- The operation that call `i` performs now. -/
abbrev performed (pool : Pool (machine env) n Failure Answer) (i : Fin n) (t : Time) (op : Op) :
    Entry (machine env) :=
  ⟨t, op, pool.matched i op, (pool.effect i t op).2⟩

/-- How many were. -/
def admittedCount (D : Door) (a stop : Time) (pool : Pool (machine env) n Failure Answer) : Nat :=
  (Finset.univ.filter fun i => admittedIn D a stop pool i = true).card

namespace Doors

variable {D : Door} {a stop : Time} {pool : Pool (machine env) n Failure Answer} {i : Fin n}
  {op : Op} {k : op.Res → Program sig Failure Answer}

/-- The state of the door. -/
abbrev running (env : Env) (D : Door) (w : World) (t : Time) : Option (Window Time) :=
  Limits.window env.backend w.limits t D.key

/-- One operation of call `i` is over. -/
theorem admittedIn_advance (j : Fin n) :
    admittedIn D a stop (pool.advance i t op k) j =
      (admittedIn D a stop pool j || (decide (j = i) &&
        (Entry.admits D (performed pool i t op) && decide (a ≤ t ∧ t < stop)))) := by
  unfold admittedIn
  by_cases hj : j = i
  · subst hj
    rw [Pool.advance_procs_self]
    simp
  · rw [Pool.advance_procs_of_ne pool t op k hj]
    simp [hj]

/-- At most one more was admitted, and none if the operation admits nobody. -/
theorem admittedCount_advance_le :
    admittedCount D a stop (pool.advance i t op k) ≤ admittedCount D a stop pool + 1 := by
  unfold admittedCount
  refine (Finset.card_le_card (t := insert i
    (Finset.univ.filter fun j => admittedIn D a stop pool j = true)) fun j hj => ?_).trans
    (Finset.card_insert_le _ _)
  rw [Finset.mem_filter, admittedIn_advance] at hj
  rw [Finset.mem_insert, Finset.mem_filter]
  by_cases hji : j = i
  · exact .inl hji
  · refine .inr ⟨Finset.mem_univ j, ?_⟩
    simpa [hji] using hj.2

theorem admittedCount_advance_of_not
    (h : (Entry.admits D (performed pool i t op) && decide (a ≤ t ∧ t < stop)) = false) :
    admittedCount D a stop (pool.advance i t op k) = admittedCount D a stop pool := by
  unfold admittedCount
  congr 1
  refine Finset.filter_congr fun j _ => ?_
  rw [admittedIn_advance, h, Bool.and_false, Bool.or_false]

/-- The limit and the window of the door. -/
def limit (env : Env) (D : Door) : Nat := (D.policy env.config).limit.toNat

def length (env : Env) (D : Door) : Time := (D.policy env.config).windowSeconds

/-- What holds while calls run side by side.  `a` is the beginning of an interval as long as
a window. -/
structure Inv (D : Door) (a : Time) (calls : Fin n → Call) (now : Time)
    (pool : Pool (machine env) n Failure Answer) : Prop where
  timed : pool.shared.limits.Timed
  later : now < a → admittedCount D a (a + length env D) pool = 0
  spent : now < a + length env D → Spent (limit env D) (a + length env D)
    (running env D pool.shared now) (admittedCount D a (a + length env D) pool)
  bound : admittedCount D a (a + length env D) pool ≤ 2 * limit env D
  idle : ∀ i, pool.states (protocol env D) (fun j => start env D (calls j)) i = .outside →
    ∀ e ∈ (pool.procs i).log, e.op.acts = false
  admitted : ∀ i, pool.states (protocol env D) (fun j => start env D (calls j)) i = .inside →
    ∃ e ∈ (pool.procs i).log, Entry.admits D e = true

variable {calls : Fin n → Call}

theorem Inv.at_ (h : Inv D a calls now pool) (ht : now ≤ t) : Inv D a calls t pool where
  timed := h.timed
  later hlt := h.later (lt_of_le_of_lt ht hlt)
  spent hlt := by
    have hwindow : running env D pool.shared t = Window.at_ (running env D pool.shared now) t :=
      Limits.window_of_le _ ht
    rw [hwindow]
    exact (h.spent (lt_of_le_of_lt ht hlt)).at_ hlt
  bound := h.bound
  idle := h.idle
  admitted := h.admitted

theorem Inv.wait (h : Inv D a calls now pool) (i : Fin n) (op : Op) :
    Inv D a calls now (pool.wait i op) := by
  have hcount : admittedCount D a (a + length env D) (pool.wait i op) =
      admittedCount D a (a + length env D) pool := by
    unfold admittedCount admittedIn
    simp only [Pool.wait_log]
  refine ⟨h.timed, fun hlt => hcount.trans (h.later hlt), fun hlt => ?_, ?_, fun j hj => ?_,
    fun j hj => ?_⟩
  · rw [hcount]
    exact h.spent hlt
  · rw [hcount]
    exact h.bound
  · rw [Pool.wait_log]
    rw [Pool.states_wait] at hj
    exact h.idle j hj
  · rw [Pool.wait_log]
    rw [Pool.states_wait] at hj
    exact h.admitted j hj

/-- What an operation does to the door. -/
theorem running_effect (htimed : pool.shared.limits.Timed)
    (hmay : May env D (pool.states (protocol env D) (fun j => start env D (calls j)) i) op) :
    (pool.effect i t op).1.1.limits.Timed ∧
      ((running env D (pool.effect i t op).1.1 t = running env D pool.shared t ∧
          Entry.admits D (performed pool i t op) = false) ∨
        (running env D (pool.effect i t op).1.1 t =
            Window.afterHit (running env D pool.shared t) t (length env D) ∧
          Entry.admits D (performed pool i t op) =
            decide ((Window.countOf (running env D pool.shared t) : Int) <
              (D.policy env.config).limit))) := by
  cases op with
  | limiterHit key policy =>
    refine ⟨Limits.timed_hit htimed t key policy, ?_⟩
    by_cases hkey : key = D.key
    · obtain ⟨-, hpolicy⟩ := hmay hkey
      subst hkey hpolicy
      refine .inr ⟨Limits.window_hit_self htimed t _ _, ?_⟩
      have hallowed : (Limits.hit env.backend pool.shared.limits t D.key
          (D.policy env.config)).2.allowed = decide ((Window.countOf
            (running env D pool.shared t) : Int) < (D.policy env.config).limit) :=
        Limits.hit_allowed htimed t D.key _
      simp only [Entry.admits, decide_true, Bool.true_and]
      exact hallowed
    · refine .inl ⟨Limits.window_hit_of_ne htimed t t policy (Ne.symm hkey), ?_⟩
      simp [Entry.admits, hkey]
  | limiterReset key =>
    have hkey : key ≠ D.key := hmay
    exact ⟨Limits.timed_reset htimed key, .inl ⟨Limits.window_reset_of_ne t hkey.symm, rfl⟩⟩
  | _ => exact ⟨htimed, .inl ⟨rfl, rfl⟩⟩

/-- An operation of a call that is not admitted does nothing. -/
theorem not_acts_of_may (h : May env D .outside op) : op.acts = false := by
  cases op with
  | sql | commit | mailSend => exact absurd rfl h
  | _ => rfl

/-- Only the door lets a call in. -/
theorem admits_of_next {q : State} {e : Entry (machine env)} (hq : q ≠ .inside)
    (h : next D q e.op e.answer = .inside) : Entry.admits D e = true := by
  obtain ⟨clock, op, rows, answer⟩ := e
  cases q with
  | bystander => simp at h
  | inside => exact absurd rfl hq
  | outside =>
    cases op with
    | limiterHit key policy =>
      simp only [next] at h
      split at h
      · rename_i hadmitted
        simp [Entry.admits, hadmitted]
      · cases h
    | _ => cases h

theorem eq_outside_of_next {q : State} {r : op.Res} (h : next D q op r = .outside) :
    q = .outside := by
  cases q with
  | outside => rfl
  | _ => simp at h

/-- What the operation leaves of the count and of the window. -/
theorem Inv.counted (h : Inv D a calls t pool)
    (henforced : (D.policy env.config).isEnforced = true)
    (hmay : May env D (pool.states (protocol env D) (fun j => start env D (calls j)) i) op) :
    (t < a → admittedCount D a (a + length env D) (pool.advance i t op k) = 0) ∧
      (t < a + length env D → Spent (limit env D) (a + length env D)
        (running env D (pool.effect i t op).1.1 t)
        (admittedCount D a (a + length env D) (pool.advance i t op k))) ∧
      admittedCount D a (a + length env D) (pool.advance i t op k) ≤ 2 * limit env D := by
  have hpositive : 0 < (D.policy env.config).limit := of_decide_eq_true henforced
  have hlimit : 0 < limit env D := by
    unfold limit
    omega
  obtain ⟨-, hdoor⟩ := running_effect (t := t) h.timed hmay
  have hsame (hno : (Entry.admits D (performed pool i t op) &&
      decide (a ≤ t ∧ t < a + length env D)) = false) :
      admittedCount D a (a + length env D) (pool.advance i t op k) =
        admittedCount D a (a + length env D) pool := admittedCount_advance_of_not hno
  rcases hdoor with ⟨hwindow, hnobody⟩ | ⟨hwindow, hanswer⟩
  · rw [hsame (by rw [hnobody, Bool.false_and]), hwindow]
    exact ⟨h.later, h.spent, h.bound⟩
  · rw [hwindow]
    by_cases hin : a ≤ t ∧ t < a + length env D
    · obtain ⟨hfrom, huntil⟩ := hin
      by_cases hopen : (Window.countOf (running env D pool.shared t) : Int) <
          (D.policy env.config).limit
      · -- one more was admitted
        have hlength : 0 < length env D := by linarith
        have hroom : Window.countOf (running env D pool.shared t) < limit env D := by
          unfold limit
          omega
        have hmore : admittedCount D a (a + length env D) (pool.advance i t op k) ≤
            admittedCount D a (a + length env D) pool + 1 := admittedCount_advance_le
        have hspent := ((h.spent huntil).admitted hfrom hlength hroom).mono hmore
        exact ⟨fun hlt => absurd hfrom (not_le.2 hlt), fun _ => hspent, hspent.le⟩
      · have hfull : ¬ Window.countOf (running env D pool.shared t) < limit env D := by
          unfold limit
          omega
        rw [hsame (by rw [hanswer, decide_eq_false hopen, Bool.false_and])]
        exact ⟨h.later, fun _ => (h.spent huntil).refused hfull hlimit, h.bound⟩
    · rw [hsame (by rw [decide_eq_false hin, Bool.and_false])]
      refine ⟨h.later, fun huntil => ?_, h.bound⟩
      have hlt : t < a := not_le.1 fun hfrom => hin ⟨hfrom, huntil⟩
      rw [h.later hlt]
      exact Spent.zero

/-- One operation of one call. -/
theorem Inv.advance (h : Inv D a calls t pool)
    (henforced : (D.policy env.config).isEnforced = true)
    (hmay : May env D (pool.states (protocol env D) (fun j => start env D (calls j)) i) op) :
    Inv D a calls t (pool.advance i t op k) := by
  obtain ⟨htimed, -⟩ := running_effect (t := t) h.timed hmay
  obtain ⟨hlater, hspent, hbound⟩ := h.counted (k := k) henforced hmay
  refine ⟨htimed, hlater, hspent, hbound, fun j hj => ?_, fun j hj => ?_⟩
  · by_cases hji : j = i
    · subst hji
      rw [Pool.states_advance, Function.update_self] at hj
      have hq := eq_outside_of_next hj
      rw [Pool.advance_procs_self]
      intro e he
      rcases List.mem_append.1 he with hold | hnew
      · exact h.idle j hq e hold
      · rw [List.mem_singleton.1 hnew]
        rw [hq] at hmay
        exact not_acts_of_may hmay
    · rw [Pool.states_advance, Function.update_of_ne hji] at hj
      rw [Pool.advance_procs_of_ne pool t op k hji]
      exact h.idle j hj
  · by_cases hji : j = i
    · subst hji
      rw [Pool.states_advance, Function.update_self] at hj
      rw [Pool.advance_procs_self]
      by_cases hq : pool.states (protocol env D) (fun j => start env D (calls j)) j = .inside
      · obtain ⟨e, he, hadmits⟩ := h.admitted j hq
        exact ⟨e, List.mem_append_left _ he, hadmits⟩
      · exact ⟨_, List.mem_append_right _ (List.mem_singleton_self _),
          admits_of_next (e := ⟨t, op, pool.matched j op, (pool.effect j t op).2⟩) hq hj⟩
    · rw [Pool.states_advance, Function.update_of_ne hji] at hj
      rw [Pool.advance_procs_of_ne pool t op k hji]
      exact h.admitted j hj

theorem next_outside_ne (op : Op) (r : op.Res) : next D .outside op r ≠ .bystander := by
  cases op with
  | limiterHit key policy =>
    simp only [next]
    split <;> exact fun h => by cases h
  | _ => exact fun h => by cases h

/-- A call that goes through the door stays outside or comes inside. -/
theorem after_outside {M : Machine sig} (log : List (Effects.Entry M)) :
    (protocol env D).after .outside log ≠ .bystander := by
  induction log using List.reverseRecOn with
  | nil => exact fun h => by cases h
  | append_singleton log e ih =>
    rw [after_append]
    intro h
    cases hq : (protocol env D).after .outside log with
    | bystander => exact ih hq
    | inside =>
      rw [hq] at h
      simp at h
    | outside =>
      rw [hq] at h
      exact next_outside_ne e.op e.answer h

theorem Inv.initial (hw : w.limits.Timed) (D : Door) (a now : Time) (calls : Fin n → Call) :
    Inv D a calls now (w.pool env calls) := by
  have hnobody : admittedCount D a (a + length env D) (w.pool env calls) = 0 :=
    Finset.card_eq_zero.2 (Finset.filter_eq_empty_iff.2 fun i _ h => by cases h)
  refine ⟨hw, fun _ => hnobody, fun _ => ?_, ?_, fun i _ e he => absurd he List.not_mem_nil,
    fun i hi => ?_⟩
  · rw [hnobody]
    exact Spent.zero
  · rw [hnobody]
    exact Nat.zero_le _
  · rw [World.pool_states] at hi
    unfold start at hi
    split at hi <;> cases hi

end Doors

open Doors

/-- Where every counter has an expiry at the start, and whatever runs side by side, at most
twice the limit of a door's policy are admitted in an interval as long as its window, and a
call that goes through the door does nothing to the database or to an inbox without having
been admitted.  A `hit` is one step, in Redis as well. -/
theorem doors_hold {D : Door} (hD : D.Plain) {calls : Fin n → Call}
    (hplain : ∀ i D', (calls i).Enters env D' → D'.Plain)
    (henforced : (D.policy env.config).isEnforced = true) (hw : w.limits.Timed)
    {schedule : Pool.Schedule (machine env) n} (hticks : Pool.Ticks now schedule) (a : Time) :
    let pool := (w.pool env calls).run schedule
    admittedCount D a (a + length env D) pool ≤ 2 * limit env D ∧
      ∀ i, (calls i).Enters env D → (∃ e ∈ (pool.procs i).log, e.op.acts = true) →
        ∃ e ∈ (pool.procs i).log, Entry.admits D e = true := by
  intro pool
  have hfollows : (w.pool env calls).Follows (protocol env D)
      (fun j => start env D (calls j)) fun _ _ _ => True :=
    fun i => follows hD (hplain i) henforced
  obtain ⟨hinv, -⟩ := Pool.run_follows_clocked (M := machine env)
    (J := fun now pool => Inv D a calls now pool) (fun now t pool ht h => h.at_ ht)
    (fun now pool i op h => h.wait i op)
    (fun pool i t op k h _ _ _ hmay => ⟨trivial, h.advance henforced hmay⟩)
    schedule hticks (Pool.along_of_forall (fun _ _ _ => trivial) _ _)
    (Inv.initial hw D a now calls) hfollows
  refine ⟨hinv.bound, fun i hi hacts => ?_⟩
  obtain ⟨e, he, hacting⟩ := hacts
  have hstart : start env D (calls i) = .outside := if_pos hi
  cases hq : pool.states (protocol env D) (fun j => start env D (calls j)) i with
  | inside => exact hinv.admitted i hq
  | outside =>
    have hidle := hinv.idle i hq e he
    rw [hacting] at hidle
    cases hidle
  | bystander =>
    have hq' : (protocol env D).after (start env D (calls i)) (pool.procs i).log = .bystander := hq
    rw [hstart] at hq'
    exact absurd hq' (after_outside _)

/-- A service that mails one reset link to an address in a minute. -/
def Sample.mailEnv : Env :=
  { Sample.env with config := { Sample.config with forgotPasswordEmailPolicy := Sample.policy 1 } }

theorem Sample.alice_plain : (Door.forgotPassword "alice").Plain := by
  intro ip h
  have hlist := congrArg String.toList h
  simp at hlist

/-- Two requests for alice, side by side. -/
theorem doors_hold_alice :
    let calls : Fin 2 → Call := fun _ => .forgotPassword "alice" none
    let pool := (Sample.world.pool Sample.mailEnv calls).run
      (List.replicate 3 (1, 20) ++ List.replicate 12 (0, 21) ++ List.replicate 12 (1, 22))
    admittedCount (.forgotPassword "alice") 20 (20 + Doors.length Sample.mailEnv
      (.forgotPassword "alice")) pool ≤
        2 * Doors.limit Sample.mailEnv (.forgotPassword "alice") := by
  intro calls pool
  have hplain : ∀ i D', (calls i).Enters Sample.mailEnv D' → D'.Plain := by
    intro i D' hD'
    cases D' with
    | forgotPassword address =>
      have haddress : "alice" = address := hD'
      rw [← haddress]
      exact Sample.alice_plain
    | _ => trivial
  have hticks : Pool.Ticks (M := machine Sample.mailEnv) (0 : Time)
      (List.replicate 3 ((1 : Fin 2), 20) ++ List.replicate 12 (0, 21) ++
        List.replicate 12 (1, 22)) := by decide +kernel
  exact (doors_hold Sample.alice_plain hplain rfl Sample.initial.wf.timed hticks 20).1

end VideoSite.Users
