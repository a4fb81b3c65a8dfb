import VideoSite.Users.Concurrent

/-!
# One refresh token, many refreshes

`RefreshTokenUseCase` reads the session of the token, and revokes it with a later
statement whose row count it does not look at.  The `UPDATE` takes the lock of the row,
so that of several refreshes one only finds the session unrevoked; but one that finds
nothing to revoke goes on all the same.

* `RefreshOnce.refresh_follows` is the protocol of a refresh: it revokes, adds one
  session and commits, in this order.
* `refreshed_once` says that one refresh succeeds at most, in a run in which no refresh
  revokes in vain.
* `refreshed_twice` is a run in which one does.
-/

namespace VideoSite.Users

open Effects Program Protocol

variable {env : Env} {t : Time} {w : World} {n : Nat} {jti : String} {id : SessionId}

namespace RefreshOnce

/-! ## The protocol -/

/-- How far a refresh is. -/
inductive State where
  | reading
  | claimed
  | added
  | committed
  | closed
  deriving DecidableEq, Repr

/-- What it may do next. -/
inductive May (jti : String) : State → Op → Prop
  | read {q op} (h : op.reads = true) : May jti q op
  | claim {moment} : May jti .reading (.sql (.sessionsRevoke jti moment))
  | add {session} : May jti .claimed (.sql (.sessionsAdd session))
  | commit : May jti .added .commit
  | close {q} : May jti q .close

/-- Where the answer leads. -/
def next : State → (op : Op) → op.Res → State
  | .reading, .sql (.sessionsRevoke _ _), _ => .claimed
  | .claimed, .sql (.sessionsAdd _), .ok _ => .added
  | .added, .commit, _ => .committed
  | .committed, .close, _ => .committed
  | _, .close, _ => .closed
  | q, _, _ => q

/-- A refresh of a token with this `jti`. -/
@[reducible] def protocol (jti : String) : Protocol sig where
  State := State
  may := May jti
  expects := fun _ => Op.expects
  next := next

/-- Whether it has the session in its hands. -/
def State.phase : State → Phase
  | .claimed | .added => .holding
  | .committed => .done
  | .reading | .closed => .idle

theorem next_of_reads {op : Op} (h : op.reads = true) (q : State) (r : op.Res) :
    next q op r = q := by
  cases op with
  | sql s => cases s <;> cases h <;> cases q <;> rfl
  | commit | close => cases h
  | _ => cases q <;> rfl

/-- A refresh keeps to the protocol, and succeeds after the commit only. -/
theorem refresh_follows {token : Token} (hjti : ∀ c, token = .jwt c → c.jti = jti)
    (device : Option DeviceInfoDTO) :
    (protocol jti).Follows ((Call.refresh token device).program env)
      (fun q out => out.isOk = true → q = State.committed) State.reading := by
  simp only [Call.program, refreshToken]
  simp [May.add, May.commit, May.close, next, Op.expects, Except.map, Except.isOk,
    Except.toBool]
  refine ⟨.read rfl, ?_⟩
  rintro _ c rfl rfl -
  rw [show (JwtTokenService.payload c).jti = jti from hjti c rfl]
  refine ⟨.read rfl, fun found => ⟨.read rfl, fun _ session _ _ => ⟨.read rfl, ?_⟩⟩⟩
  intro owner user _ _
  exact ⟨.read rfl, fun _ => ⟨.claim, .read rfl, fun _ => ⟨.read rfl, fun _ => .read rfl⟩⟩⟩

/-! ## The invariant -/

/-- What the transaction of a refresh has done so far, in each state. -/
def Local (jti : String) (id : SessionId) (db : Db) : State → Tx → Prop
  | .claimed, tx => ∃ ids moment, tx.pending = [.revokeSessions ids moment] ∧ id ∈ ids ∧
      RowKey.session id ∈ tx.locks ∧ ∃ row ∈ db.sessions, row.jti = jti
  | .added, tx => ∃ ids moment session,
      tx.pending = [.revokeSessions ids moment, .insertSession session] ∧ id ∈ ids ∧
        RowKey.session id ∈ tx.locks ∧ session.jti ≠ jti
  | _, tx => tx.pending = []

theorem Local.locked {db : Db} {q : State} {tx : Tx} (h : Local jti id db q tx)
    (hq : q.phase = .holding) : RowKey.session id ∈ tx.locks := by
  cases q with
  | claimed =>
    obtain ⟨_, _, -, -, hlock, -⟩ := h
    exact hlock
  | added =>
    obtain ⟨_, _, _, -, -, hlock, -⟩ := h
    exact hlock
  | _ => cases hq

/-- The part of a transaction that the assertion speaks of. -/
theorem Local.congr {db : Db} {q : State} {tx tx' : Tx} (h : Local jti id db q tx)
    (hpending : tx'.pending = tx.pending) (hlocks : tx'.locks = tx.locks) :
    Local jti id db q tx' := by
  cases q with
  | claimed | added =>
    simp only [Local, hpending, hlocks] at h ⊢
    exact h
  | _ => exact hpending.trans h

/-- The session of the token is revoked. -/
def Spent (jti : String) (w : World) : Prop :=
  ∀ row ∈ w.db.sessions, row.jti = jti → row.revokedAt ≠ none

/-- How far call `i` is. -/
abbrev stateOf (jti : String) (pool : Pool (machine env) n Failure Answer) : Fin n → State :=
  pool.states (protocol jti) (fun _ => State.reading)

variable (jti id) in
/-- The session is with one refresh at most, and there is one row more once a refresh
has committed.  `count` is the number of sessions at the start. -/
structure Inv (count : Nat) (pool : Pool (machine env) n Failure Answer) : Prop where
  unique : ∀ row ∈ pool.shared.db.sessions, row.jti = jti → row.id = id
  tx : ∀ i, Local jti id pool.shared.db (stateOf jti pool i) (pool.procs i).loc
  once : OneShot (RowKey.session id) (Spent jti) (fun i => (stateOf jti pool i).phase) pool
  before : (∀ i, (stateOf jti pool i).phase ≠ .done) →
    pool.shared.db.sessions.length = count
  bound : pool.shared.db.sessions.length ≤ count + 1

/-- The rows that the revocation is going to change. -/
theorem mem_targets {tx : Tx} (htx : tx.pending = []) (moment : Time) {key : RowKey}
    (hkey : key ∈ targets (.sql (.sessionsRevoke jti moment)) w tx) :
    ∃ row ∈ w.db.sessions, row.jti = jti ∧ row.revokedAt = none ∧
      key = .session row.id := by
  have hmem : key ∈ Statement.sessionKeys (tx.view w.db) (Statement.revokeWhere jti) := hkey
  rw [Tx.view_of_pending_nil htx] at hmem
  simp only [Statement.sessionKeys, List.mem_map, List.mem_filter, Statement.revokeWhere,
    Bool.and_eq_true, beq_iff_eq, Option.isNone_iff_eq_none] at hmem
  obtain ⟨_, ⟨row, ⟨hrow, hjti, hlive⟩, rfl⟩, rfl⟩ := hmem
  exact ⟨row, hrow, hjti, hlive, rfl⟩

/-- What the commit of a refresh makes of the sessions. -/
theorem Local.committed {q : State} {tx : Tx} {db : Db} (h : Local jti id db q tx)
    (hq : q = .added) : ∃ ids moment session, id ∈ ids ∧ session.jti ≠ jti ∧
      (tx.view db).sessions = db.sessions.map (·.revokeIn ids moment) ++ [session] := by
  subst hq
  obtain ⟨ids, moment, session, hpending, hid, -, hne⟩ := h
  refine ⟨ids, moment, session, hid, hne, ?_⟩
  unfold Tx.view
  rw [hpending]
  rfl

section Step

variable {count : Nat} {pool : Pool (machine env) n Failure Answer} {i : Fin n} {op : Op}
  {k : op.Res → Program sig Failure Answer}

/-- The phases after a step. -/
theorem phase_advance (q : State)
    (hq : next (stateOf jti pool i) op (pool.effect i t op).2 = q) :
    (fun j => (stateOf jti (pool.advance i t op k) j).phase) =
      Function.update (fun j => (stateOf jti pool j).phase) i q.phase :=
  Pool.states_advance_map (P := protocol jti) State.phase hq

/-- A step that is no commit keeps the invariant, if the assertion holds in the state it
leads to and a refresh that gets hold of the session is the first. -/
theorem Inv.quiet (h : Inv jti id count pool) (hop : op ≠ .commit) {q : State}
    (hq : next (stateOf jti pool i) op (pool.effect i t op).2 = q)
    (hlocal : Local jti id pool.shared.db q (pool.effect i t op).1.2)
    (hdone : q.phase = .done ↔ (stateOf jti pool i).phase = .done)
    (hentry : (stateOf jti pool i).phase = .idle → q.phase ≠ .idle →
      ∀ j, j ≠ i → (stateOf jti pool j).phase = .idle) :
    Inv jti id count (pool.advance i t op k) := by
  have hdb : (pool.advance i t op k).shared.db = pool.shared.db := perform_db hop
  have hphase := phase_advance (k := k) q hq
  refine ⟨?_, ?_, ?_, ?_, ?_⟩
  · rw [hdb]
    exact h.unique
  · intro j
    rw [hdb]
    unfold stateOf
    rw [Pool.states_advance]
    by_cases hj : j = i
    · subst hj
      rw [Function.update_self, Pool.advance_procs_self]
      change Local jti id _ (next (stateOf jti pool j) op _) _
      rw [hq]
      exact hlocal
    · rw [Function.update_of_ne hj, Pool.advance_procs_of_ne pool t op k hj]
      exact h.tx j
  · rw [hphase]
    refine h.once.advance hentry hlocal.locked (fun hd => ?_) (fun hs => ?_)
    · have hspent := h.once.spent i (hdone.1 hd)
      unfold Spent at hspent ⊢
      rwa [show (pool.effect i t op).1.1.db = pool.shared.db from perform_db hop]
    · unfold Spent at hs ⊢
      rwa [show (pool.effect i t op).1.1.db = pool.shared.db from perform_db hop]
  · intro hnone
    rw [hdb]
    refine h.before fun j hj => hnone j ?_
    have hj' := congrFun hphase j
    rw [hj']
    by_cases hji : j = i
    · subst hji
      rw [Function.update_self]
      exact hdone.2 hj
    · rw [Function.update_of_ne hji]
      exact hj
  · rw [hdb]
    exact h.bound

/-- The commit of a refresh. -/
theorem Inv.commit (h : Inv jti id count pool) (hstate : stateOf jti pool i = .added)
    {k : Unit → Program sig Failure Answer} :
    Inv jti id count (pool.advance i t .commit k) := by
  obtain ⟨ids, moment, session, hid, hne, hsessions⟩ := (h.tx i).committed hstate
  have hq : next (stateOf jti pool i) .commit (pool.effect i t .commit).2 = .committed := by
    rw [hstate]
    rfl
  have hphase := phase_advance (t := t) (k := k) .committed hq
  have hdb : (pool.advance i t .commit k).shared.db.sessions =
      pool.shared.db.sessions.map (·.revokeIn ids moment) ++ [session] := hsessions
  have hholding : (stateOf jti pool i).phase = .holding := by rw [hstate]; rfl
  -- nobody else has got anywhere
  have hothers (j : Fin n) (hj : j ≠ i) : (stateOf jti pool j).phase = .idle := by
    by_contra hbusy
    exact hj (h.once.exclusive j i hbusy (by rw [hholding]; decide))
  have hcount : pool.shared.db.sessions.length = count := by
    refine h.before fun j hj => ?_
    by_cases hji : j = i
    · rw [hji, hholding] at hj
      cases hj
    · rw [hothers j hji] at hj
      cases hj
  have hspent : Spent jti (pool.advance i t .commit k).shared := by
    intro row hrow hjti
    rw [hdb] at hrow
    rcases List.mem_append.1 hrow with hold | hnew
    · obtain ⟨old, hmem, rfl⟩ := List.mem_map.1 hold
      rw [AuthSession.revokeIn_jti] at hjti
      intro hnone
      obtain ⟨hsame, hlive⟩ := old.revokedAt_of_revokeIn ids moment hnone
      have hin : old.id ∈ ids ∧ old.revokedAt = none := ⟨h.unique old hmem hjti ▸ hid, hlive⟩
      unfold AuthSession.revokeIn at hnone
      rw [if_pos hin] at hnone
      cases hnone
    · rw [List.mem_singleton.1 hnew] at hjti
      exact absurd hjti hne
  refine ⟨?_, ?_, ?_, ?_, ?_⟩
  · intro row hrow hjti
    rw [hdb] at hrow
    rcases List.mem_append.1 hrow with hold | hnew
    · obtain ⟨old, hmem, rfl⟩ := List.mem_map.1 hold
      rw [AuthSession.revokeIn_jti] at hjti
      rw [AuthSession.revokeIn_id]
      exact h.unique old hmem hjti
    · rw [List.mem_singleton.1 hnew] at hjti
      exact absurd hjti hne
  · intro j
    unfold stateOf
    rw [Pool.states_advance]
    by_cases hj : j = i
    · subst hj
      rw [Function.update_self, Pool.advance_procs_self]
      change Local _ _ _ (next (stateOf jti pool j) _ _) _
      rw [hq]
      rfl
    · rw [Function.update_of_ne hj, Pool.advance_procs_of_ne pool t Op.commit k hj]
      have hidle := hothers j hj
      have htx := h.tx j
      unfold stateOf at hidle htx
      cases hs : pool.states (protocol jti) (fun _ => State.reading) j with
      | claimed | added =>
        rw [hs] at hidle
        cases hidle
      | reading | committed | closed =>
        rw [hs] at htx
        exact htx
  · rw [hphase]
    refine h.once.advance (fun hi => ?_) (fun hp => by cases hp) (fun _ => hspent)
      fun _ => hspent
    rw [hholding] at hi
    cases hi
  · intro hnone
    have hi := congrFun hphase i
    rw [Function.update_self] at hi
    exact absurd hi (hnone i)
  · rw [hdb, List.length_append, List.length_map, hcount]
    rfl

/-- The statement that revokes the session of the token. -/
def claims : Op → Bool
  | .sql (.sessionsRevoke _ _) => true
  | _ => false

/-- Every step of a refresh that revokes something keeps the invariant. -/
theorem Inv.advance (h : Inv jti id count pool)
    (hclaim : claims op = true → pool.matched i op ≠ [])
    (hfree : ¬ pool.Blocked i (pool.snapshot i op)) (hmay : May jti (stateOf jti pool i) op) :
    Inv jti id count (pool.advance i t op k) := by
  have htx := h.tx i
  generalize hq : stateOf jti pool i = q at hmay htx
  cases hmay with
  | read hreads =>
    obtain ⟨hpending, hlocks⟩ := effect_reads pool i t hreads
    refine h.quiet (q := q) ?_ ?_ (htx.congr hpending hlocks) (by rw [hq]) ?_
    · rintro rfl
      cases hreads
    · rw [hq]
      exact next_of_reads hreads q _
    · intro hidle hbusy
      rw [hq] at hidle
      exact absurd hidle hbusy
  | @claim moment =>
    obtain ⟨key, hkey⟩ := List.exists_mem_of_ne_nil _ (hclaim rfl)
    obtain ⟨row, hrow, hjti, -, rfl⟩ := mem_targets htx moment (Pool.mem_matched.1 hkey).2
    rw [h.unique row hrow hjti] at hkey
    refine h.quiet (q := .claimed) (by rintro ⟨⟩) (by rw [hq]; rfl) ?_ ?_ fun _ _ => ?_
    · refine ⟨_, moment, ?_, RowKey.mem_sessionId?.2 hkey, ?_, row, hrow, hjti⟩
      · show (pool.procs i).loc.pending ++ [_] = _
        rw [show (pool.procs i).loc.pending = [] from htx]
        rfl
      · exact List.mem_append_right _ hkey
    · rw [hq]
      decide
    · refine h.once.idle_of_claim hfree hkey fun hspent hin => ?_
      obtain ⟨old, hold, hjti', hlive, -⟩ := mem_targets htx moment hin
      exact hspent old hold hjti' hlive
  | @add session =>
    obtain ⟨ids, moment, hpending, hid, hlock, row, hrow, hjti⟩ := htx
    have hview : row.revokeIn ids moment ∈
        (Tx.view (pool.procs i).loc pool.shared.db).sessions := by
      unfold Tx.view
      rw [hpending]
      exact List.mem_map_of_mem hrow
    rcases effect_sessionsAdd pool i t session with
      ⟨e, he, hp, hl⟩ | ⟨new, hfresh, he, hp, hl⟩
    · refine h.quiet (q := .claimed) (by rintro ⟨⟩) ?_ ?_ (by rw [hq]) fun hidle _ => ?_
      · rw [hq, he]
        rfl
      · exact ⟨ids, moment, hp.trans hpending, hid, hl.symm ▸ hlock, row, hrow, hjti⟩
      · rw [hq] at hidle
        cases hidle
    · refine h.quiet (q := .added) (by rintro ⟨⟩) ?_ ?_ (by rw [hq]; decide) fun hidle _ => ?_
      · rw [hq, he]
        rfl
      · refine ⟨ids, moment, session.withId new, ?_, hid, ?_, ?_⟩
        · rw [hp, hpending]
          rfl
        · rw [hl]
          exact List.mem_append_left _ hlock
        · have hne := Db.jti_ne_of_violation hfresh _ hview
          rw [AuthSession.revokeIn_jti, hjti] at hne
          exact hne.symm
      · rw [hq] at hidle
        cases hidle
  | commit => exact h.commit hq
  | close =>
    by_cases hdone : q = .committed
    · subst hdone
      refine h.quiet (q := .committed) (by rintro ⟨⟩) (by rw [hq]; rfl) rfl (by rw [hq]) ?_
      intro hidle
      rw [hq] at hidle
      cases hidle
    · have hnext : next q .close (pool.effect i t .close).2 = .closed := by
        cases q with
        | committed => exact absurd rfl hdone
        | _ => rfl
      refine h.quiet (q := .closed) (by rintro ⟨⟩) (by rw [hq]; exact hnext) rfl ?_ ?_
      · rw [hq]
        cases q with
        | committed => exact absurd rfl hdone
        | _ => decide
      · intro _ hbusy
        exact absurd rfl hbusy

end Step

theorem Inv.wait {count : Nat} {pool : Pool (machine env) n Failure Answer}
    (h : Inv jti id count pool) (i : Fin n) (op : Op) :
    Inv jti id count (pool.wait i op) := by
  have hstates : stateOf jti (pool.wait i op) = stateOf jti pool :=
    Pool.states_wait (P := protocol jti) i op
  refine ⟨h.unique, fun j => ?_, ?_, fun hnone => ?_, h.bound⟩
  · rw [hstates, Pool.wait_loc]
    exact h.tx j
  · rw [hstates]
    exact h.once.wait i op
  · rw [hstates] at hnone
    exact h.before hnone

/-- The `jti` of a token, if it has one. -/
def jtiOf : Token → String
  | .jwt c => c.jti
  | .text _ => ""

/-- The refreshes at their start. -/
theorem Inv.initial (hdb : w.db.Sound env.supply w.calls) (jti : String)
    (calls : Fin n → Call) :
    ∃ id, Inv jti id w.db.sessions.length (w.pool env calls) := by
  have hunique : ∃ id, ∀ row ∈ w.db.sessions, row.jti = jti → row.id = id := by
    by_cases hex : ∃ row ∈ w.db.sessions, row.jti = jti
    · obtain ⟨row, hrow, hjti⟩ := hex
      refine ⟨row.id, fun other hother hjti' => ?_⟩
      rw [hdb.jti_unique hother hrow (hjti'.trans hjti.symm)]
    · exact ⟨0, fun row hrow hjti => absurd ⟨row, hrow, hjti⟩ hex⟩
  obtain ⟨id, hid⟩ := hunique
  exact ⟨id, hid, fun _ => rfl, .of_idle fun _ => rfl, fun _ => rfl, Nat.le_succ _⟩

end RefreshOnce

open RefreshOnce in
/-- One of several refreshes of one token succeeds at most, and there is one session
more at most, in a run in which every refresh that comes to revoke the session finds it
unrevoked. -/
theorem refreshed_once (hdb : w.db.Sound env.supply w.calls) {token : Token}
    {calls : Fin n → Call} (hcalls : ∀ i, ∃ device, calls i = .refresh token device)
    (sched : Pool.Schedule (machine env) n)
    (hclaims : Pool.Along (Pool.ClaimMatches claims) sched (w.pool env calls)) :
    (∀ i j, ((w.pool env calls).run sched).Succeeded i →
        ((w.pool env calls).run sched).Succeeded j → i = j) ∧
      ((w.pool env calls).run sched).shared.db.sessions.length ≤
        w.db.sessions.length + 1 := by
  obtain ⟨id, hinit⟩ := Inv.initial hdb (jtiOf token) calls
  have hfollows : (w.pool env calls).Follows (protocol (jtiOf token))
      (fun _ => State.reading) fun _ q out => out.isOk = true → q = State.committed := by
    intro i
    obtain ⟨device, hcall⟩ := hcalls i
    rw [World.pool_states, World.pool_prog, hcall]
    exact refresh_follows (fun c hc => by rw [hc]; rfl) device
  obtain ⟨hinv, hend⟩ := Pool.run_follows (fun pool i op h => h.wait i op)
    (fun pool i t op k h hc hprog hfree hmay =>
      ⟨effect_expects pool i t op, h.advance (hc.of_call hprog · hfree) hfree hmay⟩)
    sched hclaims hinit hfollows
  refine ⟨fun i j hi hj => ?_, hinv.bound⟩
  have hdone {i : Fin n} (hi : ((w.pool env calls).run sched).Succeeded i) :
      (stateOf (jtiOf token) ((w.pool env calls).run sched) i).phase ≠ .idle := by
    obtain ⟨a, ha⟩ := hend.of_succeeded hi
    rw [show stateOf (jtiOf token) ((w.pool env calls).run sched) i = .committed from ha rfl]
    decide
  exact hinv.once.exclusive i j (hdone hi) (hdone hj)

/-! ## Two refreshes -/

namespace Sample

/-- Her refresh token. -/
def refresh : Token := .jwt ⟨1, label 0 0, .refresh, 3610⟩

/-- She sends it twice. -/
def refreshes : Fin 2 → Call := fun _ => .refresh refresh none

end Sample

/-- The second refresh starts when the first is done. -/
theorem refreshed_once_sample :
    let sched : Pool.Schedule (machine Sample.env) 2 :=
      List.replicate 12 (0, 20) ++ List.replicate 4 (1, 21)
    (∀ i j, ((Sample.loggedIn.pool Sample.env Sample.refreshes).run sched).Succeeded i →
        ((Sample.loggedIn.pool Sample.env Sample.refreshes).run sched).Succeeded j → i = j) ∧
      ((Sample.loggedIn.pool Sample.env Sample.refreshes).run sched).shared.db.sessions.length ≤
        Sample.loggedIn.db.sessions.length + 1 :=
  refreshed_once (runCalls_wf Sample.initial.wf _).db (fun _ => ⟨none, rfl⟩) _
    (by decide +kernel)

/-- Both refreshes read the session before one of them revokes it. -/
theorem refreshed_twice :
    let sched : Pool.Schedule (machine Sample.env) 2 :=
      List.replicate 5 (1, 20) ++ List.replicate 12 (0, 21) ++ List.replicate 7 (1, 22)
    let pool := (Sample.loggedIn.pool Sample.env Sample.refreshes).run sched
    Sample.loggedIn.Wf Sample.env ∧ pool.Succeeded 0 ∧ pool.Succeeded 1 ∧
      pool.shared.db.sessions.length = Sample.loggedIn.db.sessions.length + 2 :=
  ⟨runCalls_wf Sample.initial.wf _, by decide +kernel, by decide +kernel, by decide +kernel⟩

end VideoSite.Users
