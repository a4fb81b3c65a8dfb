import VideoSite.Users.Concurrent

/-!
# One mailed secret, many calls

`ResetPasswordUseCase` and `VerifyEmailUseCase` look up the token of the secret that they
are given, and mark it as used with a later statement whose row count they do not look
at.  The `UPDATE` takes the lock of the row, so that of several calls one only finds the
token unused; but one that finds nothing to mark goes on all the same.

* `RedeemOnce.resetPassword_follows` and `RedeemOnce.verifyEmail_follows` are the
  protocol of both: they mark the token, and commit after that only.
* `redeemed_once` says that one call succeeds at most, in a run in which no call marks
  the token in vain.
* `reset_twice` and `verified_twice` are runs in which one does.
-/

namespace VideoSite.Users

open Effects Program Protocol

variable {env : Env} {t : Time} {w : World} {n : Nat}

/-! ## What writes do to the table of one-time tokens -/

/-- The write issues a one-time token. -/
def Write.issues : Write → Bool
  | .insertToken _ => true
  | _ => false

/-- The statement issues a one-time token. -/
def Statement.issues : Statement → Bool
  | .tokensAdd _ => true
  | _ => false

theorem Statement.Writes.issues {rows : List RowKey} {s : Statement} {write : Write}
    (h : s.Writes rows write) (hs : s.issues = false) : write.issues = false := by
  cases h with
  | tokensAdd => cases hs
  | _ => rfl

theorem SecurityToken.useIn_nil (token : SecurityToken) (moment : Time) :
    token.useIn [] moment = token := by
  unfold SecurityToken.useIn
  rw [if_neg fun h => List.not_mem_nil h.1]

theorem SecurityToken.useIn_id (token : SecurityToken) (ids : List SecurityTokenId)
    (moment : Time) : (token.useIn ids moment).id = token.id := by
  unfold SecurityToken.useIn
  split <;> rfl

/-- Any other write marks some tokens as used, and does no more to them. -/
theorem Write.apply_tokens {write : Write} (h : write.issues = false) (db : Db) :
    ∃ ids moment, (write.apply db).securityTokens =
      db.securityTokens.map (·.useIn ids moment) := by
  have hsame (db' : Db) (hdb : db'.securityTokens = db.securityTokens) :
      ∃ ids moment, db'.securityTokens = db.securityTokens.map (·.useIn ids moment) := by
    refine ⟨[], 0, ?_⟩
    rw [hdb, List.map_congr_left fun token _ => token.useIn_nil 0, List.map_id']
  cases write with
  | insertToken row => cases h
  | useTokens ids moment => exact ⟨ids, moment, rfl⟩
  | _ => exact hsame _ rfl

namespace RedeemOnce

variable {hash : String} {purpose : TokenPurpose} {id : SecurityTokenId}

/-- The only token that a call can find is number `id`. -/
def Found (hash : String) (purpose : TokenPurpose) (id : SecurityTokenId) (db : Db) : Prop :=
  ∀ token, db.tokenByHash hash purpose = some token → token.id = id

/-- Token `id` is used. -/
def Used (id : SecurityTokenId) (db : Db) : Prop :=
  ∀ row ∈ db.securityTokens, row.id = id → row.usedAt ≠ none

theorem Found.apply {write : Write} (hissues : write.issues = false) {db : Db}
    (h : Found hash purpose id db) : Found hash purpose id (write.apply db) := by
  obtain ⟨ids, moment, htokens⟩ := write.apply_tokens hissues db
  intro token htoken
  unfold Db.tokenByHash at htoken
  rw [htokens, List.find?_map] at htoken
  obtain ⟨old, hold, rfl⟩ := Option.map_eq_some_iff.1 htoken
  rw [SecurityToken.useIn_id]
  refine h old ?_
  have hsame (row : SecurityToken) : (row.useIn ids moment).tokenHash = row.tokenHash ∧
      (row.useIn ids moment).purpose = row.purpose := by
    unfold SecurityToken.useIn
    split <;> exact ⟨rfl, rfl⟩
  rw [← hold]
  unfold Db.tokenByHash
  congr 1
  funext row
  show _ = ((row.useIn ids moment).tokenHash == hash && (row.useIn ids moment).purpose == purpose)
  rw [(hsame row).1, (hsame row).2]

theorem Used.apply {write : Write} (hissues : write.issues = false) {db : Db}
    (h : Used id db) : Used id (write.apply db) := by
  obtain ⟨ids, moment, htokens⟩ := write.apply_tokens hissues db
  intro row hrow hid hnone
  rw [htokens] at hrow
  obtain ⟨old, hold, rfl⟩ := List.mem_map.1 hrow
  obtain ⟨-, hunused⟩ := SecurityToken.usedAt_of_useIn _ _ _ hnone
  rw [SecurityToken.useIn_id] at hid
  exact h old hold hid hunused

/-- A token that a transaction has marked is used in its eyes. -/
theorem used_of_marked {tx : Tx} (hissues : ∀ write ∈ tx.pending, write.issues = false)
    {ids : List SecurityTokenId} {moment : Time} (hmarked : .useTokens ids moment ∈ tx.pending)
    (hid : id ∈ ids) (db : Db) : Used id (tx.view db) := by
  obtain ⟨before, after, hpending⟩ := List.append_of_mem hmarked
  have hused : Used id (Write.apply (before.foldl Write.apply db) (.useTokens ids moment)) := by
    intro row hrow hrowid hnone
    obtain ⟨old, -, rfl⟩ := List.mem_map.1 hrow
    rw [SecurityToken.useIn_id] at hrowid
    obtain ⟨-, hunused⟩ := SecurityToken.usedAt_of_useIn _ _ _ hnone
    unfold SecurityToken.useIn at hnone
    rw [if_pos ⟨hrowid ▸ hid, hunused⟩] at hnone
    cases hnone
  have hafter : ∀ write ∈ ({ tx with pending := after } : Tx).pending, ∀ db,
      Used id db → Used id (write.apply db) := by
    intro write hwrite db h
    refine h.apply (hissues write ?_)
    rw [hpending]
    exact List.mem_append_right _ (List.mem_cons_of_mem _ hwrite)
  have hview := Tx.view_preserves hafter hused
  unfold Tx.view at hview ⊢
  rw [hpending, List.foldl_append, List.foldl_cons]
  exact hview

/-! ## The protocol -/

/-- How far a call is. -/
inductive State where
  | reading
  | marked
  | committed
  | closed
  deriving DecidableEq, Repr

/-- What it may do next. -/
inductive May (id : SecurityTokenId) : State → Op → Prop
  | read {q op} (h : op.reads = true) : May id q op
  | mark {token} (h : token.id = id) : May id .reading (.sql (.tokensMarkUsed token))
  | write {q s} (hq : q = .reading ∨ q = .marked) (hs : s.issues = false)
      (hmark : ∀ token, s ≠ .tokensMarkUsed token) : May id q (.sql s)
  | commit : May id .marked .commit
  | close {q} : May id q .close

/-- A look-up of the secret finds token `id`, if any. -/
def expects (hash : String) (purpose : TokenPurpose) (id : SecurityTokenId) :
    (op : Op) → op.Res → Prop
  | .sql (.tokensGetByHash h p), r =>
      h = hash → p = purpose → ∀ token, r = some token → token.id = id
  | _, _ => True

/-- Where the answer leads. -/
def next : State → (op : Op) → op.Res → State
  | .reading, .sql (.tokensMarkUsed _), _ => .marked
  | .marked, .commit, _ => .committed
  | .committed, .close, _ => .committed
  | _, .close, _ => .closed
  | q, _, _ => q

/-- A call that was given the secret of token `id`. -/
@[reducible] def protocol (hash : String) (purpose : TokenPurpose) (id : SecurityTokenId) :
    Protocol sig where
  State := State
  may := May id
  expects := fun _ => expects hash purpose id
  next := next

/-- Whether it has the token in its hands. -/
def State.phase : State → Phase
  | .marked => .holding
  | .committed => .done
  | .reading | .closed => .idle

theorem next_of_reads {op : Op} (h : op.reads = true) (q : State) (r : op.Res) :
    next q op r = q := by
  cases op with
  | sql s => cases s <;> cases h <;> cases q <;> rfl
  | commit | close => cases h
  | _ => cases q <;> rfl

theorem next_of_write {s : Statement} (hmark : ∀ token, s ≠ .tokensMarkUsed token)
    {q : State} (hq : q = .reading ∨ q = .marked) (r : s.Res) : next q (.sql s) r = q := by
  cases s with
  | tokensMarkUsed token => exact absurd rfl (hmark token)
  | _ =>
    rcases hq with rfl | rfl
    · rfl
    · rfl

/-- A password reset keeps to the protocol, and succeeds after the commit only. -/
theorem resetPassword_follows {data : ResetPasswordDTO}
    (hsecret : env.tokenHash data.token = hash) (device : Option DeviceInfoDTO) :
    (protocol hash .passwordReset id).Follows ((Call.resetPassword data device).program env)
      (fun q out => out.isOk = true → q = State.committed) State.reading := by
  simp only [Call.program, resetPassword, audit.record, monad_bind, follows_map, follows_bind]
  have hcharge : (ResetPasswordUseCase.checkRateLimit env (device.getD {})).Only
      fun op : Op => op.reads = true := only_chargeIpOrRefuse (fun _ => rfl) _ _ _
  refine Follows.of_only hcharge (fun op h => ⟨May.read h, next_of_reads h _⟩) fun out => ?_
  cases out with
  | error e => exact fun h => by cases h
  | ok _ =>
    simp [May.commit, May.close, expects, next, Except.map, Except.isOk, Except.toBool, hsecret]
    intro _
    refine ⟨.read rfl, fun found hfound => ⟨.read rfl, fun _ stored hstored _ => ?_⟩⟩
    have hid : stored.id = id := hfound stored hstored
    refine ⟨.read rfl, fun _ user _ _ => ⟨.read rfl, fun _ => ⟨.read rfl, fun _ => ?_⟩⟩⟩
    -- the new password, the mark, and what follows it
    refine ⟨.write (.inl rfl) rfl (by simp), .mark hid, .write (.inr rfl) rfl (by simp),
      .write (.inr rfl) rfl (by simp), fun _ => ⟨.read rfl, fun _ => ?_⟩⟩
    exact ⟨.write (.inr rfl) rfl (by simp), fun _ => .read rfl⟩

/-- And so does the confirmation of an address. -/
theorem verifyEmail_follows {secret : String} (hsecret : env.tokenHash secret = hash)
    (device : Option DeviceInfoDTO) :
    (protocol hash .emailVerification id).Follows ((Call.verifyEmail secret device).program env)
      (fun q out => out.isOk = true → q = State.committed) State.reading := by
  simp only [Call.program, verifyEmail, VerifyEmailUseCase.stamp, audit.record]
  simp [May.commit, May.close, expects, next, Except.map, Except.isOk, Except.toBool, hsecret]
  refine ⟨.read rfl, fun found hfound => ⟨.read rfl, fun _ stored hstored _ => ?_⟩⟩
  have hid : stored.id = id := hfound stored hstored
  refine ⟨.read rfl, fun _ user _ _ => ⟨.mark hid, fun _ => ?_, fun _ => ?_⟩⟩
  · refine ⟨.read rfl, fun _ => ⟨.write (.inr rfl) rfl (by simp), fun _ => .read rfl⟩⟩
  · refine ⟨.read rfl, fun _ => ⟨.write (.inr rfl) rfl (by simp), fun _ => ?_⟩⟩
    exact ⟨.read rfl, fun _ => ⟨.write (.inr rfl) rfl (by simp), fun _ => .read rfl⟩⟩

/-! ## The invariant -/

/-- What the transaction of a call has done so far, in each state. -/
structure Local (id : SecurityTokenId) (q : State) (tx : Tx) : Prop where
  issues : ∀ write ∈ tx.pending, write.issues = false
  marked : q.phase = .holding → RowKey.token id ∈ tx.locks ∧
    ∃ ids moment, .useTokens ids moment ∈ tx.pending ∧ id ∈ ids

/-- A transaction that has done no more. -/
theorem Local.congr {q q' : State} {tx tx' : Tx} (h : Local id q tx)
    (hpending : tx'.pending = tx.pending) (hlocks : tx'.locks = tx.locks)
    (hphase : q'.phase = .holding → q.phase = .holding) : Local id q' tx' where
  issues := by
    rw [hpending]
    exact h.issues
  marked := fun hq => by
    rw [hpending, hlocks]
    exact h.marked (hphase hq)

/-- A transaction that has made one more write. -/
theorem Local.write {q : State} {tx tx' : Tx} {rows : List RowKey} {db : Db} {s : Statement}
    (h : Local id q tx) (hs : s.issues = false) (hext : tx.Extends rows db s tx') :
    Local id q tx' := by
  rcases hext with ⟨hpending, hlocks⟩ | ⟨write, hwrites, -, hpending, hlocks⟩
  · exact h.congr hpending hlocks fun hq => hq
  · refine ⟨fun other hother => ?_, fun hq => ?_⟩
    · rw [hpending] at hother
      rcases List.mem_append.1 hother with hold | hnew
      · exact h.issues other hold
      · rw [List.mem_singleton.1 hnew]
        exact hwrites.issues hs
    · obtain ⟨hlock, ids, moment, hmarked, hid⟩ := h.marked hq
      rw [hpending, hlocks]
      exact ⟨List.mem_append_left _ hlock, ids, moment, List.mem_append_left _ hmarked, hid⟩

/-- A transaction that has ended. -/
theorem Local.ended {q : State} {tx : Tx} (hpending : tx.pending = [])
    (hq : q.phase ≠ .holding) : Local id q tx where
  issues := by
    rw [hpending]
    exact fun _ h => by cases h
  marked := fun h => absurd h hq

/-- How far call `i` is. -/
abbrev stateOf (hash : String) (purpose : TokenPurpose) (id : SecurityTokenId)
    (pool : Pool (machine env) n Failure Answer) : Fin n → State :=
  pool.states (protocol hash purpose id) (fun _ => State.reading)

variable (hash purpose id) in
/-- The token is with one call at most. -/
structure Inv (pool : Pool (machine env) n Failure Answer) : Prop where
  found : Found hash purpose id pool.shared.db
  tx : ∀ i, Local id (stateOf hash purpose id pool i) (pool.procs i).loc
  once : OneShot (RowKey.token id) (fun w : World => Used id w.db)
    (fun i => (stateOf hash purpose id pool i).phase) pool

/-- What a mark is going to change is unused in the eyes of the transaction. -/
theorem mem_targets {tx : Tx} {token : SecurityToken} (hid : token.id = id) {key : RowKey}
    (hkey : key ∈ targets (.sql (.tokensMarkUsed token)) w tx) :
    key = .token id ∧ ¬ Used id (tx.view w.db) := by
  have hmem : key ∈ Statement.tokenKeys (tx.view w.db) (Statement.markUsedWhere token.id) := hkey
  simp only [Statement.tokenKeys, List.mem_map, List.mem_filter, Statement.markUsedWhere,
    Bool.and_eq_true, beq_iff_eq, Option.isNone_iff_eq_none, hid] at hmem
  obtain ⟨_, ⟨row, ⟨hrow, hrowid, hunused⟩, rfl⟩, rfl⟩ := hmem
  rw [hrowid]
  exact ⟨rfl, fun hused => hused row hrow hrowid hunused⟩

section Step

variable {pool : Pool (machine env) n Failure Answer} {i : Fin n} {op : Op}
  {k : op.Res → Program sig Failure Answer}

/-- The phases after a step that leads to `q`. -/
theorem phase_advance {q : State}
    (hq : next (stateOf hash purpose id pool i) op (pool.effect i t op).2 = q) :
    (fun j => (stateOf hash purpose id (pool.advance i t op k) j).phase) =
      Function.update (fun j => (stateOf hash purpose id pool j).phase) i q.phase :=
  Pool.states_advance_map (P := protocol hash purpose id) State.phase hq

/-- A step that is no commit keeps the invariant, if the assertion holds in the state it
leads to and a call that gets hold of the token is the first. -/
theorem Inv.quiet (h : Inv hash purpose id pool) (hop : op ≠ .commit) {q : State}
    (hq : next (stateOf hash purpose id pool i) op (pool.effect i t op).2 = q)
    (hlocal : Local id q (pool.effect i t op).1.2)
    (hdone : q.phase = .done → (stateOf hash purpose id pool i).phase = .done)
    (hentry : (stateOf hash purpose id pool i).phase = .idle → q.phase ≠ .idle →
      ∀ j, j ≠ i → (stateOf hash purpose id pool j).phase = .idle) :
    Inv hash purpose id (pool.advance i t op k) := by
  have hdb : (pool.advance i t op k).shared.db = pool.shared.db := perform_db hop
  have hdb' : (pool.effect i t op).1.1.db = pool.shared.db := perform_db hop
  refine ⟨?_, ?_, ?_⟩
  · rw [hdb]
    exact h.found
  · exact Pool.locals_advance (P := protocol hash purpose id) hq hlocal fun j _ => h.tx j
  · rw [phase_advance hq]
    refine h.once.advance hentry (fun hp => (hlocal.marked hp).1) (fun hp => ?_) fun hs => ?_
    · rw [hdb']
      exact h.once.spent i (hdone hp)
    · rw [hdb']
      exact hs

/-- The commit of a call: the token is used from now on. -/
theorem Inv.commit (h : Inv hash purpose id pool)
    (hstate : stateOf hash purpose id pool i = .marked) {k : Unit → Program sig Failure Answer} :
    Inv hash purpose id (pool.advance i t .commit k) := by
  have htx := h.tx i
  obtain ⟨hlock, ids, moment, hmarked, hid⟩ := htx.marked (by rw [hstate]; rfl)
  have hdb : (pool.effect i t .commit).1.1.db = (pool.procs i).loc.view pool.shared.db := rfl
  have hused : Used id (pool.effect i t .commit).1.1.db := by
    rw [hdb]
    exact used_of_marked htx.issues hmarked hid _
  have hq : next (stateOf hash purpose id pool i) .commit (pool.effect i t .commit).2 =
      .committed := by
    rw [hstate]
    rfl
  refine ⟨?_, ?_, ?_⟩
  · show Found hash purpose id (pool.effect i t .commit).1.1.db
    rw [hdb]
    exact Tx.view_preserves (fun write hwrite _ hfound => hfound.apply (htx.issues write hwrite))
      h.found
  · exact Pool.locals_advance (P := protocol hash purpose id) hq
      (Local.ended rfl (by decide)) fun j _ => h.tx j
  · rw [phase_advance hq]
    refine h.once.advance (fun hidle => ?_) (fun hp => by cases hp) (fun _ => hused) fun _ => hused
    rw [hstate] at hidle
    cases hidle

/-- The statement that marks a token. -/
def claims : Op → Bool
  | .sql (.tokensMarkUsed _) => true
  | _ => false

/-- Every step of a call that marks something keeps the invariant. -/
theorem Inv.advance (h : Inv hash purpose id pool)
    (hclaim : claims op = true → pool.matched i op ≠ [])
    (hfree : ¬ pool.Blocked i (pool.snapshot i op))
    (hmay : May id (stateOf hash purpose id pool i) op) :
    Inv hash purpose id (pool.advance i t op k) := by
  have htx := h.tx i
  generalize hq : stateOf hash purpose id pool i = q at hmay htx
  cases hmay with
  | read hreads =>
    obtain ⟨hpending, hlocks⟩ := effect_reads pool i t hreads
    refine h.quiet (q := q) ?_ ?_ (htx.congr hpending hlocks fun hp => hp)
      (by rw [hq]; exact fun hp => hp) ?_
    · rintro rfl
      cases hreads
    · rw [hq]
      exact next_of_reads hreads q _
    · intro hidle hbusy
      rw [hq] at hidle
      exact absurd hidle hbusy
  | write hstate hs hmark =>
    refine h.quiet (q := q) (by rintro ⟨⟩) ?_ (htx.write hs (effect_extends pool i t _)) ?_ ?_
    · rw [hq]
      exact next_of_write hmark hstate _
    · rw [hq]
      exact fun hp => hp
    · intro hidle hbusy
      rw [hq] at hidle
      exact absurd hidle hbusy
  | @mark token hid =>
    obtain ⟨key, hkey⟩ := List.exists_mem_of_ne_nil _ (hclaim rfl)
    obtain ⟨rfl, hunused⟩ := mem_targets hid (Pool.mem_matched.1 hkey).2
    refine h.quiet (q := .marked) (by rintro ⟨⟩) (by rw [hq]; rfl) ⟨?_, fun _ => ⟨?_, ?_⟩⟩ ?_
      fun _ _ => ?_
    · intro write hwrite
      rcases List.mem_append.1 hwrite with hold | hnew
      · exact htx.issues write hold
      · rw [List.mem_singleton.1 hnew]
        rfl
    · exact List.mem_append_right _ hkey
    · exact ⟨_, t, List.mem_append_right _ (List.mem_singleton_self _),
        RowKey.mem_tokenId?.2 hkey⟩
    · rw [hq]
      rintro ⟨⟩
    · refine h.once.idle_of_claim hfree hkey fun hused hin => ?_
      refine (mem_targets hid hin).2 (Tx.view_preserves ?_ hused)
      exact fun write hwrite _ hold => hold.apply (htx.issues write hwrite)
  | commit => exact h.commit hq
  | close =>
    by_cases hdone : q = .committed
    · subst hdone
      refine h.quiet (q := .committed) (by rintro ⟨⟩) (by rw [hq]; rfl)
        (Local.ended rfl (by decide)) (fun _ => by rw [hq]; rfl) fun hidle => ?_
      rw [hq] at hidle
      cases hidle
    · have hnext : next q .close (pool.effect i t .close).2 = .closed := by
        cases q with
        | committed => exact absurd rfl hdone
        | _ => rfl
      refine h.quiet (q := .closed) (by rintro ⟨⟩) (by rw [hq]; exact hnext)
        (Local.ended rfl (by decide)) (fun hp => by cases hp) fun _ hbusy => absurd rfl hbusy

end Step

theorem Inv.wait {pool : Pool (machine env) n Failure Answer} (h : Inv hash purpose id pool)
    (i : Fin n) (op : Op) : Inv hash purpose id (pool.wait i op) := by
  have hstates : stateOf hash purpose id (pool.wait i op) = stateOf hash purpose id pool :=
    Pool.states_wait (P := protocol hash purpose id) i op
  refine ⟨h.found, fun j => ?_, ?_⟩
  · rw [hstates, Pool.wait_loc]
    exact h.tx j
  · rw [hstates]
    exact h.once.wait i op

/-- The answer to a look-up is as the protocol expects it. -/
theorem Inv.expects {pool : Pool (machine env) n Failure Answer} (h : Inv hash purpose id pool)
    (i : Fin n) (t : Time) (op : Op) :
    RedeemOnce.expects hash purpose id op (pool.effect i t op).2 := by
  cases op with
  | sql s =>
    cases s with
    | tokensGetByHash found kind =>
      rintro rfl rfl
      exact Tx.view_preserves
        (fun write hwrite _ hfound => hfound.apply ((h.tx i).issues write hwrite)) h.found
    | _ => trivial
  | _ => trivial

/-- The calls at their start. -/
theorem Inv.initial (hash : String) (purpose : TokenPurpose) (calls : Fin n → Call) :
    ∃ id, Inv hash purpose id (w.pool env calls) := by
  obtain ⟨id, hid⟩ : ∃ id, Found hash purpose id w.db := by
    cases htoken : w.db.tokenByHash hash purpose with
    | none => exact ⟨0, fun token h => by rw [htoken] at h; cases h⟩
    | some stored =>
      refine ⟨stored.id, fun token h => ?_⟩
      rw [htoken] at h
      rw [Option.some.inj h]
  have hidle : State.reading.phase ≠ .holding := by decide
  exact ⟨id, hid, fun _ => Local.ended rfl hidle, .of_idle fun _ => rfl⟩

end RedeemOnce

/-- A call that presents the mailed secret `secret`. -/
def Call.Redeems (secret : String) : TokenPurpose → Call → Prop
  | .passwordReset, .resetPassword data _ => data.token = secret
  | .emailVerification, .verifyEmail token _ => token = secret
  | _, _ => False

open RedeemOnce in
/-- Of several password resets, or of several confirmations, with one secret one succeeds
at most, in a run in which every call that comes to mark the token finds it unused. -/
theorem redeemed_once {secret : String} {purpose : TokenPurpose} {calls : Fin n → Call}
    (hcalls : ∀ i, (calls i).Redeems secret purpose)
    (sched : Pool.Schedule (machine env) n)
    (hclaims : Pool.Along (Pool.ClaimMatches claims) sched (w.pool env calls)) :
    ∀ i j, ((w.pool env calls).run sched).Succeeded i →
      ((w.pool env calls).run sched).Succeeded j → i = j := by
  obtain ⟨id, hinit⟩ := Inv.initial (w := w) (env.tokenHash secret) purpose calls
  have hfollows : (w.pool env calls).Follows (protocol (env.tokenHash secret) purpose id)
      (fun _ => State.reading) fun _ q out => out.isOk = true → q = State.committed := by
    intro i
    have hcall := hcalls i
    rw [World.pool_states, World.pool_prog]
    cases purpose with
    | passwordReset =>
      cases hc : calls i with
      | resetPassword data device =>
        rw [hc] at hcall
        exact resetPassword_follows (congrArg env.tokenHash hcall) device
      | _ =>
        rw [hc] at hcall
        cases hcall
    | emailVerification =>
      cases hc : calls i with
      | verifyEmail token device =>
        rw [hc] at hcall
        exact verifyEmail_follows (congrArg env.tokenHash hcall) device
      | _ =>
        rw [hc] at hcall
        cases hcall
  obtain ⟨hinv, hend⟩ := Pool.run_follows (fun pool i op h => h.wait i op)
    (fun pool i t op k h hc hprog hfree hmay =>
      ⟨h.expects i t op, h.advance (hc.of_call hprog · hfree) hfree hmay⟩)
    sched hclaims hinit hfollows
  have hdone {i : Fin n} (hi : ((w.pool env calls).run sched).Succeeded i) :
      (stateOf (env.tokenHash secret) purpose id ((w.pool env calls).run sched) i).phase ≠
        .idle := by
    obtain ⟨a, ha⟩ := hend.of_succeeded hi
    rw [show stateOf (env.tokenHash secret) purpose id ((w.pool env calls).run sched) i =
      .committed from ha rfl]
    decide
  intro i j hi hj
  exact hinv.once.exclusive i j (hdone hi) (hdone hj)

/-! ## Two calls with one secret -/

namespace Sample

/-- Alice was mailed a link to reset her password. -/
def forgotten : World := runCalls Sample.env world [(1, .forgotPassword "alice" none)]

/-- She follows it in two windows. -/
def resets : Fin 2 → Call := fun i =>
  .resetPassword ⟨label 0 0, s!"new {i}", s!"new {i}"⟩ none

/-- Bob has registered and was mailed a link to confirm his address. -/
def registered : World :=
  runCalls Sample.env world [(1, .register ⟨"bob", "bob", "pw", "pw", none, none⟩ none)]

/-- He follows it twice. -/
def confirmations : Fin 2 → Call := fun _ => .verifyEmail (label 0 2) none

end Sample

/-- The second reset starts when the first is done. -/
theorem redeemed_once_sample :
    let sched : Pool.Schedule (machine Sample.env) 2 :=
      List.replicate 14 (0, 20) ++ List.replicate 3 (1, 21)
    ∀ i j, ((Sample.forgotten.pool Sample.env Sample.resets).run sched).Succeeded i →
      ((Sample.forgotten.pool Sample.env Sample.resets).run sched).Succeeded j → i = j :=
  @redeemed_once Sample.env Sample.forgotten 2 (Sample.label 0 0) .passwordReset Sample.resets
    (fun _ => rfl) _ (by decide +kernel)

/-- Two password resets with one secret, both of which succeed: call 1 has looked up the
token before call 0 marks it. -/
theorem reset_twice :
    let sched : Pool.Schedule (machine Sample.env) 2 :=
      List.replicate 5 (1, 20) ++ List.replicate 14 (0, 21) ++ List.replicate 9 (1, 22)
    let pool := (Sample.forgotten.pool Sample.env Sample.resets).run sched
    (∀ i, (Sample.resets i).Redeems (Sample.label 0 0) .passwordReset) ∧
      pool.Succeeded 0 ∧ pool.Succeeded 1 :=
  ⟨fun _ => rfl, by decide +kernel, by decide +kernel⟩

/-- And two confirmations. -/
theorem verified_twice :
    let sched : Pool.Schedule (machine Sample.env) 2 :=
      List.replicate 3 (1, 20) ++ List.replicate 11 (0, 21) ++ List.replicate 8 (1, 22)
    let pool := (Sample.registered.pool Sample.env Sample.confirmations).run sched
    (∀ i, (Sample.confirmations i).Redeems (Sample.label 0 2) .emailVerification) ∧
      pool.Succeeded 0 ∧ pool.Succeeded 1 :=
  ⟨fun _ => rfl, by decide +kernel, by decide +kernel⟩

end VideoSite.Users
