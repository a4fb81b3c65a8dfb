import VideoSite.Lib.Growth
import VideoSite.Users.Concurrent

/-!
# The life of the service

The process starts, serves calls side by side, and stops or crashes; then it starts
again.  An `Uptime` is one such period: its calls, and the order in which their
operations happen.  What is unfinished at its end is lost, the open transactions with
it.  A lifetime is a list of uptimes.

* `lifetime_induction` is the induction over a lifetime: what every operation of every
  call preserves, and every restart, holds throughout.
* `rows_are_permanent` is the first thing such an invariant says: the tables are a
  history.  Accounts keep their id, visitor and date of creation, a session can be
  revoked once and a one-time token spent once, the audit log is only appended to, and
  none of these rows is ever removed.
-/

namespace VideoSite.Users

open Effects

variable {env : Env}

/-- A statement takes no write back. -/
theorem mem_pending_sql {t : Time} {rows : List RowKey} {w : World} {tx : Tx} (s : Statement)
    {write : Write} (h : write ∈ tx.pending) :
    write ∈ (perform env t (.sql s) rows w tx).1.2.pending := by
  have hextends : tx.Extends rows (tx.view w.db) s (perform env t (.sql s) rows w tx).1.2 :=
    perform_extends s
  rcases hextends with ⟨hsame, -⟩ | ⟨more, -, -, hmore, -⟩
  · rw [hsame]
    exact h
  · rw [hmore]
    exact List.mem_append_left _ h

/-! ## Uptimes -/

/-- The process from its start to its end: the calls it serves, and the schedule of
their operations. -/
structure Uptime (env : Env) where
  size : Nat
  calls : Fin size → Call
  schedule : Pool.Schedule (machine env) size

/-- What a new process finds: the counters of `InMemoryRateLimiter` died with the old
one, everything else is in PostgreSQL, in Redis or with the clients. -/
def World.restarted (env : Env) (w : World) (served : Nat) : World :=
  { w with
    limits := match env.backend with
      | .memory => Limits.empty
      | .redis => w.limits
    calls := w.calls + served }

/-- The calls of an uptime as far as its schedule goes. -/
def Uptime.pool (w : World) (up : Uptime env) : Pool (machine env) up.size Failure Answer :=
  (w.pool env up.calls).run up.schedule

/-- The world after an uptime. -/
def Uptime.serve (w : World) (up : Uptime env) : World :=
  World.restarted env (up.pool w).shared up.size

/-- The world after a lifetime. -/
def lifetime (w : World) (ups : List (Uptime env)) : World := ups.foldl Uptime.serve w

@[simp] theorem lifetime_nil (w : World) : lifetime w ([] : List (Uptime env)) = w := rfl

@[simp] theorem lifetime_cons (w : World) (up : Uptime env) (ups : List (Uptime env)) :
    lifetime w (up :: ups) = lifetime (up.serve w) ups := rfl

theorem lifetime_append (w : World) (a b : List (Uptime env)) :
    lifetime w (a ++ b) = lifetime (lifetime w a) b := by
  simp [lifetime, List.foldl_append]

@[simp] theorem World.restarted_db (w : World) (k : Nat) : (w.restarted env k).db = w.db := rfl

@[simp] theorem World.restarted_outbox (w : World) (k : Nat) :
    (w.restarted env k).outbox = w.outbox := rfl

/-- What every uptime and every restart preserves holds after a lifetime. -/
theorem lifetime_induction {I : World → Prop} {ups : List (Uptime env)}
    (hrestart : ∀ w k, I w → I (w.restarted env k))
    (hpool : ∀ up ∈ ups, ∀ w, I w → I (up.pool w).shared) {w : World} (h : I w) :
    I (lifetime w ups) := by
  induction ups generalizing w with
  | nil => exact h
  | cons up rest ih =>
    have hserved : I (up.serve w) := hrestart _ up.size (hpool up List.mem_cons_self w h)
    exact ih (fun other hother => hpool other (List.mem_cons_of_mem _ hother)) hserved

/-- Call `i` of an uptime saw the database at one of its steps: in front of the step, or
as the step left it. -/
def Uptime.Saw (w : World) (up : Uptime env) (i : Fin up.size) (db : Db) : Prop :=
  ∃ before t after, up.schedule = before ++ (i, t) :: after ∧
    (db = ((w.pool env up.calls).run before).shared.db ∨
      db = (((w.pool env up.calls).run before).step i t).shared.db)

/-! ## What may become of a row -/

/-- An account may be edited. -/
structure UserRow.Becomes (a b : UserRow) : Prop where
  id : b.id = a.id
  visitorId : b.visitorId = a.visitorId
  createdAt : b.createdAt = a.createdAt

/-- A session may be revoked, once. -/
def AuthSession.Becomes (a b : AuthSession) : Prop :=
  b = a ∨ (a.revokedAt = none ∧ ∃ moment, b = { a with revokedAt := some moment })

/-- A one-time token may be spent, once. -/
def SecurityToken.Becomes (a b : SecurityToken) : Prop :=
  b = a ∨ (a.usedAt = none ∧ ∃ moment, b = { a with usedAt := some moment })

theorem UserRow.Becomes.refl (a : UserRow) : a.Becomes a := ⟨rfl, rfl, rfl⟩

theorem UserRow.Becomes.trans {a b c : UserRow} (h : a.Becomes b) (h' : b.Becomes c) :
    a.Becomes c where
  id := h'.id.trans h.id
  visitorId := h'.visitorId.trans h.visitorId
  createdAt := h'.createdAt.trans h.createdAt

theorem AuthSession.Becomes.refl (a : AuthSession) : a.Becomes a := .inl rfl

theorem AuthSession.Becomes.trans {a b c : AuthSession} (h : a.Becomes b) (h' : b.Becomes c) :
    a.Becomes c := by
  rcases h with rfl | ⟨hlive, moment, rfl⟩
  · exact h'
  · rcases h' with rfl | ⟨hlive', -⟩
    · exact .inr ⟨hlive, moment, rfl⟩
    · cases hlive'

theorem SecurityToken.Becomes.refl (a : SecurityToken) : a.Becomes a := .inl rfl

theorem SecurityToken.Becomes.trans {a b c : SecurityToken} (h : a.Becomes b)
    (h' : b.Becomes c) : a.Becomes c := by
  rcases h with rfl | ⟨hfresh, moment, rfl⟩
  · exact h'
  · rcases h' with rfl | ⟨hfresh', -⟩
    · exact .inr ⟨hfresh, moment, rfl⟩
    · cases hfresh'

theorem AuthSession.becomes_revokeIn (row : AuthSession) (ids : List SessionId)
    (moment : Time) : row.Becomes (row.revokeIn ids moment) := by
  unfold revokeIn
  split
  · rename_i h
    exact .inr ⟨h.2, moment, rfl⟩
  · exact .inl rfl

theorem SecurityToken.becomes_useIn (row : SecurityToken) (ids : List SecurityTokenId)
    (moment : Time) : row.Becomes (row.useIn ids moment) := by
  unfold useIn
  split
  · rename_i h
    exact .inr ⟨h.2, moment, rfl⟩
  · exact .inl rfl

/-! ## What may become of the tables -/

/-- The database later on.  Roles and the two association tables are left out: their
rows may be deleted. -/
structure Db.Becomes (db db' : Db) : Prop where
  users : Grows UserRow.Becomes db.users db'.users
  permissions : Grows Eq db.permissions db'.permissions
  sessions : Grows AuthSession.Becomes db.sessions db'.sessions
  securityTokens : Grows SecurityToken.Becomes db.securityTokens db'.securityTokens
  auditLogs : Grows Eq db.auditLogs db'.auditLogs

namespace Db.Becomes

theorem refl (db : Db) : db.Becomes db where
  users := .refl .refl _
  permissions := .refl (fun _ => rfl) _
  sessions := .refl .refl _
  securityTokens := .refl .refl _
  auditLogs := .refl (fun _ => rfl) _

theorem trans {db db' db'' : Db} (h : db.Becomes db') (h' : db'.Becomes db'') :
    db.Becomes db'' where
  users := h.users.trans .trans h'.users
  permissions := h.permissions.trans Eq.trans h'.permissions
  sessions := h.sessions.trans .trans h'.sessions
  securityTokens := h.securityTokens.trans .trans h'.securityTokens
  auditLogs := h.auditLogs.trans Eq.trans h'.auditLogs

/-- One write. -/
theorem write (db : Db) (write : Write) : db.Becomes (write.apply db) := by
  have same := refl db
  cases write with
  | insertUser row => exact { same with users := .append .refl _ }
  | updateUser id profile stamp =>
    refine { same with users := .map fun row => ?_ }
    split
    · exact ⟨rfl, rfl, rfl⟩
    · exact .refl row
  | updatePassword id hash stamp =>
    refine { same with users := .map fun row => ?_ }
    split
    · exact ⟨rfl, rfl, rfl⟩
    · exact .refl row
  | insertPermission row => exact { same with permissions := .append (fun _ => rfl) _ }
  | insertSession row => exact { same with sessions := .append .refl _ }
  | revokeSessions ids moment =>
    exact { same with sessions := .map fun row => row.becomes_revokeIn ids moment }
  | insertToken row => exact { same with securityTokens := .append .refl _ }
  | useTokens ids moment =>
    exact { same with securityTokens := .map fun row => row.becomes_useIn ids moment }
  | insertAudit row => exact { same with auditLogs := .append (fun _ => rfl) _ }
  | insertUserRole | deleteUserRole | insertRole | deleteRole | insertRolePermission
  | deleteRolePermission => exact { same with }

/-- The writes of a transaction. -/
theorem view (db : Db) (tx : Tx) : db.Becomes (tx.view db) :=
  Tx.view_preserves (fun w _ db' h => h.trans (Becomes.write db' w)) (refl db)

/-- A write of a transaction is there in its eyes, whatever it wrote after it. -/
theorem of_pending {tx : Tx} {write : Write} (h : write ∈ tx.pending) (db : Db) :
    ∃ db' : Db, (write.apply db').Becomes (tx.view db) := by
  obtain ⟨before, after, hpending⟩ := List.append_of_mem h
  have hview : tx.view db = ({ tx with pending := after } : Tx).view
      (write.apply (before.foldl Write.apply db)) := by
    unfold Tx.view
    rw [hpending, List.foldl_append, List.foldl_cons]
  rw [hview]
  exact ⟨_, view _ _⟩

/-- One operation of one call: a commit, or nothing that the tables show. -/
theorem perform (t : Time) (op : Op) (rows : List RowKey) (w : World) (tx : Tx) :
    w.db.Becomes (Users.perform env t op rows w tx).1.1.db := by
  by_cases hop : op = .commit
  · rw [hop]
    exact view w.db tx
  · rw [perform_db hop]
    exact refl w.db

/-- One step of a pool. -/
theorem effect {n : Nat} (pool : Pool (machine env) n Failure Answer) (i : Fin n) (t : Time)
    (op : Op) : pool.shared.db.Becomes (pool.effect i t op).1.1.db :=
  perform t op (pool.matched i op) pool.shared (pool.procs i).loc

/-- Any schedule of any calls. -/
theorem run {n : Nat} (pool : Pool (machine env) n Failure Answer)
    (schedule : Pool.Schedule (machine env) n) :
    pool.shared.db.Becomes (pool.run schedule).shared.db := by
  refine Pool.run_induction (M := machine env)
    (J := fun later => pool.shared.db.Becomes later.shared.db)
    (fun later i t h => ?_) schedule pool (refl _)
  rcases Pool.step_cases later i t with ⟨-, he⟩ | ⟨op, next, -, -, he⟩ | ⟨op, next, -, -, he⟩
  · rw [he]
    exact h
  · rw [he]
    exact h
  · rw [he]
    exact h.trans (effect later i t op)

/-- A lifetime. -/
theorem lifetime (w : World) (ups : List (Uptime env)) :
    w.db.Becomes (Users.lifetime w ups).db :=
  lifetime_induction (I := fun w' => w.db.Becomes w'.db) (fun _ _ h => h)
    (fun up _ _ h => h.trans (run (World.pool env _ up.calls) up.schedule)) (refl w.db)

end Db.Becomes

/-- The tables at any moment of the life of the service, and at its end. -/
theorem rows_are_permanent (w : World) (before after : List (Uptime env)) {n : Nat}
    (calls : Fin n → Call) (earlier later : Pool.Schedule (machine env) n) :
    (((lifetime w before).pool env calls).run earlier).shared.db.Becomes
      (lifetime w (before ++ ⟨n, calls, earlier ++ later⟩ :: after)).db := by
  have hserved : (Uptime.serve (lifetime w before) ⟨n, calls, earlier ++ later⟩).db =
      ((((lifetime w before).pool env calls).run earlier).run later).shared.db := by
    rw [← Pool.run_append]
    rfl
  rw [lifetime_append, lifetime_cons]
  refine Db.Becomes.trans ?_ (Db.Becomes.lifetime _ after)
  rw [hserved]
  exact Db.Becomes.run _ later

end VideoSite.Users
