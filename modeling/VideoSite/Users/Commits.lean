import VideoSite.Users.Atomicity

/-!
# The database is its commits

Calls run side by side, and what they have written is seen by the others at their
commits.  `commits` is the list of the transactions that a run commits, with the call that
each belongs to, and `writes` is what each call has written, committed or not.

* `Inv.step` is the step lemma: it ties how far each call is with its transaction to the
  list of commits so far.
* `database_is_its_commits` is what follows for every schedule, and so for a process that
  is stopped anywhere: the database consists of whole transactions, one for each call at
  most, in the order of their commits.  A call that has returned has committed all that it
  has written, and a call that raised one of the application's errors is not among them,
  but for the audit row of a refused login.
-/

namespace VideoSite.Users

open Effects Program Protocol

variable {env : Env} {n : Nat} {w : World} {t : Time} {tx : Tx}

/-- A committed transaction: whose it is, and what it wrote. -/
structure Transaction (n : Nat) where
  call : Fin n
  writes : List Write

/-- A transaction takes effect. -/
def Transaction.apply (db : Db) (transaction : Transaction n) : Db :=
  transaction.writes.foldl Write.apply db

/-- What call `i` commits when it moves now. -/
def commitNow (pool : Pool (machine env) n Failure Answer) (i : Fin n) :
    List (Transaction n) :=
  match (pool.procs i).prog with
  | .call .commit _ =>
      if pool.Blocked i (pool.snapshot i .commit) then []
      else [⟨i, (pool.procs i).loc.pending⟩]
  | _ => []

/-- What is committed along a schedule. -/
def commits (pool : Pool (machine env) n Failure Answer) :
    Pool.Schedule (machine env) n → List (Transaction n)
  | [] => []
  | s :: rest => commitNow pool s.1 ++ commits (pool.step s.1 s.2) rest

/-- What call `i` writes when it moves now. -/
def writeNow (pool : Pool (machine env) n Failure Answer) (i : Fin n) (t : Time) : List Write :=
  match (pool.procs i).prog with
  | .call (.sql s) _ =>
      if pool.Blocked i (pool.snapshot i (.sql s)) then []
      else (pool.effect i t (.sql s)).1.2.pending.drop (pool.procs i).loc.pending.length
  | _ => []

/-- What call `i` writes along a schedule, whether it commits it or not. -/
def writes (pool : Pool (machine env) n Failure Answer) :
    Pool.Schedule (machine env) n → Fin n → List Write
  | [], _ => []
  | s :: rest, i => (if i = s.1 then writeNow pool s.1 s.2 else []) ++
      writes (pool.step s.1 s.2) rest i

namespace Commits

open Atomicity

/-- What the state of call `i`, which has written `written`, says of its transaction and of
the commits so far. -/
def Stands (history : List (Transaction n)) (i : Fin n) (written : List Write) :
    State → Tx → Prop
  | .idle, tx => written = [] ∧ tx.pending = [] ∧ i ∉ history.map Transaction.call
  | .logging event, tx => written = tx.pending ∧
      (∃ id, tx.pending = [.insertAudit (event.withId id)]) ∧
      i ∉ history.map Transaction.call
  | .writing, tx => written = tx.pending ∧ i ∉ history.map Transaction.call
  | .recorded event, _ => ⟨i, written⟩ ∈ history ∧
      ∃ id, written = [.insertAudit (event.withId id)]
  | .committed, _ => ⟨i, written⟩ ∈ history
  | .discarded, _ => i ∉ history.map Transaction.call
  | .failed e, _ => i ∉ history.map Transaction.call ∧ ∀ a, e ≠ .application a

variable {history : List (Transaction n)} {i : Fin n} {q : State} {op : Op}
  {written : List Write}

theorem Stands.kept (h : Stands history i written q tx) (hq : q.isKept = true) :
    i ∉ history.map Transaction.call := by
  cases q with
  | idle | logging => exact h.2.2
  | writing => exact h.2
  | discarded => exact h
  | failed e => exact h.1
  | _ => cases hq

/-- A call that is well has written nothing, or committed it all. -/
theorem Stands.saved (h : Stands history i written q tx) (hq : q.isSaved = true) :
    (written = [] ∧ i ∉ history.map Transaction.call) ∨ ⟨i, written⟩ ∈ history := by
  cases q with
  | idle => exact .inl ⟨h.1, h.2.2⟩
  | recorded => exact .inr h.1
  | committed => exact .inr h
  | _ => cases hq

/-- As long as a call may write, its transaction is what it has written. -/
theorem Stands.pending (h : Stands history i written q tx) (hq : q.isOpen = true) :
    written = tx.pending := by
  cases q with
  | idle => exact h.1.trans h.2.1.symm
  | logging => exact h.1
  | writing => exact h.1
  | _ => cases hq

/-- Another call commits. -/
theorem Stands.others (h : Stands history i written q tx) {transaction : Transaction n}
    (hother : transaction.call ≠ i) : Stands (history ++ [transaction]) i written q tx := by
  have hkeeps (hi : i ∉ history.map Transaction.call) :
      i ∉ (history ++ [transaction]).map Transaction.call := by
    rw [List.map_append, List.mem_append]
    intro hmem
    rcases hmem with hold | hnew
    · exact hi hold
    · exact hother (List.mem_singleton.1 hnew).symm
  cases q with
  | idle | logging => exact ⟨h.1, h.2.1, hkeeps h.2.2⟩
  | writing => exact ⟨h.1, hkeeps h.2⟩
  | discarded => exact hkeeps h
  | recorded event => exact ⟨List.mem_append_left _ h.1, h.2⟩
  | committed => exact List.mem_append_left _ h
  | failed e => exact ⟨hkeeps h.1, h.2⟩

/-- A transaction that has written nothing more. -/
theorem Stands.same {tx' : Tx} (h : Stands history i written q tx)
    (hpending : tx'.pending = tx.pending) : Stands history i written q tx' := by
  cases q with
  | idle => exact ⟨h.1, hpending.trans h.2.1, h.2.2⟩
  | logging event =>
    obtain ⟨hwritten, ⟨id, hlog⟩, hi⟩ := h
    exact ⟨hwritten.trans hpending.symm, ⟨id, hpending.trans hlog⟩, hi⟩
  | writing => exact ⟨h.1.trans hpending.symm, h.2⟩
  | recorded | committed | discarded | failed => exact h

variable {rows : List RowKey}

/-- What a statement adds to its transaction. -/
theorem pending_statement (env : Env) (t : Time) (s : Statement) (rows : List RowKey) (w : World)
    (tx : Tx) : (perform env t (.sql s) rows w tx).1.2.pending = tx.pending ++
      (perform env t (.sql s) rows w tx).1.2.pending.drop tx.pending.length := by
  have hextends : tx.Extends rows (tx.view w.db) s (perform env t (.sql s) rows w tx).1.2 :=
    perform_extends s
  rcases hextends with ⟨hsame, -⟩ | ⟨write, -, -, hmore, -⟩
  · rw [hsame, List.drop_length, List.append_nil]
  · rw [hmore, List.drop_left]

/-- A statement. -/
theorem Stands.statement {s : Statement} (h : Stands history i written q tx)
    (hmay : may q (.sql s)) :
    Stands history i
      (written ++ (perform env t (.sql s) rows w tx).1.2.pending.drop tx.pending.length)
      (next q (.sql s) (perform env t (.sql s) rows w tx).2)
      (perform env t (.sql s) rows w tx).1.2 := by
  by_cases hreads : s.reads = true
  · have hread : Op.reads (.sql s) = true := hreads
    have hsame : (perform env t (.sql s) rows w tx).1.2.pending = tx.pending :=
      (perform_reads hread).2.1
    rw [next_reads hread, hsame, List.drop_length, List.append_nil]
    exact h.same hsame
  · have hopen : q.isOpen = true := by
      simpa only [Atomicity.may, if_neg hreads] using hmay
    have hi : i ∉ history.map Transaction.call := h.kept (State.isKept_of_isOpen hopen)
    have hwritten : written ++
        (perform env t (.sql s) rows w tx).1.2.pending.drop tx.pending.length =
        (perform env t (.sql s) rows w tx).1.2.pending := by
      rw [h.pending hopen]
      exact (pending_statement env t s rows w tx).symm
    cases hfailure : s.failure? (perform env t (.sql s) rows w tx).2 with
    | some e =>
      have hnext : next q (.sql s) (perform env t (.sql s) rows w tx).2 = .failed e := by
        simp only [Atomicity.next, hfailure]
      rw [hnext]
      refine ⟨hi, fun a ha => ?_⟩
      rcases s.failure_cases hfailure with ⟨c, he⟩ | ⟨u, he⟩
      · rw [he] at ha
        cases ha
      · rw [he] at ha
        cases ha
    | none =>
      rw [next_sql hfailure, if_neg hreads, hwritten]
      cases q with
      | idle =>
        cases s with
        | auditAdd event =>
          cases hr : (perform env t (.sql (.auditAdd event)) rows w tx).2 with
          | error e =>
            rw [hr] at hfailure
            cases hfailure
          | ok row =>
            obtain ⟨id, hpending⟩ := perform_auditAdd hr
            have hnone : tx.pending = [] := h.2.1
            refine ⟨rfl, ⟨id, ?_⟩, hi⟩
            rw [hpending, hnone]
            rfl
        | _ => exact ⟨rfl, hi⟩
      | logging | writing => exact ⟨rfl, hi⟩
      | _ => cases hopen

/-- What an operation that is not a commit adds to its transaction. -/
def added (env : Env) (t : Time) (rows : List RowKey) (w : World) (tx : Tx) : Op → List Write
  | .sql s => (Users.perform env t (.sql s) rows w tx).1.2.pending.drop tx.pending.length
  | _ => []

/-- An operation that is not a commit. -/
theorem Stands.perform (h : Stands history i written q tx) (hmay : may q op)
    (hop : op ≠ .commit) :
    expects op (Users.perform env t op rows w tx).2 ∧
      Stands history i (written ++ added env t rows w tx op)
        (next q op (Users.perform env t op rows w tx).2)
        (Users.perform env t op rows w tx).1.2 := by
  cases op with
  | commit => exact absurd rfl hop
  | sql s =>
    refine ⟨fun e he => ?_, h.statement hmay⟩
    rcases s.failure_cases he with ⟨c, hc⟩ | ⟨u, hu⟩
    · cases hc
    · cases hu
  | close =>
    refine ⟨trivial, ?_⟩
    show Stands history i (written ++ []) _ _
    rw [List.append_nil]
    cases q with
    | idle => exact ⟨h.1, rfl, h.2.2⟩
    | logging event => exact h.2.2
    | writing => exact h.2
    | recorded | committed | discarded | failed => exact h
  | _ =>
    refine ⟨trivial, ?_⟩
    show Stands history i (written ++ []) _ _
    rw [List.append_nil]
    cases q <;> exact h

/-- A commit. -/
theorem Stands.commit (h : Stands history i written q tx) (hmay : may q .commit) :
    Stands (history ++ [⟨i, tx.pending⟩]) i written (next q .commit ()) tx.ended := by
  have hnew : (⟨i, written⟩ : Transaction n) ∈ history ++ [⟨i, tx.pending⟩] := by
    rw [h.pending hmay]
    exact List.mem_append_right _ (List.mem_singleton_self _)
  cases q with
  | logging event =>
    obtain ⟨hwritten, ⟨id, hpending⟩, -⟩ := h
    exact ⟨hnew, id, hwritten.trans hpending⟩
  | idle | writing => exact hnew
  | _ => cases hmay

/-- A call that raised one of the application's errors. -/
theorem Stands.of_settled {c : Call} {e : ApplicationError} (h : Stands history i written q tx)
    (hsettled : Settled c q (.error (.application e))) :
    if c.refuses e then ∃ row : AuditEvent, row.action = .loginFailed ∧
      ⟨i, [.insertAudit row]⟩ ∈ history
    else i ∉ history.map Transaction.call := by
  cases q with
  | failed e' =>
    cases hsettled
    exact absurd rfl (h.2 e)
  | _ =>
    cases hrefuses : c.refuses e with
    | true =>
      simp only [Settled, hrefuses, if_true] at hsettled
      obtain ⟨event, hq, haction⟩ := hsettled
      rw [hq] at h
      obtain ⟨hrow, id, hwritten⟩ := h
      rw [hwritten] at hrow
      exact ⟨event.withId id, haction, hrow⟩
    | false =>
      simp only [Settled, hrefuses, Bool.false_eq_true, if_false] at hsettled
      exact h.kept hsettled

/-- What holds while calls run side by side. -/
structure Inv (old : Db) (history : List (Transaction n)) (written : Fin n → List Write)
    (pool : Pool (machine env) n Failure Answer) : Prop where
  db : pool.shared.db = history.foldl Transaction.apply old
  once : (history.map Transaction.call).Nodup
  stands : ∀ i, Stands history i (written i) (pool.states protocol (fun _ => .idle) i)
    (pool.procs i).loc

/-- A step in which nothing is written. -/
theorem append_nothing (written : Fin n → List Write) (i : Fin n) :
    (fun j => written j ++ if j = i then [] else []) = written := by
  funext j
  rw [ite_self, List.append_nil]

/-- One step of one call. -/
theorem Inv.step {old : Db} {written : Fin n → List Write}
    {pool : Pool (machine env) n Failure Answer}
    {Q : Fin n → State → Except Failure Answer → Prop} (h : Inv old history written pool)
    (hfollows : pool.Follows protocol (fun _ => .idle) Q) (i : Fin n) (t : Time) :
    Inv old (history ++ commitNow pool i)
        (fun j => written j ++ if j = i then writeNow pool i t else []) (pool.step i t) ∧
      (pool.step i t).Follows protocol (fun _ => .idle) Q := by
  rcases Pool.step_cases pool i t with ⟨hdone, he⟩ | ⟨op, next, hprog, hblocked, he⟩ |
    ⟨op, next, hprog, hfree, he⟩
  · have hnone : commitNow pool i = [] ∧ writeNow pool i t = [] := by
      unfold commitNow writeNow
      cases hprog : (pool.procs i).prog with
      | call op next =>
        rw [hprog] at hdone
        cases hdone
      | _ => exact ⟨rfl, rfl⟩
    rw [he, hnone.1, hnone.2, List.append_nil, append_nothing]
    exact ⟨h, hfollows⟩
  · have hnone : commitNow pool i = [] ∧ writeNow pool i t = [] := by
      unfold commitNow writeNow
      rw [hprog]
      cases op with
      | commit => exact ⟨if_pos hblocked, rfl⟩
      | sql s => exact ⟨rfl, if_pos hblocked⟩
      | _ => exact ⟨rfl, rfl⟩
    rw [he, hnone.1, hnone.2, List.append_nil, append_nothing]
    refine ⟨⟨h.db, h.once, fun j => ?_⟩, hfollows.wait i op⟩
    rw [Pool.wait_loc, Pool.states_wait]
    exact h.stands j
  · have hmay := hfollows.may hprog
    rw [he]
    by_cases hop : op = .commit
    · subst hop
      have hnow : commitNow pool i = [⟨i, (pool.procs i).loc.pending⟩] := by
        unfold commitNow
        rw [hprog]
        exact if_neg hfree
      have hquiet : writeNow pool i t = [] := by
        unfold writeNow
        rw [hprog]
      have hfresh : i ∉ history.map Transaction.call :=
        (h.stands i).kept (State.isKept_of_isOpen hmay)
      rw [hnow, hquiet, append_nothing]
      refine ⟨⟨?_, ?_, fun j => ?_⟩, hfollows.advance hprog trivial⟩
      · rw [List.foldl_append, ← h.db]
        rfl
      · rw [List.map_append]
        exact List.nodup_append.2 ⟨h.once, List.nodup_singleton _, fun a ha b hb hab =>
          hfresh (by rw [List.mem_singleton.1 hb] at hab; rwa [hab] at ha)⟩
      · by_cases hj : j = i
        · subst hj
          rw [Pool.states_advance, Function.update_self, Pool.advance_procs_self]
          exact (h.stands j).commit hmay
        · rw [Pool.states_advance, Function.update_of_ne hj,
            Pool.advance_procs_of_ne pool t .commit next hj]
          exact (h.stands j).others fun hij => hj hij.symm
    · have hnone : commitNow pool i = [] := by
        unfold commitNow
        rw [hprog]
        cases op with
        | commit => exact absurd rfl hop
        | _ => rfl
      have hnow : writeNow pool i t =
          added env t (pool.matched i op) pool.shared (pool.procs i).loc op := by
        unfold writeNow added
        rw [hprog]
        cases op with
        | sql s => exact if_neg hfree
        | _ => rfl
      rw [hnone, List.append_nil]
      have hperform : expects op (pool.effect i t op).2 ∧ Stands history i
          (written i ++ added env t (pool.matched i op) pool.shared (pool.procs i).loc op)
          (Atomicity.next (pool.states protocol (fun _ => .idle) i) op (pool.effect i t op).2)
          (pool.effect i t op).1.2 := (h.stands i).perform hmay hop
      obtain ⟨hexpects, hstands⟩ := hperform
      refine ⟨⟨?_, h.once, fun j => ?_⟩, hfollows.advance hprog hexpects⟩
      · rw [Pool.advance_shared, effect_db pool i t hop, h.db]
      · by_cases hj : j = i
        · subst hj
          rw [Pool.states_advance, Function.update_self, Pool.advance_procs_self, if_pos rfl,
            hnow]
          exact hstands
        · rw [Pool.states_advance, Function.update_of_ne hj,
            Pool.advance_procs_of_ne pool t op next hj, if_neg hj, List.append_nil]
          exact h.stands j

/-- Any schedule. -/
theorem Inv.run {old : Db} {Q : Fin n → State → Except Failure Answer → Prop}
    (schedule : Pool.Schedule (machine env) n) {history : List (Transaction n)}
    {written : Fin n → List Write} {pool : Pool (machine env) n Failure Answer}
    (h : Inv old history written pool)
    (hfollows : pool.Follows protocol (fun _ => .idle) Q) :
    Inv old (history ++ commits pool schedule)
        (fun i => written i ++ writes pool schedule i) (pool.run schedule) ∧
      (pool.run schedule).Follows protocol (fun _ => .idle) Q := by
  induction schedule generalizing history written pool with
  | nil =>
    simp only [commits, writes, List.append_nil]
    exact ⟨h, hfollows⟩
  | cons s rest ih =>
    obtain ⟨hstep, hfollows'⟩ := h.step hfollows s.1 s.2
    have hrun := ih hstep hfollows'
    simp only [List.append_assoc] at hrun
    exact hrun

end Commits

open Commits Atomicity

/-- Whatever runs side by side, and at every moment: the database is the one of the start
with the committed transactions applied in the order of their commits, and no call has
more than one.  A call that has succeeded has written nothing, or its transaction is all
that it has written.  A call that raised one of the application's errors has none, except
for a refused login: its transaction is the row of the log that says so. -/
theorem database_is_its_commits (w : World) (calls : Fin n → Call)
    (schedule : Pool.Schedule (machine env) n) :
    let history := commits (w.pool env calls) schedule
    let written := writes (w.pool env calls) schedule
    let pool := (w.pool env calls).run schedule
    pool.shared.db = history.foldl Transaction.apply w.db ∧
    (history.map Transaction.call).Nodup ∧
    (∀ i answer, (pool.procs i).prog.outcome? = some (.ok answer) →
      (written i = [] ∧ i ∉ history.map Transaction.call) ∨ ⟨i, written i⟩ ∈ history) ∧
    ∀ i e, (pool.procs i).prog.outcome? = some (.error (.application e)) →
      if (calls i).refuses e then ∃ row : AuditEvent, row.action = .loginFailed ∧
        ⟨i, [.insertAudit row]⟩ ∈ history
      else i ∉ history.map Transaction.call := by
  intro history written pool
  have hfollows : (w.pool env calls).Follows protocol (fun _ => State.idle)
      (fun i => Settled (calls i)) := fun i => follows env (calls i)
  have hstart : Inv w.db [] (fun _ => []) (w.pool env calls) :=
    ⟨rfl, List.nodup_nil, fun i => ⟨rfl, rfl, List.not_mem_nil⟩⟩
  obtain ⟨hinv, hends⟩ := hstart.run schedule hfollows
  simp only [List.nil_append] at hinv
  refine ⟨hinv.db, hinv.once, fun i answer hanswer => ?_, fun i e he => ?_⟩
  · have hsettled := hends.of_outcome hanswer
    have hstands := hinv.stands i
    cases hq : pool.states protocol (fun _ => .idle) i with
    | failed e =>
      rw [hq] at hsettled
      cases hsettled
    | _ =>
      rw [hq] at hsettled hstands
      exact hstands.saved hsettled
  · exact (hinv.stands i).of_settled (hends.of_outcome he)

end VideoSite.Users
