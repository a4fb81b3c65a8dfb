import VideoSite.Lib.Protocol

/-!
# Serial orders

Programs run side by side over a shared store and change a region of it by a commit, each
program once at most.  A run is serial as far as the region goes, if no program works with
what is out of date: whenever it comes to see the region, the statements of its history,
made again alone, would be answered as they were.

* `Machine.Repeats` is that condition on a history, and `Pool.Current` the same on a step.
* `Region.Stopped` says where a program stands that is executed alone and stopped, and
  `stopped_of_repeats` that a history which repeats leads there.
* `Serial` is the invariant: the programs that have committed, in the order of their
  commits, leave the region as it is.  Every other program has come to where it is from
  some point of this order.
* `serializable` is the result, for the programs of a run that have all finished.
-/

namespace Effects

variable {S : Signature} {ε α : Type}

/-! ## Folds -/

/-- Steps that change nothing can be put in where they are idle. -/
theorem exists_perm_foldl {σ ι κ : Type} {f : σ → ι → σ} {content : σ → κ}
    (hf : ∀ i s s', content s = content s' → content (f s i) = content (f s' i)) (s : σ)
    (idle order : List ι)
    (hidle : ∀ i ∈ idle, ∃ before, before <+: order ∧
      content (f (before.foldl f s) i) = content (before.foldl f s)) :
    ∃ order' : List ι, order'.Perm (idle ++ order) ∧ order.Sublist order' ∧
      content (order'.foldl f s) = content (order.foldl f s) := by
  have hfold (l : List ι) : ∀ s s', content s = content s' →
      content (l.foldl f s) = content (l.foldl f s') := by
    induction l with
    | nil => exact fun _ _ h => h
    | cons i l ih => exact fun s s' h => ih _ _ (hf i s s' h)
  induction idle generalizing order with
  | nil => exact ⟨order, List.Perm.refl _, List.Sublist.refl _, rfl⟩
  | cons i idle ih =>
    obtain ⟨before, ⟨after, rfl⟩, hi⟩ := hidle i List.mem_cons_self
    -- everything after the new step goes on from the same content
    have hsame (l : List ι) : content ((before ++ i :: l).foldl f s) =
        content ((before ++ l).foldl f s) := by
      rw [List.foldl_append, List.foldl_append, List.foldl_cons]
      exact hfold l _ _ hi
    obtain ⟨order', hperm, hsub, hcontent⟩ := ih (before ++ i :: after) fun j hj => by
      obtain ⟨place, hplace, hidle⟩ := hidle j (List.mem_cons_of_mem _ hj)
      rcases List.prefix_or_prefix_of_prefix hplace (List.prefix_append before after) with
        hleft | ⟨between, rfl⟩
      · exact ⟨place, hleft.trans (List.prefix_append _ _), hidle⟩
      · refine ⟨before ++ i :: between, ?_, ?_⟩
        · rw [List.prefix_append_right_inj] at hplace ⊢
          exact (List.prefix_cons_inj i).2 hplace
        · rw [hf j _ _ (hsame between), hsame between, hidle]
    refine ⟨order', hperm.trans ?_, ?_, hcontent.trans (hsame after)⟩
    · exact (List.Perm.append_left idle List.perm_middle).trans List.perm_middle
    · exact ((List.sublist_cons_self i after).append_left before).trans hsub

/-! ## A history made again -/

/-- The statements of a history, made again alone from `s`, are answered as they were and
lead to the local state `loc`. -/
def Machine.Repeats (M : Machine S) (loc : M.Loc) :
    List (Entry M) → M.Shared × M.Loc → Prop
  | [], s => s.2 = loc
  | e :: log, s => (M.alone e.clock e.op s).2 = e.answer ∧
      M.Repeats loc log (M.alone e.clock e.op s).1

instance [∀ op, DecidableEq (S.Res op)] (M : Machine S) [DecidableEq M.Loc] (loc : M.Loc)
    (log : List (Entry M)) (s : M.Shared × M.Loc) : Decidable (M.Repeats loc log s) := by
  induction log generalizing s with
  | nil => exact inferInstanceAs (Decidable (s.2 = loc))
  | cons e log ih =>
    have := ih (M.alone e.clock e.op s).1
    exact inferInstanceAs (Decidable (_ ∧ _))

/-- The history leads from one program to another. -/
inductive Leads {M : Machine S} : Program S ε α → List (Entry M) → Program S ε α → Prop
  | nil (p : Program S ε α) : Leads p [] p
  | cons {e : Entry M} {next : S.Res e.op → Program S ε α} {log : List (Entry M)}
      {q : Program S ε α} (h : Leads (next e.answer) log q) : Leads (.call e.op next) (e :: log) q

theorem Leads.snoc {M : Machine S} {p : Program S ε α} {log : List (Entry M)} {e : Entry M}
    {next : S.Res e.op → Program S ε α} (h : Leads p log (.call e.op next)) :
    Leads p (log ++ [e]) (next e.answer) := by
  generalize hq : Program.call e.op next = q at h
  induction h with
  | nil p =>
    subst hq
    exact .cons (.nil _)
  | cons _ ih => exact .cons (ih hq)

/-! ## A region of the store -/

/-- A region of the shared store, and what the calls of some programs have to do with it. -/
structure Region (M : Machine S) where
  Content : Type
  content : M.Shared → Content
  /-- The calls that the programs make. -/
  admits : S.Op → Prop
  /-- The calls that look at the region, or change it. -/
  sees : S.Op → Bool
  /-- The calls that change it. -/
  commits : S.Op → Bool
  sees_of_commits : ∀ {op}, commits op = true → sees op = true
  quiet : ∀ {t op rows s loc}, commits op = false →
    content (M.perform t op rows s loc).1.1 = content s
  unseen : ∀ {op s loc}, sees op = false → M.targets op s loc = []
  answer_eq : ∀ {t op s s' loc}, admits op → (sees op = true → content s = content s') →
    (M.alone t op (s, loc)).2 = (M.alone t op (s', loc)).2
  loc_eq : ∀ {t op s s' loc}, admits op → (sees op = true → content s = content s') →
    (M.alone t op (s, loc)).1.2 = (M.alone t op (s', loc)).1.2
  content_eq : ∀ {t op s s' loc}, commits op = true → content s = content s' →
    content (M.alone t op (s, loc)).1.1 = content (M.alone t op (s', loc)).1.1

namespace Region

variable {M : Machine S} (C : Region M)

/-- A program that changes the region once at most. -/
@[reducible] def protocol : Protocol S where
  State := Bool
  may := fun q op => C.admits op ∧ (q = true → C.commits op = false)
  expects := fun _ _ _ => True
  next := fun q op _ => q || C.commits op

theorem protocol_next (b : Bool) (op : S.Op) (r : S.Res op) :
    C.protocol.next b op r = (b || C.commits op) := rfl

variable {C} {p q : Program S ε α} {Q : Bool → Except ε α → Prop} {τ : Nat → M.Clock}
  {k : Nat} {loc : M.Loc} {s s' : M.Shared × M.Loc} {op : S.Op} {t : M.Clock}

/-- A call that is admitted does the same in states that look the same. -/
theorem alone_alike (hop : C.admits op) (hs : C.content s.1 = C.content s'.1 ∧ s.2 = s'.2) :
    (M.alone t op s').2 = (M.alone t op s).2 ∧
      C.content (M.alone t op s).1.1 = C.content (M.alone t op s').1.1 ∧
      (M.alone t op s).1.2 = (M.alone t op s').1.2 := by
  obtain ⟨store, loc⟩ := s
  obtain ⟨store', loc'⟩ := s'
  obtain ⟨hcontent, hloc⟩ := hs
  obtain rfl : loc = loc' := hloc
  refine ⟨(C.answer_eq hop fun _ => hcontent).symm, ?_, C.loc_eq hop fun _ => hcontent⟩
  cases hcommits : C.commits op with
  | true => exact C.content_eq hcommits hcontent
  | false =>
    exact (C.quiet hcommits).trans (hcontent.trans (C.quiet hcommits).symm)

/-- And so does a whole program. -/
theorem exec_alike {b : Bool} (hp : C.protocol.Follows p Q b)
    (hs : C.content s.1 = C.content s'.1 ∧ s.2 = s'.2) :
    C.content (Pool.machineExec M τ p s).1.1 = C.content (Pool.machineExec M τ p s').1.1 := by
  obtain ⟨-, -, -, hcontent, -⟩ := hp.exec_both (P := C.protocol)
    (R := fun _ (s s' : M.Shared × M.Loc) => C.content s.1 = C.content s'.1 ∧ s.2 = s'.2)
    (h := fun m => M.alone (τ m)) (g := fun m => M.alone (τ m))
    (fun m _ op s s' hmay hs => ⟨trivial, alone_alike hmay.1 hs⟩) hs
  exact hcontent

/-- A program that has committed leaves the region alone. -/
theorem exec_of_over (hp : C.protocol.Follows p Q true) :
    C.content (Pool.machineExec M τ p s).1.1 = C.content s.1 := by
  obtain ⟨-, -, -, hcontent⟩ := hp.exec (P := C.protocol) (h := fun m => M.alone (τ m))
    (I := fun b (s' : M.Shared × M.Loc) => b = true ∧ C.content s'.1 = C.content s.1)
    (fun m b op s' hmay hs => ⟨trivial, by rw [hs.1]; rfl,
      (C.quiet (hmay.2 hs.1)).trans hs.2⟩) ⟨rfl, rfl⟩
  exact hcontent

/-- What is left of a program still keeps to the protocol. -/
theorem follows_of_leads {log : List (Entry M)} {b : Bool} (h : Leads p log q)
    (hp : C.protocol.Follows p Q b) : C.protocol.Follows q Q (C.protocol.after b log) := by
  induction h generalizing b with
  | nil p => exact hp
  | cons _ ih => exact ih (hp.2 _ trivial)

/-- A history that has not led to a commit. -/
theorem not_commits_of_after {log : List (Entry M)} (h : C.protocol.after false log = false) :
    ∀ e ∈ log, C.commits e.op = false := by
  have hafter (log : List (Entry M)) (b : Bool) :
      C.protocol.after b log = (b || log.any fun e => C.commits e.op) := by
    induction log generalizing b with
    | nil => exact (Bool.or_false b).symm
    | cons e log ih =>
      rw [List.any_cons, ← Bool.or_assoc]
      exact ih _
  rw [hafter, Bool.false_or, List.any_eq_false] at h
  exact fun e he => Bool.eq_false_iff.2 (h e he)

/-! ## Where a program stands -/

variable (C) in
/-- Executed alone from `s` and stopped after `k` calls, `p` stands in front of `q` in the
local state `loc`, and has not changed the region. -/
structure Stopped (τ : Nat → M.Clock) (k : Nat) (p : Program S ε α) (s : M.Shared × M.Loc)
    (q : Program S ε α) (loc : M.Loc) : Prop where
  prog : (p.cut (fun m => M.alone (τ m)) k s).1 = q
  loc : (p.cut (fun m => M.alone (τ m)) k s).2.2 = loc
  content : C.content (p.cut (fun m => M.alone (τ m)) k s).2.1 = C.content s.1

/-- A program that has made no calls yet. -/
theorem Stopped.start (τ : Nat → M.Clock) (p : Program S ε α) (s : M.Shared × M.Loc) :
    C.Stopped τ 0 p s p s.2 := by
  refine ⟨?_, ?_, ?_⟩ <;> rw [Program.cut_zero]

/-- It stands in the same place if it is started from a state that looks the same. -/
theorem Stopped.alike {b : Bool} (h : C.Stopped τ k p s q loc)
    (hp : C.protocol.Follows p Q b) (hs : C.content s.1 = C.content s'.1 ∧ s.2 = s'.2) :
    C.Stopped τ k p s' q loc := by
  obtain ⟨-, -, hprog, hcontent, hloc⟩ := hp.cut_both (P := C.protocol)
    (R := fun _ (s s' : M.Shared × M.Loc) => C.content s.1 = C.content s'.1 ∧ s.2 = s'.2)
    (h := fun m => M.alone (τ m)) (g := fun m => M.alone (τ m))
    (fun m _ op s s' hmay hs => ⟨trivial, alone_alike hmay.1 hs⟩) hs k
  exact ⟨hprog.trans h.prog, hloc.symm.trans h.loc,
    hcontent.symm.trans (h.content.trans hs.1)⟩

/-- One more call, which leaves the region alone. -/
theorem Stopped.step {next : S.Res op → Program S ε α}
    (h : C.Stopped τ k p s (.call op next) loc) (hop : C.admits op)
    (hcommits : C.commits op = false) (store : M.Shared)
    (hstore : C.sees op = true → C.content s.1 = C.content store) :
    C.Stopped τ (k + 1) p s (next (M.alone (τ k) op (store, loc)).2)
      (M.alone (τ k) op (store, loc)).1.2 := by
  have hcut := Program.cut_succ (fun m => M.alone (τ m)) h.prog
  have hsees (hsee : C.sees op = true) :
      C.content (p.cut (fun m => M.alone (τ m)) k s).2.1 = C.content store :=
    h.content.trans (hstore hsee)
  have hpair : (p.cut (fun m => M.alone (τ m)) k s).2 =
      ((p.cut (fun m => M.alone (τ m)) k s).2.1, loc) := Prod.ext rfl h.loc
  rw [hpair] at hcut
  refine ⟨?_, ?_, ?_⟩
  · rw [hcut, C.answer_eq hop hsees]
  · rw [hcut]
    exact C.loc_eq hop hsees
  · rw [hcut]
    exact (C.quiet hcommits).trans h.content

/-- A history that repeats leads to the same place. -/
theorem stopped_of_repeats {log : List (Entry M)} (hlead : Leads p log q)
    (hrepeats : M.Repeats loc log s) (hcommits : ∀ e ∈ log, C.commits e.op = false)
    (hτ : ∀ m e, log[m]? = some e → τ m = e.clock) :
    C.Stopped τ log.length p s q loc := by
  induction hlead generalizing s τ with
  | nil p =>
    obtain rfl : s.2 = loc := hrepeats
    exact .start τ p s
  | @cons e next log q _ ih =>
    have hclock : τ 0 = e.clock := hτ 0 e rfl
    obtain ⟨hanswer, hrest⟩ := hrepeats
    have hstopped := ih hrest (fun e he => hcommits e (List.mem_cons_of_mem _ he))
      fun m e he => hτ (m + 1) e he
    have hcut (k : Nat) : (Program.call e.op next).cut (fun m => M.alone (τ m)) (k + 1) s =
        (next e.answer).cut (fun m => M.alone (τ (m + 1))) k (M.alone e.clock e.op s).1 := by
      rw [Program.cut_call, hclock, hanswer]
    refine ⟨?_, ?_, ?_⟩
    · rw [List.length_cons, hcut]
      exact hstopped.prog
    · rw [List.length_cons, hcut]
      exact hstopped.loc
    · rw [List.length_cons, hcut]
      exact hstopped.content.trans (C.quiet (hcommits e List.mem_cons_self))

/-- A program that stands at its end has not changed the region. -/
theorem Stopped.exec_of_isDone (h : C.Stopped τ k p s q loc) (hq : q.isDone = true) :
    C.content (Pool.machineExec M τ p s).1.1 = C.content s.1 := by
  unfold Pool.machineExec
  rw [← Program.exec_cut _ p k s, h.prog]
  cases q with
  | pure a => exact h.content
  | raise e => exact h.content
  | call op next => cases hq

/-- A program that stands in front of its commit changes it by that. -/
theorem Stopped.exec_of_commits {next : S.Res op → Program S ε α}
    (h : C.Stopped τ k p s (.call op next) loc) (hcommits : C.commits op = true)
    (hnext : ∀ r, C.protocol.Follows (next r) Q true) :
    C.content (Pool.machineExec M τ p s).1.1 =
      C.content (M.alone (τ k) op (s.1, loc)).1.1 := by
  have hpair : (p.cut (fun m => M.alone (τ m)) k s).2 =
      ((p.cut (fun m => M.alone (τ m)) k s).2.1, loc) := Prod.ext rfl h.loc
  unfold Pool.machineExec
  rw [← Program.exec_cut _ p k s, h.prog, Program.exec_call, hpair, Nat.zero_add]
  exact (exec_of_over (hnext _)).trans (C.content_eq hcommits h.content)

end Region

/-! ## Runs and serial orders -/

namespace Pool

variable {M : Machine S} {n : Nat}

/-- `τ` gives the clock readings of the statements that the programs have made. -/
def TimedBy (pool : Pool M n ε α) (τ : Fin n → Nat → M.Clock) : Prop :=
  ∀ i m e, (pool.procs i).log[m]? = some e → τ i m = e.clock

/-- The clock readings of the statements of each program, and `t` after its last one. -/
def readings (pool : Pool M n ε α) (t : M.Clock) (i : Fin n) (m : Nat) : M.Clock :=
  ((pool.procs i).log[m]?.map (·.clock)).getD t

theorem timedBy_readings (pool : Pool M n ε α) (t : M.Clock) :
    pool.TimedBy (pool.readings t) := by
  intro i m e he
  unfold readings
  rw [he]
  rfl

/-- The store after program `i` has run alone, to its end. -/
def runAlone (pool : Pool M n ε α) (τ : Fin n → Nat → M.Clock) (s : M.Shared) (i : Fin n) :
    M.Shared :=
  (machineExec M (τ i) (pool.procs i).prog (s, (pool.procs i).loc)).1.1

/-- The store after the programs have run one after the other. -/
def inOrder (pool : Pool M n ε α) (τ : Fin n → Nat → M.Clock) (order : List (Fin n)) :
    M.Shared :=
  order.foldl (pool.runAlone τ) pool.shared

/-- Program `i`, if its next step is a commit. -/
def commitsNext (C : Region M) (pool : Pool M n ε α) (i : Fin n) : List (Fin n) :=
  match (pool.procs i).prog.nextOp? with
  | some op => if C.commits op = true ∧ ¬ pool.Blocked i (pool.snapshot i op) then [i] else []
  | none => []

/-- The programs that commit in a run, in the order of their commits. -/
def commitOrder (C : Region M) (pool : Pool M n ε α) : Schedule M n → List (Fin n)
  | [] => []
  | s :: rest => pool.commitsNext C s.1 ++ (pool.step s.1 s.2).commitOrder C rest

/-- Program `i` does not work with what is out of date.  If it comes to see the region, its
statements, made again alone, would be answered as they were, and a statement that has
waited changes the rows that it would change now. -/
def Current (C : Region M) (first : Fin n → M.Loc) (pool : Pool M n ε α) (i : Fin n)
    (_t : M.Clock) : Prop :=
  ∀ op ∈ (pool.procs i).prog.nextOp?, C.sees op = true →
    ¬ pool.Blocked i (pool.snapshot i op) →
      M.Repeats (pool.procs i).loc (pool.procs i).log (pool.shared, first i) ∧
        pool.matched i op = M.targets op pool.shared (pool.procs i).loc

instance [∀ op, DecidableEq (S.Res op)] [DecidableEq M.Loc] (C : Region M)
    (first : Fin n → M.Loc) (pool : Pool M n ε α) (i : Fin n) (t : M.Clock) :
    Decidable (pool.Current C first i t) :=
  inferInstanceAs (Decidable (∀ op ∈ (pool.procs i).prog.nextOp?, _))

instance [∀ op, DecidableEq (S.Res op)] [DecidableEq M.Loc] (C : Region M)
    (first : Fin n → M.Loc) (sched : Schedule M n) (pool : Pool M n ε α) :
    Decidable (Along (Current C first) sched pool) :=
  decidableAlong (fun _ _ _ => inferInstance) sched pool

variable {C : Region M} {first : Fin n → M.Loc} {pool : Pool M n ε α} {i : Fin n}
  {t : M.Clock} {op : S.Op} {next : S.Res op → Program S ε α} {τ : Fin n → Nat → M.Clock}

theorem commitsNext_of_isDone (h : (pool.procs i).prog.isDone = true) :
    pool.commitsNext C i = [] := by
  unfold commitsNext
  cases hprog : (pool.procs i).prog with
  | call op next =>
    rw [hprog] at h
    cases h
  | _ => rfl

theorem commitsNext_of_call (h : (pool.procs i).prog = .call op next) :
    pool.commitsNext C i =
      if C.commits op = true ∧ ¬ pool.Blocked i (pool.snapshot i op) then [i] else [] := by
  unfold commitsNext
  rw [h]
  rfl

theorem Current.of_call (h : pool.Current C first i t)
    (hprog : (pool.procs i).prog = .call op next) (hsees : C.sees op = true)
    (hfree : ¬ pool.Blocked i (pool.snapshot i op)) :
    M.Repeats (pool.procs i).loc (pool.procs i).log (pool.shared, first i) ∧
      pool.matched i op = M.targets op pool.shared (pool.procs i).loc := by
  refine h op ?_ hsees hfree
  rw [hprog]
  rfl

theorem TimedBy.of_advance (h : (pool.advance i t op next).TimedBy τ) :
    pool.TimedBy τ ∧ τ i (pool.procs i).log.length = t := by
  refine ⟨fun j m e he => h j m e ?_, ?_⟩
  · by_cases hj : j = i
    · subst hj
      rw [advance_procs_self]
      exact List.getElem?_append_left (List.getElem?_eq_some_iff.1 he).1 ▸ he
    · rw [advance_procs_of_ne pool t op next hj]
      exact he
  · refine h i _ ⟨t, op, pool.matched i op, (pool.effect i t op).2⟩ ?_
    rw [advance_procs_self]
    exact List.getElem?_concat_length

/-- A statement that changes the rows it sees does what it does alone. -/
theorem effect_eq_alone (h : pool.matched i op = M.targets op pool.shared (pool.procs i).loc) :
    pool.effect i t op = M.alone t op (pool.shared, (pool.procs i).loc) := by
  unfold effect Machine.alone
  rw [h]

end Pool

open Pool Region

variable {M : Machine S} {n : Nat}

/-- The programs of `order` have changed the region one after the other, and every other
program has come to where it is from some point of that order. -/
structure Serial (C : Region M) (start : Pool M n ε α) (order : List (Fin n))
    (pool : Pool M n ε α) : Prop where
  nodup : order.Nodup
  mem : ∀ i, i ∈ order ↔ pool.states C.protocol (fun _ => false) i = true
  content : ∀ τ, pool.TimedBy τ →
    C.content (start.inOrder τ order) = C.content pool.shared
  leads : ∀ i, Leads (start.procs i).prog (pool.procs i).log (pool.procs i).prog
  place : ∀ i, i ∉ order → ∃ before, before <+: order ∧ ∀ τ, pool.TimedBy τ →
    C.Stopped (τ i) (pool.procs i).log.length (start.procs i).prog
      (start.inOrder τ before, (start.procs i).loc) (pool.procs i).prog (pool.procs i).loc

namespace Serial

variable {C : Region M} {start pool : Pool M n ε α} {order : List (Fin n)} {i : Fin n}
  {t : M.Clock} {op : S.Op} {next : S.Res op → Program S ε α}
  {Q : Fin n → Bool → Except ε α → Prop}

theorem initial (hstart : ∀ i, (start.procs i).log = []) : Serial C start [] start where
  nodup := List.nodup_nil
  mem := fun i => by simp [Pool.states, hstart i]
  content := fun _ _ => rfl
  leads := fun i => by
    rw [hstart i]
    exact .nil _
  place := fun i _ => ⟨[], List.prefix_refl _, fun τ _ => by
    rw [hstart i]
    exact .start _ _ _⟩

theorem wait (h : Serial C start order pool) (i : Fin n) (op : S.Op) :
    Serial C start order (pool.wait i op) := by
  have htimed {τ : Fin n → Nat → M.Clock} (hτ : (pool.wait i op).TimedBy τ) :
      pool.TimedBy τ := by
    intro j m e he
    exact hτ j m e (by rwa [wait_log])
  refine ⟨h.nodup, fun j => ?_, fun τ hτ => ?_, fun j => ?_, fun j hj => ?_⟩
  · rw [states_wait]
    exact h.mem j
  · exact h.content τ (htimed hτ)
  · rw [wait_log, wait_prog]
    exact h.leads j
  · obtain ⟨before, hbefore, hplace⟩ := h.place j hj
    refine ⟨before, hbefore, fun τ hτ => ?_⟩
    rw [wait_log, wait_prog, wait_loc]
    exact hplace τ (htimed hτ)

/-- Program `i` in front of a call: the call changes the rows that it would change alone, and
the program stands where it would stand at some point of the order, at its end if the call
sees the region. -/
theorem here (h : Serial C start order pool)
    (hcurrent : pool.Current C (fun i => (start.procs i).loc) i t)
    (hprog : (pool.procs i).prog = .call op next)
    (hfree : ¬ pool.Blocked i (pool.snapshot i op)) (hi : i ∉ order)
    (hfollows : ∀ i, C.protocol.Follows (start.procs i).prog (Q i) false) :
    pool.matched i op = M.targets op pool.shared (pool.procs i).loc ∧
      ∃ before, before <+: order ∧ (C.sees op = true → before = order) ∧
        ∀ τ, pool.TimedBy τ → C.Stopped (τ i) (pool.procs i).log.length (start.procs i).prog
          (start.inOrder τ before, (start.procs i).loc) (.call op next) (pool.procs i).loc := by
  cases hsees : C.sees op with
  | true =>
    obtain ⟨hrepeats, hmatched⟩ := hcurrent.of_call hprog hsees hfree
    refine ⟨hmatched, order, List.prefix_refl _, fun _ => rfl, fun τ hτ => ?_⟩
    have hstate : C.protocol.after false (pool.procs i).log = false :=
      Bool.eq_false_iff.2 fun hover => hi ((h.mem i).2 hover)
    have hstopped := stopped_of_repeats (C := C) (h.leads i) hrepeats
      (not_commits_of_after hstate) (hτ i)
    rw [hprog] at hstopped
    exact hstopped.alike (hfollows i) ⟨(h.content τ hτ).symm, rfl⟩
  | false =>
    have htargets : M.targets op pool.shared (pool.procs i).loc = [] := C.unseen hsees
    have hmatched : pool.matched i op = [] := by
      refine List.eq_nil_iff_forall_not_mem.2 fun key hkey => ?_
      have hmem := (mem_matched.1 hkey).2
      rw [htargets] at hmem
      cases hmem
    obtain ⟨before, hbefore, hplace⟩ := h.place i hi
    refine ⟨hmatched.trans htargets.symm, before, hbefore, nofun, fun τ hτ => ?_⟩
    rw [← hprog]
    exact hplace τ hτ

theorem leads_advance (h : Serial C start order pool)
    (hprog : (pool.procs i).prog = .call op next) (j : Fin n) :
    Leads (start.procs j).prog ((pool.advance i t op next).procs j).log
      ((pool.advance i t op next).procs j).prog := by
  by_cases hj : j = i
  · subst hj
    rw [advance_procs_self]
    exact Leads.snoc (e := ⟨t, op, pool.matched j op, (pool.effect j t op).2⟩)
      (hprog ▸ h.leads j)
  · rw [advance_procs_of_ne pool t op next hj]
    exact h.leads j

/-- Another program stands where it stood, in any order that goes on from this one. -/
theorem place_advance_of_ne (h : Serial C start order pool) {order' : List (Fin n)}
    (horder : order <+: order') {j : Fin n} (hj : j ∉ order) (hne : j ≠ i) :
    ∃ before, before <+: order' ∧ ∀ τ, (pool.advance i t op next).TimedBy τ →
      C.Stopped (τ j) ((pool.advance i t op next).procs j).log.length (start.procs j).prog
        (start.inOrder τ before, (start.procs j).loc)
        ((pool.advance i t op next).procs j).prog ((pool.advance i t op next).procs j).loc := by
  obtain ⟨before, hbefore, hplace⟩ := h.place j hj
  refine ⟨before, hbefore.trans horder, fun τ hτ => ?_⟩
  rw [advance_procs_of_ne pool t op next hne]
  exact hplace τ hτ.of_advance.1

/-- A call that leaves the region alone. -/
theorem advance_quiet (h : Serial C start order pool)
    (hfollows : ∀ i, C.protocol.Follows (start.procs i).prog (Q i) false)
    (hcurrent : pool.Current C (fun i => (start.procs i).loc) i t)
    (hprog : (pool.procs i).prog = .call op next)
    (hfree : ¬ pool.Blocked i (pool.snapshot i op)) (hadmits : C.admits op)
    (hcommits : C.commits op = false) : Serial C start order (pool.advance i t op next) where
  nodup := h.nodup
  mem := fun j => by
    rw [h.mem j, states_advance]
    by_cases hj : j = i
    · subst hj
      rw [Function.update_self, protocol_next, hcommits, Bool.or_false]
    · rw [Function.update_of_ne hj]
  content := fun τ hτ => (h.content τ hτ.of_advance.1).trans (C.quiet hcommits).symm
  leads := h.leads_advance hprog
  place := fun j hj => by
    by_cases hne : j = i
    · subst hne
      obtain ⟨hmatched, before, hbefore, hend, hplace⟩ :=
        h.here hcurrent hprog hfree hj hfollows
      refine ⟨before, hbefore, fun τ hτ => ?_⟩
      obtain ⟨hτ', hclock⟩ := hτ.of_advance
      have hstep := (hplace τ hτ').step hadmits hcommits pool.shared fun hsees => by
        rw [hend hsees]
        exact h.content τ hτ'
      rw [hclock, ← effect_eq_alone hmatched] at hstep
      rw [advance_procs_self, List.length_append]
      exact hstep
    · exact h.place_advance_of_ne (List.prefix_refl _) hj hne

/-- A commit: the program is the next of the order. -/
theorem advance_commit (h : Serial C start order pool)
    (hfollows : ∀ i, C.protocol.Follows (start.procs i).prog (Q i) false)
    (hcurrent : pool.Current C (fun i => (start.procs i).loc) i t)
    (hprog : (pool.procs i).prog = .call op next)
    (hfree : ¬ pool.Blocked i (pool.snapshot i op)) (hcommits : C.commits op = true)
    (hi : i ∉ order) : Serial C start (order ++ [i]) (pool.advance i t op next) := by
  obtain ⟨hmatched, before, -, hend, hplace⟩ := h.here hcurrent hprog hfree hi hfollows
  obtain rfl := hend (C.sees_of_commits hcommits)
  have hnext (r : S.Res op) : C.protocol.Follows (next r) (Q i) true := by
    have hleft := follows_of_leads (h.leads i) (hfollows i)
    rw [hprog] at hleft
    have hrest := hleft.2 r trivial
    rwa [protocol_next, hcommits, Bool.or_true] at hrest
  refine ⟨?_, fun j => ?_, fun τ hτ => ?_, h.leads_advance hprog, fun j hj => ?_⟩
  · exact h.nodup.append (List.nodup_singleton i) (by simpa using hi)
  · rw [List.mem_append, List.mem_singleton, h.mem j, states_advance]
    by_cases hj : j = i
    · subst hj
      rw [Function.update_self, protocol_next, hcommits, Bool.or_true]
      simp
    · rw [Function.update_of_ne hj]
      simp [hj]
  · obtain ⟨hτ', hclock⟩ := hτ.of_advance
    have hexec := (hplace τ hτ').exec_of_commits hcommits hnext
    unfold inOrder at hexec ⊢
    rw [List.foldl_append]
    rw [hclock] at hexec
    refine hexec.trans ((C.content_eq hcommits (h.content τ hτ')).trans ?_)
    rw [advance_shared, effect_eq_alone hmatched]
  · rw [List.mem_append, List.mem_singleton, not_or] at hj
    exact h.place_advance_of_ne (List.prefix_append _ _) hj.1 hj.2

/-- One step of the run. -/
theorem step (h : Serial C start order pool)
    (hfollows : ∀ i, C.protocol.Follows (start.procs i).prog (Q i) false)
    (hcurrent : pool.Current C (fun i => (start.procs i).loc) i t) :
    Serial C start (order ++ pool.commitsNext C i) (pool.step i t) := by
  rcases step_cases pool i t with ⟨hdone, he⟩ | ⟨op, next, hprog, hblocked, he⟩ |
    ⟨op, next, hprog, hfree, he⟩
  · rw [he, commitsNext_of_isDone hdone, List.append_nil]
    exact h
  · rw [he, commitsNext_of_call hprog, if_neg fun hc => hc.2 hblocked, List.append_nil]
    exact h.wait i op
  · have hleft := follows_of_leads (h.leads i) (hfollows i)
    rw [hprog] at hleft
    rw [he, commitsNext_of_call hprog]
    cases hcommits : C.commits op with
    | false =>
      rw [if_neg fun hc => Bool.false_ne_true hc.1, List.append_nil]
      exact h.advance_quiet hfollows hcurrent hprog hfree hleft.1.1 hcommits
    | true =>
      rw [if_pos ⟨rfl, hfree⟩]
      refine h.advance_commit hfollows hcurrent hprog hfree hcommits fun hi => ?_
      have hquiet := hleft.1.2 ((h.mem i).1 hi)
      rw [hcommits] at hquiet
      cases hquiet

/-- The induction over the schedule. -/
theorem run (hfollows : ∀ i, C.protocol.Follows (start.procs i).prog (Q i) false)
    (sched : Schedule M n) :
    ∀ {pool : Pool M n ε α} {order : List (Fin n)}, Serial C start order pool →
      Along (Current C fun i => (start.procs i).loc) sched pool →
      Serial C start (order ++ pool.commitOrder C sched) (pool.run sched) := by
  induction sched with
  | nil =>
    intro pool order h _
    rw [commitOrder, List.append_nil]
    exact h
  | cons s rest ih =>
    intro pool order h hcurrent
    have hrest := ih (h.step hfollows hcurrent.1) hcurrent.2
    rwa [List.append_assoc] at hrest

/-- At the end of a run the programs that have not committed take their places. -/
theorem order_of_finished (h : Serial C start order pool)
    (hfollows : ∀ i, C.protocol.Follows (start.procs i).prog (Q i) false)
    (hfinished : pool.Finished) {τ : Fin n → Nat → M.Clock} (hτ : pool.TimedBy τ) :
    ∃ order' : List (Fin n), order'.Perm (List.finRange n) ∧ order.Sublist order' ∧
      C.content (start.inOrder τ order') = C.content pool.shared := by
  obtain ⟨order', hperm, hsub, hcontent⟩ := exists_perm_foldl (f := start.runAlone τ)
    (fun i s s' hs => exec_alike (hfollows i) ⟨hs, rfl⟩) start.shared
    ((List.finRange n).filter (· ∉ order)) order fun i hi => by
      obtain ⟨before, hbefore, hplace⟩ := h.place i (by simpa using hi)
      exact ⟨before, hbefore, (hplace τ hτ).exec_of_isDone (hfinished i)⟩
  refine ⟨order', hperm.trans ?_, hsub, hcontent.trans (h.content τ hτ)⟩
  rw [List.perm_ext_iff_of_nodup ?_ (List.nodup_finRange n)]
  · intro i
    by_cases hi : i ∈ order <;> simp [hi]
  · refine ((List.nodup_finRange n).filter _).append h.nodup fun i hi horder => ?_
    simp [horder] at hi

end Serial

/-- The region is left as some serial order of the programs leaves it, in a run in which no
program works with what is out of date.  The order keeps the order of the commits. -/
theorem serializable {C : Region M} {start : Pool M n ε α}
    {Q : Fin n → Bool → Except ε α → Prop} (hstart : ∀ i, (start.procs i).log = [])
    (hfollows : ∀ i, C.protocol.Follows (start.procs i).prog (Q i) false) (sched : Schedule M n)
    (hcurrent : Along (Current C fun i => (start.procs i).loc) sched start)
    (hfinished : (start.run sched).Finished) {τ : Fin n → Nat → M.Clock}
    (hτ : (start.run sched).TimedBy τ) :
    ∃ order : List (Fin n), order.Perm (List.finRange n) ∧
      (start.commitOrder C sched).Sublist order ∧
      C.content (start.inOrder τ order) = C.content (start.run sched).shared := by
  have hserial := (Serial.initial (C := C) hstart).run hfollows sched hcurrent
  rw [List.nil_append] at hserial
  exact hserial.order_of_finished hfollows hfinished hτ

end Effects
