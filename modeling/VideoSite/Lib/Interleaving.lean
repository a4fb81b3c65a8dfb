import VideoSite.Lib.Program
import Mathlib.Data.Fintype.Basic
import Mathlib.Logic.Function.Basic

/-!
# Programs side by side over one store

A `Machine` says how one statement of a program acts on a shared store and on
the state local to the program (its open transaction).  A statement takes its
snapshot when it starts: `Machine.targets` are the rows it is going to change.
While another program holds a lock on one of them the statement waits, and when
it goes on it changes the rows of its snapshot that still qualify.  That is the
rule of an `UPDATE … WHERE …` at isolation level read committed.

A `Pool` is a store with finitely many programs.  One `Pool.step` is one
attempt of one program at its next statement, and a schedule is any list of
program numbers with clock readings, so that every interleaving at the
granularity of statements is a run.

* `Pool.step_cases` is the inversion lemma: a step changes nothing, starts to
  wait, or performs one statement.
* `Pool.run_induction` and `Pool.run_induction_along` package the induction
  over a schedule, without and with a condition that every step meets.
* `Pool.run_alone` is the link to `Program.cut`: a program scheduled alone, with
  no lock in its way, does what it does when it is executed and stopped.
-/

namespace Effects

/-- How statements act: on the shared store, and on the local state of the
program that makes them. -/
structure Machine (S : Signature) where
  Shared : Type
  Loc : Type
  Key : Type
  Clock : Type
  keyEq : DecidableEq Key
  /-- The rows a program holds a lock on. -/
  locked : Loc → List Key
  /-- The rows a statement would change, on the snapshot it sees now. -/
  targets : S.Op → Shared → Loc → List Key
  /-- The statement on the given rows. -/
  perform : Clock → (op : S.Op) → List Key → Shared → Loc →
    (Shared × Loc) × S.Res op

attribute [instance] Machine.keyEq

variable {S : Signature} {ε α : Type}

namespace Machine

/-- Nobody else is there: the statement changes all the rows it sees. -/
def alone (M : Machine S) (t : M.Clock) : Program.Handler S (M.Shared × M.Loc) :=
  fun op s => M.perform t op (M.targets op s.1 s.2) s.1 s.2

end Machine

/-- One performed statement: when, which, the rows it changed, its answer. -/
structure Entry (M : Machine S) where
  clock : M.Clock
  op : S.Op
  rows : List M.Key
  answer : S.Res op

/-- A program in progress.  `waiting` holds the snapshot of a statement that
has started and waits for a lock; `log` is the history of the program. -/
structure Proc (M : Machine S) (ε α : Type) where
  prog : Program S ε α
  loc : M.Loc
  waiting : Option (List M.Key)
  log : List (Entry M)

/-- A program that has not started. -/
def Proc.start {M : Machine S} (prog : Program S ε α) (loc : M.Loc) : Proc M ε α where
  prog := prog
  loc := loc
  waiting := none
  log := []

/-- A shared store and the programs that run over it. -/
structure Pool (M : Machine S) (n : Nat) (ε α : Type) where
  shared : M.Shared
  procs : Fin n → Proc M ε α

namespace Pool

variable {M : Machine S} {n : Nat}

/-- Some other program holds a lock on one of `rows`. -/
def Blocked (pool : Pool M n ε α) (i : Fin n) (rows : List M.Key) : Prop :=
  ∃ key ∈ rows, ∃ j, j ≠ i ∧ key ∈ M.locked (pool.procs j).loc

instance (pool : Pool M n ε α) (i : Fin n) (rows : List M.Key) :
    Decidable (pool.Blocked i rows) := by
  unfold Blocked
  infer_instance

/-- The snapshot of the statement `op` of program `i`: the one it started
with, or the one it takes now. -/
def snapshot (pool : Pool M n ε α) (i : Fin n) (op : S.Op) : List M.Key :=
  ((pool.procs i).waiting).getD (M.targets op pool.shared (pool.procs i).loc)

/-- The rows of the snapshot that still qualify. -/
def matched (pool : Pool M n ε α) (i : Fin n) (op : S.Op) : List M.Key :=
  (pool.snapshot i op).filter
    (· ∈ M.targets op pool.shared (pool.procs i).loc)

/-- What the statement `op` of program `i` does now. -/
def effect (pool : Pool M n ε α) (i : Fin n) (t : M.Clock) (op : S.Op) :
    (M.Shared × M.Loc) × S.Res op :=
  M.perform t op (pool.matched i op) pool.shared (pool.procs i).loc

/-- Program `i` waits with its statement. -/
def wait (pool : Pool M n ε α) (i : Fin n) (op : S.Op) : Pool M n ε α where
  shared := pool.shared
  procs := Function.update pool.procs i
    { pool.procs i with waiting := some (pool.snapshot i op) }

/-- Program `i` performs `op` and goes on with `next`. -/
def advance (pool : Pool M n ε α) (i : Fin n) (t : M.Clock) (op : S.Op)
    (next : S.Res op → Program S ε α) : Pool M n ε α where
  shared := (pool.effect i t op).1.1
  procs := Function.update pool.procs i
    { prog := next (pool.effect i t op).2
      loc := (pool.effect i t op).1.2
      waiting := none
      log := (pool.procs i).log ++
        [⟨t, op, pool.matched i op, (pool.effect i t op).2⟩] }

/-- One attempt of program `i` at its next statement, at clock reading `t`. -/
def step (pool : Pool M n ε α) (i : Fin n) (t : M.Clock) : Pool M n ε α :=
  match (pool.procs i).prog with
  | .call op next =>
      if pool.Blocked i (pool.snapshot i op) then pool.wait i op
      else pool.advance i t op next
  | _ => pool

/-- A schedule: which program moves, and what its clock shows. -/
abbrev Schedule (M : Machine S) (n : Nat) := List (Fin n × M.Clock)

/-- Run a schedule. -/
def run (pool : Pool M n ε α) (sched : Schedule M n) : Pool M n ε α :=
  sched.foldl (fun p s => p.step s.1 s.2) pool

@[simp] theorem run_nil (pool : Pool M n ε α) : pool.run [] = pool := rfl

@[simp] theorem run_cons (pool : Pool M n ε α) (s : Fin n × M.Clock)
    (sched : Schedule M n) :
    pool.run (s :: sched) = (pool.step s.1 s.2).run sched := rfl

theorem run_append (pool : Pool M n ε α) (a b : Schedule M n) :
    pool.run (a ++ b) = (pool.run a).run b := by
  simp [run, List.foldl_append]

/-- Every program has returned or raised. -/
def Finished (pool : Pool M n ε α) : Prop :=
  ∀ i, (pool.procs i).prog.isDone = true

/-- Program `i` has returned. -/
def Succeeded (pool : Pool M n ε α) (i : Fin n) : Prop :=
  ∃ a, (pool.procs i).prog = .pure a

theorem succeeded_iff {pool : Pool M n ε α} {i : Fin n} :
    pool.Succeeded i ↔ ((pool.procs i).prog.outcome?.any (·.isOk)) = true := by
  unfold Succeeded
  cases (pool.procs i).prog <;>
    simp [Program.outcome?, Except.isOk, Except.toBool]

instance (pool : Pool M n ε α) (i : Fin n) : Decidable (pool.Succeeded i) :=
  decidable_of_iff _ succeeded_iff.symm

instance (pool : Pool M n ε α) : Decidable pool.Finished := by
  unfold Finished
  infer_instance

/-! ## What one step does -/

/-- A step leaves the pool as it is, makes a statement wait, or performs one
statement. -/
theorem step_cases (pool : Pool M n ε α) (i : Fin n) (t : M.Clock) :
    ((pool.procs i).prog.isDone = true ∧ pool.step i t = pool) ∨
      (∃ op next, (pool.procs i).prog = .call op next ∧
        pool.Blocked i (pool.snapshot i op) ∧ pool.step i t = pool.wait i op) ∨
      (∃ op next, (pool.procs i).prog = .call op next ∧
        ¬ pool.Blocked i (pool.snapshot i op) ∧
        pool.step i t = pool.advance i t op next) := by
  unfold step
  cases hprog : (pool.procs i).prog with
  | pure a => exact Or.inl ⟨rfl, rfl⟩
  | raise e => exact Or.inl ⟨rfl, rfl⟩
  | call op next =>
    by_cases hb : pool.Blocked i (pool.snapshot i op)
    · exact Or.inr (Or.inl ⟨op, next, rfl, hb, if_pos hb⟩)
    · exact Or.inr (Or.inr ⟨op, next, rfl, hb, if_neg hb⟩)

@[simp] theorem wait_shared (pool : Pool M n ε α) (i : Fin n) (op : S.Op) :
    (pool.wait i op).shared = pool.shared := rfl

theorem wait_procs_of_ne (pool : Pool M n ε α) {i j : Fin n} (op : S.Op)
    (h : j ≠ i) : (pool.wait i op).procs j = pool.procs j :=
  Function.update_of_ne h _ _

@[simp] theorem wait_prog (pool : Pool M n ε α) (i j : Fin n) (op : S.Op) :
    ((pool.wait i op).procs j).prog = (pool.procs j).prog := by
  by_cases h : j = i
  · subst h
    simp [wait]
  · rw [wait_procs_of_ne pool op h]

@[simp] theorem wait_loc (pool : Pool M n ε α) (i j : Fin n) (op : S.Op) :
    ((pool.wait i op).procs j).loc = (pool.procs j).loc := by
  by_cases h : j = i
  · subst h
    simp [wait]
  · rw [wait_procs_of_ne pool op h]

@[simp] theorem wait_log (pool : Pool M n ε α) (i j : Fin n) (op : S.Op) :
    ((pool.wait i op).procs j).log = (pool.procs j).log := by
  by_cases h : j = i
  · subst h
    simp [wait]
  · rw [wait_procs_of_ne pool op h]

@[simp] theorem advance_shared (pool : Pool M n ε α) (i : Fin n) (t : M.Clock)
    (op : S.Op) (next : S.Res op → Program S ε α) :
    (pool.advance i t op next).shared = (pool.effect i t op).1.1 := rfl

theorem advance_procs_self (pool : Pool M n ε α) (i : Fin n) (t : M.Clock)
    (op : S.Op) (next : S.Res op → Program S ε α) :
    (pool.advance i t op next).procs i =
      { prog := next (pool.effect i t op).2
        loc := (pool.effect i t op).1.2
        waiting := none
        log := (pool.procs i).log ++
          [⟨t, op, pool.matched i op, (pool.effect i t op).2⟩] } :=
  Function.update_self _ _ _

theorem advance_procs_of_ne (pool : Pool M n ε α) {i j : Fin n} (t : M.Clock)
    (op : S.Op) (next : S.Res op → Program S ε α) (h : j ≠ i) :
    (pool.advance i t op next).procs j = pool.procs j :=
  Function.update_of_ne h _ _

/-- A statement that has not waited changes every row it sees. -/
theorem matched_of_not_waiting (pool : Pool M n ε α) (i : Fin n) (op : S.Op)
    (h : (pool.procs i).waiting = none) :
    pool.matched i op = M.targets op pool.shared (pool.procs i).loc := by
  unfold matched snapshot
  rw [h, Option.getD_none, List.filter_eq_self]
  intro key hkey
  simpa using hkey

theorem mem_matched {pool : Pool M n ε α} {i : Fin n} {op : S.Op} {key : M.Key} :
    key ∈ pool.matched i op ↔ key ∈ pool.snapshot i op ∧
      key ∈ M.targets op pool.shared (pool.procs i).loc := by
  simp [matched]

/-! ## Induction over a schedule -/

/-- What every step preserves, every run preserves. -/
theorem run_induction {J : Pool M n ε α → Prop}
    (hstep : ∀ pool i t, J pool → J (pool.step i t)) :
    ∀ (sched : Schedule M n) (pool : Pool M n ε α), J pool → J (pool.run sched)
  | [], _, h => h
  | s :: rest, pool, h =>
      run_induction hstep rest (pool.step s.1 s.2) (hstep pool s.1 s.2 h)

/-- Every step of the run from `pool` meets `C` in the state before it. -/
def Along (C : Pool M n ε α → Fin n → M.Clock → Prop) :
    Schedule M n → Pool M n ε α → Prop
  | [], _ => True
  | s :: rest, pool => C pool s.1 s.2 ∧ Along C rest (pool.step s.1 s.2)

@[simp] theorem along_nil (C : Pool M n ε α → Fin n → M.Clock → Prop)
    (pool : Pool M n ε α) : Along C [] pool := trivial

@[simp] theorem along_cons (C : Pool M n ε α → Fin n → M.Clock → Prop)
    (s : Fin n × M.Clock) (rest : Schedule M n) (pool : Pool M n ε α) :
    Along C (s :: rest) pool ↔
      C pool s.1 s.2 ∧ Along C rest (pool.step s.1 s.2) := Iff.rfl

/-- A run can be checked step by step. -/
@[reducible] def decidableAlong {C : Pool M n ε α → Fin n → M.Clock → Prop}
    (hC : ∀ pool i t, Decidable (C pool i t)) :
    (sched : Schedule M n) → (pool : Pool M n ε α) → Decidable (Along C sched pool)
  | [], _ => isTrue trivial
  | s :: rest, pool =>
      have := hC pool s.1 s.2
      have := decidableAlong hC rest (pool.step s.1 s.2)
      inferInstanceAs (Decidable (C pool s.1 s.2 ∧ Along C rest (pool.step s.1 s.2)))

theorem along_append (C : Pool M n ε α → Fin n → M.Clock → Prop) :
    ∀ (a b : Schedule M n) (pool : Pool M n ε α),
      Along C (a ++ b) pool ↔ Along C a pool ∧ Along C b (pool.run a)
  | [], _, _ => by simp
  | s :: rest, b, pool => by
      simp only [List.cons_append, along_cons, run_cons, and_assoc]
      rw [along_append C rest b]

/-- What every step that meets `C` preserves, every run whose steps meet `C`
preserves. -/
theorem run_induction_along {J : Pool M n ε α → Prop}
    {C : Pool M n ε α → Fin n → M.Clock → Prop}
    (hstep : ∀ pool i t, C pool i t → J pool → J (pool.step i t)) :
    ∀ (sched : Schedule M n) (pool : Pool M n ε α), Along C sched pool →
      J pool → J (pool.run sched)
  | [], _, _, h => h
  | s :: rest, pool, hc, h =>
      run_induction_along hstep rest (pool.step s.1 s.2) hc.2
        (hstep pool s.1 s.2 hc.1 h)

/-! ## Clocks -/

section Clocks

variable [LE M.Clock]

/-- Clock readings that do not go back along a schedule, from `now` on. -/
def Ticks (now : M.Clock) : Schedule M n → Prop
  | [] => True
  | s :: rest => now ≤ s.2 ∧ Ticks s.2 rest

@[simp] theorem ticks_cons (now : M.Clock) (s : Fin n × M.Clock) (rest : Schedule M n) :
    Ticks now (s :: rest) ↔ now ≤ s.2 ∧ Ticks s.2 rest := Iff.rfl

/-- The last clock reading of a schedule. -/
def lastClock : M.Clock → Schedule M n → M.Clock
  | now, [] => now
  | _, s :: rest => lastClock s.2 rest

theorem ticks_append (b : Schedule M n) : ∀ (now : M.Clock) (a : Schedule M n),
    Ticks now (a ++ b) ↔ Ticks now a ∧ Ticks (lastClock now a) b
  | _, [] => by simp [Ticks, lastClock]
  | _, s :: rest => by
      simp only [List.cons_append, ticks_cons, and_assoc]
      rw [ticks_append b s.2 rest]
      rfl

instance [DecidableLE M.Clock] (now : M.Clock) (sched : Schedule M n) :
    Decidable (Ticks now sched) := by
  induction sched generalizing now with
  | nil => exact isTrue trivial
  | cons s rest ih =>
    have := ih s.2
    exact inferInstanceAs (Decidable (now ≤ s.2 ∧ Ticks s.2 rest))

end Clocks

/-! ## A program scheduled alone -/

/-- Schedule program `i` for the clock readings `clocks`. -/
def only (i : Fin n) (clocks : List M.Clock) : Schedule M n :=
  clocks.map fun t => (i, t)

/-- Execution in which the `m`-th statement is made at clock reading `τ m`. -/
def machineExec (M : Machine S) (τ : Nat → M.Clock)
    (p : Program S ε α) (s : M.Shared × M.Loc) :
    (M.Shared × M.Loc) × Except ε α :=
  p.exec (fun m => M.alone (τ m)) s

/-- A program scheduled alone does what it does when it is executed and stopped. -/
theorem run_alone (τ : Nat → M.Clock) (i : Fin n) (k : Nat) {pool : Pool M n ε α}
    (hwaiting : (pool.procs i).waiting = none)
    (hfree : ∀ j, j ≠ i → M.locked (pool.procs j).loc = []) :
    (((pool.run (only i ((List.range k).map τ))).procs i).prog,
        (pool.run (only i ((List.range k).map τ))).shared,
        ((pool.run (only i ((List.range k).map τ))).procs i).loc) =
      (pool.procs i).prog.cut (fun m => M.alone (τ m)) k
        (pool.shared, (pool.procs i).loc) := by
  induction k generalizing τ pool with
  | zero => rw [Program.cut_zero]; rfl
  | succ k ih =>
    have hclocks : only (n := n) i ((List.range (k + 1)).map τ) =
        (i, τ 0) :: only i ((List.range k).map fun m => τ (m + 1)) := by
      rw [List.range_succ_eq_map, List.map_cons, List.map_map]
      rfl
    rw [hclocks, run_cons]
    rcases step_cases pool i (τ 0) with ⟨hdone, he⟩ | ⟨op, next, -, hblocked, -⟩ |
      ⟨op, next, hprog, -, he⟩
    · rw [he, ih _ hwaiting hfree, Program.cut_of_isDone _ hdone, Program.cut_of_isDone _ hdone]
    · obtain ⟨key, -, j, hj, hkey⟩ := hblocked
      rw [hfree j hj] at hkey
      cases hkey
    · have heffect : pool.effect i (τ 0) op =
          M.alone (τ 0) op (pool.shared, (pool.procs i).loc) := by
        unfold effect
        rw [matched_of_not_waiting pool i op hwaiting]
        rfl
      have hself := advance_procs_self pool i (τ 0) op next
      rw [he, ih (fun m => τ (m + 1)) (by rw [hself]) fun j hj => by
        rw [advance_procs_of_ne pool (τ 0) op next hj]
        exact hfree j hj]
      rw [hprog, Program.cut_call, hself, advance_shared, heffect]

end Pool

end Effects
