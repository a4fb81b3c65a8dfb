import VideoSite.Lib.Interleaving
import Mathlib.Algebra.BigOperators.Group.Finset.Piecewise

/-!
# Protocols of programs

A protocol is an automaton over the calls of a program and their answers: in which
state which call may be made, which answers are expected, and where an answer leads.
`Protocol.Follows` says that a program keeps to a protocol whatever is answered; it is
a weakest precondition, with one rule for each way a program is put together.

In a `Pool` every program has the state that its history led to.  An invariant of the
pool may speak of these states, and has to be shown for the calls that the protocol
allows only: what a program does is looked at once, when it is shown to follow the
protocol.

* `follows_bind` and its neighbours are the rules.
* `Follows.cut_both` and `Follows.exec_both` are the inductions over the calls of a program
  that runs alone, in two executions side by side: up to where it is stopped, and to its end.
* `Pool.run_follows` is the induction over a schedule.
* `OneShot` is an invariant of pools that share a resource which is claimed under a
  lock and spent by a commit.
-/

namespace Effects

variable {S : Signature} {ε α β : Type}

/-- An automaton over calls and answers. -/
structure Protocol (S : Signature) where
  State : Type
  /-- The call may be made in this state. -/
  may : State → S.Op → Prop
  /-- What is taken for granted about an answer. -/
  expects : State → (op : S.Op) → S.Res op → Prop
  next : State → (op : S.Op) → S.Res op → State

namespace Protocol

variable (P : Protocol S)

/-- The program keeps to the protocol, and `Q` holds of the state it ends in. -/
def Follows : Program S ε α → (P.State → Except ε α → Prop) → P.State → Prop
  | .pure a, Q, q => Q q (.ok a)
  | .raise e, Q, q => Q q (.error e)
  | .call op next, Q, q =>
      P.may q op ∧ ∀ r, P.expects q op r → Follows (next r) Q (P.next q op r)

/-- What is asked of the first part of a sequence. -/
def followsThen (f : α → Program S ε β) (Q : P.State → Except ε β → Prop) :
    P.State → Except ε α → Prop
  | q, .ok a => P.Follows (f a) Q q
  | q, .error e => Q q (.error e)

variable {P} {q : P.State}

@[simp] theorem followsThen_ok (f : α → Program S ε β) (Q : P.State → Except ε β → Prop)
    (a : α) : P.followsThen f Q q (.ok a) ↔ P.Follows (f a) Q q := Iff.rfl

@[simp] theorem followsThen_error (f : α → Program S ε β) (Q : P.State → Except ε β → Prop)
    (e : ε) : P.followsThen f Q q (.error e) ↔ Q q (.error e) := Iff.rfl

@[simp] theorem follows_pure (a : α) (Q : P.State → Except ε α → Prop) :
    P.Follows (.pure a) Q q ↔ Q q (.ok a) := Iff.rfl

@[simp] theorem follows_raise (e : ε) (Q : P.State → Except ε α → Prop) :
    P.Follows (.raise e) Q q ↔ Q q (.error e) := Iff.rfl

/-- The rule of a call. -/
theorem follows_call (op : S.Op) (next : S.Res op → Program S ε α)
    (Q : P.State → Except ε α → Prop) :
    P.Follows (.call op next) Q q ↔
      P.may q op ∧ ∀ r, P.expects q op r → P.Follows (next r) Q (P.next q op r) := Iff.rfl

/-- The rule of a sequence. -/
@[simp] theorem follows_bind (p : Program S ε α) (f : α → Program S ε β)
    (Q : P.State → Except ε β → Prop) :
    P.Follows (p.bind f) Q q ↔ P.Follows p (P.followsThen f Q) q := by
  induction p generalizing q with
  | pure a => exact Iff.rfl
  | raise e => exact Iff.rfl
  | call op next ih =>
    rw [Program.call_bind, follows_call, follows_call]
    exact and_congr Iff.rfl (forall_congr' fun r => imp_congr_right fun _ => ih r)

/-- The rule of a program that makes one more call on its way out. -/
@[simp] theorem follows_closing (op : S.Op) (p : Program S ε α)
    (Q : P.State → Except ε α → Prop) :
    P.Follows (p.closing op) Q q ↔
      P.Follows p (fun q out => P.may q op ∧
        ∀ r, P.expects q op r → Q (P.next q op r) out) q := by
  induction p generalizing q with
  | pure a => exact Iff.rfl
  | raise e => exact Iff.rfl
  | call o next ih =>
    rw [Program.closing_call, follows_call, follows_call]
    exact and_congr Iff.rfl (forall_congr' fun r => imp_congr_right fun _ => ih r)

@[simp] theorem follows_map (f : α → β) (p : Program S ε α)
    (Q : P.State → Except ε β → Prop) :
    P.Follows (p.map f) Q q ↔ P.Follows p (fun q out => Q q (out.map f)) q := by
  unfold Program.map
  rw [follows_bind]
  have hpost : P.followsThen (fun a => .pure (f a)) Q =
      fun (q : P.State) (out : Except ε α) => Q q (out.map f) := by
    funext q out
    cases out <;> rfl
  rw [hpost]

@[simp] theorem follows_ofExcept (out : Except ε α) (Q : P.State → Except ε α → Prop) :
    P.Follows (.ofExcept out) Q q ↔ Q q out := by
  cases out <;> rfl

@[simp] theorem follows_ite (c : Prop) [Decidable c] (p p' : Program S ε α)
    (Q : P.State → Except ε α → Prop) :
    P.Follows (if c then p else p') Q q ↔
      (c → P.Follows p Q q) ∧ (¬ c → P.Follows p' Q q) := by
  split <;> simp [*]

/-- A program none of whose calls leads anywhere. -/
theorem Follows.of_only {A : S.Op → Prop} {p : Program S ε α} (hp : p.Only A)
    (hA : ∀ op, A op → P.may q op ∧ ∀ r, P.next q op r = q)
    {Q : P.State → Except ε α → Prop} (hQ : ∀ out, Q q out) : P.Follows p Q q := by
  induction p with
  | pure a => exact hQ _
  | raise e => exact hQ _
  | call op next ih =>
    obtain ⟨hop, hnext⟩ := hp
    obtain ⟨hmay, hstays⟩ := hA op hop
    refine ⟨hmay, fun r _ => ?_⟩
    rw [hstays r]
    exact ih r (hnext r)

/-- The protocol of the programs that make calls of one kind only. -/
@[reducible] def callsOnly (A : S.Op → Prop) : Protocol S where
  State := Unit
  may := fun _ => A
  expects := fun _ _ _ => True
  next := fun _ _ _ => ()

/-- With the rules of `Follows`, a program is seen to make calls of one kind only. -/
theorem only_of_follows {A : S.Op → Prop} {p : Program S ε α}
    (h : (callsOnly A).Follows p (fun _ _ => True) ()) : p.Only A := by
  induction p with
  | pure a => trivial
  | raise e => trivial
  | call op next ih => exact ⟨h.1, fun r => ih r (h.2 r trivial)⟩

variable (P) in
/-- The state that a history leads to. -/
def after {M : Machine S} (q : P.State) (log : List (Entry M)) : P.State :=
  log.foldl (fun q e => P.next q e.op e.answer) q

@[simp] theorem after_nil {M : Machine S} (q : P.State) :
    P.after q ([] : List (Entry M)) = q := rfl

@[simp] theorem after_append {M : Machine S} (q : P.State) (log : List (Entry M))
    (e : Entry M) : P.after q (log ++ [e]) = P.next (P.after q log) e.op e.answer := by
  simp [after]

/-! ## A program that runs alone -/

section Alone

variable {σ σ' : Type} {I : P.State → σ → Prop}

/-- Two programs that are the same and are stopped at the same place.  The calls that their
protocol allows have the same answers in both and preserve a relation between their
states. -/
theorem Follows.cut_both {R : P.State → σ → σ' → Prop} {h : Nat → Program.Handler S σ}
    {g : Nat → Program.Handler S σ'} {p : Program S ε α} {Q : P.State → Except ε α → Prop}
    (hstep : ∀ m q op s s', P.may q op → R q s s' → P.expects q op (h m op s).2 ∧
      (g m op s').2 = (h m op s).2 ∧ R (P.next q op (h m op s).2) (h m op s).1 (g m op s').1)
    (hp : P.Follows p Q q) {s : σ} {s' : σ'} (hR : R q s s') (k : Nat) :
    ∃ q', P.Follows (p.cut h k s).1 Q q' ∧ (p.cut g k s').1 = (p.cut h k s).1 ∧
      R q' (p.cut h k s).2 (p.cut g k s').2 := by
  induction p generalizing h g q s s' k with
  | pure a =>
    rw [Program.cut_pure, Program.cut_pure]
    exact ⟨q, hp, rfl, hR⟩
  | raise e =>
    rw [Program.cut_raise, Program.cut_raise]
    exact ⟨q, hp, rfl, hR⟩
  | call op next ih =>
    cases k with
    | zero =>
      rw [Program.cut_zero, Program.cut_zero]
      exact ⟨q, hp, rfl, hR⟩
    | succ k =>
      obtain ⟨hexpects, hsame, hnext⟩ := hstep 0 q op s s' hp.1 hR
      rw [Program.cut_call, Program.cut_call, hsame]
      exact ih (h 0 op s).2 (fun m => hstep (m + 1)) (hp.2 _ hexpects) hnext k

/-- Two executions of a program side by side.  The calls that its protocol allows have
the same answers in both and preserve a relation between their states. -/
theorem Follows.exec_both {R : P.State → σ → σ' → Prop} {h : Nat → Program.Handler S σ}
    {g : Nat → Program.Handler S σ'} {p : Program S ε α} {Q : P.State → Except ε α → Prop}
    (hstep : ∀ m q op s s', P.may q op → R q s s' → P.expects q op (h m op s).2 ∧
      (g m op s').2 = (h m op s).2 ∧ R (P.next q op (h m op s).2) (h m op s).1 (g m op s').1)
    (hp : P.Follows p Q q) {s : σ} {s' : σ'} (hR : R q s s') :
    ∃ q', Q q' (p.exec h s).2 ∧ (p.exec g s').2 = (p.exec h s).2 ∧
      R q' (p.exec h s).1 (p.exec g s').1 := by
  induction p generalizing h g q s s' with
  | pure a => exact ⟨q, hp, rfl, hR⟩
  | raise e => exact ⟨q, hp, rfl, hR⟩
  | call op next ih =>
    obtain ⟨hexpects, hsame, hnext⟩ := hstep 0 q op s s' hp.1 hR
    rw [Program.exec_call, Program.exec_call, hsame]
    exact ih (h 0 op s).2 (fun m => hstep (m + 1)) (hp.2 _ hexpects) hnext

/-- What the calls that a protocol allows preserve, an execution preserves. -/
theorem Follows.exec {h : Nat → Program.Handler S σ} {p : Program S ε α}
    {Q : P.State → Except ε α → Prop}
    (hstep : ∀ m q op s, P.may q op → I q s →
      P.expects q op (h m op s).2 ∧ I (P.next q op (h m op s).2) (h m op s).1)
    (hp : P.Follows p Q q) {s : σ} (hI : I q s) :
    ∃ q', Q q' (p.exec h s).2 ∧ I q' (p.exec h s).1 := by
  obtain ⟨q', hq, -, -, hI'⟩ := hp.exec_both (R := fun q s s' => s' = s ∧ I q s)
    (g := h) (h := h) (fun m q op s s' hmay hR => by
      obtain ⟨hsame, hI⟩ := hR
      obtain ⟨hexpects, hnext⟩ := hstep m q op s hmay hI
      rw [hsame]
      exact ⟨hexpects, rfl, rfl, hnext⟩) ⟨rfl, hI⟩
  exact ⟨q', hq, hI'⟩

end Alone

end Protocol

/-! ## Protocols in a pool -/

namespace Pool

variable {M : Machine S} {n : Nat} (P : Protocol S) (start : Fin n → P.State)

/-- The state of every program. -/
def states (pool : Pool M n ε α) (i : Fin n) : P.State :=
  P.after (start i) (pool.procs i).log

/-- What is left of every program keeps to the protocol. -/
def Follows (Q : Fin n → P.State → Except ε α → Prop) (pool : Pool M n ε α) : Prop :=
  ∀ i, P.Follows (pool.procs i).prog (Q i) (pool.states P start i)

variable {P start} {pool : Pool M n ε α}

@[simp] theorem states_wait (i : Fin n) (op : S.Op) :
    (pool.wait i op).states P start = pool.states P start := by
  funext j
  simp [states]

theorem states_advance (i : Fin n) (t : M.Clock) (op : S.Op)
    (next : S.Res op → Program S ε α) :
    (pool.advance i t op next).states P start =
      Function.update (pool.states P start) i
        (P.next (pool.states P start i) op (pool.effect i t op).2) := by
  funext j
  by_cases h : j = i
  · subst h
    rw [Function.update_self]
    unfold states
    rw [advance_procs_self]
    exact Protocol.after_append _ _ _
  · rw [Function.update_of_ne h]
    unfold states
    rw [advance_procs_of_ne pool t op next h]

section Advance

variable {i : Fin n} {t : M.Clock} {op : S.Op} {next : S.Res op → Program S ε α} {q : P.State}

/-- What is read off the states, after a statement that leads to `q`. -/
theorem states_advance_map {β : Type} (f : P.State → β)
    (hq : P.next (pool.states P start i) op (pool.effect i t op).2 = q) :
    (fun j => f ((pool.advance i t op next).states P start j)) =
      Function.update (fun j => f (pool.states P start j)) i (f q) := by
  funext j
  rw [states_advance, hq]
  by_cases h : j = i
  · subst h
    rw [Function.update_self, Function.update_self]
  · rw [Function.update_of_ne h, Function.update_of_ne h]

/-- An assertion about the local states, each by the state of its program. -/
theorem locals_advance {L : P.State → M.Loc → Prop}
    (hq : P.next (pool.states P start i) op (pool.effect i t op).2 = q)
    (hi : L q (pool.effect i t op).1.2)
    (hothers : ∀ j, j ≠ i → L (pool.states P start j) (pool.procs j).loc) (j : Fin n) :
    L ((pool.advance i t op next).states P start j)
      ((pool.advance i t op next).procs j).loc := by
  rw [states_advance, hq]
  by_cases h : j = i
  · subst h
    rw [Function.update_self, advance_procs_self]
    exact hi
  · rw [Function.update_of_ne h, advance_procs_of_ne pool t op next h]
    exact hothers j h

end Advance

theorem Follows.wait {Q : Fin n → P.State → Except ε α → Prop}
    (h : pool.Follows P start Q) (i : Fin n) (op : S.Op) :
    (pool.wait i op).Follows P start Q := by
  intro j
  rw [states_wait, wait_prog]
  exact h j

theorem Follows.may {Q : Fin n → P.State → Except ε α → Prop}
    (h : pool.Follows P start Q) {i : Fin n} {op : S.Op} {next : S.Res op → Program S ε α}
    (hprog : (pool.procs i).prog = .call op next) :
    P.may (pool.states P start i) op := by
  have hi := h i
  rw [hprog] at hi
  exact hi.1

theorem Follows.advance {Q : Fin n → P.State → Except ε α → Prop}
    (h : pool.Follows P start Q) {i : Fin n} {t : M.Clock} {op : S.Op}
    {next : S.Res op → Program S ε α} (hprog : (pool.procs i).prog = .call op next)
    (hexpects : P.expects (pool.states P start i) op (pool.effect i t op).2) :
    (pool.advance i t op next).Follows P start Q := by
  intro j
  rw [states_advance]
  by_cases hj : j = i
  · subst hj
    rw [Function.update_self, advance_procs_self]
    have hi := h j
    rw [hprog] at hi
    exact hi.2 _ hexpects
  · rw [Function.update_of_ne hj, advance_procs_of_ne pool t op next hj]
    exact h j

/-- One step.  `K` has to follow from `J`, and has to be shown after the calls that the
protocol allows. -/
theorem step_follows {Q : Fin n → P.State → Except ε α → Prop} {J K : Pool M n ε α → Prop}
    {i : Fin n} {t : M.Clock} (hidle : J pool → K pool)
    (hwait : ∀ op, J pool → K (pool.wait i op))
    (hadvance : ∀ op next, J pool → (pool.procs i).prog = .call op next →
      ¬ pool.Blocked i (pool.snapshot i op) → P.may (pool.states P start i) op →
      P.expects (pool.states P start i) op (pool.effect i t op).2 ∧
        K (pool.advance i t op next))
    (hJ : J pool) (hfollows : pool.Follows P start Q) :
    K (pool.step i t) ∧ (pool.step i t).Follows P start Q := by
  rcases step_cases pool i t with ⟨-, he⟩ | ⟨op, next, -, -, he⟩ | ⟨op, next, hprog, hfree, he⟩
  · rw [he]
    exact ⟨hidle hJ, hfollows⟩
  · rw [he]
    exact ⟨hwait op hJ, hfollows.wait i op⟩
  · obtain ⟨hexpects, hj'⟩ := hadvance op next hJ hprog hfree (hfollows.may hprog)
    rw [he]
    exact ⟨hj', hfollows.advance hprog hexpects⟩

/-- The induction over a schedule whose steps meet `C`: an invariant has to be kept by
the calls that the protocol allows. -/
theorem run_follows {Q : Fin n → P.State → Except ε α → Prop} {J : Pool M n ε α → Prop}
    {C : Pool M n ε α → Fin n → M.Clock → Prop}
    (hwait : ∀ pool i op, J pool → J (pool.wait i op))
    (hadvance : ∀ pool i t op next, J pool → C pool i t →
      (pool.procs i).prog = .call op next → ¬ pool.Blocked i (pool.snapshot i op) →
      P.may (pool.states P start i) op →
      P.expects (pool.states P start i) op (pool.effect i t op).2 ∧
        J (pool.advance i t op next))
    (sched : Schedule M n) {pool : Pool M n ε α} (hC : Along C sched pool)
    (hJ : J pool) (hfollows : pool.Follows P start Q) :
    J (pool.run sched) ∧ (pool.run sched).Follows P start Q := by
  refine run_induction_along (J := fun pool => J pool ∧ pool.Follows P start Q) ?_ sched pool
    hC ⟨hJ, hfollows⟩
  rintro pool i t hc ⟨hj, hf⟩
  exact step_follows (fun h => h) (hwait pool i)
    (fun op next h => hadvance pool i t op next h hc) hj hf

/-- A condition that every step meets. -/
theorem along_of_forall {C : Pool M n ε α → Fin n → M.Clock → Prop} (h : ∀ pool i t, C pool i t)
    (sched : Schedule M n) (pool : Pool M n ε α) : Along C sched pool := by
  induction sched generalizing pool with
  | nil => trivial
  | cons s rest ih => exact ⟨h pool s.1 s.2, ih _⟩

/-- A condition that holds in front of every step of the schedule. -/
theorem along_of_split {C : Pool M n ε α → Fin n → M.Clock → Prop} {sched : Schedule M n}
    {pool : Pool M n ε α}
    (h : ∀ before i t after, sched = before ++ (i, t) :: after → C (pool.run before) i t) :
    Along C sched pool := by
  induction sched generalizing pool with
  | nil => trivial
  | cons s rest ih =>
    refine ⟨h [] s.1 s.2 rest rfl, ih fun before i t after he => ?_⟩
    exact h (s :: before) i t after (by rw [he, List.cons_append])

/-- The same for every schedule. -/
theorem run_follows_any {Q : Fin n → P.State → Except ε α → Prop} {J : Pool M n ε α → Prop}
    (hwait : ∀ pool i op, J pool → J (pool.wait i op))
    (hadvance : ∀ pool i t op next, J pool → (pool.procs i).prog = .call op next →
      ¬ pool.Blocked i (pool.snapshot i op) → P.may (pool.states P start i) op →
      P.expects (pool.states P start i) op (pool.effect i t op).2 ∧
        J (pool.advance i t op next))
    (sched : Schedule M n) {pool : Pool M n ε α} (hJ : J pool)
    (hfollows : pool.Follows P start Q) :
    J (pool.run sched) ∧ (pool.run sched).Follows P start Q := by
  exact run_follows hwait (fun pool i t op next h _ => hadvance pool i t op next h) sched
    (along_of_forall (fun _ _ _ => trivial) sched pool) hJ hfollows

/-- The same for an invariant that depends on the clock. -/
theorem run_follows_clocked [LE M.Clock] {Q : Fin n → P.State → Except ε α → Prop}
    {J : M.Clock → Pool M n ε α → Prop} {C : Pool M n ε α → Fin n → M.Clock → Prop}
    (hlater : ∀ now t pool, now ≤ t → J now pool → J t pool)
    (hwait : ∀ now pool i op, J now pool → J now (pool.wait i op))
    (hadvance : ∀ pool i t op next, J t pool → C pool i t →
      (pool.procs i).prog = .call op next → ¬ pool.Blocked i (pool.snapshot i op) →
      P.may (pool.states P start i) op →
      P.expects (pool.states P start i) op (pool.effect i t op).2 ∧
        J t (pool.advance i t op next)) :
    ∀ (sched : Schedule M n) {now : M.Clock} {pool : Pool M n ε α}, Ticks now sched →
      Along C sched pool → J now pool → pool.Follows P start Q →
      J (lastClock now sched) (pool.run sched) ∧ (pool.run sched).Follows P start Q
  | [], _, _, _, _, hJ, hfollows => ⟨hJ, hfollows⟩
  | s :: rest, now, pool, hticks, hC, hJ, hfollows => by
      obtain ⟨hj, hf⟩ := step_follows (K := J s.2) (t := s.2) (fun h => h) (hwait s.2 pool s.1)
        (fun op next h => hadvance pool s.1 s.2 op next h hC.1) (hlater now s.2 pool hticks.1 hJ)
        hfollows
      exact run_follows_clocked hlater hwait hadvance rest hticks.2 hC.2 hj hf

/-- A program that returned is in a state that its protocol allows it to return in. -/
theorem Follows.of_succeeded {Q : Fin n → P.State → Except ε α → Prop}
    (h : pool.Follows P start Q) {i : Fin n} (hi : pool.Succeeded i) :
    ∃ a, Q i (pool.states P start i) (.ok a) := by
  obtain ⟨a, ha⟩ := hi
  have hq := h i
  rw [ha] at hq
  exact ⟨a, hq⟩

/-- A program that ended did so in a state that its protocol allows. -/
theorem Follows.of_outcome {Q : Fin n → P.State → Except ε α → Prop}
    (h : pool.Follows P start Q) {i : Fin n} {out : Except ε α}
    (hi : (pool.procs i).prog.outcome? = some out) : Q i (pool.states P start i) out := by
  have hq := h i
  cases hprog : (pool.procs i).prog with
  | pure a =>
    rw [hprog] at hq hi
    cases hi
    exact hq
  | raise e =>
    rw [hprog] at hq hi
    cases hi
    exact hq
  | call op next =>
    rw [hprog] at hi
    cases hi

end Pool

/-! ## Counting programs -/

/-- One value of a family changes. -/
theorem card_filter_update {n : Nat} (f : Fin n → Bool) (i : Fin n) (b : Bool) :
    (Finset.univ.filter fun j => Function.update f i b j = true).card + (f i).toNat =
      (Finset.univ.filter fun j => f j = true).card + b.toNat := by
  have hcard (f : Fin n → Bool) : (Finset.univ.filter fun j => f j = true).card =
      (f i).toNat + ∑ j ∈ Finset.univ.erase i, (f j).toNat := by
    rw [Finset.card_filter, Finset.add_sum_erase _ (fun j => (f j).toNat) (Finset.mem_univ i)]
    refine Finset.sum_congr rfl fun j _ => ?_
    cases f j <;> rfl
  have hothers : ∑ j ∈ Finset.univ.erase i, (Function.update f i b j).toNat =
      ∑ j ∈ Finset.univ.erase i, (f j).toNat := by
    refine Finset.sum_congr rfl fun j hj => ?_
    rw [Function.update_of_ne (Finset.ne_of_mem_erase hj)]
  rw [hcard, hcard, hothers, Function.update_self]
  omega

namespace Pool

variable {M : Machine S} {n : Nat} (P : Protocol S) (start : Fin n → P.State)

/-- How many programs are in a state of the kind `f`. -/
def count (f : P.State → Bool) (pool : Pool M n ε α) : Nat :=
  (Finset.univ.filter fun i => f (pool.states P start i) = true).card

variable {P start} {pool : Pool M n ε α}

theorem count_advance (f : P.State → Bool) {i : Fin n} {t : M.Clock} {op : S.Op}
    {next : S.Res op → Program S ε α} {q : P.State}
    (hq : P.next (pool.states P start i) op (pool.effect i t op).2 = q) :
    (pool.advance i t op next).count P start f + (f (pool.states P start i)).toNat =
      pool.count P start f + (f q).toNat := by
  have hstates (j : Fin n) : f ((pool.advance i t op next).states P start j) =
      Function.update (fun j => f (pool.states P start j)) i (f q) j :=
    congrFun (states_advance_map f hq) j
  unfold count
  simp only [hstates]
  exact card_filter_update (fun j => f (pool.states P start j)) i (f q)

@[simp] theorem count_wait (f : P.State → Bool) (i : Fin n) (op : S.Op) :
    (pool.wait i op).count P start f = pool.count P start f := by
  unfold count
  rw [states_wait]

end Pool

/-! ## Resources that are used once -/

namespace Pool

variable {M : Machine S} {n : Nat} (claims : S.Op → Bool)

/-- If the next call of program `i` claims something, there is something to claim. -/
def ClaimMatches (pool : Pool M n ε α) (i : Fin n) (_t : M.Clock) : Prop :=
  match (pool.procs i).prog.nextOp? with
  | some op => claims op = true → ¬ pool.Blocked i (pool.snapshot i op) →
      pool.matched i op ≠ []
  | none => True

instance (pool : Pool M n ε α) (i : Fin n) (t : M.Clock) :
    Decidable (pool.ClaimMatches claims i t) := by
  unfold ClaimMatches
  cases (pool.procs i).prog.nextOp? with
  | none => exact isTrue trivial
  | some op => infer_instance

instance (sched : Schedule M n) (pool : Pool M n ε α) :
    Decidable (Along (ClaimMatches claims) sched pool) :=
  decidableAlong (fun _ _ _ => inferInstance) sched pool

variable {claims}

theorem ClaimMatches.of_call {pool : Pool M n ε α} {i : Fin n} {t : M.Clock} {op : S.Op}
    {next : S.Res op → Program S ε α} (h : pool.ClaimMatches claims i t)
    (hprog : (pool.procs i).prog = .call op next) (hop : claims op = true)
    (hfree : ¬ pool.Blocked i (pool.snapshot i op)) : pool.matched i op ≠ [] := by
  unfold ClaimMatches at h
  rw [hprog] at h
  exact h hop hfree

end Pool

/-- How far a program is with a resource: it does not have it, it holds it under a
lock, or it has spent it. -/
inductive Phase where
  | idle
  | holding
  | done
  deriving DecidableEq, Repr

/-- The resource behind `key` is with one program at most.  `Spent` is what the store
looks like once it is spent. -/
structure OneShot {M : Machine S} {n : Nat} (key : M.Key) (Spent : M.Shared → Prop)
    (phase : Fin n → Phase) (pool : Pool M n ε α) : Prop where
  exclusive : ∀ i j, phase i ≠ .idle → phase j ≠ .idle → i = j
  locked : ∀ i, phase i = .holding → key ∈ M.locked (pool.procs i).loc
  spent : ∀ i, phase i = .done → Spent pool.shared

namespace OneShot

variable {M : Machine S} {n : Nat} {key : M.Key} {Spent : M.Shared → Prop}
  {phase : Fin n → Phase} {pool : Pool M n ε α}

theorem of_idle (h : ∀ i, phase i = .idle) : OneShot key Spent phase pool where
  exclusive := fun i _ hi => absurd (h i) hi
  locked := fun i hi => by
    rw [h i] at hi
    cases hi
  spent := fun i hi => by
    rw [h i] at hi
    cases hi

theorem wait (h : OneShot key Spent phase pool) (i : Fin n) (op : S.Op) :
    OneShot key Spent phase (pool.wait i op) where
  exclusive := h.exclusive
  locked := fun j hj => by
    rw [Pool.wait_loc]
    exact h.locked j hj
  spent := h.spent

/-- A program that gets hold of the key is the only one that has it: others would hold
its lock, or the store would not show it any more. -/
theorem idle_of_claim (h : OneShot key Spent phase pool) {i : Fin n} {op : S.Op}
    (hfree : ¬ pool.Blocked i (pool.snapshot i op)) (hmatched : key ∈ pool.matched i op)
    (hspent : Spent pool.shared → key ∉ M.targets op pool.shared (pool.procs i).loc) :
    ∀ j, j ≠ i → phase j = .idle := by
  obtain ⟨hsnapshot, htargets⟩ := Pool.mem_matched.1 hmatched
  intro j hj
  cases hphase : phase j with
  | idle => rfl
  | holding => exact absurd ⟨key, hsnapshot, j, hj, h.locked j hphase⟩ hfree
  | done => exact absurd htargets (hspent (h.spent j hphase))

/-- One statement of program `i`, which is in phase `p` after it. -/
theorem advance (h : OneShot key Spent phase pool) {i : Fin n} {t : M.Clock} {op : S.Op}
    {next : S.Res op → Program S ε α} {p : Phase}
    (hentry : phase i = .idle → p ≠ .idle → ∀ j, j ≠ i → phase j = .idle)
    (hlocked : p = .holding → key ∈ M.locked (pool.effect i t op).1.2)
    (hspent : p = .done → Spent (pool.effect i t op).1.1)
    (hkeep : Spent pool.shared → Spent (pool.effect i t op).1.1) :
    OneShot key Spent (Function.update phase i p) (pool.advance i t op next) where
  exclusive := by
    have hothers (hp : p ≠ .idle) (j : Fin n) (hj : j ≠ i) : phase j = .idle := by
      by_cases hi : phase i = .idle
      · exact hentry hi hp j hj
      · by_contra hbusy
        exact hj (h.exclusive j i hbusy hi)
    intro a b ha hb
    by_cases hai : a = i
    · by_cases hbi : b = i
      · rw [hai, hbi]
      · subst hai
        rw [Function.update_self] at ha
        rw [Function.update_of_ne hbi] at hb
        exact absurd (hothers ha b hbi) hb
    · rw [Function.update_of_ne hai] at ha
      by_cases hbi : b = i
      · subst hbi
        rw [Function.update_self] at hb
        exact absurd (hothers hb a hai) ha
      · rw [Function.update_of_ne hbi] at hb
        exact h.exclusive a b ha hb
  locked := by
    intro j hj
    by_cases hji : j = i
    · subst hji
      rw [Function.update_self] at hj
      rw [Pool.advance_procs_self]
      exact hlocked hj
    · rw [Function.update_of_ne hji] at hj
      rw [Pool.advance_procs_of_ne pool t op next hji]
      exact h.locked j hj
  spent := by
    intro j hj
    rw [Pool.advance_shared]
    by_cases hji : j = i
    · subst hji
      rw [Function.update_self] at hj
      exact hspent hj
    · rw [Function.update_of_ne hji] at hj
      exact hkeep (h.spent j hj)

end OneShot

end Effects
