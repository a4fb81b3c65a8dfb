import Mathlib.Logic.Basic
import Mathlib.Tactic.Basic

/-!
# Programs over a signature of calls

A program that talks to the outside only through calls is a tree: it returns,
it raises, or it makes a call and goes on with the answer.  The calls are left
uninterpreted here.  `Program.exec` runs a program to its end with a handler
that answers every call from a state, and the module
`VideoSite.Lib.Interleaving` runs many programs side by side over one state.

Nothing here is about a particular set of calls.

* `Program` is the tree, `Program.bind` its sequencing, and the `Monad`
  instance makes it writable in `do` notation.
* `Program.closing` makes one more call on every way out, the way a context
  manager closes what it opened.
* `Program.cut` stops a program after some of its calls, and `Program.exec_cut` says
  that it can go on from there.
* `Program.wp` is the weakest precondition of a program over a handler, with
  one rule for each way a program is put together.
* `Program.Only` says that a program makes no call outside a set, and `Program.Meets` the
  same of the calls of one run, from the state it starts in; its rule for a sequence uses
  `Program.wp`.
-/

namespace Effects

/-- A signature: the calls, and the type of the answer to each. -/
structure Signature where
  Op : Type
  Res : Op → Type

/-- A program returns a value, raises an error, or makes a call and continues
with the answer. -/
inductive Program (S : Signature) (ε α : Type) : Type
  | pure (value : α)
  | raise (error : ε)
  | call (op : S.Op) (next : S.Res op → Program S ε α)

namespace Program

variable {S : Signature} {ε α β γ σ : Type}

/-- Run `p`, then `f` on its value.  A raised error skips `f`. -/
def bind : Program S ε α → (α → Program S ε β) → Program S ε β
  | .pure a, f => f a
  | .raise e, _ => .raise e
  | .call op next, f => .call op fun r => (next r).bind f

instance : Monad (Program S ε) where
  pure := Program.pure
  bind := Program.bind

/-- One call, answered by its result. -/
def perform (op : S.Op) : Program S ε (S.Res op) :=
  .call op .pure

/-- Apply `f` to the value a program returns. -/
def map (f : α → β) (p : Program S ε α) : Program S ε β :=
  p.bind fun a => .pure (f a)

/-- An answer that is itself an error or a value becomes the outcome. -/
def ofExcept : Except ε α → Program S ε α
  | .ok a => .pure a
  | .error e => .raise e

/-- Make the call `op` on the way out of `p`, whether `p` returned or raised. -/
def closing (op : S.Op) : Program S ε α → Program S ε α
  | .pure a => .call op fun _ => .pure a
  | .raise e => .call op fun _ => .raise e
  | .call o next => .call o fun r => (next r).closing op

/-- The program has returned or raised. -/
def isDone : Program S ε α → Bool
  | .call _ _ => false
  | _ => true

/-- What a finished program ended with. -/
def outcome? : Program S ε α → Option (Except ε α)
  | .pure a => some (.ok a)
  | .raise e => some (.error e)
  | .call _ _ => none

/-- The call the program is about to make. -/
def nextOp? : Program S ε α → Option S.Op
  | .call op _ => some op
  | _ => none

/-! ## Sequencing -/

@[simp] theorem pure_bind (a : α) (f : α → Program S ε β) :
    (Program.pure a).bind f = f a := rfl

@[simp] theorem raise_bind (e : ε) (f : α → Program S ε β) :
    (Program.raise e).bind f = .raise e := rfl

@[simp] theorem call_bind (op : S.Op) (next : S.Res op → Program S ε α)
    (f : α → Program S ε β) :
    (Program.call op next).bind f = .call op fun r => (next r).bind f := rfl

@[simp] theorem perform_bind (op : S.Op) (f : S.Res op → Program S ε β) :
    (perform op).bind f = .call op f := rfl

@[simp] theorem ofExcept_ok (a : α) :
    (ofExcept (.ok a) : Program S ε α) = .pure a := rfl

@[simp] theorem ofExcept_error (e : ε) :
    (ofExcept (.error e) : Program S ε α) = .raise e := rfl

@[simp] theorem monad_pure (a : α) :
    (Pure.pure a : Program S ε α) = .pure a := rfl

@[simp] theorem monad_bind (p : Program S ε α) (f : α → Program S ε β) :
    p >>= f = p.bind f := rfl

@[simp] theorem closing_pure (op : S.Op) (a : α) :
    (Program.pure a : Program S ε α).closing op = .call op fun _ => .pure a := rfl

@[simp] theorem closing_raise (op : S.Op) (e : ε) :
    (Program.raise e : Program S ε α).closing op = .call op fun _ => .raise e := rfl

@[simp] theorem closing_call (op o : S.Op) (next : S.Res o → Program S ε α) :
    (Program.call o next).closing op =
      .call o fun r => (next r).closing op := rfl

/-! ## Running a program alone -/

/-- A handler answers each call from a state and updates the state. -/
abbrev Handler (S : Signature) (σ : Type) : Type :=
  (op : S.Op) → σ → σ × S.Res op

/-- Run a program to its end.  The `m`-th call is answered by `h m`, so that a
handler may depend on how far the program is (its clock readings, for one). -/
def exec (h : Nat → Handler S σ) : Program S ε α → σ → σ × Except ε α
  | .pure a, s => (s, .ok a)
  | .raise e, s => (s, .error e)
  | .call op next, s =>
      (next (h 0 op s).2).exec (fun m => h (m + 1)) (h 0 op s).1

@[simp] theorem exec_pure (h : Nat → Handler S σ) (a : α) (s : σ) :
    (Program.pure a : Program S ε α).exec h s = (s, .ok a) := rfl

@[simp] theorem exec_raise (h : Nat → Handler S σ) (e : ε) (s : σ) :
    (Program.raise e : Program S ε α).exec h s = (s, .error e) := rfl

/-- The first call of a program. -/
theorem exec_call (h : Nat → Handler S σ) (op : S.Op)
    (next : S.Res op → Program S ε α) (s : σ) :
    (Program.call op next).exec h s =
      (next (h 0 op s).2).exec (fun m => h (m + 1)) (h 0 op s).1 := rfl

/-- Run a program with the same handler throughout. -/
def run (h : Handler S σ) (p : Program S ε α) (s : σ) : σ × Except ε α :=
  p.exec (fun _ => h) s

@[simp] theorem run_pure (h : Handler S σ) (a : α) (s : σ) :
    (Program.pure a : Program S ε α).run h s = (s, .ok a) := rfl

@[simp] theorem run_raise (h : Handler S σ) (e : ε) (s : σ) :
    (Program.raise e : Program S ε α).run h s = (s, .error e) := rfl

@[simp] theorem run_call (h : Handler S σ) (op : S.Op)
    (next : S.Res op → Program S ε α) (s : σ) :
    (Program.call op next).run h s = (next (h op s).2).run h (h op s).1 := rfl

theorem run_bind (h : Handler S σ) (p : Program S ε α)
    (f : α → Program S ε β) (s : σ) :
    (p.bind f).run h s =
      match p.run h s with
      | (s', .ok a) => (f a).run h s'
      | (s', .error e) => (s', .error e) := by
  induction p generalizing s with
  | pure a => rfl
  | raise e => rfl
  | call op next ih =>
    rw [call_bind, run_call, run_call]
    exact ih _ _

/-- What is closed is closed after the run, whatever came out of it. -/
theorem run_closing (h : Handler S σ) (op : S.Op) (p : Program S ε α) (s : σ) :
    (p.closing op).run h s = ((h op (p.run h s).1).1, (p.run h s).2) := by
  induction p generalizing s with
  | pure a => rfl
  | raise e => rfl
  | call o next ih =>
    rw [closing_call, run_call, run_call]
    exact ih _ _

/-! ## Stopping a program -/

/-- What is left of a program, and the state, when it is stopped after its first `k`
calls. -/
def cut (h : Nat → Handler S σ) : Nat → Program S ε α → σ → Program S ε α × σ
  | k + 1, .call op next, s =>
      cut (fun m => h (m + 1)) k (next (h 0 op s).2) (h 0 op s).1
  | _, p, s => (p, s)

@[simp] theorem cut_zero (h : Nat → Handler S σ) (p : Program S ε α) (s : σ) :
    p.cut h 0 s = (p, s) := by
  cases p <;> rfl

@[simp] theorem cut_pure (h : Nat → Handler S σ) (k : Nat) (a : α) (s : σ) :
    (Program.pure a : Program S ε α).cut h k s = (.pure a, s) := by
  cases k <;> rfl

@[simp] theorem cut_raise (h : Nat → Handler S σ) (k : Nat) (e : ε) (s : σ) :
    (Program.raise e : Program S ε α).cut h k s = (.raise e, s) := by
  cases k <;> rfl

/-- The first call of a program that is stopped later. -/
theorem cut_call (h : Nat → Handler S σ) (k : Nat) (op : S.Op)
    (next : S.Res op → Program S ε α) (s : σ) :
    (Program.call op next).cut h (k + 1) s =
      (next (h 0 op s).2).cut (fun m => h (m + 1)) k (h 0 op s).1 := rfl

/-- A program that has ended has nothing left to be stopped in. -/
theorem cut_of_isDone (h : Nat → Handler S σ) {p : Program S ε α} (hp : p.isDone = true)
    (k : Nat) (s : σ) : p.cut h k s = (p, s) := by
  cases p with
  | pure a => exact cut_pure h k a s
  | raise e => exact cut_raise h k e s
  | call op next => cases hp

/-- One more call of a program that is stopped in front of it. -/
theorem cut_succ (h : Nat → Handler S σ) {p : Program S ε α} {k : Nat} {s : σ} {op : S.Op}
    {next : S.Res op → Program S ε α} (hp : (p.cut h k s).1 = .call op next) :
    p.cut h (k + 1) s =
      (next (h k op (p.cut h k s).2).2, (h k op (p.cut h k s).2).1) := by
  induction p generalizing h k s with
  | pure a =>
    rw [cut_pure] at hp
    cases hp
  | raise e =>
    rw [cut_raise] at hp
    cases hp
  | call o following ih =>
    cases k with
    | zero =>
      rw [cut_zero] at hp ⊢
      cases hp
      rw [cut_call, cut_zero]
    | succ k =>
      rw [cut_call] at hp ⊢
      rw [ih _ (fun m => h (m + 1)) hp, cut_call]

/-- A program that is stopped and goes on does what it does without a stop. -/
theorem exec_cut (h : Nat → Handler S σ) (p : Program S ε α) (k : Nat) (s : σ) :
    (p.cut h k s).1.exec (fun m => h (m + k)) (p.cut h k s).2 = p.exec h s := by
  induction p generalizing h k s with
  | pure a => rw [cut_pure]; rfl
  | raise e => rw [cut_raise]; rfl
  | call op next ih =>
    cases k with
    | zero => rw [cut_zero]; rfl
    | succ k =>
      rw [cut_call, exec_call]
      exact ih (h 0 op s).2 (fun m => h (m + 1)) k (h 0 op s).1

/-! ## Weakest preconditions -/

/-- `Q` holds of the state and the outcome that running `p` from `s` ends in. -/
def wp (h : Handler S σ) (p : Program S ε α) (Q : σ → Except ε α → Prop) (s : σ) :
    Prop :=
  Q (p.run h s).1 (p.run h s).2

/-- What a postcondition is after the first part of a sequence: the rest has to
establish it, and an error establishes it at once. -/
def andThen (h : Handler S σ) (f : α → Program S ε β) (Q : σ → Except ε β → Prop) :
    σ → Except ε α → Prop
  | s, .ok a => wp h (f a) Q s
  | s, .error e => Q s (.error e)

section Rules

variable {h : Handler S σ} {s : σ}

@[simp] theorem andThen_ok (f : α → Program S ε β) (Q : σ → Except ε β → Prop) (a : α) :
    andThen h f Q s (.ok a) ↔ wp h (f a) Q s := Iff.rfl

@[simp] theorem andThen_error (f : α → Program S ε β) (Q : σ → Except ε β → Prop)
    (e : ε) : andThen h f Q s (.error e) ↔ Q s (.error e) := Iff.rfl

@[simp] theorem wp_pure (a : α) (Q : σ → Except ε α → Prop) :
    wp h (.pure a) Q s ↔ Q s (.ok a) := Iff.rfl

@[simp] theorem wp_raise (e : ε) (Q : σ → Except ε α → Prop) :
    wp h (.raise e) Q s ↔ Q s (.error e) := Iff.rfl

/-- The rule of a call. -/
theorem wp_call (op : S.Op) (next : S.Res op → Program S ε α)
    (Q : σ → Except ε α → Prop) :
    wp h (.call op next) Q s ↔ wp h (next (h op s).2) Q (h op s).1 := Iff.rfl

/-- The rule of a sequence. -/
@[simp] theorem wp_bind (p : Program S ε α) (f : α → Program S ε β)
    (Q : σ → Except ε β → Prop) :
    wp h (p.bind f) Q s ↔ wp h p (andThen h f Q) s := by
  unfold wp
  rw [run_bind]
  rcases hp : p.run h s with ⟨s', a | e⟩ <;> rfl

/-- The rule of a program that makes one more call on its way out. -/
theorem wp_closing (op : S.Op) (p : Program S ε α) (Q : σ → Except ε α → Prop) :
    wp h (p.closing op) Q s ↔ wp h p (fun s' out => Q (h op s').1 out) s := by
  unfold wp
  rw [run_closing]

@[simp] theorem wp_map (f : α → β) (p : Program S ε α) (Q : σ → Except ε β → Prop) :
    wp h (p.map f) Q s ↔ wp h p (fun s' out => Q s' (out.map f)) s := by
  unfold Program.map
  rw [wp_bind]
  unfold wp
  rcases p.run h s with ⟨s', a | e⟩ <;> rfl

@[simp] theorem wp_ofExcept (out : Except ε α) (Q : σ → Except ε α → Prop) :
    wp h (.ofExcept out) Q s ↔ Q s out := by
  cases out <;> rfl

@[simp] theorem wp_ite (c : Prop) [Decidable c] (p q : Program S ε α)
    (Q : σ → Except ε α → Prop) :
    wp h (if c then p else q) Q s ↔ (c → wp h p Q s) ∧ (¬ c → wp h q Q s) := by
  split <;> simp [*]

/-- A postcondition says what a stronger one makes of it. -/
theorem wp_iff_of {p : Program S ε α} {Q R : σ → Except ε α → Prop} {C : Prop}
    (hp : wp h p R s) (hQR : ∀ s' out, R s' out → (Q s' out ↔ C)) : wp h p Q s ↔ C :=
  hQR _ _ hp

end Rules

/-! ## The calls of a program -/

/-- Every call of the program, on every path, satisfies `P`. -/
def Only (P : S.Op → Prop) : Program S ε α → Prop
  | .call op next => P op ∧ ∀ r, (next r).Only P
  | _ => True

@[simp] theorem only_pure (P : S.Op → Prop) (a : α) :
    (Program.pure a : Program S ε α).Only P := trivial

@[simp] theorem only_raise (P : S.Op → Prop) (e : ε) :
    (Program.raise e : Program S ε α).Only P := trivial

@[simp] theorem only_call (P : S.Op → Prop) (op : S.Op)
    (next : S.Res op → Program S ε α) :
    (Program.call op next).Only P ↔ P op ∧ ∀ r, (next r).Only P := Iff.rfl

theorem Only.bind {P : S.Op → Prop} {p : Program S ε α}
    {f : α → Program S ε β} (hp : p.Only P) (hf : ∀ a, (f a).Only P) :
    (p.bind f).Only P := by
  induction p with
  | pure a => exact hf a
  | raise e => trivial
  | call op next ih => exact ⟨hp.1, fun r => ih r (hp.2 r)⟩

theorem Only.closing {P : S.Op → Prop} {p : Program S ε α} {op : S.Op}
    (hp : p.Only P) (hop : P op) : (p.closing op).Only P := by
  induction p with
  | pure a => exact ⟨hop, fun _ => trivial⟩
  | raise e => exact ⟨hop, fun _ => trivial⟩
  | call o next ih => exact ⟨hp.1, fun r => ih r (hp.2 r)⟩

/-! ## The calls of a run -/

/-- Every call that the program makes as it runs from `s` satisfies `P`. -/
def Meets (h : Handler S σ) (P : S.Op → Prop) : Program S ε α → σ → Prop
  | .call op next, s => P op ∧ (next (h op s).2).Meets h P (h op s).1
  | _, _ => True

/-- What is asked of the rest of a sequence. -/
def meetsThen (h : Handler S σ) (P : S.Op → Prop) (f : α → Program S ε β) :
    σ → Except ε α → Prop
  | s, .ok a => (f a).Meets h P s
  | _, .error _ => True

section Meets

variable {h : Handler S σ} {P : S.Op → Prop} {s : σ}

@[simp] theorem meetsThen_ok (f : α → Program S ε β) (a : α) :
    meetsThen h P f s (.ok a) ↔ (f a).Meets h P s := Iff.rfl

@[simp] theorem meetsThen_error (f : α → Program S ε β) (e : ε) :
    meetsThen h P f s (.error e) ↔ True := Iff.rfl

@[simp] theorem meets_pure (a : α) : (Program.pure a : Program S ε α).Meets h P s ↔ True :=
  Iff.rfl

@[simp] theorem meets_raise (e : ε) : (Program.raise e : Program S ε α).Meets h P s ↔ True :=
  Iff.rfl

/-- The rule of a call. -/
theorem meets_call (op : S.Op) (next : S.Res op → Program S ε α) :
    (Program.call op next).Meets h P s ↔ P op ∧ (next (h op s).2).Meets h P (h op s).1 :=
  Iff.rfl

/-- The rule of a sequence. -/
@[simp] theorem meets_bind (p : Program S ε α) (f : α → Program S ε β) :
    (p.bind f).Meets h P s ↔ p.Meets h P s ∧ wp h p (meetsThen h P f) s := by
  induction p generalizing s with
  | pure a => simp
  | raise e => simp
  | call op next ih =>
    rw [call_bind, meets_call, meets_call, wp_call, ih, and_assoc]

/-- What follows a program makes no calls. -/
@[simp] theorem wp_meetsThen_pure (p : Program S ε α) (f : α → β) :
    wp h p (meetsThen h P fun a => .pure (f a)) s ↔ True := by
  unfold wp
  cases (p.run h s).2 <;> exact Iff.rfl

@[simp] theorem meets_map (f : α → β) (p : Program S ε α) :
    (p.map f).Meets h P s ↔ p.Meets h P s := by
  unfold Program.map
  rw [meets_bind, wp_meetsThen_pure, and_true]

/-- The rule of a program that makes one more call on its way out. -/
@[simp] theorem meets_closing (op : S.Op) (p : Program S ε α) :
    (p.closing op).Meets h P s ↔ p.Meets h P s ∧ P op := by
  induction p generalizing s with
  | pure a => simp [meets_call]
  | raise e => simp [meets_call]
  | call o next ih => rw [closing_call, meets_call, meets_call, ih, and_assoc]

@[simp] theorem meets_ofExcept (out : Except ε α) :
    (Program.ofExcept out : Program S ε α).Meets h P s ↔ True := by
  cases out <;> exact Iff.rfl

@[simp] theorem meets_ite (c : Prop) [Decidable c] (p q : Program S ε α) :
    (if c then p else q).Meets h P s ↔ (c → p.Meets h P s) ∧ (¬ c → q.Meets h P s) := by
  split <;> simp [*]

/-- A program that makes such calls only. -/
theorem Only.meets {p : Program S ε α} (hp : p.Only P) : p.Meets h P s := by
  induction p generalizing s with
  | pure a => trivial
  | raise e => trivial
  | call op next ih => exact ⟨hp.1, ih _ (hp.2 _)⟩

/-- What follows a program makes such calls only. -/
theorem meets_bind_of_only {p : Program S ε α} {f : α → Program S ε β}
    (hf : ∀ a, (f a).Only P) : (p.bind f).Meets h P s ↔ p.Meets h P s := by
  rw [meets_bind, and_iff_left_iff_imp]
  intro _
  unfold wp
  cases (p.run h s).2 with
  | ok a => exact (hf a).meets
  | error e => trivial

end Meets

end Program

end Effects
