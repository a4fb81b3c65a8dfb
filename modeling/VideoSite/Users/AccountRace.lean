import VideoSite.Lib.Serial
import VideoSite.Users.Concurrent
import Mathlib.Data.List.Permutation

/-!
# Changing an account side by side

`UpdateUser`, `VerifyEmail`, `BanUser`, `UnbanUser` and `DeleteUser` load an account, and
write the whole of it back with `update(user)`.  The row is fetched again for that, but it
is not compared with what was loaded, so that a call which has loaded the account before
another one commits puts the columns back that the other one has changed.

* `AccountRace.database` is the region that the calls have in common, and
  `AccountRace.follows` says that each of them commits once at most.
* `no_lost_update` says that the calls leave the database that some serial order of them
  leaves, in a run in which no call works with what is out of date.
* `ban_undone` is a run in which one does: an edit of a name makes a banned account active.
-/

namespace VideoSite.Users

open Effects Program Protocol

variable {env : Env} {w : World} {n : Nat}

/-- The call loads an account and writes it back. -/
def Call.rewritesAccount : Call → Bool
  | .updateUser _ _ | .verifyEmail _ _ | .banUser _ _ _ _ | .unbanUser _ _ _
  | .deleteUser _ _ => true
  | _ => false

namespace AccountRace

/-- Of all that is shared, what the operation is answered depends on the database only. -/
def plain : Op → Bool
  | .now | .generateSecret | .sql _ | .commit | .close | .cacheDelete _ | .mailSend _ => true
  | _ => false

/-- The operation looks at the database, or changes it. -/
def sees : Op → Bool
  | .sql _ | .commit => true
  | _ => false

/-- The database, which is what the calls have in common. -/
@[reducible] def database (env : Env) : Region (machine env) where
  Content := Db
  content := World.db
  admits := fun op => plain op = true
  sees := sees
  commits := Op.commits
  sees_of_commits := fun {op} h => by
    cases op with
    | commit => rfl
    | _ => cases h
  quiet := fun h => perform_db fun hop => by
    rw [hop] at h
    cases h
  unseen := fun {op _ _} h => by
    cases op with
    | sql s => cases h
    | _ => rfl
  answer_eq := fun {_ op w w' _} hop hdb => by
    cases op with
    | sql s =>
      have h : w.db = w'.db := hdb rfl
      simp only [Machine.alone, perform, targets, h]
    | limiterHit | limiterPeek | cacheGet | decode => cases hop
    | _ => rfl
  loc_eq := fun {_ op w w' _} _ hdb => by
    cases op with
    | sql s =>
      have h : w.db = w'.db := hdb rfl
      simp only [Machine.alone, perform, targets, h]
    | _ => rfl
  content_eq := fun {_ op w w' _} hop hdb => by
    cases op with
    | commit =>
      have h : w.db = w'.db := hdb
      simp only [Machine.alone, perform, World.withDb_db, h]
    | _ => cases hop

/-- A part of a call that only looks something up. -/
theorem follows_of_only {α : Type} {p : UseCase α}
    (hp : p.Only fun op : Op => plain op = true ∧ op.commits = false)
    {Q : Bool → Except Failure α → Prop} (hQ : ∀ out, Q false out) :
    (database env).protocol.Follows p Q false :=
  Follows.of_only (P := (database env).protocol) (q := false) hp
    (fun _ hop => ⟨⟨hop.1, fun h => by cases h⟩, fun _ => hop.2⟩) hQ

attribute [local simp] plain Op.commits in
/-- Each of the calls commits once at most. -/
theorem follows {c : Call} (hc : c.rewritesAccount = true) :
    (database env).protocol.Follows (c.program env) (fun _ _ => True) false := by
  cases c with
  | updateUser u data =>
    simp only [Call.program, updateUser]
    simp
    intro found user _
    refine follows_of_only (only_changeEmail (fun _ => ⟨rfl, rfl⟩) _ _) fun out => ?_
    cases out with
    | error e => simp
    | ok user =>
      rw [followsThen_ok, follows_bind]
      refine follows_of_only (only_changeUsername (fun _ => ⟨rfl, rfl⟩) _ _) fun out => ?_
      cases out with
      | error e => simp
      | ok user =>
        simp [UpdateUserUseCase.issueIfUnverified, EmailVerificationIssuer.issue,
          UpdateUserUseCase.sendPending, EmailVerificationIssuer.send]
  | verifyEmail secret device =>
    simp only [Call.program, verifyEmail, VerifyEmailUseCase.stamp, audit.record]
    simp
  | banUser actor u reason device =>
    simp only [Call.program, banUser, BanUserUseCase.deactivate, forgetIfChanged, audit.record]
    simp
  | unbanUser actor u device =>
    simp only [Call.program, unbanUser, UnbanUserUseCase.reactivate, forgetIfChanged,
      audit.record]
    simp
  | deleteUser u device =>
    simp only [Call.program, deleteUser, audit.record]
    simp
  | _ => cases hc

end AccountRace

open AccountRace in
/-- Of calls that rewrite accounts side by side none loses what another one has written,
in a run in which no call works with what is out of date: whenever a call makes a statement
or commits, what it has done so far, made again alone, would be answered as it was.  The
database they leave is that of a serial order of the calls, which keeps the order of the
commits and has every call at the clock readings of its own statements. -/
theorem no_lost_update {calls : Fin n → Call}
    (hcalls : ∀ i, (calls i).rewritesAccount = true)
    (sched : Pool.Schedule (machine env) n)
    (hcurrent : Pool.Along
      (Pool.Current (database env) fun i => Tx.fresh (w.calls + i)) sched (w.pool env calls))
    (hfinished : ((w.pool env calls).run sched).Finished) :
    ∃ order τ, order.Perm (List.finRange n) ∧
      ((w.pool env calls).commitOrder (database env) sched).Sublist order ∧
      ((w.pool env calls).run sched).TimedBy τ ∧
      ((w.pool env calls).inOrder τ order).db = ((w.pool env calls).run sched).shared.db := by
  have hτ := ((w.pool env calls).run sched).timedBy_readings (0 : Time)
  obtain ⟨order, hperm, hsub, hdb⟩ := serializable (C := database env) (fun _ => rfl)
    (fun i => follows (hcalls i)) sched hcurrent hfinished hτ
  exact ⟨order, _, hperm, hsub, hτ, hdb⟩

/-! ## Two calls on one account -/

namespace Sample

/-- Who moderates. -/
def moderator : User := db.userToEntity (account 2 "mod")

/-- Bob has registered and was mailed a link to confirm his address, and is banned. -/
def banned : World :=
  runCalls Sample.env world [(1, .register ⟨"bob", "bob", "pw", "pw", none, none⟩ none),
    (2, .banUser moderator (supply.rowId 0 1) none none)]

/-- He follows the link while the ban is lifted. -/
def verifyAndUnban : Fin 2 → Call
  | 0 => .verifyEmail (label 0 2) none
  | 1 => .unbanUser moderator (supply.rowId 0 1) none

/-- Alice has confirmed her address. -/
def confirmed : World :=
  { world with
    db := { db with users := [{ account 1 "alice" with emailVerifiedAt := some 5 }] } }

/-- She edits her name while she is banned. -/
def editAndBan : Fin 2 → Call
  | 0 => .updateUser 1 ⟨none, some "Alice", none⟩
  | 1 => .banUser moderator 1 none none

end Sample

section

/-- What the calls are answered can be compared.  None of them asks the cache. -/
noncomputable local instance : ∀ op : Op, DecidableEq (sig.Res op)
  | .cacheGet _ => Classical.decEq _
  | .sql s => by cases s <;> infer_instance
  | .now | .uuid4 | .generateSecret | .hashPassword _ | .verifyPassword _ _ | .issue _ _ _
  | .decode _ | .commit | .close | .limiterHit _ _ | .limiterPeek _ _ | .limiterReset _
  | .cacheSet _ _ _ | .cacheDelete _ | .mailSend _ => inferInstance

/-- Bob's token is looked up before the ban is lifted, and his account after that. -/
theorem no_lost_update_sample :
    let sched : Pool.Schedule (machine Sample.env) 2 :=
      List.replicate 2 (0, 20) ++ List.replicate 7 (1, 21) ++ List.replicate 9 (0, 22)
    let pool := Sample.banned.pool Sample.env Sample.verifyAndUnban
    ∃ order τ, order.Perm (List.finRange 2) ∧
      (pool.commitOrder (AccountRace.database Sample.env) sched).Sublist order ∧
      (pool.run sched).TimedBy τ ∧ (pool.inOrder τ order).db = (pool.run sched).shared.db :=
  no_lost_update (by decide) _ (by decide +kernel) (by decide +kernel)

end

/-- Two calls can follow each other in two ways. -/
theorem orders_of_two {order : List (Fin 2)} (h : order.Perm (List.finRange 2)) :
    order = [0, 1] ∨ order = [1, 0] := by
  have horder : order ∈ (List.finRange 2).permutations' := List.mem_permutations'.2 h
  have hall : (List.finRange 2).permutations' = [[0, 1], [1, 0]] := by decide
  rw [hall] at horder
  exact List.mem_pair.1 horder

/-- Whichever call comes first, Alice is banned in the end. -/
theorem inactive_in_order (τ : Fin 2 → Nat → Time) {order : List (Fin 2)}
    (horder : order.Perm (List.finRange 2)) :
    (((Sample.confirmed.pool Sample.env Sample.editAndBan).inOrder τ order).db.userRow? 1).map
      (·.isActive) = some false := by
  rcases orders_of_two horder with rfl | rfl
  · cbv
  · cbv

/-- Call 0 has loaded the account before call 1 bans it, and makes it active again with an
edit of the name.  No serial order leaves this row. -/
theorem ban_undone :
    let sched : Pool.Schedule (machine Sample.env) 2 :=
      (0, 20) :: List.replicate 9 (1, 21) ++ List.replicate 5 (0, 22)
    let pool := Sample.confirmed.pool Sample.env Sample.editAndBan
    (∀ i, (Sample.editAndBan i).rewritesAccount = true) ∧ (pool.run sched).Finished ∧
      (∀ i, (pool.run sched).Succeeded i) ∧
      ((pool.run sched).shared.db.userRow? 1).map (·.isActive) = some true ∧
      ¬ ∃ (order : List (Fin 2)) (τ : Fin 2 → Nat → Time), order.Perm (List.finRange 2) ∧
        (pool.inOrder τ order).db.userRow? 1 = (pool.run sched).shared.db.userRow? 1 := by
  intro sched pool
  have hactive : ((pool.run sched).shared.db.userRow? 1).map (·.isActive) = some true := by
    decide +kernel
  refine ⟨by decide, by decide +kernel, by decide +kernel, hactive, ?_⟩
  rintro ⟨order, τ, horder, hrow⟩
  have hinactive := inactive_in_order τ horder
  rw [show ((Sample.confirmed.pool Sample.env Sample.editAndBan).inOrder τ order).db.userRow? 1 =
    (pool.run sched).shared.db.userRow? 1 from hrow, hactive] at hinactive
  cases hinactive

end VideoSite.Users
