import VideoSite.Users.Reachable

/-!
# A verified address was confirmed

One-time links belong to an account, not to an address.  What ties a link to an
address is the invariant `World.LinksMailed`: a link that can still be used was
mailed to the address its account has now.  `UpdateUser` keeps it by issuing a
fresh link, which spends the earlier ones, whenever it leaves the address
unverified.

* `Effect.linksMailed` says that a call keeps the invariant.
* `verified_was_confirmed` is the result about runs.
-/

namespace VideoSite.Users

open Effects Program

variable {env : Env} {t : Time} {w w' : World} {c : Call} {out : Except Failure Answer}

/-- Every verification link that can still be used was mailed to the present address
of its account. -/
def World.LinksMailed (env : Env) (w : World) : Prop :=
  ∀ token ∈ w.db.securityTokens, token.purpose = .emailVerification → token.usedAt = none →
    ∀ row ∈ w.db.users, row.id = token.userId → ∃ n k,
      token.tokenHash = env.tokenHash (env.supply.secret n k) ∧
        EmailVerificationIssuer.message env row.email (env.supply.secret n k) ∈ w.outbox

/-- Mail that was sent stays sent. -/
theorem Effect.outbox_mono (h : Effect env t w c out w') {m : EmailMessageDTO}
    (hm : m ∈ w.outbox) : m ∈ w'.outbox := by
  cases h with
  | registered | resetRequested => exact List.mem_append_left _ hm
  | loginFailed =>
    unfold LoginUseCase.tried
    split
    · split <;> exact hm
    · exact hm
  | userUpdated =>
    unfold UpdateUserUseCase.finished
    split
    · exact hm
    · exact List.mem_append_left _ hm
  | _ => exact hm

/-- A link that a call leaves alone is still mailed to the right address, unless the
call changes that address. -/
theorem Effect.link_kept (hw : w.Wf env) (hlinks : w.LinksMailed env)
    (h : Effect env t w c out w') {token : SecurityToken}
    (htoken : token ∈ w.db.securityTokens) (hpurpose : token.purpose = .emailVerification)
    (hunused : token.usedAt = none) (hcall : ∀ data, c ≠ .updateUser token.userId data) :
    ∀ row ∈ w'.db.users, row.id = token.userId → ∃ n k,
      token.tokenHash = env.tokenHash (env.supply.secret n k) ∧
        EmailVerificationIssuer.message env row.email (env.supply.secret n k) ∈ w'.outbox := by
  intro row' hrow' hid
  obtain ⟨edit, new, hstep⟩ := h.users hw
  rw [hstep.users] at hrow'
  rcases List.mem_append.1 hrow' with hold | hnew
  · obtain ⟨row, hrow, rfl⟩ := List.mem_map.1 hold
    rw [hstep.id row hrow] at hid
    have hemail : (edit row).email = row.email := by
      by_contra hne
      obtain ⟨data, -, -, hdata, -⟩ := hstep.email row hrow hne
      exact hcall data (hid ▸ hdata)
    obtain ⟨n, k, hhash, hmail⟩ := hlinks token htoken hpurpose hunused row hrow hid
    exact ⟨n, k, hhash, hemail ▸ h.outbox_mono hmail⟩
  · -- a new account has no links yet
    have hknown := hw.db.tokenOwners token htoken
    rw [← hid, (hstep.fresh row' hnew).1, hw.db.unknown] at hknown
    cases hknown

/-- An unused token after an update was there before and is not one of those that
the update spends. -/
theorem unused_of_useWhere {db : Db} {cond : SecurityToken → Bool} {token : SecurityToken}
    (hmem : token ∈ (db.useWhere cond t).securityTokens) (hunused : token.usedAt = none) :
    token ∈ db.securityTokens ∧ cond token = false := by
  obtain ⟨old, hold, rfl⟩ := List.mem_map.1 hmem
  obtain ⟨hsame, hnone⟩ := SecurityToken.usedAt_of_useIn _ _ _ hunused
  rw [hsame]
  refine ⟨hold, ?_⟩
  by_contra hcond
  rw [Bool.not_eq_false] at hcond
  have hin : old.id ∈ tokenIds db cond :=
    List.mem_map_of_mem (List.mem_filter.2 ⟨hold, hcond⟩)
  unfold SecurityToken.useIn at hunused
  rw [if_pos ⟨hin, hnone⟩] at hunused
  cases hunused

/-- An unused verification link after `issue` is the fresh one, or one of another
account. -/
theorem unused_of_issued {db : Db} {n k : Nat} {userId : UserId} {token : SecurityToken}
    (hmem : token ∈ (EmailVerificationIssuer.issued env t n k db userId).securityTokens)
    (hpurpose : token.purpose = .emailVerification) (hunused : token.usedAt = none) :
    token = EmailVerificationIssuer.row env t n k userId ∨
      token ∈ db.securityTokens ∧ token.userId ≠ userId := by
  rcases List.mem_append.1 hmem with hold | hnew
  · obtain ⟨hold, hcond⟩ := unused_of_useWhere hold hunused
    refine .inr ⟨hold, fun hu => ?_⟩
    simp [Statement.invalidateWhere, hu, hpurpose, hunused] at hcond
  · exact .inl (List.mem_singleton.1 hnew)

/-- The invariant is preserved by every call. -/
theorem Effect.linksMailed (hw : w.Wf env) (hlinks : w.LinksMailed env)
    (h : Effect env t w c out w') : w'.LinksMailed env := by
  have hsound := h.sound hw
  have hkept {token : SecurityToken} (htoken : token ∈ w.db.securityTokens)
      (hpurpose : token.purpose = .emailVerification) (hunused : token.usedAt = none)
      (hcall : ∀ data, c ≠ .updateUser token.userId data) :=
    h.link_kept hw hlinks htoken hpurpose hunused hcall
  cases h with
  | failed | observed => exact hlinks
  | loginClash | loggedIn | logoutIgnored | loggedOut | refreshClash
  | refreshed | authenticated | authenticateInactive | passwordTried | banSkipped
  | sessionsRevoked | sessionRevoked | roleCreated | roleDeleted | permissionRevoked
  | permissionCreated | roleRevoked =>
    exact fun token htoken hp hu => hkept htoken hp hu (by simp)
  | permissionGranted | roleAssigned | userDeleted | userBanned | userUnbanned =>
    exact fun token htoken hp hu => hkept (by simpa using htoken) hp hu (by simp)
  | loginFailed hopen howner hbad hdb =>
    intro token htoken hp hu
    refine hkept ?_ hp hu (by simp)
    rcases hdb with ⟨audit, -, rfl, -⟩ | ⟨rfl, -⟩ <;> exact htoken
  | @registered data device limits row a audit hl hemail husername hrow haudit ha =>
    intro token htoken hp hu row' hrow' hid
    rw [World.mailed_db, World.withDb_db, (Db.log_frame _ _).2.2.1] at htoken
    rcases unused_of_issued htoken hp hu with hnew | ⟨hold, -⟩
    · have hself : row' = row := by
        refine hsound.row_unique hrow' ?_ (hid.trans (by rw [hnew]; rfl))
        simp
        exact List.mem_append_right _ (List.mem_singleton_self _)
      refine ⟨w.calls, 2, by rw [hnew]; rfl, ?_⟩
      rw [hself, hrow, World.mailed_outbox]
      exact List.mem_append_right _ (List.mem_singleton_self _)
    · exact hkept (by simpa using hold) hp hu (by simp) row' hrow' hid
  | resetRequested =>
    intro token htoken hp hu
    rcases List.mem_append.1 htoken with hold | hnew
    · exact hkept (unused_of_useWhere hold hu).1 hp hu (by simp)
    · rw [List.mem_singleton.1 hnew] at hp
      cases hp
  | passwordChanged =>
    intro token htoken hp hu
    simp only [World.forget_db, World.withDb_db, Db.log_frame, Db.revokeWhere_frame] at htoken
    have hold := (unused_of_useWhere htoken hu).1
    exact hkept (by simpa using hold) hp hu (by simp)
  | passwordReset =>
    intro token htoken hp hu
    simp only [World.forget_db, World.withDb_db, Db.log_frame, Db.revokeWhere_frame] at htoken
    have hold := (unused_of_useWhere (unused_of_useWhere htoken hu).1 hu).1
    exact hkept (by simpa using hold) hp hu (by simp)
  | @emailVerified secret device found user row verified audit hfound husable huser hactive hrow
      hself haudit =>
    intro token htoken hp hu
    refine hkept ?_ hp hu (by simp)
    have hstamped : token ∈
        (w.db.useWhere (Statement.markUsedWhere found.id) t).securityTokens := by
      change token ∈ (VerifyEmailUseCase.stamped _ _ _ _).securityTokens at htoken
      unfold VerifyEmailUseCase.stamped at htoken
      split at htoken
      · exact htoken
      · simpa using htoken
    exact (unused_of_useWhere hstamped hu).1
  | @userUpdated userId data user edited row a huser hrow hedits =>
    have he := userById_of_row huser hrow
    have hrowid : row.id = userId := userRow?_id hrow
    have hmem := Db.mem_of_userRow? hrow
    have hset : (w.db.setProfile row edited.profile t).users = w.db.users.map fun other =>
        if other.id = row.id then other.setProfile edited.profile t else other :=
      hw.db.setProfile_users hmem _ _
    have hemail : (row.setProfile edited.profile t).email = edited.email :=
      UserRow.setProfile_email _ _ _
    have hstill : (row.setProfile edited.profile t).emailVerifiedAt = edited.emailVerifiedAt :=
      UserRow.setProfile_emailVerifiedAt _ _ _
    intro token htoken hp hu row' hrow' hid
    by_cases hverified :
        (w.db.userToEntity (row.setProfile edited.profile t)).isEmailVerified = true
    · -- an address that stays verified is the one the account had
      have hfinished : UpdateUserUseCase.finished env t w
          (w.db.setProfile row edited.profile t)
          (w.db.userToEntity (row.setProfile edited.profile t)) =
            w.withDb (w.db.setProfile row edited.profile t) := if_pos hverified
      rw [World.forget_db, hfinished, World.withDb_db, (Db.setProfile_frame _ _ _ _).2.1]
        at htoken
      rw [World.forget_db, hfinished, World.withDb_db, hset] at hrow'
      rw [World.forget_outbox, hfinished, World.withDb_outbox]
      have hsame : edited.email = row.email := by
        by_contra hne
        have hnone : edited.emailVerifiedAt = none := by
          rw [hedits.verified, if_neg]
          rw [he]
          exact hne
        have hset' : edited.emailVerifiedAt.isSome = true := hstill ▸ hverified
        rw [hnone] at hset'
        cases hset'
      obtain ⟨old, hold, rfl⟩ := List.mem_map.1 hrow'
      split_ifs at hid ⊢ with hown
      · obtain rfl := hw.db.row_unique hold hmem hown
        rw [UserRow.setProfile_id] at hid
        rw [hemail, hsame]
        exact hlinks token htoken hp hu _ hold hid
      · exact hlinks token htoken hp hu _ hold hid
    · have hfinished : UpdateUserUseCase.finished env t w
          (w.db.setProfile row edited.profile t)
          (w.db.userToEntity (row.setProfile edited.profile t)) =
            (w.withDb (EmailVerificationIssuer.issued env t w.calls 0
              (w.db.setProfile row edited.profile t) (row.setProfile edited.profile t).id)).mailed
              (EmailVerificationIssuer.message env (row.setProfile edited.profile t).email
                (env.supply.secret w.calls 0)) := if_neg hverified
      rw [World.forget_db, hfinished] at htoken
      rcases unused_of_issued htoken hp hu with rfl | ⟨hold, hother⟩
      · rw [World.forget_db, hfinished] at hrow'
        have hrow'' : row' ∈ (w.db.setProfile row edited.profile t).users := hrow'
        rw [hset] at hrow''
        rw [World.forget_outbox, hfinished]
        refine ⟨w.calls, 0, rfl, List.mem_append_right _ (List.mem_singleton.2 ?_)⟩
        obtain ⟨old, hold, rfl⟩ := List.mem_map.1 hrow''
        have hown : (row.setProfile edited.profile t).id = row.id := UserRow.setProfile_id _ _ _
        split_ifs at hid ⊢ with hsame
        · rw [hw.db.row_unique hold hmem hsame]
        · exact absurd (hid.trans hown) hsame
      · rw [UserRow.setProfile_id, hrowid] at hother
        refine hkept (by simpa using hold) hp hu ?_ row' hrow' hid
        simp [Ne.symm hother]

/-! ## Runs -/

/-- In the run `calls` the account `u` confirmed the address `email`: a `VerifyEmail`
succeeded for it with a secret that had been mailed to that address, and from then on
the address of the account has been the same. -/
def Confirmed (env : Env) (w₀ : World) (calls : Calls) (u : UserId) (email : String) :
    Prop :=
  ∃ before t secret device after,
    calls = before ++ (t, .verifyEmail secret device) :: after ∧
    (∃ user, (runCall env (runCalls env w₀ before) t (.verifyEmail secret device)).2 =
      .ok (.user user) ∧ user.id = u) ∧
    EmailVerificationIssuer.message env email secret ∈ (runCalls env w₀ before).outbox ∧
    ∀ k, before.length ≤ k → ∃ row ∈ (runCalls env w₀ (calls.take k)).db.users,
      row.id = u ∧ row.email = email

/-- A confirmation counts as long as the address does not change. -/
theorem Confirmed.snoc {w₀ : World} {calls : Calls} {u : UserId} {email : String}
    (h : Confirmed env w₀ calls u email) (s : Time × Call)
    (hrow : ∃ row ∈ (runCalls env w₀ (calls ++ [s])).db.users,
      row.id = u ∧ row.email = email) :
    Confirmed env w₀ (calls ++ [s]) u email := by
  obtain ⟨before, t, secret, device, after, hcalls, hok, hmail, hkept⟩ := h
  refine ⟨before, t, secret, device, after ++ [s], ?_, hok, hmail, fun k hk => ?_⟩
  · rw [hcalls, List.append_assoc, List.cons_append]
  · by_cases hle : k ≤ calls.length
    · rw [List.take_append_of_le_length hle]
      exact hkept k hk
    · rw [List.take_of_length_le (by simp; omega)]
      exact hrow

/-- The invariant of a run: links are mailed to present addresses, and verified
addresses of new accounts were confirmed. -/
theorem confirmed_of_run {w₀ : World} (h₀ : Initial env w₀)
    (hhash : ∀ n k plain, env.tokenHash plain = env.tokenHash (env.supply.secret n k) →
      plain = env.supply.secret n k) (calls : Calls) :
    (runCalls env w₀ calls).LinksMailed env ∧
      ∀ row ∈ (runCalls env w₀ calls).db.users, w₀.db.hasUser row.id = false →
        row.emailVerifiedAt ≠ none → Confirmed env w₀ calls row.id row.email := by
  -- on the last call of the run
  induction calls using List.reverseRecOn with
  | nil =>
    refine ⟨fun token htoken => ?_, fun other hother hfresh => ?_⟩
    · rw [runCalls_nil, h₀.securityTokens] at htoken
      cases htoken
    · have hin : w₀.db.hasUser other.id = true :=
        Db.hasUser_iff.2 (List.mem_map_of_mem hother)
      rw [hin] at hfresh
      cases hfresh
  | append_singleton calls s ih =>
    obtain ⟨hlinks, hconfirmed⟩ := ih
    have hw := runCalls_wf h₀.wf calls
    obtain ⟨w', h, he⟩ := runCall_effect env (runCalls env w₀ calls) s.1 s.2
    have hlast : runCalls env w₀ (calls ++ [s]) = w'.nextCall := by
      rw [runCalls_append, runCalls_cons, runCalls_nil, he]
    refine ⟨?_, fun row' hrow' hfresh hset => ?_⟩
    · have hlinks' : w'.LinksMailed env := h.linksMailed hw hlinks
      rw [hlast]
      exact hlinks'
    have hstays : ∃ row ∈ (runCalls env w₀ (calls ++ [s])).db.users,
        row.id = row'.id ∧ row.email = row'.email := ⟨row', hrow', rfl, rfl⟩
    obtain ⟨edit, new, hstep⟩ := h.users hw
    rw [hlast] at hrow'
    change row' ∈ w'.db.users at hrow'
    rw [hstep.users] at hrow'
    rcases List.mem_append.1 hrow' with hold | hadded
    · obtain ⟨row, hrow, rfl⟩ := List.mem_map.1 hold
      obtain ⟨hemail, hbefore⟩ := hstep.verified row hrow hset
      rw [hstep.id row hrow] at hfresh hstays ⊢
      rw [hemail] at hstays ⊢
      rcases hbefore with hbefore | hverifies
      · exact (hconfirmed row hrow hfresh hbefore).snoc s hstays
      · obtain ⟨secret, device, token, verified, hcall, hout, hself, hfound, husable, howner⟩ :=
          hverifies
        have hmem := List.mem_of_find?_eq_some hfound
        have hkey := List.find?_some hfound
        simp only [Bool.and_eq_true, beq_iff_eq] at hkey
        have hunused : token.usedAt = none := by
          simp [SecurityToken.isUsable, SecurityToken.isUsed] at husable
          exact husable.1
        obtain ⟨n, k, hsecret, hmail⟩ :=
          hlinks token hmem hkey.2 hunused row hrow howner.symm
        -- the secret that was presented is the one that was mailed
        obtain rfl : secret = env.supply.secret n k := hhash n k _ (hkey.1.symm.trans hsecret)
        refine ⟨calls, s.1, _, device, [], ?_, ?_, hmail, fun m hm => ?_⟩
        · rw [← hcall]
        · rw [← hcall]
          exact ⟨verified, hout, hself⟩
        · by_cases hle : m ≤ calls.length
          · obtain rfl : m = calls.length := le_antisymm hle hm
            rw [List.take_append_of_le_length le_rfl, List.take_length]
            exact ⟨row, hrow, rfl, rfl⟩
          · rw [List.take_of_length_le (by simp; omega)]
            exact hstays
    · obtain ⟨-, -, hnone⟩ := hstep.fresh row' hadded
      exact absurd hnone hset

/-- A verified address was confirmed: for every account that `Register` created, in
every world that a sequential run reaches. -/
theorem verified_was_confirmed {w₀ : World} (h₀ : Initial env w₀)
    (hhash : ∀ n k plain, env.tokenHash plain = env.tokenHash (env.supply.secret n k) →
      plain = env.supply.secret n k)
    (calls : Calls) (row : UserRow) (hrow : row ∈ (runCalls env w₀ calls).db.users)
    (hnew : w₀.db.hasUser row.id = false) (hverified : row.emailVerifiedAt ≠ none) :
    Confirmed env w₀ calls row.id row.email :=
  (confirmed_of_run h₀ hhash calls).2 row hrow hnew hverified

/-- Bob signs up and follows the link he was mailed. -/
theorem verified_was_confirmed_signup :
    Confirmed Sample.env Sample.world
      [(1, .register ⟨"bob", "bob", "pw", "pw", none, none⟩ none),
        (2, .verifyEmail (Sample.label 0 2) none)] 1001 "bob" :=
  verified_was_confirmed Sample.initial (fun _ _ _ h => h) _
    { Sample.account 1001 "bob" with
      passwordHash := "pw", emailVerifiedAt := some 2, createdAt := 1, updatedAt := 2 }
    (by decide +kernel) (by decide) (by decide)

end VideoSite.Users
