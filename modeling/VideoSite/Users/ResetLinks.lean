import VideoSite.Users.OneTimeTokens
import VideoSite.Users.VerifiedEmail

/-!
# Reset links and the address they were mailed to

`ForgotPassword` mails a reset link to the address of the account.  Whoever can
read that mail can set a new password, so the link should not outlive the
address.  `World.ResetsMailed` says that it does not: every reset link that can
still be used was mailed to the address its account has now.

`UpdateUser` spends the verification links of the account it edits, and leaves
its reset links alone.  The invariant holds as long as no account changes its
address while it has a reset link that can be used.

* `Effect.resetsMailed` says that a call keeps the invariant.
* `reset_mailed_to_owner` is the result about runs.
-/

namespace VideoSite.Users

open Effects Program

variable {env : Env} {t now : Time} {w w' : World} {c : Call} {out : Except Failure Answer}

/-- A reset link with the hash `tokenHash` was mailed to `email`. -/
def World.MailedReset (env : Env) (w : World) (email tokenHash : String) : Prop :=
  ∃ n k, tokenHash = env.tokenHash (env.supply.secret n k) ∧
    ForgotPasswordUseCase.message env email (env.supply.secret n k) ∈ w.outbox

/-- `ResetPassword` would still accept `token` at time `t`, as one of `user`. -/
structure ResetPasswordUseCase.Usable (t : Time) (w : World) (token : SecurityToken)
    (user : User) : Prop where
  stored : token ∈ w.db.securityTokens
  purpose : token.purpose = .passwordReset
  usable : token.isUsable t = true
  owner : w.db.userById token.userId = some user
  active : user.isActive = true

/-- Every reset link that can still be used at time `t` was mailed to the present
address of its account. -/
def World.ResetsMailed (env : Env) (t : Time) (w : World) : Prop :=
  ∀ token ∈ w.db.securityTokens, token.purpose = .passwordReset → token.isUsable t = true →
    ∀ row ∈ w.db.users, row.id = token.userId → w.MailedReset env row.email token.tokenHash

/-- If the call changes the address of an account, then the account has no reset link
that can be used. -/
def Call.LeavesNoReset (env : Env) (w : World) (t : Time) (c : Call) : Prop :=
  ∀ u, c.Readdresses env w u → ∀ token ∈ w.db.securityTokens, token.userId = u →
    token.purpose = .passwordReset → token.isUsable t = false

/-- A token that can be used could be used before. -/
theorem SecurityToken.isUsable_of_le {token : SecurityToken} (h : token.isUsable t = true)
    (hle : now ≤ t) : token.isUsable now = true := by
  simp [isUsable] at h ⊢
  exact ⟨h.1, lt_of_le_of_lt hle h.2⟩

/-- Links that have run out do not matter. -/
theorem World.ResetsMailed.mono (h : w.ResetsMailed env now) (hle : now ≤ t) :
    w.ResetsMailed env t :=
  fun token htoken hpurpose husable =>
    h token htoken hpurpose (SecurityToken.isUsable_of_le husable hle)

theorem World.MailedReset.mono {email tokenHash : String}
    (h : w.MailedReset env email tokenHash) (hstep : Effect env t w c out w') :
    w'.MailedReset env email tokenHash := by
  obtain ⟨n, k, hhash, hmail⟩ := h
  exact ⟨n, k, hhash, hstep.outbox_mono hmail⟩

/-- The owner of a token that was there before the call has its address still, or the
call has changed it. -/
theorem Effect.owner_address (hw : w.Wf env) (h : Effect env t w c out w')
    {token : SecurityToken} (htoken : token ∈ w.db.securityTokens) {row' : UserRow}
    (hrow' : row' ∈ w'.db.users) (hid : row'.id = token.userId) :
    ∃ row ∈ w.db.users, row.id = token.userId ∧
      (row'.email = row.email ∨ c.Readdresses env w token.userId) := by
  obtain ⟨edit, new, hstep⟩ := h.users hw
  rw [hstep.users] at hrow'
  rcases List.mem_append.1 hrow' with hold | hnew
  · obtain ⟨row, hrow, rfl⟩ := List.mem_map.1 hold
    rw [hstep.id row hrow] at hid
    refine ⟨row, hrow, hid, ?_⟩
    by_cases hemail : (edit row).email = row.email
    · exact .inl hemail
    · exact .inr (hid ▸ hstep.email row hrow hemail)
  · -- a new account has no tokens
    have hknown := hw.db.tokenOwners token htoken
    rw [← hid, (hstep.fresh row' hnew).1, hw.db.unknown] at hknown
    cases hknown

/-- `ForgotPassword` leaves the accounts as they are. -/
theorem Effect.forgotPassword_users {email : String}
    {device : Option DeviceInfoDTO} (h : Effect env t w (.forgotPassword email device) out w') :
    w'.db.users = w.db.users := by
  cases h with
  | failed | observed | resetRequested => rfl

/-- The invariant is preserved by every call that leaves no reset link behind. -/
theorem Effect.resetsMailed (hw : w.Wf env) (hids : w.db.TokenIds env.supply w.calls)
    (hresets : w.ResetsMailed env t) (hleaves : c.LeavesNoReset env w t)
    (h : Effect env t w c out w') : w'.ResetsMailed env t := by
  intro token htoken hpurpose husable row' hrow' hid
  obtain ⟨edit, new, hstep⟩ := h.tokens hw hids
  rw [hstep.tokens] at htoken
  rcases List.mem_append.1 htoken with hold | hnew
  · have hkept := hstep.spends.unused hold (SecurityToken.unused_of_isUsable husable)
    obtain ⟨row, hrow, hrowid, hemail⟩ := h.owner_address hw hkept hrow' hid
    rcases hemail with hsame | hmoves
    · rw [hsame]
      exact (hresets token hkept hpurpose husable row hrow hrowid).mono h
    · have hnone := hleaves _ hmoves token hkept rfl hpurpose
      rw [husable] at hnone
      cases hnone
  · obtain ⟨-, hissues⟩ := hstep.issues token (by simpa using hnew)
    cases c with
    | register | updateUser =>
      have hverification : token.purpose = .emailVerification := by rw [hissues]; rfl
      rw [hverification] at hpurpose
      cases hpurpose
    | forgotPassword email device =>
      obtain ⟨user, huser, -, htoken, hmail⟩ := hissues
      obtain ⟨row, hrow, rfl⟩ := Option.map_eq_some_iff.1 huser
      have haddress : row.email = env.normalize email := by simpa using List.find?_some hrow
      rw [h.forgotPassword_users] at hrow'
      have hself : row' = row := by
        refine hw.db.row_unique hrow' (List.mem_of_find?_eq_some hrow) ?_
        rw [hid, htoken]
        rfl
      refine ⟨w.calls, 0, by rw [htoken]; rfl, ?_⟩
      rw [hself, haddress]
      exact hmail
    | _ => exact hissues.elim

/-! ## Runs -/

theorem resetsMailed_runCalls {w₀ : World} (h₀ : Initial env w₀) {t₀ : Time} {calls : Calls}
    (hord : OrderedFrom t₀ calls)
    (hleaves : AlongCalls env (fun w t c => c.LeavesNoReset env w t) calls w₀) :
    (runCalls env w₀ calls).ResetsMailed env (lastTime t₀ calls) := by
  have hrun : (runCalls env w₀ calls).Wf env ∧
      (runCalls env w₀ calls).db.TokenIds env.supply (runCalls env w₀ calls).calls ∧
      (runCalls env w₀ calls).ResetsMailed env (lastTime t₀ calls) := by
    refine runCalls_induction_along (I := fun t w => w.Wf env ∧
      w.db.TokenIds env.supply w.calls ∧ w.ResetsMailed env t) ?_
      ⟨h₀.wf, h₀.tokenIds, fun token htoken => ?_⟩ hord hleaves
    · intro now w t c hinv hle hc
      obtain ⟨hw, hids, hresets⟩ := hinv
      obtain ⟨w', h, he⟩ := runCall_effect env w t c
      have hresets' : w'.ResetsMailed env t := h.resetsMailed hw hids (hresets.mono hle) hc
      exact ⟨runCall_wf hw t c, runCall_tokenIds hw hids t c, he ▸ hresets'⟩
    · rw [h₀.securityTokens] at htoken
      cases htoken
  exact hrun.2.2

/-- In a run in which no account changes its address while it has a reset link that can
be used, every link that `ResetPassword` would still accept was mailed to the address
that its account has now. -/
theorem reset_mailed_to_owner {w₀ : World} (h₀ : Initial env w₀) {t₀ : Time} {calls : Calls}
    (hord : OrderedFrom t₀ calls)
    (hleaves : AlongCalls env (fun w t c => c.LeavesNoReset env w t) calls w₀)
    (ht : lastTime t₀ calls ≤ t) {token : SecurityToken} {user : User}
    (husable : ResetPasswordUseCase.Usable t (runCalls env w₀ calls) token user) :
    (runCalls env w₀ calls).MailedReset env user.email token.tokenHash := by
  have hresets := (resetsMailed_runCalls h₀ hord hleaves).mono ht
  obtain ⟨hid, row, hrow, rfl⟩ := userById_row husable.owner
  exact hresets token husable.stored husable.purpose husable.usable row
    (Db.mem_of_userRow? hrow) hid

/-- Alice uses her reset link, moves to another address and asks for a link there. -/
theorem reset_mailed_to_owner_moved :
    (runCalls Sample.env Sample.world
      [(1, .forgotPassword "alice" none),
        (2, .resetPassword ⟨Sample.label 0 0, "new", "new"⟩ none),
        (3, .updateUser 1 ⟨none, none, some "ally"⟩),
        (4, .forgotPassword "ally" none)]).MailedReset Sample.env "ally"
      (Sample.label 3 0) := by
  have hspent : ∀ token ∈ (runCalls Sample.env Sample.world
      [(1, .forgotPassword "alice" none),
        (2, .resetPassword ⟨Sample.label 0 0, "new", "new"⟩ none)]).db.securityTokens,
      token.isUsable 3 = false := by decide +kernel
  have hstays (w : World) (t : Time) (c : Call) (hc : ∀ u data, c ≠ .updateUser u data) :
      c.LeavesNoReset Sample.env w t := by
    intro u hmoves
    obtain ⟨data, _, _, he, -⟩ := hmoves
    exact absurd he (hc u data)
  have hord : OrderedFrom 0 [(1, .forgotPassword "alice" none),
      (2, .resetPassword ⟨Sample.label 0 0, "new", "new"⟩ none),
      (3, .updateUser 1 ⟨none, none, some "ally"⟩),
      (4, .forgotPassword "ally" none)] := by decide +kernel
  have husable : ResetPasswordUseCase.Usable 4 (runCalls Sample.env Sample.world
      [(1, .forgotPassword "alice" none),
        (2, .resetPassword ⟨Sample.label 0 0, "new", "new"⟩ none),
        (3, .updateUser 1 ⟨none, none, some "ally"⟩),
        (4, .forgotPassword "ally" none)])
      ⟨Sample.rowId 3 1, 1, .passwordReset, Sample.label 3 0, 4, 1804, none⟩
      (Sample.db.userToEntity { Sample.account 1 "ally" with
        username := "alice", passwordHash := "new", updatedAt := 3 }) :=
    ⟨by decide +kernel, rfl, by decide +kernel, by decide +kernel, rfl⟩
  exact reset_mailed_to_owner Sample.initial hord
    ⟨hstays _ _ _ (by simp), hstays _ _ _ (by simp),
      fun _ _ token htoken _ _ => hspent token htoken, hstays _ _ _ (by simp), trivial⟩
    le_rfl husable

/-- Alice asks for a reset link and moves to another address.  The link in the mailbox
of the old address still works, and none was mailed to the new one. -/
theorem reset_survives_move :
    let calls : Calls := [(1, .forgotPassword "alice" none),
      (2, .updateUser 1 ⟨none, none, some "ally"⟩)]
    let token : SecurityToken := ⟨Sample.rowId 0 1, 1, .passwordReset, Sample.label 0 0, 1,
      1801, none⟩
    let alice := Sample.db.userToEntity { Sample.account 1 "ally" with
      username := "alice", updatedAt := 2 }
    Initial Sample.env Sample.world ∧ OrderedFrom 0 calls ∧ lastTime 0 calls ≤ 3 ∧
      ResetPasswordUseCase.Usable 3 (runCalls Sample.env Sample.world calls) token alice ∧
      ¬ (runCalls Sample.env Sample.world calls).MailedReset Sample.env alice.email
        token.tokenHash := by
  refine ⟨Sample.initial, by decide +kernel, by decide +kernel,
    ⟨by decide +kernel, rfl, by decide +kernel, by decide +kernel, rfl⟩, fun hmailed => ?_⟩
  obtain ⟨n, k, -, hmail⟩ := hmailed
  have hnone : ∀ m ∈ (runCalls Sample.env Sample.world [(1, .forgotPassword "alice" none),
      (2, .updateUser 1 ⟨none, none, some "ally"⟩)]).outbox,
      m.sendTo = "ally" → m.subject ≠ "Reset your password" := by decide +kernel
  exact hnone _ hmail rfl rfl

end VideoSite.Users
