import VideoSite.Users.Enumeration
import VideoSite.Users.VerifiedEmail

/-!
# Only the newest link works

`security_tokens` holds the links of both purposes.  `Register`, `ForgotPassword` and
`UpdateUser` issue one and spend the earlier links of its kind; `VerifyEmail`,
`ResetPassword` and `ChangePassword` spend links and issue none.  `Db.LinksInOrder` is
what comes of it: a link that is not used is the last of its kind, and a verified
account has no verification link that is not used.

* `Effect.supersedes`, `Effect.replaces_links` and `Effect.presented_spent` say what a
  call leaves unused.
* `Effect.linksInOrder` is the step lemma of the invariant.
* `only_newest_link_works` is the result about runs.
-/

namespace VideoSite.Users

open Effects Program

variable {env : Env} {t : Time} {w w' : World} {c : Call} {out : Except Failure Answer}

/-! ## What a call leaves unused -/

/-- The call, if it succeeds, gives the account `u` another password. -/
def Call.ReplacesPassword (env : Env) (w : World) (u : UserId) : Call → Prop
  | .changePassword v _ _ => v = u
  | .resetPassword data _ => ∃ token,
      w.db.tokenByHash (env.tokenHash data.token) .passwordReset = some token ∧
        token.userId = u
  | _ => False

/-- A row that a call draws an id for is not there yet. -/
theorem Db.TokenIds.not_mem {db : Db} {n k : Nat} (h : db.TokenIds env.supply n)
    {token : SecurityToken} (hid : token.id = env.supply.rowId n k) :
    token ∉ db.securityTokens := by
  intro hmem
  have hlt := h.drawn token hmem n k hid.symm
  omega

/-- A link that takes the place of the others of its kind is the only one that is not
used. -/
theorem unused_of_replaced {db : Db} {row other : SecurityToken}
    (hother : other ∈ (db.useWhere (Statement.invalidateWhere row.userId row.purpose)
      t).securityTokens ++ [row])
    (hunused : other.usedAt = none) (howner : other.userId = row.userId)
    (hpurpose : other.purpose = row.purpose) : other = row := by
  rcases List.mem_append.1 hother with hold | hnew
  · obtain ⟨-, hcond⟩ := unused_of_useWhere hold hunused
    have hmatches := Statement.invalidateWhere_iff.2 ⟨howner, hpurpose, hunused⟩
    rw [hmatches] at hcond
    cases hcond
  · exact List.mem_singleton.1 hnew

/-- After a link was issued it is the only one of its kind that is not used. -/
theorem Effect.supersedes (hids : w.db.TokenIds env.supply w.calls)
    (h : Effect env t w c out w') {token other : SecurityToken}
    (hissues : c.Issues env t w w' token) (htoken : token ∈ w'.db.securityTokens)
    (hother : other ∈ w'.db.securityTokens) (hunused : other.usedAt = none)
    (howner : other.userId = token.userId) (hpurpose : other.purpose = token.purpose) :
    other = token := by
  cases c with
  | register data device =>
    have hself : token = EmailVerificationIssuer.row env t w.calls 2
      (env.supply.rowId w.calls 1) := hissues
    subst hself
    cases h with
    | failed => exact absurd htoken (hids.not_mem (k := 3) rfl)
    | observed hc => cases hc
    | @registered _ _ limits row a audit hl hemail husername hrow haudit ha =>
      have hrowid : row.id = env.supply.rowId w.calls 1 := by
        rw [hrow]
        rfl
      rw [hrowid] at hother
      exact unused_of_replaced hother hunused howner hpurpose
  | updateUser u data =>
    have hself : token = EmailVerificationIssuer.row env t w.calls 0 u := hissues
    subst hself
    cases h with
    | failed => exact absurd htoken (hids.not_mem (k := 1) rfl)
    | observed hc => cases hc
    | @userUpdated _ _ user edited row a huser hrow hedits =>
      have hrowid : (row.setProfile edited.profile t).id = u := by
        rw [UserRow.setProfile_id, userRow?_id hrow]
      unfold UpdateUserUseCase.finished at htoken hother
      split at hother
      · rename_i hverified
        rw [if_pos hverified] at htoken
        have hold : EmailVerificationIssuer.row env t w.calls 0 u ∈ w.db.securityTokens := by
          simpa using htoken
        exact absurd hold (hids.not_mem (k := 1) rfl)
      · have hother' : other ∈ (EmailVerificationIssuer.issued env t w.calls 0
            (w.db.setProfile row edited.profile t)
            (row.setProfile edited.profile t).id).securityTokens := hother
        rw [hrowid] at hother'
        exact unused_of_replaced hother' hunused howner hpurpose
  | forgotPassword email device =>
    obtain ⟨user, huser, -, hself, -⟩ := hissues
    subst hself
    cases h with
    | failed => exact absurd htoken (hids.not_mem (k := 1) rfl)
    | observed => exact absurd htoken (hids.not_mem (k := 1) rfl)
    | @resetRequested _ _ limits owner hl howner' hactive =>
      have hsame : user = owner := Option.some.inj (huser.symm.trans howner')
      subst hsame
      exact unused_of_replaced hother hunused howner hpurpose
  | _ => exact hissues.elim

/-- A call that sets another password leaves no reset link of the account unused. -/
theorem Effect.replaces_links (h : Effect env t w c out w') (hok : out.isOk = true)
    {u : UserId} (hc : c.ReplacesPassword env w u) {token : SecurityToken}
    (htoken : token ∈ w'.db.securityTokens) (howner : token.userId = u)
    (hpurpose : token.purpose = .passwordReset) : token.usedAt ≠ none := by
  intro hunused
  have hcond : Statement.invalidateWhere u .passwordReset token = true :=
    Statement.invalidateWhere_iff.2 ⟨howner, hpurpose, hunused⟩
  cases h with
  | passwordChanged =>
    have hvu : _ = u := hc
    subst hvu
    simp only [World.forget_db, World.withDb_db, Db.log_frame, Db.revokeWhere_frame] at htoken
    rw [(unused_of_useWhere htoken hunused).2] at hcond
    cases hcond
  | @passwordReset data device limits presented user row audit hl hfound husable huser hactive
      hrow haudit =>
    obtain ⟨hid, -⟩ := userById_row huser
    obtain ⟨other, hother, hou⟩ := hc
    have hsame : presented = other := Option.some.inj (hfound.symm.trans hother)
    have huid : user.id = u := by rw [hid, hsame, hou]
    simp only [World.forget_db, World.withDb_db, Db.log_frame, Db.revokeWhere_frame] at htoken
    rw [← huid, (unused_of_useWhere htoken hunused).2] at hcond
    cases hcond
  | failed | loginClash | refreshClash | authenticateInactive | passwordTried => cases hok
  | observed hobs => cases c <;> first | exact hc.elim | exact hobs.elim
  | _ => cases hc

/-- A link that was presented to `VerifyEmail` is used afterwards. -/
theorem Effect.presented_spent {secret : String} {device : Option DeviceInfoDTO}
    (h : Effect env t w (.verifyEmail secret device) out w') (hok : out.isOk = true)
    {presented token : SecurityToken}
    (hfound : w.db.tokenByHash (env.tokenHash secret) .emailVerification = some presented)
    (htoken : token ∈ w'.db.securityTokens) (hid : token.id = presented.id) :
    token.usedAt ≠ none := by
  intro hunused
  cases h with
  | failed => cases hok
  | observed hobs => cases hobs
  | @emailVerified _ _ stored user row verified audit hstored husable huser hactive hrow hself
      haudit =>
    have hsame : stored = presented := Option.some.inj (hstored.symm.trans hfound)
    subst hsame
    have hused : token ∈
        (w.db.useWhere (Statement.markUsedWhere stored.id) t).securityTokens := by
      simpa using htoken
    have hcond := (unused_of_useWhere hused hunused).2
    simp [Statement.markUsedWhere, hid, hunused] at hcond

/-- A call that issues a verification link leaves the account unverified. -/
theorem Effect.issues_unverified (hw : w.Wf env) (hids : w.db.TokenIds env.supply w.calls)
    (h : Effect env t w c out w') {token : SecurityToken} (hissues : c.Issues env t w w' token)
    (htoken : token ∈ w'.db.securityTokens) (hpurpose : token.purpose = .emailVerification)
    {row : UserRow} (hrow : row ∈ w'.db.users) (howner : token.userId = row.id) :
    row.emailVerifiedAt = none := by
  have hsound := h.sound hw
  cases c with
  | register data device =>
    have hself : token = EmailVerificationIssuer.row env t w.calls 2
      (env.supply.rowId w.calls 1) := hissues
    subst hself
    cases h with
    | failed => exact absurd htoken (hids.not_mem (k := 3) rfl)
    | observed hc => exact hc.elim
    | @registered _ _ limits added a audit hl hemail husername hadded haudit ha =>
      have hmem : added ∈ ((((w.withLimits limits).withDb
          ((EmailVerificationIssuer.issued env t w.calls 2
            ((w.db.addUser added).grantDefault added.id
              ((w.db.addUser added).roleByName env.config.defaultRoleName)) added.id).log
            audit)).mailed
          (EmailVerificationIssuer.message env (env.normalize data.email)
            (env.supply.secret w.calls 2))).db.users) := by
        simp
        exact List.mem_append_right _ (List.mem_singleton_self _)
      have hid : row.id = added.id := by
        rw [← howner, hadded]
        rfl
      rw [hsound.row_unique hrow hmem hid, hadded]
      rfl
  | updateUser u data =>
    have hself : token = EmailVerificationIssuer.row env t w.calls 0 u := hissues
    subst hself
    cases h with
    | failed => exact absurd htoken (hids.not_mem (k := 1) rfl)
    | observed hc => exact hc.elim
    | @userUpdated _ _ user edited before a huser hbefore hedits =>
      unfold UpdateUserUseCase.finished at htoken hrow
      split at hrow
      · rename_i hverified
        rw [if_pos hverified] at htoken
        have hold : EmailVerificationIssuer.row env t w.calls 0 u ∈ w.db.securityTokens := by
          simpa using htoken
        exact absurd hold (hids.not_mem (k := 1) rfl)
      · rename_i hunverified
        have hset : row ∈ (w.db.setProfile before edited.profile t).users := hrow
        rw [hw.db.setProfile_users (Db.mem_of_userRow? hbefore)] at hset
        obtain ⟨old, hold, rfl⟩ := List.mem_map.1 hset
        split_ifs at howner ⊢ with hsame
        · rw [hw.db.row_unique hold (Db.mem_of_userRow? hbefore) hsame]
          simpa [User.isEmailVerified, Db.userToEntity] using hunverified
        · exact absurd (howner.symm.trans (userRow?_id hbefore).symm) hsame
  | forgotPassword email device =>
    obtain ⟨user, huser, -, hself, -⟩ := hissues
    rw [hself] at hpurpose
    cases hpurpose
  | _ => exact hissues.elim

/-! ## The invariant -/

/-- A link that is not used is the last of its kind, in the order in which they were
issued, and a verified account has no verification link that is not used. -/
structure Db.LinksInOrder (db : Db) : Prop where
  last : db.securityTokens.Pairwise fun a b =>
    a.userId = b.userId → a.purpose = b.purpose → a.usedAt ≠ none
  verified : ∀ row ∈ db.users, row.emailVerifiedAt ≠ none → ∀ token ∈ db.securityTokens,
    token.userId = row.id → token.purpose = .emailVerification → token.usedAt ≠ none

/-- There is one unused link of a kind at most. -/
theorem Db.LinksInOrder.unique {db : Db} (h : db.LinksInOrder) {a b : SecurityToken}
    (ha : a ∈ db.securityTokens) (hb : b ∈ db.securityTokens) (hua : a.usedAt = none)
    (hub : b.usedAt = none) (howner : a.userId = b.userId) (hpurpose : a.purpose = b.purpose) :
    a = b := by
  by_contra hne
  obtain ⟨before, after, hsplit⟩ := List.append_of_mem ha
  have hlast := h.last
  rw [hsplit] at hlast hb
  obtain ⟨-, hafter, hbefore⟩ := List.pairwise_append.1 hlast
  rcases List.mem_append.1 hb with hearlier | hlater
  · exact hbefore b hearlier a List.mem_cons_self howner.symm hpurpose.symm hub
  · rcases List.mem_cons.1 hlater with hsame | hlater
    · exact hne hsame.symm
    · exact (List.pairwise_cons.1 hafter).1 b hlater howner hpurpose hua

namespace SpentAt

variable {P : SecurityToken → Prop} {edit : SecurityToken → SecurityToken}
  {tokens : List SecurityToken}

/-- An update of a link dates its use and changes nothing else. -/
theorem rest (h : SpentAt t P edit tokens) {token : SecurityToken} (htoken : token ∈ tokens) :
    edit token = { token with usedAt := (edit token).usedAt } := by
  rcases h token htoken with hsame | ⟨-, -, hspent⟩
  · rw [hsame]
  · rw [hspent]
    rfl

/-- A link that is used stays as it is. -/
theorem used (h : SpentAt t P edit tokens) {token : SecurityToken} (htoken : token ∈ tokens)
    (hused : token.usedAt ≠ none) : edit token = token := by
  rcases h token htoken with hsame | ⟨-, hunused, -⟩
  · exact hsame
  · exact absurd hunused hused

end SpentAt

/-- The invariant is preserved by every call. -/
theorem Effect.linksInOrder (hw : w.Wf env) (hids : w.db.TokenIds env.supply w.calls)
    (ho : w.db.LinksInOrder) (h : Effect env t w c out w') : w'.db.LinksInOrder := by
  obtain ⟨edit, new, hstep⟩ := h.tokens hw hids
  have hissued {token : SecurityToken} (hnew : token ∈ new.toList) :
      c.Issues env t w w' token ∧ token ∈ w'.db.securityTokens := by
    refine ⟨(hstep.issues token (by simpa using hnew)).2, ?_⟩
    rw [hstep.tokens]
    exact List.mem_append_right _ hnew
  have hkept {token : SecurityToken} (hold : token ∈ w.db.securityTokens) :
      edit token ∈ w'.db.securityTokens := by
    rw [hstep.tokens]
    exact List.mem_append_left _ (List.mem_map_of_mem hold)
  constructor
  · rw [hstep.tokens, List.pairwise_append, List.pairwise_map]
    refine ⟨?_, ?_, ?_⟩
    · -- two links that were there before
      refine ho.last.imp_of_mem fun {a b} ha hb hlast howner hpurpose => ?_
      rw [hstep.spends.rest ha, hstep.spends.rest hb] at howner hpurpose
      have hused := hlast howner hpurpose
      rw [hstep.spends.used ha hused]
      exact hused
    · cases new with
      | none => exact List.Pairwise.nil
      | some token => exact List.pairwise_singleton _ _
    · -- one that was there before, and the one that was issued
      intro a ha b hb howner hpurpose hunused
      obtain ⟨old, hold, rfl⟩ := List.mem_map.1 ha
      obtain ⟨hissues, hmem⟩ := hissued hb
      have hsame := h.supersedes hids hissues hmem (hkept hold) hunused howner hpurpose
      obtain ⟨⟨k, hk⟩, -⟩ := hstep.issues b (by simpa using hb)
      refine hids.not_mem (k := k) ?_ hold
      rw [← hk, ← hsame, hstep.spends.id hold]
  · intro row' hrow' hverified token htoken howner hpurpose hunused
    have hafter := htoken
    rw [hstep.tokens] at hafter
    rcases List.mem_append.1 hafter with hold | hnew
    · have hmem := hstep.spends.unused hold hunused
      obtain ⟨editUser, added, husers⟩ := h.users hw
      rw [husers.users] at hrow'
      rcases List.mem_append.1 hrow' with hedited | hadded
      · obtain ⟨row, hrow, rfl⟩ := List.mem_map.1 hedited
        rw [husers.id row hrow] at howner
        obtain ⟨-, hbefore⟩ := husers.verified row hrow hverified
        rcases hbefore with hbefore | hverifies
        · exact ho.verified row hrow hbefore token hmem howner hpurpose hunused
        · -- the account had one unused link, the one that was presented
          obtain ⟨secret, device, presented, user, hcall, hout, -, hfound, husable, hpu⟩ :=
            hverifies
          have hkey : presented.tokenHash = env.tokenHash secret ∧
              presented.purpose = .emailVerification := by
            simpa using List.find?_some hfound
          have hsame : token = presented := ho.unique hmem (List.mem_of_find?_eq_some hfound)
            hunused (SecurityToken.unused_of_isUsable husable) (howner.trans hpu.symm)
            (hpurpose.trans hkey.2.symm)
          rw [hcall] at h
          exact h.presented_spent (by rw [hout]; rfl) hfound htoken (congrArg _ hsame) hunused
      · -- a new account has no links yet
        have hknown := hw.db.tokenOwners token hmem
        rw [howner, (husers.fresh row' hadded).1, hw.db.unknown] at hknown
        cases hknown
    · obtain ⟨hissues, hmem⟩ := hissued hnew
      exact hverified (h.issues_unverified hw hids hissues hmem hpurpose hrow' howner)

/-! ## Runs -/

/-- There is a one-time token with this id. -/
def World.HasToken (w : World) (id : SecurityTokenId) : Prop :=
  ∃ token ∈ w.db.securityTokens, token.id = id

/-- What a call that runs alone does to the table. -/
theorem World.Consistent.tokensStep (h : w.Consistent env) (t : Time) (c : Call) :
    ∃ edit new, TokensStep env t w c (Users.runCall env w t c).1 edit new := by
  obtain ⟨w', heffect, he⟩ := runCall_effect env w t c
  obtain ⟨edit, new, hstep⟩ := heffect.tokens h.wf h.ids
  rw [he]
  exact ⟨edit, new, hstep.tokens, hstep.spends, hstep.issues⟩

/-- Rows are added to the table, and none is taken away. -/
theorem World.Consistent.token_ids (h : w.Consistent env) (calls : Calls) :
    ∃ more, (Users.runCalls env w calls).db.securityTokens.map (·.id) =
      w.db.securityTokens.map (·.id) ++ more := by
  induction calls generalizing w with
  | nil => exact ⟨[], (List.append_nil _).symm⟩
  | cons s rest ih =>
    obtain ⟨more, hmore⟩ := ih (h.runCall s.1 s.2)
    obtain ⟨edit, new, hstep⟩ := h.tokensStep s.1 s.2
    refine ⟨new.toList.map (·.id) ++ more, ?_⟩
    rw [runCalls_cons, hmore, hstep.tokens, List.map_append, hstep.spends.map_id,
      List.append_assoc]

/-- A row stays in the table as it is, but for its use. -/
theorem World.Consistent.token_kept (h : w.Consistent env) {token : SecurityToken}
    (htoken : token ∈ w.db.securityTokens) (calls : Calls) :
    ∃ moment, { token with usedAt := moment } ∈
      (Users.runCalls env w calls).db.securityTokens := by
  induction calls generalizing w token with
  | nil => exact ⟨token.usedAt, htoken⟩
  | cons s rest ih =>
    obtain ⟨edit, new, hstep⟩ := h.tokensStep s.1 s.2
    have hedited : edit token ∈ (Users.runCall env w s.1 s.2).1.db.securityTokens := by
      rw [hstep.tokens]
      exact List.mem_append_left _ (List.mem_map_of_mem htoken)
    rw [hstep.spends.rest htoken] at hedited
    obtain ⟨moment, hmem⟩ := ih (h.runCall s.1 s.2) hedited
    exact ⟨moment, hmem⟩

/-- A link that is used stays as it is. -/
theorem World.Consistent.token_used (h : w.Consistent env) {token : SecurityToken}
    (htoken : token ∈ w.db.securityTokens) (hused : token.usedAt ≠ none) (calls : Calls) :
    token ∈ (Users.runCalls env w calls).db.securityTokens := by
  induction calls generalizing w with
  | nil => exact htoken
  | cons s rest ih =>
    obtain ⟨edit, new, hstep⟩ := h.tokensStep s.1 s.2
    refine ih (h.runCall s.1 s.2) ?_
    rw [hstep.tokens, ← hstep.spends.used htoken hused]
    exact List.mem_append_left _ (List.mem_map_of_mem htoken)

/-- The invariant is preserved by every run. -/
theorem World.Consistent.linksInOrder (h : w.Consistent env) (ho : w.db.LinksInOrder)
    (calls : Calls) : (Users.runCalls env w calls).db.LinksInOrder := by
  induction calls generalizing w with
  | nil => exact ho
  | cons s rest ih =>
    obtain ⟨w', heffect, he⟩ := runCall_effect env w s.1 s.2
    have ho' : w'.db.LinksInOrder := heffect.linksInOrder h.wf h.ids ho
    have hnext : (Users.runCall env w s.1 s.2).1.db.LinksInOrder := by
      rw [he]
      exact ho'
    exact ih (h.runCall s.1 s.2) hnext

/-- A call is counted. -/
theorem runCalls_calls (env : Env) (w : World) (calls : Calls) :
    (runCalls env w calls).calls = w.calls + calls.length := by
  induction calls generalizing w with
  | nil => rfl
  | cons s rest ih =>
    obtain ⟨w', heffect, he⟩ := runCall_effect env w s.1 s.2
    have hcall : (runCall env w s.1 s.2).1.calls = w.calls + 1 := by
      rw [he]
      exact congrArg (· + 1) heffect.calls
    rw [runCalls_cons, ih, hcall, List.length_cons]
    omega

/-! ## Where a link comes from -/

theorem Call.Issues.usedAt {token : SecurityToken} (h : c.Issues env t w w' token) :
    token.usedAt = none := by
  cases c with
  | register | updateUser =>
    rw [h]
    rfl
  | forgotPassword =>
    obtain ⟨user, -, -, htoken, -⟩ := h
    rw [htoken]
    rfl
  | _ => exact h.elim

/-- The call `s` of the run `calls` issued `token`, with the hash of the `k`-th secret it
drew. -/
structure IssuedBy (env : Env) (w : World) (calls before : Calls) (s : Time × Call) (k : Nat)
    (token : SecurityToken) : Prop where
  split : ∃ after, calls = before ++ s :: after
  fresh : ¬ (runCalls env w before).HasToken token.id
  stored : { token with usedAt := none } ∈ (runCalls env w (before ++ [s])).db.securityTokens
  tokenHash : token.tokenHash = env.tokenHash (env.supply.secret before.length k)

/-- Every link was issued by one of the calls. -/
theorem issued_of_mem (h₀ : Initial env w) {calls : Calls} {token : SecurityToken}
    (htoken : token ∈ (runCalls env w calls).db.securityTokens) :
    ∃ before s k, IssuedBy env w calls before s k token := by
  -- on the last call of the run
  induction calls using List.reverseRecOn generalizing token with
  | nil =>
    rw [runCalls_nil, h₀.securityTokens] at htoken
    cases htoken
  | append_singleton calls s ih =>
    have hw := h₀.consistent.runCalls calls
    obtain ⟨edit, new, hstep⟩ := hw.tokensStep s.1 s.2
    have hlast : runCalls env w (calls ++ [s]) =
        (runCall env (runCalls env w calls) s.1 s.2).1 := by
      rw [runCalls_append, runCalls_cons, runCalls_nil]
    rw [hlast, hstep.tokens] at htoken
    rcases List.mem_append.1 htoken with hold | hnew
    · obtain ⟨old, hmem, rfl⟩ := List.mem_map.1 hold
      obtain ⟨before, s', k, hissued⟩ := ih hmem
      obtain ⟨after, hsplit⟩ := hissued.split
      rw [hstep.spends.rest hmem]
      refine ⟨before, s', k, ⟨after ++ [s], ?_⟩, hissued.fresh, hissued.stored,
        hissued.tokenHash⟩
      rw [hsplit, List.append_assoc, List.cons_append]
    · obtain ⟨⟨j, hj⟩, hissues⟩ := hstep.issues token (by simpa using hnew)
      obtain ⟨k, hk⟩ := hissues.tokenHash
      rw [runCalls_calls, h₀.calls, Nat.zero_add] at hk
      refine ⟨calls, s, k, ⟨[], rfl⟩, ?_, ?_, hk⟩
      · intro hthere
        obtain ⟨other, hother, hid⟩ := hthere
        exact hw.ids.not_mem (hid.trans hj) hother
      · rw [← hissues.usedAt, hlast, hstep.tokens]
        exact List.mem_append_right _ hnew

/-- A call issues one link at most. -/
theorem World.Consistent.issued_unique (h : w.Consistent env) {t : Time} {c : Call}
    {a b : SecurityToken} (ha : a ∈ (Users.runCall env w t c).1.db.securityTokens)
    (hb : b ∈ (Users.runCall env w t c).1.db.securityTokens) (hfresha : ¬ w.HasToken a.id)
    (hfreshb : ¬ w.HasToken b.id) : a = b := by
  obtain ⟨edit, new, hstep⟩ := h.tokensStep t c
  have hnew {token : SecurityToken}
      (htoken : token ∈ (Users.runCall env w t c).1.db.securityTokens)
      (hfresh : ¬ w.HasToken token.id) : token ∈ new := by
    rw [hstep.tokens] at htoken
    rcases List.mem_append.1 htoken with hold | hadded
    · obtain ⟨old, hmem, rfl⟩ := List.mem_map.1 hold
      exact absurd ⟨old, hmem, (hstep.spends.id hmem).symm⟩ hfresh
    · simpa using hadded
  exact Option.mem_unique (hnew ha hfresha) (hnew hb hfreshb)

/-! ## The links of a reachable state -/

/-- When the row `token` was in the table, so were all the links of its kind. -/
def NewestOfKind (env : Env) (w : World) (calls : Calls) (token : SecurityToken) : Prop :=
  ∀ before after, calls = before ++ after → (runCalls env w before).HasToken token.id →
    ∀ other ∈ (runCalls env w calls).db.securityTokens, other.userId = token.userId →
      other.purpose = token.purpose → (runCalls env w before).HasToken other.id

/-- A call of the run issued a link of this purpose with this secret.  The hash tells so
much, and that it is the very secret the call drew when it is a generated one; and no link
of another purpose has this hash. -/
structure IssuedFor (env : Env) (w : World) (calls : Calls) (purpose : TokenPurpose)
    (secret : String) : Prop where
  issued : ∃ before s k token, IssuedBy env w calls before s k token ∧
    token.purpose = purpose ∧ env.tokenHash secret = token.tokenHash ∧
    ∀ n j, secret = env.supply.secret n j → secret = env.supply.secret before.length k
  only : ∀ token ∈ (runCalls env w calls).db.securityTokens,
    token.tokenHash = env.tokenHash secret → token.purpose = purpose

/-- What holds of the links in the state that a run leaves. -/
structure OnlyNewestWorks (env : Env) (w : World) (calls : Calls) : Prop where
  unique : ∀ a ∈ (runCalls env w calls).db.securityTokens,
    ∀ b ∈ (runCalls env w calls).db.securityTokens, a.usedAt = none → b.usedAt = none →
      a.userId = b.userId → a.purpose = b.purpose → a = b
  newest : ∀ token ∈ (runCalls env w calls).db.securityTokens, token.usedAt = none →
    NewestOfKind env w calls token
  verified : ∀ row ∈ (runCalls env w calls).db.users, row.emailVerifiedAt ≠ none →
    ∀ token ∈ (runCalls env w calls).db.securityTokens, token.userId = row.id →
      token.purpose = .emailVerification → token.usedAt ≠ none
  passwords : ∀ before t c after u, calls = before ++ (t, c) :: after →
    c.ReplacesPassword env (runCalls env w before) u →
    (runCall env (runCalls env w before) t c).2.isOk = true →
    ∀ token ∈ (runCalls env w calls).db.securityTokens, token.userId = u →
      token.purpose = .passwordReset → (runCalls env w before).HasToken token.id →
      token.usedAt ≠ none
  used : ∀ before after, calls = before ++ after →
    ∀ token ∈ (runCalls env w before).db.securityTokens, token.usedAt ≠ none →
      token ∈ (runCalls env w calls).db.securityTokens
  verifyEmail : ∀ t secret device,
    (runCall env (runCalls env w calls) t (.verifyEmail secret device)).2.isOk = true →
    IssuedFor env w calls .emailVerification secret
  resetPassword : ∀ t data device,
    (runCall env (runCalls env w calls) t (.resetPassword data device)).2.isOk = true →
    IssuedFor env w calls .passwordReset data.token

/-- A link that is not used is the newest of its kind. -/
theorem newestOfKind_of_unused (h₀ : Initial env w) {calls : Calls} {token : SecurityToken}
    (htoken : token ∈ (runCalls env w calls).db.securityTokens) (hunused : token.usedAt = none)
    (ho : (runCalls env w calls).db.LinksInOrder) : NewestOfKind env w calls token := by
  intro before after hsplit hthere other hother howner hpurpose
  have hw := h₀.consistent.runCalls calls
  have hunique := List.inj_on_of_nodup_map hw.ids.unique
  obtain ⟨more, hids⟩ := (h₀.consistent.runCalls before).token_ids after
  rw [← runCalls_append, ← hsplit] at hids
  obtain ⟨old, new, htable, hold, hnew⟩ := List.map_eq_append_iff.1 hids
  by_contra habsent
  -- the rows of the shorter run come first, and `other` is not among them
  have hearly : token ∈ old := by
    obtain ⟨row, hrow, hid⟩ := hthere
    have hin : token.id ∈ old.map (·.id) := hold ▸ hid ▸ List.mem_map_of_mem hrow
    obtain ⟨first, hfirst, he⟩ := List.mem_map.1 hin
    have hmem : first ∈ (runCalls env w calls).db.securityTokens :=
      htable ▸ List.mem_append_left _ hfirst
    rw [← hunique hmem htoken he]
    exact hfirst
  have hlate : other ∈ new := by
    rw [htable] at hother
    rcases List.mem_append.1 hother with hin | hin
    · have hid : other.id ∈ old.map (·.id) := List.mem_map_of_mem hin
      rw [hold] at hid
      obtain ⟨row, hrow, he⟩ := List.mem_map.1 hid
      exact absurd ⟨row, hrow, he⟩ habsent
    · exact hin
  have hlast := ho.last
  rw [htable] at hlast
  exact (List.pairwise_append.1 hlast).2.2 token hearly other hlate howner.symm hpurpose.symm
    hunused

/-- A link from before a change of the password is used. -/
theorem used_of_password (h₀ : Initial env w) {before after : Calls} {t : Time} {c : Call}
    {u : UserId} (hc : c.ReplacesPassword env (runCalls env w before) u)
    (hok : (runCall env (runCalls env w before) t c).2.isOk = true) {token : SecurityToken}
    (htoken : token ∈ (runCalls env w (before ++ (t, c) :: after)).db.securityTokens)
    (howner : token.userId = u) (hpurpose : token.purpose = .passwordReset)
    (hthere : (runCalls env w before).HasToken token.id) : token.usedAt ≠ none := by
  have hbefore := h₀.consistent.runCalls before
  have hunique := List.inj_on_of_nodup_map
    (h₀.consistent.runCalls (before ++ (t, c) :: after)).ids.unique
  obtain ⟨row, hrow, hid⟩ := hthere
  -- the row before the call is of the same kind
  obtain ⟨moment, hkept⟩ := hbefore.token_kept hrow ((t, c) :: after)
  rw [← runCalls_append] at hkept
  have hself := hunique hkept htoken hid
  have hru : row.userId = u := by rw [← howner, ← hself]
  have hrp : row.purpose = .passwordReset := by rw [← hpurpose, ← hself]
  -- and the row after the call is used, so it is the row in the end
  obtain ⟨edit, new, hstep⟩ := hbefore.tokensStep t c
  have hedited : edit row ∈ (runCall env (runCalls env w before) t c).1.db.securityTokens := by
    rw [hstep.tokens]
    exact List.mem_append_left _ (List.mem_map_of_mem hrow)
  have hrest := hstep.spends.rest hrow
  obtain ⟨w', heffect, he⟩ := runCall_effect env (runCalls env w before) t c
  have hedited' : edit row ∈ w'.db.securityTokens := by
    rw [he] at hedited
    exact hedited
  have hused : (edit row).usedAt ≠ none := by
    refine heffect.replaces_links hok hc hedited' ?_ ?_
    · rw [hrest]
      exact hru
    · rw [hrest]
      exact hrp
  have hend := (hbefore.runCall t c).token_used hedited hused after
  rw [← runCalls_cons (s := (t, c)), ← runCalls_append] at hend
  rw [← hunique hend htoken ((hstep.spends.id hrow).trans hid)]
  exact hused

theorem issuedFor_of_stored (h₀ : Initial env w)
    (hhash : ∀ n k m j, env.tokenHash (env.supply.secret n k) =
      env.tokenHash (env.supply.secret m j) → env.supply.secret n k = env.supply.secret m j)
    {calls : Calls} {purpose : TokenPurpose} {secret : String} {token : SecurityToken}
    (hfound : (runCalls env w calls).db.tokenByHash (env.tokenHash secret) purpose =
      some token) : IssuedFor env w calls purpose secret := by
  have hw := h₀.consistent.runCalls calls
  have hmem : token ∈ (runCalls env w calls).db.securityTokens :=
    List.mem_of_find?_eq_some hfound
  obtain ⟨hkey, hpurpose⟩ : token.tokenHash = env.tokenHash secret ∧ token.purpose = purpose := by
    simpa using List.find?_some hfound
  obtain ⟨before, s, k, hissued⟩ := issued_of_mem h₀ hmem
  constructor
  · refine ⟨before, s, k, token, hissued, hpurpose, hkey.symm, fun n j hdrawn => ?_⟩
    rw [hdrawn]
    refine hhash _ _ _ _ ?_
    rw [← hdrawn, ← hkey, hissued.tokenHash]
  · intro other hother hsame
    obtain ⟨before', s', k', hissued'⟩ := issued_of_mem h₀ hother
    -- both were issued by the call that drew the secret
    have hsecret := hhash before.length k before'.length k' (by
      rw [← hissued.tokenHash, ← hissued'.tokenHash, hkey, hsame])
    have hlength : before.length = before'.length := (env.supply.secret_injective hsecret).1
    obtain ⟨after, hsplit⟩ := hissued.split
    obtain ⟨after', hsplit'⟩ := hissued'.split
    obtain ⟨hbefore, hrest⟩ := List.append_inj (hsplit.symm.trans hsplit') hlength
    obtain ⟨hs, -⟩ := List.cons.inj hrest
    subst hbefore hs
    have hlast : runCalls env w (before ++ [s]) =
        (runCall env (runCalls env w before) s.1 s.2).1 := by
      rw [runCalls_append, runCalls_cons, runCalls_nil]
    have hstored := hissued.stored
    have hstored' := hissued'.stored
    rw [hlast] at hstored hstored'
    have hrow := (h₀.consistent.runCalls before).issued_unique hstored hstored' hissued.fresh
      hissued'.fresh
    obtain ⟨hid, -⟩ := SecurityToken.mk.inj hrow
    rw [← List.inj_on_of_nodup_map hw.ids.unique hmem hother hid]
    exact hpurpose

/-- `VerifyEmail` succeeds for a link that is stored under its purpose. -/
theorem verifyEmail_found {secret : String} {device : Option DeviceInfoDTO}
    (hok : (runCall env w t (.verifyEmail secret device)).2.isOk = true) :
    ∃ token, w.db.tokenByHash (env.tokenHash secret) .emailVerification = some token := by
  obtain ⟨w', h, -⟩ := runCall_effect env w t (.verifyEmail secret device)
  generalize (runCall env w t (.verifyEmail secret device)).2 = out at h hok
  cases h with
  | failed => cases hok
  | observed hc => exact hc.elim
  | emailVerified htoken => exact ⟨_, htoken⟩

theorem resetPassword_found {data : ResetPasswordDTO} {device : Option DeviceInfoDTO}
    (hok : (runCall env w t (.resetPassword data device)).2.isOk = true) :
    ∃ token, w.db.tokenByHash (env.tokenHash data.token) .passwordReset = some token := by
  obtain ⟨w', h, -⟩ := runCall_effect env w t (.resetPassword data device)
  generalize (runCall env w t (.resetPassword data device)).2 = out at h hok
  cases h with
  | failed => cases hok
  | observed hc => exact hc.elim
  | passwordReset _ htoken => exact ⟨_, htoken⟩

/-- A starting world has no links. -/
theorem Initial.linksInOrder (h : Initial env w) : w.db.LinksInOrder where
  last := by simp [h.securityTokens]
  verified := by simp [h.securityTokens]

/-- In every state that a sequential run reaches, an account has one unused link of a purpose
at most, which is the newest; it has none for a verified address, and no reset link from
before its password was last set; a used link keeps its date; and a link is accepted for the
purpose it was issued for.  Generated secrets are taken to have different hashes. -/
theorem only_newest_link_works (h₀ : Initial env w)
    (hhash : ∀ n k m j, env.tokenHash (env.supply.secret n k) =
      env.tokenHash (env.supply.secret m j) → env.supply.secret n k = env.supply.secret m j)
    (calls : Calls) : OnlyNewestWorks env w calls := by
  have ho : (runCalls env w calls).db.LinksInOrder :=
    h₀.consistent.linksInOrder h₀.linksInOrder calls
  constructor
  · intro a ha b hb hua hub howner hpurpose
    exact ho.unique ha hb hua hub howner hpurpose
  · intro token htoken hunused
    exact newestOfKind_of_unused h₀ htoken hunused ho
  · exact ho.verified
  · intro before t c after u hsplit hc hok token htoken howner hpurpose hthere
    rw [hsplit] at htoken
    exact used_of_password h₀ hc hok htoken howner hpurpose hthere
  · intro before after hsplit token htoken hused
    rw [hsplit, runCalls_append]
    exact (h₀.consistent.runCalls before).token_used htoken hused after
  · intro t secret device hok
    obtain ⟨token, hfound⟩ := verifyEmail_found hok
    exact issuedFor_of_stored h₀ hhash hfound
  · intro t data device hok
    obtain ⟨token, hfound⟩ := resetPassword_found hok
    exact issuedFor_of_stored h₀ hhash hfound

/-- Bob signs up, asks for a reset link twice and follows the second. -/
theorem only_newest_link_works_bob :
    OnlyNewestWorks Sample.env Sample.world
      [(1, .register ⟨"bob", "bob", "pw", "pw", none, none⟩ none),
        (2, .forgotPassword "bob" none), (3, .forgotPassword "bob" none),
        (4, .resetPassword ⟨Sample.label 2 0, "new", "new"⟩ none)] :=
  only_newest_link_works Sample.initial (fun _ _ _ _ h => h) _

end VideoSite.Users
