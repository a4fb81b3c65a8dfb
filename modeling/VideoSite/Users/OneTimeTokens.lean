import VideoSite.Users.Reachable

/-!
# The table of one-time tokens

What a call does to `security_tokens`: it spends some of the unused tokens and
issues at most one.  `Call.Spends` and `Call.Issues` name them, and
`Db.TokenIds` is what the primary key of the table promises.

* `Effect.tokens` is the inversion of `Effect` for this table.
* `Effect.tokenIds` says that a call keeps the primary key.
-/

namespace VideoSite.Users

open Effects Program

variable {env : Env} {t : Time} {w w' : World} {c : Call} {out : Except Failure Answer}

/-! ## Spending -/

theorem SecurityToken.unused_of_isUsable {token : SecurityToken}
    (h : token.isUsable t = true) : token.usedAt = none := by
  simp [isUsable, isUsed] at h
  exact h.1

/-- The token after it was spent at `moment`. -/
def SecurityToken.spend (token : SecurityToken) (moment : Time) : SecurityToken :=
  { token with usedAt := some moment }

/-- Some of the unused tokens that meet `P` were spent at `t`, the others are as they
were. -/
def SpentAt (t : Time) (P : SecurityToken → Prop) (edit : SecurityToken → SecurityToken)
    (tokens : List SecurityToken) : Prop :=
  ∀ token ∈ tokens, edit token = token ∨
    P token ∧ token.usedAt = none ∧ edit token = token.spend t

namespace SpentAt

variable {P Q : SecurityToken → Prop} {edit edit' : SecurityToken → SecurityToken}
  {tokens : List SecurityToken}

theorem refl : SpentAt t P (fun token => token) tokens := fun _ _ => .inl rfl

theorem mono (h : SpentAt t P edit tokens) (hPQ : ∀ token ∈ tokens, P token → Q token) :
    SpentAt t Q edit tokens := by
  intro token htoken
  rcases h token htoken with hsame | ⟨hP, hrest⟩
  · exact .inl hsame
  · exact .inr ⟨hPQ token htoken hP, hrest⟩

/-- A token that was spent is left alone afterwards. -/
theorem comp (h : SpentAt t P edit tokens) (h' : SpentAt t P edit' (tokens.map edit)) :
    SpentAt t P (fun token => edit' (edit token)) tokens := by
  intro token htoken
  have hafter := h' (edit token) (List.mem_map_of_mem htoken)
  rcases h token htoken with hsame | ⟨hP, hnone, hspent⟩
  · show edit' (edit token) = token ∨
      P token ∧ token.usedAt = none ∧ edit' (edit token) = token.spend t
    rw [hsame] at hafter ⊢
    exact hafter
  · right
    rcases hafter with hkept | ⟨-, hunused, -⟩
    · exact ⟨hP, hnone, hkept.trans hspent⟩
    · rw [hspent] at hunused
      cases hunused

theorem id (h : SpentAt t P edit tokens) {token : SecurityToken} (htoken : token ∈ tokens) :
    (edit token).id = token.id := by
  rcases h token htoken with hsame | ⟨-, -, hspent⟩
  · rw [hsame]
  · rw [hspent]
    rfl

theorem map_id (h : SpentAt t P edit tokens) :
    (tokens.map edit).map (·.id) = tokens.map (·.id) := by
  rw [List.map_map]
  exact List.map_congr_left fun token htoken => h.id htoken

/-- What is still unused was not touched. -/
theorem unused (h : SpentAt t P edit tokens) {token : SecurityToken}
    (hmem : token ∈ tokens.map edit) (hunused : token.usedAt = none) : token ∈ tokens := by
  obtain ⟨old, hold, rfl⟩ := List.mem_map.1 hmem
  rcases h old hold with hsame | ⟨-, -, hspent⟩
  · rw [hsame]
    exact hold
  · rw [hspent] at hunused
    cases hunused

/-- With unique ids an update spends the tokens that meet its condition. -/
theorem useWhere {db : Db} (hids : (db.securityTokens.map (·.id)).Nodup)
    (cond : SecurityToken → Bool) :
    SpentAt t (fun token => cond token = true)
      (fun token => token.useIn (tokenIds db cond) t) db.securityTokens := by
  intro token htoken
  show token.useIn (tokenIds db cond) t = token ∨ cond token = true ∧
    token.usedAt = none ∧ token.useIn (tokenIds db cond) t = token.spend t
  unfold SecurityToken.useIn
  split_ifs with hspent
  · obtain ⟨hid, hnone⟩ := hspent
    obtain ⟨other, hother, he⟩ := List.mem_map.1 hid
    obtain ⟨hmem, hcond⟩ := List.mem_filter.1 hother
    obtain rfl := List.inj_on_of_nodup_map hids hmem htoken he
    exact .inr ⟨hcond, hnone, rfl⟩
  · exact .inl rfl

end SpentAt

/-! ## Which tokens a call spends and issues -/

/-- The call, if it succeeds, spends `token`. -/
def Call.Spends (env : Env) (w : World) (token : SecurityToken) : Call → Prop
  | .changePassword u _ _ => token.userId = u ∧ token.purpose = .passwordReset
  | .forgotPassword email _ => token.purpose = .passwordReset ∧
      ∃ user, w.db.userByEmail (env.normalize email) = some user ∧ token.userId = user.id
  | .resetPassword data _ => ∃ presented,
      w.db.tokenByHash (env.tokenHash data.token) .passwordReset = some presented ∧
        (token = presented ∨
          token.userId = presented.userId ∧ token.purpose = .passwordReset)
  | .verifyEmail secret _ =>
      w.db.tokenByHash (env.tokenHash secret) .emailVerification = some token
  | .updateUser u _ => token.userId = u ∧ token.purpose = .emailVerification
  | _ => False

/-- The call has issued `token`, and mailed a link if it is for a password reset. -/
def Call.Issues (env : Env) (t : Time) (w w' : World) (token : SecurityToken) : Call → Prop
  | .register _ _ => token = EmailVerificationIssuer.row env t w.calls 2
      (env.supply.rowId w.calls 1)
  | .updateUser u _ => token = EmailVerificationIssuer.row env t w.calls 0 u
  | .forgotPassword email _ => ∃ user, w.db.userByEmail (env.normalize email) = some user ∧
      user.isActive = true ∧ token = ForgotPasswordUseCase.row env t w.calls user.id ∧
      ForgotPasswordUseCase.message env (env.normalize email) (env.supply.secret w.calls 0) ∈
        w'.outbox
  | _ => False

/-- The one-time tokens after a call: some were spent, one may be new. -/
structure TokensStep (env : Env) (t : Time) (w : World) (c : Call) (w' : World)
    (edit : SecurityToken → SecurityToken) (new : Option SecurityToken) : Prop where
  tokens : w'.db.securityTokens = w.db.securityTokens.map edit ++ new.toList
  spends : SpentAt t (fun token => c.Spends env w token) edit w.db.securityTokens
  issues : ∀ token ∈ new, (∃ k, token.id = env.supply.rowId w.calls k) ∧
    c.Issues env t w w' token

/-- The ids of the tokens are unique and were drawn before call `n`. -/
structure Db.TokenIds (db : Db) (supply : Supply) (n : Nat) : Prop where
  unique : (db.securityTokens.map (·.id)).Nodup
  drawn : ∀ token ∈ db.securityTokens, ∀ m k, supply.rowId m k = token.id → m < n

theorem TokensStep.same (h : w'.db.securityTokens = w.db.securityTokens) :
    TokensStep env t w c w' (fun token => token) none where
  tokens := by rw [h, List.map_id', Option.toList_none, List.append_nil]
  spends := .refl
  issues := by simp

/-- A call with one update, which spends tokens of the kind it should. -/
theorem TokensStep.useWhere {db : Db} (cond : SecurityToken → Bool)
    (new : Option SecurityToken) (hids : w.db.TokenIds env.supply w.calls)
    (hdb : db.securityTokens = w.db.securityTokens)
    (hw' : w'.db.securityTokens = (db.useWhere cond t).securityTokens ++ new.toList)
    (hcond : ∀ token ∈ w.db.securityTokens, cond token = true → c.Spends env w token)
    (hnew : ∀ token ∈ new, (∃ k, token.id = env.supply.rowId w.calls k) ∧
      c.Issues env t w w' token) :
    TokensStep env t w c w' (fun token => token.useIn (tokenIds db cond) t) new where
  tokens := by rw [hw', Db.useWhere_tokens, hdb]
  spends := by
    rw [← hdb]
    rw [← hdb] at hcond
    exact (SpentAt.useWhere (hdb ▸ hids.unique) cond).mono hcond
  issues := hnew

theorem Statement.invalidateWhere_iff {userId : UserId} {purpose : TokenPurpose}
    {token : SecurityToken} : Statement.invalidateWhere userId purpose token = true ↔
      token.userId = userId ∧ token.purpose = purpose ∧ token.usedAt = none := by
  simp [Statement.invalidateWhere, and_assoc]

/-- The inversion of `Effect` for the table of one-time tokens. -/
theorem Effect.tokens (hw : w.Wf env) (hids : w.db.TokenIds env.supply w.calls)
    (h : Effect env t w c out w') : ∃ edit new, TokensStep env t w c w' edit new := by
  cases h with
  | failed | observed | loginClash | loggedIn | logoutIgnored | loggedOut | refreshClash
  | refreshed | authenticated | authenticateInactive | passwordTried | banSkipped
  | sessionsRevoked | sessionRevoked | roleCreated | roleDeleted | permissionRevoked
  | permissionCreated | roleRevoked => exact ⟨_, _, .same rfl⟩
  | permissionGranted | roleAssigned | userDeleted | userBanned | userUnbanned =>
    exact ⟨_, _, .same (by simp)⟩
  | loginFailed hopen howner hbad hdb =>
    refine ⟨_, _, .same ?_⟩
    rcases hdb with ⟨audit, -, rfl, -⟩ | ⟨rfl, -⟩ <;> rfl
  | @registered data device limits row a audit hl hemail husername hrow haudit ha =>
    have hrowid : row.id = env.supply.rowId w.calls 1 := by rw [hrow]; rfl
    refine ⟨_, some _, .useWhere _ (some _) hids ?_ rfl (fun token htoken hcond => ?_)
      fun token htoken => ?_⟩
    · simp
    · -- the account is new, so it has no tokens yet
      obtain ⟨howner, -⟩ := Statement.invalidateWhere_iff.1 hcond
      have hknown := hw.db.tokenOwners token htoken
      rw [howner, hrowid, hw.db.unknown] at hknown
      cases hknown
    · cases htoken
      exact ⟨⟨3, rfl⟩, by rw [hrowid]; rfl⟩
  | @passwordChanged userId data device user row audit k huser hrow hverify haudit =>
    have hset : (w.db.setPassword row
        (env.hasher.hash (env.supply.salt w.calls 0) data.newPassword) t).securityTokens =
          w.db.securityTokens := by simp
    refine ⟨_, none, .useWhere (Statement.invalidateWhere userId .passwordReset) none hids
      hset ?_ (fun token htoken hcond => ?_) (by simp)⟩
    · simp
    · obtain ⟨howner, hpurpose, -⟩ := Statement.invalidateWhere_iff.1 hcond
      exact ⟨howner, hpurpose⟩
  | @resetRequested email device limits user hl huser hactive =>
    refine ⟨_, some _, .useWhere _ (some _) hids rfl rfl (fun token htoken hcond => ?_)
      fun token htoken => ?_⟩
    · obtain ⟨howner, hpurpose, -⟩ := Statement.invalidateWhere_iff.1 hcond
      exact ⟨hpurpose, user, huser, howner⟩
    · cases htoken
      exact ⟨⟨1, rfl⟩, user, huser, hactive, rfl,
        List.mem_append_right _ (List.mem_singleton_self _)⟩
  | @passwordReset data device limits token user row audit hl htoken husable huser hactive hrow
      haudit =>
    obtain ⟨hid, -⟩ := userById_row huser
    have hmem : token ∈ w.db.securityTokens := List.mem_of_find?_eq_some htoken
    -- the token itself is spent first, then the others of its account
    have hmarked : SpentAt t (fun other => (Call.resetPassword data device).Spends env w other)
        (fun other => other.useIn (tokenIds w.db (Statement.markUsedWhere token.id)) t)
        w.db.securityTokens := by
      refine (SpentAt.useWhere hids.unique _).mono fun other hother hcond => ?_
      have hsame : other.id = token.id := by
        simp [Statement.markUsedWhere] at hcond
        exact hcond.1
      obtain rfl := List.inj_on_of_nodup_map hids.unique hother hmem hsame
      exact ⟨_, htoken, .inl rfl⟩
    have hinvalidated : SpentAt t
        (fun other => (Call.resetPassword data device).Spends env w other)
        (fun other => other.useIn (tokenIds
          (w.db.useWhere (Statement.markUsedWhere token.id) t)
          (Statement.invalidateWhere user.id .passwordReset)) t)
        (w.db.useWhere (Statement.markUsedWhere token.id) t).securityTokens := by
      refine (SpentAt.useWhere ?_ _).mono fun other hother hcond => ?_
      · rw [Db.useWhere_tokens, hmarked.map_id]
        exact hids.unique
      · obtain ⟨howner, hpurpose, -⟩ := Statement.invalidateWhere_iff.1 hcond
        exact ⟨_, htoken, .inr ⟨howner.trans hid, hpurpose⟩⟩
    refine ⟨_, none, ?_, hmarked.comp hinvalidated, by simp⟩
    simp [Db.useWhere_tokens, tokenIds]
  | @emailVerified secret device token user row verified audit htoken husable huser hactive hrow
      hself haudit =>
    have hmem : token ∈ w.db.securityTokens := List.mem_of_find?_eq_some htoken
    refine ⟨_, none, .useWhere (Statement.markUsedWhere token.id) none hids rfl ?_
      (fun other hother hcond => ?_) (by simp)⟩
    · simp
    · have hsame : other.id = token.id := by
        simp [Statement.markUsedWhere] at hcond
        exact hcond.1
      obtain rfl := List.inj_on_of_nodup_map hids.unique hother hmem hsame
      exact htoken
  | @userUpdated userId data user edited row a huser hrow hedits =>
    have hrowid : (row.setProfile edited.profile t).id = userId := by
      rw [UserRow.setProfile_id, userRow?_id hrow]
    unfold UpdateUserUseCase.finished
    split_ifs with hverified
    · exact ⟨_, _, .same (by simp)⟩
    · refine ⟨_, some _, .useWhere _ (some _) hids ?_ rfl (fun token htoken hcond => ?_)
        fun token htoken => ?_⟩
      · simp
      · obtain ⟨howner, hpurpose, -⟩ := Statement.invalidateWhere_iff.1 hcond
        exact ⟨howner.trans hrowid, hpurpose⟩
      · cases htoken
        exact ⟨⟨1, rfl⟩, congrArg (EmailVerificationIssuer.row env t w.calls 0) hrowid⟩

/-! ## Ids -/

theorem Initial.tokenIds (h : Initial env w) : w.db.TokenIds env.supply w.calls where
  unique := by simp [h.securityTokens]
  drawn := by simp [h.securityTokens]

/-- A call keeps the primary key. -/
theorem Effect.tokenIds (hw : w.Wf env) (hids : w.db.TokenIds env.supply w.calls)
    (h : Effect env t w c out w') : w'.db.TokenIds env.supply (w.calls + 1) := by
  obtain ⟨edit, new, hstep⟩ := h.tokens hw hids
  have hold : (w.db.securityTokens.map edit).map (·.id) = w.db.securityTokens.map (·.id) :=
    hstep.spends.map_id
  constructor
  · rw [hstep.tokens, List.map_append, hold]
    cases new with
    | none => simpa using hids.unique
    | some token =>
      obtain ⟨⟨k, hk⟩, -⟩ := hstep.issues token rfl
      refine hids.unique.append (List.nodup_singleton _) ?_
      rw [Option.toList_some, List.map_singleton, List.disjoint_singleton]
      intro hmem
      obtain ⟨other, hother, he⟩ := List.mem_map.1 hmem
      exact absurd (hids.drawn other hother w.calls k (by rw [he, hk])) (lt_irrefl _)
  · intro token htoken m k hk
    rw [hstep.tokens] at htoken
    rcases List.mem_append.1 htoken with hkept | hnew
    · have hid : token.id ∈ w.db.securityTokens.map (·.id) :=
        hold ▸ List.mem_map_of_mem hkept
      obtain ⟨other, hother, he⟩ := List.mem_map.1 hid
      have hlt := hids.drawn other hother m k (hk.trans he.symm)
      omega
    · obtain ⟨⟨j, hj⟩, -⟩ := hstep.issues token (by simpa using hnew)
      have hsame := (env.supply.rowId_injective (hk.trans hj)).1
      omega

/-- A call that runs alone keeps the primary key. -/
theorem runCall_tokenIds (hw : w.Wf env) (hids : w.db.TokenIds env.supply w.calls) (t : Time)
    (c : Call) : (runCall env w t c).1.db.TokenIds env.supply (runCall env w t c).1.calls := by
  obtain ⟨w', h, he⟩ := runCall_effect env w t c
  have hids' : w'.db.TokenIds env.supply (w'.calls + 1) := by
    rw [h.calls]
    exact h.tokenIds hw hids
  rw [he]
  exact hids'

end VideoSite.Users
