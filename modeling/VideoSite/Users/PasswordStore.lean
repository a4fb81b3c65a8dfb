import VideoSite.Users.LoginAnswer

/-!
# Login is a password store

Seen from outside, the service keeps one password for each account: the one that
was given in the last successful `Register`, `ChangePassword` or `ResetPassword`
for it.  `passwordsAfter` is that map, computed from the calls and their outcomes
alone, and `World.Stores` says that the table of accounts agrees with it.

Accounts are found by their address.  Every stored address is in normal form, and
the use cases that take an address normalise it first.

* `Effect.rows` says what a call does to each account.
* `login_isOk` is the answer of a login that is not rate limited.
* `login_is_password_store` is the result about runs.
-/

namespace VideoSite.Users

open Effects Program

variable {env : Env} {t : Time} {w w' : World} {c : Call} {out : Except Failure Answer}

/-! ## The passwords of a run -/

/-- The passwords of the accounts. -/
abbrev Passwords := UserId → Option String

/-- The account that a call gives a password, and the password. -/
def Call.setsPassword (env : Env) (w : World) (out : Except Failure Answer) :
    Call → Option (UserId × String)
  | .register data _ =>
      match out with
      | .ok (.user user) => some (user.id, data.password)
      | _ => none
  | .changePassword userId data _ =>
      match out with
      | .ok _ => some (userId, data.newPassword)
      | .error _ => none
  | .resetPassword data _ =>
      match out with
      | .ok _ => (w.db.tokenByHash (env.tokenHash data.token) .passwordReset).map
          fun token => (token.userId, data.password)
      | .error _ => none
  | _ => none

/-- The passwords after a call. -/
def Passwords.set (known : Passwords) : Option (UserId × String) → Passwords
  | some (userId, plain) => Function.update known userId (some plain)
  | none => known

/-- The passwords after a run that starts with the passwords `known`. -/
def passwordsAfter (env : Env) : World → Passwords → Calls → Passwords
  | _, known, [] => known
  | w, known, s :: rest =>
      passwordsAfter env (runCall env w s.1 s.2).1
        (known.set (s.2.setsPassword env w (runCall env w s.1 s.2).2)) rest

/-- Every account has the hash of its password. -/
def World.Stores (env : Env) (w : World) (known : Passwords) : Prop :=
  ∀ row ∈ w.db.users, ∃ salt plain, known row.id = some plain ∧
    row.passwordHash = env.hasher.hash salt plain

/-- Every address is in normal form. -/
def World.Normal (env : Env) (w : World) : Prop :=
  ∀ row ∈ w.db.users, env.normalize row.email = row.email

/-! ## What a call does to an account -/

/-- How the row of an account comes about: it was there, perhaps with another profile
or another password, or `Register` has added it. -/
inductive RowStep (env : Env) (t : Time) (w : World) (c : Call) (out : Except Failure Answer)
    (row' : UserRow) : Prop
  | same (hrow : row' ∈ w.db.users)
      (hkept : ∀ plain, c.setsPassword env w out ≠ some (row'.id, plain))
  | profile {row p} (hrow : row ∈ w.db.users) (hrow' : row' = row.setProfile p t)
      (hemail : p.email = row.email ∨ ∃ raw, p.email = env.normalize raw)
      (hkept : ∀ plain, c.setsPassword env w out ≠ some (row'.id, plain))
  | password {row plain} (hrow : row ∈ w.db.users)
      (hrow' : row' = row.setPassword (env.hasher.hash (env.supply.salt w.calls 0) plain) t)
      (hset : c.setsPassword env w out = some (row'.id, plain))
  | added {plain raw} (hemail : row'.email = env.normalize raw)
      (hhash : row'.passwordHash = env.hasher.hash (env.supply.salt w.calls 0) plain)
      (hset : c.setsPassword env w out = some (row'.id, plain))

@[simp] theorem Call.setsPassword_error (e : Failure) : c.setsPassword env w (.error e) = none := by
  cases c <;> rfl

theorem Call.Observes.setsPassword (h : c.Observes) : c.setsPassword env w out = none := by
  cases c <;> first | rfl | exact h.elim

theorem UserRow.setProfile_passwordHash (row : UserRow) (p : Profile) (stamp : Time) :
    (row.setProfile p stamp).passwordHash = row.passwordHash := by
  unfold setProfile
  split <;> rfl

theorem UserRow.setPassword_passwordHash (row : UserRow) (hash : String) (stamp : Time) :
    (row.setPassword hash stamp).passwordHash = hash := by
  unfold setPassword
  split_ifs with h
  · exact h
  · rfl

theorem UserRow.setPassword_email (row : UserRow) (hash : String) (stamp : Time) :
    (row.setPassword hash stamp).email = row.email := by
  unfold setPassword
  split <;> rfl

/-- A row after an update of one account. -/
theorem RowStep.edited {db : Db} {row row' : UserRow} {p : Profile} (hw : w.Wf env)
    (hdb : db.users = w.db.users) (hrow : row ∈ w.db.users)
    (hemail : p.email = row.email ∨ ∃ raw, p.email = env.normalize raw)
    (hnone : c.setsPassword env w out = none)
    (hmem : row' ∈ (db.setProfile row p t).users) : RowStep env t w c out row' := by
  have hcongr : (db.setProfile row p t).users = (w.db.setProfile row p t).users := by
    unfold Db.setProfile
    split
    · exact hdb
    · simp only [Write.apply, hdb]
  rw [hcongr, hw.db.setProfile_users hrow] at hmem
  obtain ⟨old, hold, rfl⟩ := List.mem_map.1 hmem
  split_ifs with hid
  · obtain rfl := hw.db.row_unique hold hrow hid
    exact .profile hold rfl hemail fun plain => by simp [hnone]
  · exact .same hold fun plain => by simp [hnone]

/-- A row after one account got a new password. -/
theorem RowStep.rehashed {row row' : UserRow} (plain : String) (hw : w.Wf env)
    (hrow : row ∈ w.db.users) (hset : c.setsPassword env w out = some (row.id, plain))
    (hmem : row' ∈ (w.db.setPassword row
      (env.hasher.hash (env.supply.salt w.calls 0) plain) t).users) :
    RowStep env t w c out row' := by
  rw [hw.db.setPassword_users hrow] at hmem
  obtain ⟨old, hold, rfl⟩ := List.mem_map.1 hmem
  split_ifs with hid
  · obtain rfl := hw.db.row_unique hold hrow hid
    exact .password hold rfl (by rw [UserRow.setPassword_id]; exact hset)
  · refine .same hold fun other hother => hid ?_
    rw [hset] at hother
    exact (congrArg Prod.fst (Option.some.inj hother)).symm

/-- The inversion of `Effect` for each account. -/
theorem Effect.rows (hw : w.Wf env) (h : Effect env t w c out w') {row' : UserRow}
    (hrow' : row' ∈ w'.db.users) : RowStep env t w c out row' := by
  cases h with
  | failed | loginClash | refreshClash | authenticateInactive | passwordTried =>
    exact .same hrow' (by simp)
  | observed hc => exact .same hrow' (by simp [hc.setsPassword])
  | loggedIn | logoutIgnored | loggedOut | refreshed | authenticated | banSkipped
  | resetRequested | sessionsRevoked | sessionRevoked | roleCreated | roleDeleted
  | permissionRevoked | permissionCreated | roleRevoked =>
    exact .same hrow' (by simp [Call.setsPassword])
  | permissionGranted | roleAssigned =>
    exact .same (by simpa using hrow') (by simp [Call.setsPassword])
  | loginFailed hopen howner hbad hdb =>
    refine .same ?_ (by simp)
    rcases hdb with ⟨audit, -, rfl, -⟩ | ⟨rfl, -⟩ <;> exact hrow'
  | @registered data device limits row a audit hl hemail husername hrow haudit ha =>
    obtain ⟨user, rfl, hid⟩ := ha
    simp at hrow'
    rcases List.mem_append.1 hrow' with hold | hnew
    · refine .same hold fun plain hset => ?_
      have hself : row'.id = env.supply.rowId w.calls 1 := by
        simp only [Call.setsPassword, Option.some.injEq, Prod.mk.injEq] at hset
        rw [← hset.1, hid, hrow]
        rfl
      have hknown := Db.hasUser_iff.2 (List.mem_map_of_mem hold)
      rw [hself, hw.db.unknown] at hknown
      cases hknown
    · obtain rfl := List.mem_singleton.1 hnew
      have hset : (Call.register data device).setsPassword env w (.ok (.user user)) =
          some (row'.id, data.password) := by rw [← hid]; rfl
      subst hrow
      exact .added rfl rfl hset
  | @passwordChanged userId data device user row audit k huser hrow hverify haudit =>
    refine .rehashed data.newPassword hw (Db.mem_of_userRow? hrow) ?_
      (by simpa using hrow')
    rw [userRow?_id hrow]
    rfl
  | @passwordReset data device limits token user row audit hl htoken husable huser hactive hrow
      haudit =>
    refine .rehashed data.password hw (Db.mem_of_userRow? hrow) ?_
      (by simpa using hrow')
    rw [userRow?_id hrow, (userById_row huser).1]
    simp [Call.setsPassword, htoken]
  | @emailVerified secret device token user row verified audit htoken husable huser hactive hrow
      hself haudit =>
    obtain ⟨hid, -⟩ := userById_row huser
    have he := userById_of_row huser (hid ▸ hrow)
    change row' ∈ (VerifyEmailUseCase.stamped t
      (w.db.useWhere (Statement.markUsedWhere token.id) t) row user).users at hrow'
    unfold VerifyEmailUseCase.stamped at hrow'
    split at hrow'
    · exact .same hrow' (by simp [Call.setsPassword])
    · have hkeep : (w.db.useWhere (Statement.markUsedWhere token.id) t).users =
          w.db.users := rfl
      refine .edited hw hkeep (Db.mem_of_userRow? hrow) (.inl ?_) rfl hrow'
      rw [he]
      rfl
  | @userUpdated userId data user edited row a huser hrow hedits =>
    have he := userById_of_row huser hrow
    rw [World.forget_db, (UpdateUserUseCase.finished_frame _ _ _).1] at hrow'
    refine .edited hw rfl (Db.mem_of_userRow? hrow) ?_ rfl hrow'
    have hemail := hedits.email
    cases hdata : data.email with
    | none =>
      rw [hdata] at hemail
      left
      rw [show edited.profile.email = edited.email from rfl, hemail, he]
      rfl
    | some raw =>
      rw [hdata] at hemail
      exact .inr ⟨raw, hemail⟩
  | userDeleted huser hrow =>
    refine .edited hw rfl (Db.mem_of_userRow? hrow) (.inl ?_) rfl hrow'
    rw [userById_of_row huser hrow]
    rfl
  | userBanned hsuper huser hactive hrow =>
    refine .edited hw rfl (Db.mem_of_userRow? hrow) (.inl ?_) rfl hrow'
    rw [userById_of_row huser hrow]
    rfl
  | userUnbanned huser hactive hrow =>
    refine .edited hw rfl (Db.mem_of_userRow? hrow) (.inl ?_) rfl hrow'
    rw [userById_of_row huser hrow]
    rfl

/-- A call keeps the passwords. -/
theorem Effect.stores (hw : w.Wf env) {known : Passwords} (hs : w.Stores env known)
    (h : Effect env t w c out w') :
    w'.Stores env (known.set (c.setsPassword env w out)) := by
  intro row' hrow'
  have hother {row : UserRow} (hrow : row ∈ w.db.users) (hid : row.id = row'.id)
      (hhash : row'.passwordHash = row.passwordHash)
      (hkept : ∀ plain, c.setsPassword env w out ≠ some (row'.id, plain)) :
      ∃ salt plain, known.set (c.setsPassword env w out) row'.id = some plain ∧
        row'.passwordHash = env.hasher.hash salt plain := by
    obtain ⟨salt, plain, hknown, hold⟩ := hs row hrow
    refine ⟨salt, plain, ?_, hhash.trans hold⟩
    rw [← hknown, hid]
    cases hset : c.setsPassword env w out with
    | none => rfl
    | some pair =>
      obtain ⟨u, other⟩ := pair
      have hne : row'.id ≠ u := fun he => hkept other (by rw [hset, he])
      exact Function.update_of_ne hne _ _
  cases h.rows hw hrow' with
  | same hrow hkept => exact hother hrow rfl rfl hkept
  | profile hrow hrow' hemail hkept =>
    subst hrow'
    exact hother hrow (UserRow.setProfile_id _ _ _).symm
      (UserRow.setProfile_passwordHash _ _ _) hkept
  | @password row plain hrow hrow' hset =>
    refine ⟨env.supply.salt w.calls 0, plain, ?_, ?_⟩
    · rw [hset]
      exact Function.update_self _ _ _
    · rw [hrow', UserRow.setPassword_passwordHash]
  | @added plain raw hemail hhash hset =>
    refine ⟨env.supply.salt w.calls 0, plain, ?_, hhash⟩
    rw [hset]
    exact Function.update_self _ _ _

/-- A call keeps the normal form of the addresses. -/
theorem Effect.normal (hidem : ∀ text, env.normalize (env.normalize text) = env.normalize text)
    (hw : w.Wf env) (hn : w.Normal env) (h : Effect env t w c out w') : w'.Normal env := by
  intro row' hrow'
  cases h.rows hw hrow' with
  | same hrow => exact hn row' hrow
  | profile hrow hset hemail =>
    rw [hset, UserRow.setProfile_email]
    rcases hemail with hsame | ⟨raw, hraw⟩
    · rw [hsame]
      exact hn _ hrow
    · rw [hraw]
      exact hidem raw
  | password hrow hset =>
    rw [hset, UserRow.setPassword_email]
    exact hn _ hrow
  | added hemail =>
    rw [hemail]
    exact hidem _

/-! ## What a login answers -/

/-- Neither guard refuses a login to `email` from `device`. -/
def LoginUseCase.Admitted (env : Env) (limits : Limits) (t : Time) (email : String)
    (device : DeviceInfoDTO) : Prop :=
  LoginUseCase.ipRefusal env limits t device = none ∧
    LoginUseCase.accountRefusal env limits t email = none

/-- A login that the guards let pass succeeds just if the credentials are accepted. -/
theorem login_isOk (hw : w.Wf env) {data : LoginDTO} {device : Option DeviceInfoDTO}
    (hadmitted : LoginUseCase.Admitted env w.limits t (env.normalize data.email)
      (device.getD {})) :
    (runCall env w t (.login data device)).2.isOk =
      LoginUseCase.accepts env (w.db.userByEmail (env.normalize data.email))
        data.password := by
  obtain ⟨hip, haccount⟩ := hadmitted
  have hshows := (login_shows (t := t) hw data device).seen
  rw [← seen_isOk, hshows]
  simp only [LoginUseCase.shown, hip, haccount]
  split_ifs with haccepts
  · exact haccepts.symm
  · exact (Bool.eq_false_iff.2 haccepts).symm

/-- The verdict on the credentials, in terms of the passwords. -/
theorem accepts_iff_known (hw : w.Wf env) {known : Passwords} (hs : w.Stores env known)
    (hverify : ∀ salt p q, env.hasher.verify p (env.hasher.hash salt q) = true ↔ p = q)
    (email password : String) :
    LoginUseCase.accepts env (w.db.userByEmail email) password = true ↔
      ∃ row ∈ w.db.users, row.email = email ∧ row.isActive = true ∧
        known row.id = some password := by
  rw [LoginUseCase.accepts_iff]
  constructor
  · intro haccepts
    obtain ⟨user, huser, hactive, hchecks⟩ := haccepts
    obtain ⟨row, hrow, rfl⟩ := Option.map_eq_some_iff.1 huser
    have hmem := List.mem_of_find?_eq_some hrow
    have hemail : row.email = email := by simpa using List.find?_some hrow
    obtain ⟨salt, plain, hknown, hhash⟩ := hs row hmem
    have hchecks' : env.hasher.verify password row.passwordHash = true := hchecks
    rw [hhash, hverify] at hchecks'
    exact ⟨row, hmem, hemail, hactive, hchecks' ▸ hknown⟩
  · intro hrow
    obtain ⟨row, hmem, hemail, hactive, hknown⟩ := hrow
    obtain ⟨salt, plain, hplain, hhash⟩ := hs row hmem
    obtain rfl : password = plain := Option.some.inj (hknown.symm.trans hplain)
    refine ⟨w.db.userToEntity row, ?_, hactive, ?_⟩
    · rw [← hemail]
      exact hw.db.userByEmail_of_mem hmem
    · show env.hasher.verify password row.passwordHash = true
      rw [hhash, hverify]

/-! ## Spellings of an address -/

/-- Two calls that differ only in how they spell an address. -/
inductive Call.Respells (env : Env) : Call → Call → Prop
  | register {data device raw} (h : env.normalize raw = env.normalize data.email) :
      Respells env (.register data device) (.register { data with email := raw } device)
  | login {data device raw} (h : env.normalize raw = env.normalize data.email) :
      Respells env (.login data device) (.login { data with email := raw } device)
  | forgotPassword {email device raw} (h : env.normalize raw = env.normalize email) :
      Respells env (.forgotPassword email device) (.forgotPassword raw device)
  | updateUser {userId data email raw} (hdata : data.email = some email)
      (h : env.normalize raw = env.normalize email) :
      Respells env (.updateUser userId data)
        (.updateUser userId { data with email := some raw })

/-- A use case that takes an address goes by its normal form. -/
theorem Call.Respells.program {c' : Call} (h : c.Respells env c') :
    c'.program env = c.program env := by
  cases h with
  | register h => simp only [Call.program, registerUser, h]
  | login h => simp only [Call.program, Users.login, h]
  | forgotPassword h => simp only [Call.program, Users.forgotPassword, h]
  | updateUser hdata h =>
    simp only [Call.program, Users.updateUser, UpdateUserUseCase.changeEmail, hdata, h]

/-! ## Runs -/

/-- The accounts agree with the passwords of the run. -/
theorem runCalls_stores
    (hidem : ∀ text, env.normalize (env.normalize text) = env.normalize text)
    {known : Passwords} (hw : w.Wf env) (hs : w.Stores env known) (hn : w.Normal env)
    (calls : Calls) :
    (runCalls env w calls).Wf env ∧ (runCalls env w calls).Normal env ∧
      (runCalls env w calls).Stores env (passwordsAfter env w known calls) := by
  induction calls generalizing w known with
  | nil => exact ⟨hw, hn, hs⟩
  | cons s rest ih =>
    obtain ⟨w', h, he⟩ := runCall_effect env w s.1 s.2
    have hs' : w'.Stores env
        (known.set (s.2.setsPassword env w (runCall env w s.1 s.2).2)) := h.stores hw hs
    have hn' : w'.Normal env := h.normal hidem hw hn
    have hdb : (runCall env w s.1 s.2).1.db = w'.db := by rw [he, World.nextCall_db]
    refine ih (runCall_wf hw s.1 s.2) ?_ ?_
    · unfold World.Stores
      rw [hdb]
      exact hs'
    · unfold World.Normal
      rw [hdb]
      exact hn'

/-- After any run a login that is not rate limited succeeds just if it presents the
password that the last successful `Register`, `ChangePassword` or `ResetPassword` gave
to an active account with that address; the stored addresses are in normal form; and
a call that takes an address goes by its normal form. -/
theorem login_is_password_store {w₀ : World} (h₀ : Initial env w₀) {seed : Passwords}
    (hseed : w₀.Stores env seed) (hnormal : w₀.Normal env)
    (hidem : ∀ text, env.normalize (env.normalize text) = env.normalize text)
    (hverify : ∀ salt p q, env.hasher.verify p (env.hasher.hash salt q) = true ↔ p = q)
    (calls : Calls) :
    let w := runCalls env w₀ calls
    (∀ t data (device : Option DeviceInfoDTO),
      LoginUseCase.Admitted env w.limits t (env.normalize data.email) (device.getD {}) →
      ((runCall env w t (.login data device)).2.isOk = true ↔
        ∃ row ∈ w.db.users, row.email = env.normalize data.email ∧ row.isActive = true ∧
          passwordsAfter env w₀ seed calls row.id = some data.password)) ∧
      w.Normal env ∧
      ∀ t c c', Call.Respells env c c' → runCall env w t c' = runCall env w t c := by
  intro w
  obtain ⟨hw, hn, hs⟩ := runCalls_stores hidem h₀.wf hseed hnormal calls
  refine ⟨fun t data device hadmitted => ?_, hn, fun t c c' hspell => ?_⟩
  · rw [login_isOk hw hadmitted]
    exact accepts_iff_known hw hs hverify _ _
  · simp only [runCall, hspell.program]

/-- Alice changes her password and logs in with the new one. -/
theorem login_is_password_store_changed :
    let calls : Calls := [(1, .changePassword 1 ⟨"secret", "new", "new"⟩ none)]
    let seed : Passwords := fun _ => some "secret"
    ((runCall Sample.env (runCalls Sample.env Sample.world calls) 2
        (.login ⟨"alice", "new"⟩ none)).2.isOk = true ↔
      ∃ row ∈ (runCalls Sample.env Sample.world calls).db.users,
        row.email = Sample.env.normalize "alice" ∧ row.isActive = true ∧
          passwordsAfter Sample.env Sample.world seed calls row.id = some "new") := by
  intro calls seed
  have hseed : Sample.world.Stores Sample.env seed := by
    intro row hrow
    obtain rfl := List.mem_singleton.1 hrow
    exact ⟨"", "secret", rfl, rfl⟩
  have hnormal : Sample.world.Normal Sample.env := fun row _ => rfl
  have hverify (salt p q : String) :
      Sample.env.hasher.verify p (Sample.env.hasher.hash salt q) = true ↔ p = q := by
    simp [Sample.env]
  have hadmitted : LoginUseCase.Admitted Sample.env
      (runCalls Sample.env Sample.world calls).limits 2 (Sample.env.normalize "alice") {} := by
    constructor
    · decide +kernel
    · decide +kernel
  exact (login_is_password_store Sample.initial hseed hnormal (fun _ => rfl) hverify calls).1
    2 ⟨"alice", "new"⟩ none hadmitted

end VideoSite.Users
