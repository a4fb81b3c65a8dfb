import VideoSite.Users.Activity
import VideoSite.Users.OneTimeTokens
import VideoSite.Users.PasswordStore

/-!
# What `UpdateUser` changes

The request names an address, a user name and a display name, and may leave out each of them.
After the edits the account gets a fresh confirmation link if it is unverified then, which is
not the same as having a new address.

* `UpdateUserUseCase.keepsRest`: columns that were not asked for stay, and so do the other
  accounts and the other tables.
* `profile_edited_iff`: the links change just as the address does, just if the account was
  verified or its address changes.
-/

namespace VideoSite.Users

variable {env : Env} {t : Time} {w w' : World} {data : UpdateUserDTO} {row row' : UserRow}

/-! ## What was asked for -/

/-- The request names an address that is not the stored one. -/
def UpdateUserDTO.Moves (env : Env) (data : UpdateUserDTO) (row : UserRow) : Prop :=
  ∃ email, data.email = some email ∧ env.normalize email ≠ row.email

/-- Whatever the request leaves out is as it was: in the row of the account, which turned
from `row` into `row'`, and in the other rows and tables. -/
structure KeepsRest (data : UpdateUserDTO) (w w' : World) (row row' : UserRow) : Prop where
  email : data.email = none → row'.email = row.email
  username : data.username = none → row'.username = row.username
  displayName : data.displayName = none → row'.displayName = row.displayName
  passwordHash : row'.passwordHash = row.passwordHash
  isActive : row'.isActive = row.isActive
  isSuperuser : row'.isSuperuser = row.isSuperuser
  visitorId : row'.visitorId = row.visitorId
  others : w'.db.users = w.db.users.map fun other => if other.id = row.id then row' else other
  roles : w'.db.rbac = w.db.rbac
  sessions : w'.db.sessions = w.db.sessions
  auditLogs : w'.db.auditLogs = w.db.auditLogs

/-- Nothing happened to the confirmation of the address. -/
structure LinksKept (w w' : World) (row row' : UserRow) : Prop where
  verified : row'.emailVerifiedAt = row.emailVerifiedAt
  tokens : w'.db.securityTokens = w.db.securityTokens
  outbox : w'.outbox = w.outbox

/-- A confirmation link of the account that can still be used. -/
def SecurityToken.IsLinkOf (token : SecurityToken) (u : UserId) : Prop :=
  token.userId = u ∧ token.purpose = .emailVerification ∧ token.usedAt = none

instance (token : SecurityToken) (u : UserId) : Decidable (token.IsLinkOf u) :=
  inferInstanceAs (Decidable (_ ∧ _ ∧ _))

/-- The account has to confirm `email`: its links are spent, and a fresh one was mailed. -/
structure LinkRenewed (env : Env) (t : Time) (w w' : World) (row' : UserRow)
    (email : String) : Prop where
  moved : row'.email = email
  unverified : row'.emailVerifiedAt = none
  link : ∃ token secret,
    w'.db.securityTokens = (w.db.securityTokens.map fun old =>
      if old.IsLinkOf row'.id then old.spend t else old) ++ [token] ∧
    token.IsLinkOf row'.id ∧ token.tokenHash = env.tokenHash secret ∧
    w'.outbox = w.outbox ++ [EmailVerificationIssuer.message env email secret]

/-- `UpdateUser` has changed what it was asked to, and the links with the address. -/
structure ChangesOnly (env : Env) (t : Time) (data : UpdateUserDTO) (w w' : World)
    (row row' : UserRow) : Prop where
  rest : KeepsRest data w w' row row'
  kept : ¬ data.Moves env row → LinksKept w w' row row'
  renewed : ∀ email, data.email = some email → env.normalize email ≠ row.email →
    LinkRenewed env t w w' row' (env.normalize email)

/-! ## The row -/

theorem UserRow.setProfile_profile (row : UserRow) (p : Profile) (stamp : Time) :
    (row.setProfile p stamp).profile = p := by
  unfold setProfile
  split_ifs with hsame
  · exact hsame
  · rfl

theorem UserRow.setProfile_visitorId (row : UserRow) (p : Profile) (stamp : Time) :
    (row.setProfile p stamp).visitorId = row.visitorId := by
  unfold setProfile
  split <;> rfl

/-- The address after the edits is another one just if the request moves the account. -/
theorem UpdateUserUseCase.Edits.moves_iff {db : Db} {edited : User}
    (h : UpdateUserUseCase.Edits env db data (db.userToEntity row) edited) :
    data.Moves env row ↔ edited.email ≠ row.email := by
  have hedited : edited.email = (data.email.map env.normalize).getD row.email := h.email
  rw [hedited, UpdateUserDTO.Moves]
  cases data.email with
  | none => simp
  | some email => simp

/-- The columns after the edits. -/
theorem UpdateUserUseCase.keepsRest {edited : User} (hw : w.Wf env) (hrow : row ∈ w.db.users)
    (hedits : UpdateUserUseCase.Edits env w.db data (w.db.userToEntity row) edited)
    (hdb : w'.db = (UpdateUserUseCase.finished env t w (w.db.setProfile row edited.profile t)
      (w.db.userToEntity (row.setProfile edited.profile t))).db) :
    KeepsRest data w w' row (row.setProfile edited.profile t) := by
  have hprofile := UserRow.setProfile_profile row edited.profile t
  constructor
  · intro hnone
    have hemail : edited.email = row.email := by
      rw [hedits.email, hnone]
      rfl
    exact (congrArg Profile.email hprofile).trans hemail
  · intro hnone
    have husername : edited.username = row.username := by
      rw [hedits.username, hnone]
      rfl
    exact (congrArg Profile.username hprofile).trans husername
  · intro hnone
    have hname : edited.displayName = row.displayName := by
      rw [hedits.displayName, hnone]
      rfl
    exact (congrArg Profile.displayName hprofile).trans hname
  · exact UserRow.setProfile_passwordHash _ _ _
  · have hactive : edited.isActive = row.isActive := by rw [hedits.rest]; rfl
    exact (congrArg Profile.isActive hprofile).trans hactive
  · have hsuper : edited.isSuperuser = row.isSuperuser := by rw [hedits.rest]; rfl
    exact (congrArg Profile.isSuperuser hprofile).trans hsuper
  · exact UserRow.setProfile_visitorId _ _ _
  · rw [hdb, (UpdateUserUseCase.finished_frame _ _ _).1,
      hw.db.setProfile_users hrow]
    apply List.map_congr_left
    intro other hother
    split_ifs with hid
    · rw [hw.db.row_unique hother hrow hid]
    · rfl
  · rw [hdb, (UpdateUserUseCase.finished_frame _ _ _).2.2.1,
      (Db.setProfile_frame _ _ _ _).2.2]
  · rw [hdb, (UpdateUserUseCase.finished_frame _ _ _).2.1,
      (Db.setProfile_frame _ _ _ _).1]
  · rw [hdb, UpdateUserUseCase.finished_auditLogs, Db.setProfile_auditLogs]

/-! ## The links -/

/-- `issue` spends the links of the account and adds a fresh one. -/
theorem EmailVerificationIssuer.issued_tokens {db : Db}
    (hids : (db.securityTokens.map (·.id)).Nodup) (n k : Nat) (u : UserId) :
    (EmailVerificationIssuer.issued env t n k db u).securityTokens =
      (db.securityTokens.map fun old => if old.IsLinkOf u then old.spend t else old) ++
        [EmailVerificationIssuer.row env t n k u] := by
  have hspent : (db.useWhere (Statement.invalidateWhere u .emailVerification) t).securityTokens =
      db.securityTokens.map fun old => if old.IsLinkOf u then old.spend t else old := by
    rw [Db.useWhere_tokens]
    apply List.map_congr_left
    intro old hold
    split_ifs with hlink
    · have hin : old.id ∈ tokenIds db (Statement.invalidateWhere u .emailVerification) :=
        List.mem_map_of_mem (List.mem_filter.2
          ⟨hold, Statement.invalidateWhere_iff.2 hlink⟩)
      unfold SecurityToken.useIn
      rw [if_pos ⟨hin, hlink.2.2⟩]
      rfl
    · rcases SpentAt.useWhere hids (Statement.invalidateWhere u .emailVerification) old hold
        with hsame | ⟨hcond, -⟩
      · exact hsame
      · exact absurd (Statement.invalidateWhere_iff.1 hcond) hlink
  rw [← hspent]
  rfl

/-- An account that is verified after the edits keeps its address. -/
theorem UpdateUserUseCase.linksKept {edited : User}
    (hedits : UpdateUserUseCase.Edits env w.db data (w.db.userToEntity row) edited)
    (hverified : edited.emailVerifiedAt.isSome = true)
    (hdb : w'.db = (UpdateUserUseCase.finished env t w (w.db.setProfile row edited.profile t)
      (w.db.userToEntity (row.setProfile edited.profile t))).db)
    (houtbox : w'.outbox = (UpdateUserUseCase.finished env t w
      (w.db.setProfile row edited.profile t)
      (w.db.userToEntity (row.setProfile edited.profile t))).outbox) :
    ¬ data.Moves env row ∧ LinksKept w w' row (row.setProfile edited.profile t) := by
  have hprofile := UserRow.setProfile_profile row edited.profile t
  have hstamp : (row.setProfile edited.profile t).emailVerifiedAt = edited.emailVerifiedAt :=
    congrArg Profile.emailVerifiedAt hprofile
  have hsame : edited.email = row.email := by
    by_contra hne
    have hnone : edited.emailVerifiedAt = none := by
      rw [hedits.verified]
      exact if_neg hne
    rw [hnone] at hverified
    cases hverified
  have hfinished : UpdateUserUseCase.finished env t w (w.db.setProfile row edited.profile t)
      (w.db.userToEntity (row.setProfile edited.profile t)) =
        w.withDb (w.db.setProfile row edited.profile t) := by
    apply if_pos
    rw [← hstamp] at hverified
    exact hverified
  refine ⟨fun h => (hedits.moves_iff.1 h) hsame, ?_, ?_, ?_⟩
  · rw [hstamp, hedits.verified]
    exact if_pos hsame
  · rw [hdb, hfinished]
    exact (Db.setProfile_frame _ _ _ _).2.1
  · rw [houtbox, hfinished]
    rfl

/-- An account that is unverified after the edits gets a fresh link. -/
theorem UpdateUserUseCase.linkRenewed {edited : User} (hids : w.db.TokenIds env.supply w.calls)
    (hverified : edited.emailVerifiedAt = none)
    (hdb : w'.db = (UpdateUserUseCase.finished env t w (w.db.setProfile row edited.profile t)
      (w.db.userToEntity (row.setProfile edited.profile t))).db)
    (houtbox : w'.outbox = (UpdateUserUseCase.finished env t w
      (w.db.setProfile row edited.profile t)
      (w.db.userToEntity (row.setProfile edited.profile t))).outbox) :
    LinkRenewed env t w w' (row.setProfile edited.profile t) edited.email := by
  have hprofile := UserRow.setProfile_profile row edited.profile t
  have hstamp : (row.setProfile edited.profile t).emailVerifiedAt = none :=
    (congrArg Profile.emailVerifiedAt hprofile).trans hverified
  have hemail : (row.setProfile edited.profile t).email = edited.email :=
    congrArg Profile.email hprofile
  have hfinished : UpdateUserUseCase.finished env t w (w.db.setProfile row edited.profile t)
      (w.db.userToEntity (row.setProfile edited.profile t)) =
        (w.withDb (EmailVerificationIssuer.issued env t w.calls 0
          (w.db.setProfile row edited.profile t) (row.setProfile edited.profile t).id)).mailed
          (EmailVerificationIssuer.message env (row.setProfile edited.profile t).email
            (env.supply.secret w.calls 0)) := by
    apply if_neg
    show ¬ (row.setProfile edited.profile t).emailVerifiedAt.isSome = true
    rw [hstamp]
    exact Bool.false_ne_true
  have hframe : (w.db.setProfile row edited.profile t).securityTokens = w.db.securityTokens :=
    (Db.setProfile_frame _ _ _ _).2.1
  refine ⟨hemail, hstamp, EmailVerificationIssuer.row env t w.calls 0
    (row.setProfile edited.profile t).id, env.supply.secret w.calls 0, ?_, ⟨rfl, rfl, rfl⟩, rfl, ?_⟩
  · rw [hdb, hfinished, World.mailed_db, World.withDb_db,
      EmailVerificationIssuer.issued_tokens (hframe ▸ hids.unique), hframe]
  · rw [houtbox, hfinished, hemail]
    rfl

/-- A renewed link is a change of the table. -/
theorem LinkRenewed.not_kept {email : String} (h : LinkRenewed env t w w' row' email) :
    ¬ LinksKept w w' row row' := by
  intro hkept
  obtain ⟨token, secret, htokens, -⟩ := h.link
  have hlength := congrArg List.length (hkept.tokens.symm.trans htokens)
  simp at hlength

/-! ## A call -/

theorem runCalls_tokenIds (hw : w.Wf env) (hids : w.db.TokenIds env.supply w.calls)
    (calls : Calls) :
    (runCalls env w calls).db.TokenIds env.supply (runCalls env w calls).calls := by
  induction calls generalizing w with
  | nil => exact hids
  | cons s rest ih => exact ih (runCall_wf hw s.1 s.2) (runCall_tokenIds hw hids s.1 s.2)

/-- A call that succeeds makes the edits that it was asked for. -/
theorem updateUser_done {u : UserId} {a : Answer}
    (h : (runCall env w t (.updateUser u data)).2 = .ok a) :
    ∃ row edited, w.db.userRow? u = some row ∧
      UpdateUserUseCase.Edits env w.db data (w.db.userToEntity row) edited ∧
      (runCall env w t (.updateUser u data)).1.db =
        (UpdateUserUseCase.finished env t w (w.db.setProfile row edited.profile t)
          (w.db.userToEntity (row.setProfile edited.profile t))).db ∧
      (runCall env w t (.updateUser u data)).1.outbox =
        (UpdateUserUseCase.finished env t w (w.db.setProfile row edited.profile t)
          (w.db.userToEntity (row.setProfile edited.profile t))).outbox := by
  obtain ⟨after, heffect, hrun⟩ := runCall_effect env w t (.updateUser u data)
  rw [h] at heffect
  rw [hrun]
  cases heffect with
  | observed hc => cases hc
  | @userUpdated _ _ user edited row _ huser hrow hedits =>
    obtain rfl := userById_of_row huser hrow
    exact ⟨row, edited, hrow, hedits, rfl, rfl⟩

/-- The row of the account afterwards. -/
theorem KeepsRest.userRow? (hw : w'.Wf env) (hrow : row ∈ w.db.users)
    (hid : row'.id = row.id) (h : KeepsRest data w w' row row') :
    w'.db.userRow? row.id = some row' := by
  have hmem : row' ∈ w'.db.users := by
    rw [h.others]
    exact List.mem_map.2 ⟨row, hrow, if_pos rfl⟩
  rw [← hid]
  exact hw.db.userRow?_of_mem hmem

/-- In every reachable state, a successful `UpdateUser` changes what it was asked to, and the
confirmation links with the address, just if the account was verified or the address that
the request names is a new one. -/
theorem profile_edited_iff (env : Env) (w₀ : World) (hinit : Initial env w₀) (calls : Calls)
    (t : Time) (u : UserId) (data : UpdateUserDTO) (a : Answer) :
    let w := runCalls env w₀ calls
    let r := runCall env w t (.updateUser u data)
    r.2 = .ok a →
      ∃ row row', w.db.userRow? u = some row ∧ r.1.db.userRow? u = some row' ∧
        (ChangesOnly env t data w r.1 row row' ↔
          row.emailVerifiedAt ≠ none ∨ data.Moves env row) := by
  intro w r hok
  have hw : w.Wf env := runCalls_wf hinit.wf calls
  have hids : w.db.TokenIds env.supply w.calls := runCalls_tokenIds hinit.wf hinit.tokenIds calls
  obtain ⟨row, edited, hrow, hedits, hdb, houtbox⟩ := updateUser_done hok
  have hmem : row ∈ w.db.users := Db.mem_of_userRow? hrow
  have hrest : KeepsRest data w r.1 row (row.setProfile edited.profile t) :=
    UpdateUserUseCase.keepsRest hw hmem hedits hdb
  have hrow' : r.1.db.userRow? u = some (row.setProfile edited.profile t) := by
    rw [← userRow?_id hrow]
    exact hrest.userRow? (runCall_wf hw t _) hmem (UserRow.setProfile_id _ _ _)
  refine ⟨row, row.setProfile edited.profile t, hrow, hrow', ?_⟩
  cases hverified : edited.emailVerifiedAt with
  | some moment =>
    -- verified afterwards: the address is the one it was verified for
    obtain ⟨hstays, hkept⟩ := UpdateUserUseCase.linksKept hedits (by rw [hverified]; rfl) hdb
      houtbox
    have hbefore : row.emailVerifiedAt ≠ none := by
      rw [← hkept.verified, UserRow.setProfile_emailVerifiedAt]
      show edited.emailVerifiedAt ≠ none
      rw [hverified]
      exact Option.some_ne_none _
    refine iff_of_true ⟨hrest, fun _ => hkept, ?_⟩ (.inl hbefore)
    intro email hemail hne
    exact absurd ⟨email, hemail, hne⟩ hstays
  | none =>
    have hrenewed := UpdateUserUseCase.linkRenewed hids hverified hdb houtbox
    by_cases hmoves : data.Moves env row
    · refine iff_of_true ⟨hrest, absurd hmoves, ?_⟩ (.inr hmoves)
      intro email hemail hne
      have hedited : edited.email = env.normalize email := by
        rw [hedits.email, hemail]
        rfl
      rw [← hedited]
      exact hrenewed
    · -- unverified before and afterwards: a fresh link nobody asked for
      have hsame : edited.email = row.email := by
        by_contra hne
        exact hmoves (hedits.moves_iff.2 hne)
      have hbefore : row.emailVerifiedAt = none := by
        have hstamp : edited.emailVerifiedAt = row.emailVerifiedAt := by
          rw [hedits.verified]
          exact if_pos hsame
        rw [← hstamp, hverified]
      refine iff_of_false (fun h => hrenewed.not_kept (h.kept hmoves)) ?_
      rintro (hverified | hmoved)
      · exact hverified hbefore
      · exact hmoves hmoved

/-- Alice takes another address, and then a display name. -/
def Sample.moves : UpdateUserDTO where
  email := some "alice@new"

def Sample.renamesHerself : UpdateUserDTO where
  displayName := some "Alice"

/-- The new address is another one, so it has to be confirmed. -/
theorem profile_edited_moves :
    ∃ a row row', (runCall Sample.env Sample.world 10 (.updateUser 1 Sample.moves)).2 = .ok a ∧
      Sample.world.db.userRow? 1 = some row ∧
      (runCall Sample.env Sample.world 10 (.updateUser 1 Sample.moves)).1.db.userRow? 1 =
        some row' ∧
      (ChangesOnly Sample.env 10 Sample.moves Sample.world
          (runCall Sample.env Sample.world 10 (.updateUser 1 Sample.moves)).1 row row' ↔
        row.emailVerifiedAt ≠ none ∨ Sample.moves.Moves Sample.env row) := by
  have hok : (runCall Sample.env Sample.world 10 (.updateUser 1 Sample.moves)).2.isOk = true := by
    decide +kernel
  cases hanswer : (runCall Sample.env Sample.world 10 (.updateUser 1 Sample.moves)).2 with
  | error e =>
    rw [hanswer] at hok
    cases hok
  | ok a =>
    obtain ⟨row, row', h⟩ := profile_edited_iff Sample.env Sample.world Sample.initial [] 10 1
      Sample.moves a hanswer
    exact ⟨a, row, row', rfl, h⟩

/-- The display name spends the link that was mailed for the address. -/
theorem profile_edited_name :
    let w := runCalls Sample.env Sample.world [(10, .updateUser 1 Sample.moves)]
    let r := runCall Sample.env w 11 (.updateUser 1 Sample.renamesHerself)
    r.2.isOk = true ∧ (∃ link ∈ w.db.securityTokens, link.IsLinkOf 1 ∧
        link ∉ r.1.db.securityTokens) ∧
      ∀ row row', ¬ ChangesOnly Sample.env 11 Sample.renamesHerself w r.1 row row' := by
  intro w r
  have hspent : ∃ link ∈ w.db.securityTokens, link.IsLinkOf 1 ∧
      link ∉ r.1.db.securityTokens := by
    decide +kernel
  refine ⟨by decide +kernel, hspent, fun row row' h => ?_⟩
  obtain ⟨link, hlink, -, hgone⟩ := hspent
  have hstays : ¬ Sample.renamesHerself.Moves Sample.env row := by
    rintro ⟨email, hemail, -⟩
    cases hemail
  rw [(h.kept hstays).tokens] at hgone
  exact hgone hlink

end VideoSite.Users
