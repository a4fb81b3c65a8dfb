import VideoSite.Users.Inventory
import VideoSite.Users.Lifetime

/-!
# A link in a mail is a link in the database

Three use cases mail a one-time link: `Register`, `UpdateUser` and `ForgotPassword`.
Each stores the token inside its transaction and sends the mail after the commit.

* `Call.follows_mail` is the order that every call keeps: the secret of a mail has been
  drawn, stored and committed before.
* `mailed_links_are_stored` says what comes of it: at every moment of the life of the
  service, whatever runs side by side and wherever the process is stopped, each mail
  that was sent carries a secret whose token the database has.
-/

namespace VideoSite.Users

open Effects Program Protocol

variable {env : Env} {n : Nat}

/-- The mail with a link of either kind. -/
def linkMail (env : Env) (address secret : String) : TokenPurpose → EmailMessageDTO
  | .emailVerification => EmailVerificationIssuer.message env address secret
  | .passwordReset => ForgotPasswordUseCase.message env address secret

/-- The database has the token of this secret. -/
def Db.Knows (env : Env) (db : Db) (secret : String) (purpose : TokenPurpose) : Prop :=
  ∃ token ∈ db.securityTokens, token.tokenHash = env.tokenHash secret ∧ token.purpose = purpose

/-- A token that is stored stays. -/
theorem Db.Knows.later {db db' : Db} {secret : String} {purpose : TokenPurpose}
    (h : db.Knows env secret purpose) (hlater : db.Becomes db') :
    db'.Knows env secret purpose := by
  obtain ⟨token, htoken, hhash, hpurpose⟩ := h
  obtain ⟨token', htoken', hbecomes⟩ := hlater.securityTokens.exists_of_mem htoken
  refine ⟨token', htoken', ?_⟩
  rcases hbecomes with rfl | ⟨-, moment, rfl⟩
  · exact ⟨hhash, hpurpose⟩
  · exact ⟨hhash, hpurpose⟩

namespace MailedLinks

/-! ## The protocol -/

/-- How far a call is with its link. -/
inductive State where
  | quiet
  | drawn (secret : String)
  | stored (secret : String) (purpose : TokenPurpose)
  | committed (secret : String) (purpose : TokenPurpose)

/-- What a call may do next: only a drawn secret is stored, and only a committed one is
mailed. -/
def May (env : Env) : State → Op → Prop
  | .drawn secret, .sql (.tokensAdd token) => token.tokenHash = env.tokenHash secret
  | _, .sql (.tokensAdd _) => False
  | .committed secret purpose, .mailSend message =>
      ∃ address, message = linkMail env address secret purpose
  | _, .mailSend _ => False
  | _, _ => True

/-- A drawn secret comes with its digest. -/
def expects (env : Env) : (op : Op) → op.Res → Prop
  | .generateSecret, r => r.hashed = env.tokenHash r.plain
  | _, _ => True

/-- Where the answer leads. -/
def next : State → (op : Op) → op.Res → State
  | _, .generateSecret, r => .drawn r.plain
  | .drawn secret, .sql (.tokensAdd token), .ok _ => .stored secret token.purpose
  | .stored secret purpose, .commit, _ => .committed secret purpose
  | .stored _ _, .close, _ => .quiet
  | q, _, _ => q

@[reducible] def protocol (env : Env) : Protocol sig where
  State := State
  may := May env
  expects := fun _ => expects env
  next := next

/-- Operations that have nothing to do with links. -/
theorem quiet_of_asks {c : Call} (hc : c.mailsLinks = false) {op : Op} (h : c.Asks env op) :
    May env .quiet op ∧ ∀ r, next .quiet op r = .quiet := by
  cases op with
  | sql s =>
    cases s with
    | tokensAdd => exact absurd (hc.symm.trans h) Bool.false_ne_true
    | _ => exact ⟨trivial, fun _ => rfl⟩
  | generateSecret | mailSend => exact absurd (hc.symm.trans h) Bool.false_ne_true
  | _ => exact ⟨trivial, fun _ => rfl⟩

theorem verification_mail (env : Env) (address secret : String) :
    ∃ address', EmailVerificationIssuer.message env address secret =
      EmailVerificationIssuer.message env address' secret := ⟨address, rfl⟩

theorem register_follows (data : RegisterUserDTO) (device : Option DeviceInfoDTO) :
    (protocol env).Follows ((Call.register data device).program env) (fun _ _ => True)
      State.quiet := by
  rcases hip : (device.getD {}).ipAddress with - | ip <;>
    simp +contextual [registerUser, RegisterUserUseCase.checkRateLimit, chargeIpOrRefuse, hip,
      chargeOrRefuse, RegisterUserUseCase.grantDefault, EmailVerificationIssuer.issue,
      EmailVerificationIssuer.send, audit.record, May, expects, next, linkMail, Option.forall,
      verification_mail env]

theorem updateUser_follows (userId : UserId) (data : UpdateUserDTO) :
    (protocol env).Follows ((Call.updateUser userId data).program env) (fun _ _ => True)
      State.quiet := by
  rcases hemail : data.email with - | email <;> rcases hname : data.username with - | name <;>
    simp +contextual [Users.updateUser, UpdateUserUseCase.changeEmail,
      UpdateUserUseCase.changeUsername, UpdateUserUseCase.issueIfUnverified,
      EmailVerificationIssuer.issue, UpdateUserUseCase.sendPending, EmailVerificationIssuer.send,
      May, expects, next, linkMail, hemail, hname, verification_mail env]

theorem forgotPassword_follows (email : String) (device : Option DeviceInfoDTO) :
    (protocol env).Follows ((Call.forgotPassword email device).program env) (fun _ _ => True)
      State.quiet := by
  have hlimits : (ForgotPasswordUseCase.checkRateLimits env (env.normalize email)
      (device.getD {})).Only fun op : Op => ∃ key policy, op = .limiterHit key policy :=
    Only.bind (only_chargeOrRefuse ⟨_, _, rfl⟩ _) fun _ =>
      only_chargeIpOrRefuse (fun _ => ⟨_, _, rfl⟩) _ _ _
  have hissue (owner : Option User) {Q : State → Except Failure (Option GeneratedSecret) → Prop}
      (hquiet : Q .quiet (.ok none)) (herror : ∀ q e, Q q (.error e))
      (hissued : ∀ secret, Q (.committed secret.plain .passwordReset) (.ok (some secret))) :
      (protocol env).Follows (ForgotPasswordUseCase.issue env owner) Q State.quiet := by
    cases owner with
    | none => exact hquiet
    | some user =>
      simp [ForgotPasswordUseCase.issue, May, expects, next]
      exact fun secret hsecret => ⟨hsecret, fun _ => hissued secret, fun e => herror _ e⟩
  simp only [Call.program, forgotPassword, monad_bind, follows_map, follows_bind]
  refine Follows.of_only hlimits (fun op h => ?_) fun out => ?_
  · obtain ⟨key, policy, rfl⟩ := h
    exact ⟨trivial, fun _ => rfl⟩
  · cases out with
    | error e => trivial
    | ok _ =>
      simp only [followsThen_ok, follows_withUow, follows_bind, follows_usersGetByEmail]
      refine ⟨trivial, fun owner _ => ?_⟩
      show (protocol env).Follows _ _ State.quiet
      refine hissue _ ⟨trivial, fun _ _ => trivial⟩ (fun q e => ⟨?_, fun _ _ => trivial⟩)
        fun secret => ⟨trivial, fun _ _ => ⟨⟨_, rfl⟩, fun _ _ => trivial⟩⟩
      cases q <;> trivial

/-- Every call keeps to the protocol. -/
theorem follows_mail (c : Call) :
    (protocol env).Follows (c.program env) (fun _ _ => True) State.quiet := by
  by_cases hc : c.mailsLinks = false
  · exact Follows.of_only c.asks (fun op h => quiet_of_asks hc h) fun _ => trivial
  · cases c with
    | register data device => exact register_follows data device
    | updateUser userId data => exact updateUser_follows userId data
    | forgotPassword email device => exact forgotPassword_follows email device
    | _ => exact absurd rfl hc

/-! ## The invariant -/

variable {t : Time} {rows : List RowKey} {w : World} {tx : Tx} {db : Db} {q : State}

/-- What the transaction of a call and the database have of its link. -/
def Has (env : Env) (db : Db) : State → Tx → Prop
  | .stored secret purpose, tx => ∃ row, .insertToken row ∈ tx.pending ∧
      row.tokenHash = env.tokenHash secret ∧ row.purpose = purpose
  | .committed secret purpose, _ => db.Knows env secret purpose
  | _, _ => True

theorem Has.later {db' : Db} (h : Has env db q tx) (hlater : db.Becomes db') :
    Has env db' q tx := by
  cases q with
  | committed secret purpose => exact h.later hlater
  | _ => exact h

/-- A transaction that has written more. -/
theorem Has.extend {tx' : Tx} (h : Has env db q tx)
    (hpending : ∀ write ∈ tx.pending, write ∈ tx'.pending) : Has env db q tx' := by
  cases q with
  | stored secret purpose =>
    obtain ⟨row, hrow, hrest⟩ := h
    exact ⟨row, hpending _ hrow, hrest⟩
  | _ => exact h

/-- A token that a transaction has inserted is there in its eyes. -/
theorem knows_view {secret : String} {purpose : TokenPurpose}
    (h : Has env db (.stored secret purpose) tx) : (tx.view db).Knows env secret purpose := by
  obtain ⟨row, hrow, hhash, hpurpose⟩ := h
  obtain ⟨db', hlater⟩ := Db.Becomes.of_pending hrow db
  have hinserted : (Write.apply db' (.insertToken row)).Knows env secret purpose :=
    ⟨row, List.mem_append_right _ (List.mem_singleton_self row), hhash, hpurpose⟩
  exact hinserted.later hlater

/-- `tokens.add` keeps the row when it succeeds. -/
theorem has_tokensAdd {token stored : SecurityToken} {secret : String}
    (hhash : token.tokenHash = env.tokenHash secret)
    (hok : (perform env t (.sql (.tokensAdd token)) rows w tx).2 = .ok stored) :
    Has env db (.stored secret token.purpose)
      (perform env t (.sql (.tokensAdd token)) rows w tx).1.2 := by
  have hexec : perform env t (.sql (.tokensAdd token)) rows w tx =
      let row := token.withId (env.supply.rowId tx.call tx.draws)
      let r := Tx.insert (tx.begin_ t).draw (tx.view w.db) (.insertToken row) rows row
      ((w, r.1), r.2) := rfl
  rw [hexec] at hok ⊢
  dsimp only at hok ⊢
  rcases Tx.insert_cases (tx.begin_ t).draw (tx.view w.db)
    (.insertToken (token.withId (env.supply.rowId tx.call tx.draws))) rows
    (token.withId (env.supply.rowId tx.call tx.draws)) with ⟨c, h⟩ | ⟨-, h⟩
  · rw [h] at hok
    cases hok
  · rw [h]
    exact ⟨_, List.mem_append_right _ (List.mem_singleton_self _), hhash, rfl⟩

/-- One operation of a call. -/
theorem Has.perform {op : Op} (h : Has env w.db q tx) (hmay : May env q op) :
    Has env (Users.perform env t op rows w tx).1.1.db
      (next q op (Users.perform env t op rows w tx).2)
      (Users.perform env t op rows w tx).1.2 := by
  have hlater : w.db.Becomes (Users.perform env t op rows w tx).1.1.db := .perform t op rows w tx
  cases op with
  | generateSecret => cases q <;> trivial
  | commit =>
    cases q with
    | stored secret purpose => exact knows_view h
    | committed secret purpose => exact Db.Knows.later h hlater
    | _ => trivial
  | close => cases q <;> trivial
  | sql s =>
    have hstays : Has env (Users.perform env t (.sql s) rows w tx).1.1.db q
        (Users.perform env t (.sql s) rows w tx).1.2 :=
      (h.later hlater).extend fun _ => mem_pending_sql s
    cases s with
    | tokensAdd token =>
      cases q with
      | drawn secret =>
        cases hout : (Users.perform env t (.sql (.tokensAdd token)) rows w tx).2 with
        | ok stored => exact has_tokensAdd hmay hout
        | error e => trivial
      | _ => cases hmay
    | _ => cases q <;> exact hstays
  | _ => cases q <;> exact h

/-- Every mail since `old` carries a secret that the database knows. -/
def Backed (env : Env) (old : List EmailMessageDTO) (w : World) : Prop :=
  ∀ message ∈ w.outbox, message ∈ old ∨ ∃ address secret purpose,
    message = linkMail env address secret purpose ∧ w.db.Knows env secret purpose

/-- Only `mailSend` sends a mail. -/
theorem perform_outbox {op : Op} (h : ∀ message, op ≠ .mailSend message) :
    (Users.perform env t op rows w tx).1.1.outbox = w.outbox := by
  cases op with
  | mailSend message => exact absurd rfl (h message)
  | _ => rfl

theorem Backed.later {old : List EmailMessageDTO} {w' : World} (h : Backed env old w)
    (houtbox : w'.outbox = w.outbox) (hlater : w.db.Becomes w'.db) : Backed env old w' := by
  intro message hmessage
  rw [houtbox] at hmessage
  rcases h message hmessage with hold | ⟨address, secret, purpose, he, hknows⟩
  · exact .inl hold
  · exact .inr ⟨address, secret, purpose, he, hknows.later hlater⟩

/-- A call mails what it has committed. -/
theorem Backed.perform {old : List EmailMessageDTO} {op : Op} (h : Backed env old w)
    (hhas : Has env w.db q tx) (hmay : May env q op) :
    Backed env old (Users.perform env t op rows w tx).1.1 := by
  by_cases hop : ∃ message, op = .mailSend message
  · obtain ⟨message, rfl⟩ := hop
    intro other hother
    rcases List.mem_append.1 hother with hearlier | hnew
    · exact h other hearlier
    · rw [List.mem_singleton.1 hnew]
      cases q with
      | committed secret purpose =>
        obtain ⟨address, he⟩ := hmay
        exact .inr ⟨address, secret, purpose, he, hhas⟩
      | _ => cases hmay
  · exact h.later (perform_outbox fun message he => hop ⟨message, he⟩) (.perform t op rows w tx)

/-- What holds while calls run side by side. -/
structure Inv (env : Env) (old : List EmailMessageDTO)
    (pool : Pool (machine env) n Failure Answer) : Prop where
  has : ∀ i, Has env pool.shared.db (pool.states (protocol env) (fun _ => .quiet) i)
    (pool.procs i).loc
  backed : Backed env old pool.shared

theorem expects_effect (pool : Pool (machine env) n Failure Answer) (i : Fin n) (t : Time)
    (op : Op) : expects env op (pool.effect i t op).2 := by
  cases op with
  | generateSecret => rfl
  | _ => trivial

/-- Calls side by side. -/
theorem Backed.run {old : List EmailMessageDTO} (h : Backed env old w) (calls : Fin n → Call)
    (schedule : Pool.Schedule (machine env) n) :
    Backed env old ((w.pool env calls).run schedule).shared := by
  have hfollows : (w.pool env calls).Follows (protocol env) (fun _ => State.quiet)
      (fun _ _ _ => True) := fun i => follows_mail (calls i)
  have hstart : Inv env old (w.pool env calls) := ⟨fun _ => trivial, h⟩
  refine (Pool.run_follows_any (J := Inv env old) (fun pool i op hinv => ?_)
    (fun pool i t op next hinv _ _ hmay => ?_) schedule hstart hfollows).1.backed
  · refine ⟨fun j => ?_, hinv.backed⟩
    rw [Pool.wait_loc, Pool.states_wait]
    exact hinv.has j
  · refine ⟨expects_effect pool i t op, fun j => ?_, ?_⟩
    · exact Pool.locals_advance (M := machine env) (P := protocol env)
        (L := Has env (pool.effect i t op).1.1.db) rfl ((hinv.has i).perform hmay)
        (fun j _ => (hinv.has j).later (.effect pool i t op)) j
    · exact hinv.backed.perform (hinv.has i) hmay

end MailedLinks

/-- Every mail that the service ever sent carries a link that the database has a token
for, at that moment and at every later one. -/
theorem mailed_links_are_stored (w : World) (before : List (Uptime env)) (calls : Fin n → Call)
    (schedule : Pool.Schedule (machine env) n) :
    ∀ message ∈ (((lifetime w before).pool env calls).run schedule).shared.outbox,
      message ∈ w.outbox ∨ ∃ address secret purpose,
        message = linkMail env address secret purpose ∧
          (((lifetime w before).pool env calls).run schedule).shared.db.Knows env secret
            purpose := by
  have hstart : MailedLinks.Backed env w.outbox w := fun _ h => .inl h
  have hbefore : MailedLinks.Backed env w.outbox (lifetime w before) :=
    lifetime_induction (I := MailedLinks.Backed env w.outbox) (fun _ _ h => h)
      (fun up _ _ h => h.run up.calls up.schedule) hstart
  exact hbefore.run calls schedule

/-- Bob registers, and is mailed his link. -/
theorem mailed_links_are_stored_bob :
    let calls : Fin 1 → Call := fun _ => .register ⟨"bob", "bob", "pw", "pw", none, none⟩ none
    let pool := ((lifetime Sample.world ([] : List (Uptime Sample.env))).pool Sample.env calls).run
      (List.replicate 20 (0, 1))
    let message := linkMail Sample.env "bob" (Sample.label 0 2) .emailVerification
    message ∈ Sample.world.outbox ∨ ∃ address secret purpose,
      message = linkMail Sample.env address secret purpose ∧
        pool.shared.db.Knows Sample.env secret purpose :=
  mailed_links_are_stored Sample.world [] _ _ _ (by decide +kernel)

end VideoSite.Users
