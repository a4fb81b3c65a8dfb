import VideoSite.Users.BrowserCookies

/-!
# The life of a browser

A browser is used, and in between others are served.  What it sends is what it was told to
keep, and the service answers by what it is sent.

* `dispatch_request` says when a page that echoes the CSRF cookie passes the middleware.
* `browser_follows_its_login` says that the service finds on each request the tokens of the
  login that the browser holds.
* `browser_is_one_visitor` says that what a browser leaves in the tables carries one id.
-/

namespace VideoSite.Users

open CookieJar

section

variable {d : Deployment} {jar : Jar Time} {step : Step} {now : Time} {presence : Presence}

/-! ## What a request shows -/

/-- The service finds the access token of the login that the browser holds. -/
theorem accessToken_request (hconfig : d.config.WellFormed) (hlibraries : d.Faithful)
    (h : Holds d now jar presence) (hnow : now ≤ step.sent) :
    d.accessToken (d.request jar step) = presence.held.bind fun held =>
      if step.sent < held.accessUntil then some held.tokens.accessToken else none := by
  obtain ⟨har, -⟩ := hconfig.distinct
  unfold Deployment.accessToken getAccessToken
  rw [truthy_root hconfig hlibraries h.tidy har, (h.kept step.sent hnow).access,
    authorization_request hconfig, hlibraries.bearer]
  simp only [hconfig.cookies, if_true]
  cases hheld : presence.held with
  | none => rfl
  | some held =>
    obtain ⟨claims, hclaims⟩ := (h.issued held hheld).access
    by_cases hlive : step.sent < held.accessUntil
    · simp [hlive, hclaims, hlibraries.token]
    · simp [hlive, Gateway.truthy]

/-- `refresh` finds its refresh token, or the one in the body. -/
theorem refreshToken_request (hconfig : d.config.WellFormed) (hlibraries : d.Faithful)
    (h : Holds d now jar presence) (hnow : now ≤ step.sent) {body : Option Token}
    (hvisit : step.visit = .guest (.refresh body)) {held : Held}
    (hheld : presence.held = some held) (hlive : step.sent < held.refreshUntil) :
    d.refreshToken (d.request jar step) body = some held.tokens.refreshToken := by
  obtain ⟨claims, hclaims⟩ := (h.issued held hheld).refresh
  have hpath : d.config.pathOf d.config.refreshCookieName = d.config.refreshCookiePath :=
    if_pos rfl
  have hbelow : pathMatches d.config.refreshCookiePath (d.path step) = true := by
    unfold Deployment.path
    rw [hvisit]
    exact hconfig.refreshPath
  have hcookie : ((d.request jar step).cookies d.cookieParser).get?
      d.config.refreshCookieName = some (d.text (.jwt claims)) := by
    rw [get?_cookies_request hconfig hlibraries h.tidy, hpath, if_pos hbelow,
      (h.kept step.sent hnow).refresh, hheld, Option.bind_some, if_pos hlive, hclaims]
  have htruthy : Gateway.truthy (some (d.text (.jwt claims))) = some (d.text (.jwt claims)) := by
    refine truthy_of_plain fun text htext => ?_
    cases htext
    exact hlibraries.plain claims
  unfold Deployment.refreshToken refreshCredential
  rw [hcookie, htruthy, hclaims]
  simp [hlibraries.token]

/-- The middleware lets the request through, or it was sent in the last moment before the
refresh cookie expires. -/
theorem dispatch_request (hconfig : d.config.WellFormed) (hlibraries : d.Faithful)
    (h : Holds d now jar presence) (hnow : now ≤ step.sent) :
    CsrfMiddleware.dispatch d.cookieParser d.config.toCookieConfig (d.request jar step) =
        .reached ∨
      CsrfMiddleware.dispatch d.cookieParser d.config.toCookieConfig (d.request jar step) =
          .answered 403 "CSRF token missing or invalid" ∧
        ∃ held, presence.held = some held ∧ held.csrfUntil ≤ step.sent ∧
          step.sent < held.refreshUntil := by
  obtain ⟨har, -, -, hrc, -, -⟩ := hconfig.distinct
  have hkept := h.kept step.sent hnow
  have hcsrf : Gateway.truthy (((d.request jar step).cookies d.cookieParser).get?
      d.config.csrfCookieName) = jar.live step.sent (d.config.csrfCookieName, "/") :=
    truthy_root hconfig hlibraries h.tidy (Ne.symm hrc)
  by_cases hchecked : CsrfMiddleware.requiresCheck d.cookieParser d.config.toCookieConfig
      (d.request jar step) = true
  · obtain ⟨hforeign, hcomparable⟩ := dispatch_of_checked hchecked
    -- a cookie that has to be proved comes with a login
    have hlogin : ∃ held, presence.held = some held ∧
        (step.sent < held.accessUntil ∨ step.sent < held.refreshUntil) := by
      have hcarries : CarriesAuthCookie d.cookieParser d.config.toCookieConfig
          (d.request jar step) := by
        unfold CsrfMiddleware.requiresCheck at hchecked
        split at hchecked
        · cases hchecked
        · split at hchecked
          · cases hchecked
          · simpa [CarriesAuthCookie] using hchecked
      rcases hcarries with haccess | hrefresh
      · have hsome := Dict.get?_isSome haccess
        have hpath : d.config.pathOf d.config.accessCookieName = "/" := if_neg har
        rw [get?_cookies_request hconfig hlibraries h.tidy, hpath,
          if_pos (pathMatches_root hconfig step), hkept.access] at hsome
        obtain ⟨text, htext⟩ := Option.isSome_iff_exists.1 hsome
        obtain ⟨held, hheld, hlive⟩ := Option.bind_eq_some_iff.1 htext
        split at hlive
        · rename_i ht
          exact ⟨held, hheld, .inl ht⟩
        · cases hlive
      · have hsome := Dict.get?_isSome hrefresh
        have hpath : d.config.pathOf d.config.refreshCookieName =
            d.config.refreshCookiePath := if_pos rfl
        rw [get?_cookies_request hconfig hlibraries h.tidy, hpath] at hsome
        split at hsome
        · rw [hkept.refresh] at hsome
          obtain ⟨text, htext⟩ := Option.isSome_iff_exists.1 hsome
          obtain ⟨held, hheld, hlive⟩ := Option.bind_eq_some_iff.1 htext
          split at hlive
          · rename_i ht
            exact ⟨held, hheld, .inr ht⟩
          · cases hlive
        · cases hsome
    obtain ⟨held, hheld, hlive⟩ := hlogin
    have hissued := h.issued held hheld
    by_cases hecho : step.sent < held.csrfUntil
    · -- the page reads the CSRF cookie and echoes it
      have hread : jar.live step.sent (d.config.csrfCookieName, "/") = some held.csrf := by
        rw [hkept.csrf, hheld, Option.bind_some, if_pos hecho]
      have hheader : (d.request jar step).headers.get? d.config.csrfHeaderName =
          some held.csrf := csrfHeader_request hconfig hread
      have htruthy : Gateway.truthy (some held.csrf) = some held.csrf := by
        refine truthy_of_plain fun text htext => ?_
        cases htext
        exact hissued.plain
      have hcookie : ((d.request jar step).cookies d.cookieParser).get?
          d.config.csrfCookieName = some held.csrf := by
        have hpath : d.config.pathOf d.config.csrfCookieName = "/" := if_neg (Ne.symm hrc)
        rw [get?_cookies_request hconfig hlibraries h.tidy, hpath,
          if_pos (pathMatches_root hconfig step), hread]
      have hproof : HasProof d.cookieParser d.config.toCookieConfig (d.request jar step) :=
        ⟨held.csrf, by rw [hheader, htruthy], hcookie⟩
      refine .inl ((hcomparable ?_).1 hproof)
      rintro ⟨cookie, header, hc, hh, hnot⟩
      rw [hcsrf, hread] at hc
      rw [hheader, htruthy] at hh
      cases hc
      cases hh
      exact hnot ⟨hissued.ascii, hissued.ascii⟩
    · -- the CSRF cookie is gone
      have hgone : jar.live step.sent (d.config.csrfCookieName, "/") = none := by
        rw [hkept.csrf, hheld, Option.bind_some, if_neg hecho]
      have huntil : held.csrfUntil ≤ step.sent := not_lt.1 hecho
      have hincomparable : ¬ Incomparable d.cookieParser d.config.toCookieConfig
          (d.request jar step) := by
        rintro ⟨cookie, header, hc, -, -⟩
        rw [hcsrf, hgone] at hc
        cases hc
      have hunproved : ¬ HasProof d.cookieParser d.config.toCookieConfig
          (d.request jar step) := by
        rintro ⟨token, htoken, hcookie⟩
        have hlive : Gateway.truthy (some token) = none := by
          rw [← hcookie, hcsrf, hgone]
        rw [Gateway.truthy] at hlive htoken
        have hnonempty := (Option.filter_eq_some_iff.1 htoken).2
        simp only [Option.filter_some, hnonempty, if_true] at hlive
        cases hlive
      refine .inr ⟨(hcomparable hincomparable).2 hunproved, held, hheld, huntil, ?_⟩
      rcases hlive with haccess | hrefresh
      · have hle := hissued.accessUntil
        exact absurd (haccess.trans_le hle) hecho
      · exact hrefresh
  · exact .inl (dispatch_of_unchecked hchecked)

end

/-! ## The life of a browser -/

/-- The browser is used, or somebody else is served. -/
inductive Happening where
  | others (requests : Requests)
  | visit (step : Step)

/-- The service, the jar of the browser, and what the browser stands for. -/
structure Life where
  world : World
  jar : Jar Time
  presence : Presence

def Deployment.happen (d : Deployment) (life : Life) : Happening → Life
  | .others requests => { life with world := serveAll d.env life.world requests }
  | .visit step =>
      { world := (d.visit life.world life.jar step).1
        jar := (d.visit life.world life.jar step).2
        presence := step.after d.config life.presence
          (d.serve life.world (d.request life.jar step) step).2 }

/-- A new browser, and what happens then. -/
def Deployment.life (d : Deployment) (w : World) (events : List Happening) : Life :=
  events.foldl d.happen ⟨w, .empty, ⟨none, none⟩⟩

/-- The visits are possible and follow each other, from `now` on. -/
def Chronicle (now : Time) : List Happening → Prop
  | [] => True
  | .others _ :: rest => Chronicle now rest
  | .visit step :: rest => step.Possible ∧ now ≤ step.sent ∧ Chronicle step.arrived rest

/-- When the last visit of a chronicle is over. -/
def lastArrived (now : Time) : List Happening → Time
  | [] => now
  | .others _ :: rest => lastArrived now rest
  | .visit step :: rest => lastArrived step.arrived rest

theorem chronicle_append {now : Time} {a b : List Happening} :
    Chronicle now (a ++ b) ↔ Chronicle now a ∧ Chronicle (lastArrived now a) b := by
  induction a generalizing now with
  | nil => simp [Chronicle, lastArrived]
  | cons event rest ih =>
    cases event with
    | others requests => exact ih
    | visit step =>
      show step.Possible ∧ now ≤ step.sent ∧ Chronicle step.arrived (rest ++ b) ↔
        (step.Possible ∧ now ≤ step.sent ∧ Chronicle step.arrived rest) ∧
          Chronicle (lastArrived step.arrived rest) b
      rw [ih]
      constructor
      · intro h
        exact ⟨⟨h.1, h.2.1, h.2.2.1⟩, h.2.2.2⟩
      · intro h
        exact ⟨h.1.1, h.1.2.1, h.1.2.2, h.2⟩

theorem le_lastArrived {now : Time} {events : List Happening} (h : Chronicle now events) :
    now ≤ lastArrived now events := by
  induction events generalizing now with
  | nil => exact le_rfl
  | cons event rest ih =>
    cases event with
    | others requests => exact ih h
    | visit step =>
      have hrest := ih h.2.2
      exact (h.2.1.trans h.1.arrived).trans hrest

section

variable {d : Deployment}

/-- A request that reaches its handler is not refused by the middleware. -/
theorem serve_ne_refused {request : ApiRequest} {step : Step}
    (h : CsrfMiddleware.dispatch d.cookieParser d.config.toCookieConfig request = .reached)
    (w : World) (statusCode : Nat) : (d.serve w request step).2 ≠ .refused statusCode := by
  unfold Deployment.serve
  rw [h]
  simp only
  split <;> simp

/-- At any time the jar shows what the browser stands for. -/
theorem holds_of_chronicle (hd : d.Sound) {now : Time} {events : List Happening}
    (h : Chronicle now events) {life : Life} (hlife : Holds d now life.jar life.presence) :
    Holds d (lastArrived now events) (events.foldl d.happen life).jar
      (events.foldl d.happen life).presence := by
  induction events generalizing now life with
  | nil => exact hlife
  | cons event rest ih =>
    cases event with
    | others requests =>
      have hsame : Holds d now (d.happen life (.others requests)).jar
          (d.happen life (.others requests)).presence := hlife
      exact ih h hsame
    | visit step =>
      have hvisit : Holds d step.arrived (d.happen life (.visit step)).jar
          (d.happen life (.visit step)).presence :=
        hlife.visit hd.config hd.libraries hd.minutes h.1 h.2.1 life.world
      exact ih h.2.2 hvisit

/-- In the whole life of a browser, the service finds on each of its requests the tokens of
the last login or refresh that it was answered, as long as they are to be kept, and none
after it was signed out; and a page that echoes the CSRF cookie is refused in no moment but
the last second of the refresh cookie. -/
theorem browser_follows_its_login (hd : d.Sound) (w : World) {start : Time}
    (events : List Happening) (step : Step) (h : Chronicle start (events ++ [.visit step])) :
    let life := d.life w events
    let request := d.request life.jar step
    (d.accessToken request = life.presence.held.bind fun held =>
      if step.sent < held.accessUntil then some held.tokens.accessToken else none) ∧
    (∀ body held, step.visit = .guest (.refresh body) → life.presence.held = some held →
      step.sent < held.refreshUntil →
      d.refreshToken request body = some held.tokens.refreshToken) ∧
    ∀ statusCode, (d.serve life.world request step).2 = .refused statusCode →
      statusCode = 403 ∧ ∃ held, life.presence.held = some held ∧
        held.refreshUntil - 1 ≤ step.sent ∧ step.sent < held.refreshUntil := by
  intro life request
  obtain ⟨hbefore, -, hsent, -⟩ := chronicle_append.1 h
  have hholds : Holds d (lastArrived start events) life.jar life.presence :=
    holds_of_chronicle hd hbefore (holds_empty d start)
  refine ⟨accessToken_request hd.config hd.libraries hholds hsent, ?_, ?_⟩
  · intro body held hvisit hheld hlive
    exact refreshToken_request hd.config hd.libraries hholds hsent hvisit hheld hlive
  · intro statusCode hrefused
    rcases @dispatch_request d life.jar step _ _ hd.config hd.libraries hholds hsent with
      hreached | ⟨hanswered, held, hheld, huntil, hlive⟩
    · exact absurd hrefused (serve_ne_refused hreached life.world statusCode)
    · have hissued := hholds.issued held hheld
      have hlast := hissued.refreshUntil
      unfold Deployment.serve at hrefused
      rw [hanswered] at hrefused
      cases hrefused
      exact ⟨rfl, held, hheld, by linarith, hlive⟩

namespace Sample

/-- A visit of one browser, at `t`. -/
def step (visit : Visit) (t : Time) (label : String) : Step where
  visit := visit
  agent := "Firefox"
  client := some "203.0.113.9"
  sent := t
  checked := t
  run := t
  clock := ⟨t, t, t⟩
  arrived := t
  visitor := label
  csrf := label

theorem step_possible {visit : Visit} {t : Time} {label : String}
    (hplain : Plain label.toList) (hascii : isAscii label = true) :
    (step visit t label).Possible :=
  ⟨hplain, hplain, hascii, le_rfl, le_rfl, le_rfl, by simp [step]⟩

end Sample

/-- Alice logs in, and asks for her profile. -/
theorem browser_follows_its_login_alice :
    let visited := Sample.deployment.life Sample.world
      [.visit (Sample.step (.guest (.login ⟨"alice", "secret"⟩)) 10 "v")]
    Sample.deployment.accessToken (Sample.deployment.request visited.jar
      (Sample.step (.account .readMe) 20 "u")) = some Sample.access := by
  intro visited
  have hchronicle : Chronicle 0
      ([.visit (Sample.step (.guest (.login ⟨"alice", "secret"⟩)) 10 "v")] ++
        [.visit (Sample.step (.account .readMe) 20 "u")]) :=
    ⟨Sample.step_possible (by decide +kernel) (by decide +kernel), by decide +kernel,
      Sample.step_possible (by decide +kernel) (by decide +kernel), by decide +kernel, trivial⟩
  have hfound := (browser_follows_its_login Sample.deployment_sound Sample.world _ _
    hchronicle).1
  refine hfound.trans ?_
  decide +kernel

/-! ## The visitor -/

/-- While the visitor cookie is there, a visit leaves it alone. -/
theorem visitorAfter_of_known {step : Step} {config : BrowserConfig} {presence : Presence}
    {visitor : String} {untilTime : Time} (h : presence.visitor = some (visitor, untilTime))
    (ht : step.sent < untilTime) (outcome : Deployment.Outcome) :
    step.visitorAfter config presence outcome = some (visitor, untilTime) := by
  have hknown : presence.visitorAt step.sent = some visitor := by
    unfold Presence.visitorAt
    rw [h, Option.bind_some, if_pos ht]
  unfold Step.visitorAfter
  rw [hknown]
  exact h

/-- So do the visits of a while. -/
theorem visitor_of_chronicle {now untilTime : Time} {visitor : String} {events : List Happening}
    (h : Chronicle now events) (hend : lastArrived now events < untilTime) {life : Life}
    (hlife : life.presence.visitor = some (visitor, untilTime)) :
    (events.foldl d.happen life).presence.visitor = some (visitor, untilTime) := by
  induction events generalizing now life with
  | nil => exact hlife
  | cons event rest ih =>
    cases event with
    | others requests =>
      have hsame : (d.happen life (.others requests)).presence.visitor =
          some (visitor, untilTime) := hlife
      exact ih h hend hsame
    | visit step =>
      have harrived := le_lastArrived h.2.2
      have hsent := h.1.arrived
      have hbefore : step.sent < untilTime := (hsent.trans harrived).trans_lt hend
      exact ih h.2.2 hend (visitorAfter_of_known hlife hbefore _)

/-- What a login, a refresh or a registration leaves behind carries the visitor of its
request. -/
structure Marked (db : Db) (visit : Visit) (outcome : Deployment.Outcome) (visitor : String) :
    Prop where
  session : ∀ result,
    ((∃ data, visit = .guest (.login data)) ∨ ∃ token, visit = .guest (.refresh token)) →
    outcome = .answered (.auth result) → ∃ claims, ∃ s ∈ db.sessions,
      result.tokens.accessToken = .jwt claims ∧ s.jti = claims.jti ∧
        s.visitorId = some visitor
  account : ∀ body user, visit = .guest (.register body) → outcome = .answered (.user user) →
    ∃ row ∈ db.users, row.id = user.id ∧ row.visitorId = some visitor

/-- A session that a login or a refresh opens. -/
theorem session_of_runCall {env : Env} {w : World} {t : Time} {c : Call}
    {device : DeviceInfoDTO} {visitor : String} (hvisitor : device.visitorId = some visitor)
    (hnonempty : visitor ≠ "") {result : AuthResultDTO}
    (hc : (∃ data, c = .login data (some device)) ∨ ∃ token, c = .refresh token (some device))
    (h : (runCall env w t c).2 = .ok (.auth result)) :
    ∃ claims, ∃ s ∈ (runCall env w t c).1.db.sessions,
      result.tokens.accessToken = .jwt claims ∧ s.jti = claims.jti ∧
        s.visitorId = some visitor := by
  obtain ⟨w', heffect, hworld⟩ := runCall_effect env w t c
  rw [h] at heffect
  rw [hworld]
  rcases hc with ⟨data, rfl⟩ | ⟨token, rfl⟩
  · cases heffect with
    | observed hobserves => exact hobserves.elim
    | loggedIn => exact ⟨_, _, List.mem_append_right _ (List.mem_singleton_self _), rfl, rfl,
        hvisitor⟩
  · cases heffect with
    | observed hobserves => exact hobserves.elim
    | refreshed =>
      refine ⟨_, _, List.mem_append_right _ (List.mem_singleton_self _), rfl, rfl, ?_⟩
      show pyOr device.visitorId _ = some visitor
      unfold pyOr
      rw [hvisitor]
      exact if_neg hnonempty

/-- An account that a registration adds. -/
theorem account_of_runCall {env : Env} {w : World} {t : Time} {data : RegisterUserDTO}
    {device : Option DeviceInfoDTO} {user : User}
    (h : (runCall env w t (.register data device)).2 = .ok (.user user)) :
    ∃ row ∈ (runCall env w t (.register data device)).1.db.users,
      row.id = user.id ∧ row.visitorId = data.visitorId := by
  obtain ⟨w', heffect, hworld⟩ := runCall_effect env w t (.register data device)
  rw [h] at heffect
  rw [hworld]
  cases heffect with
  | observed hobserves => exact hobserves.elim
  | @registered _ _ _ row _ _ hl hemail husername hrow haudit ha =>
    obtain ⟨added, he, hid⟩ := ha
    cases he
    refine ⟨row, ?_, hid.symm, ?_⟩
    · simp [EmailVerificationIssuer.issued]
      exact List.mem_append_right _ (List.mem_singleton_self _)
    · rw [hrow]
      rfl

/-- An answer comes from the handler. -/
theorem serve_answered {w : World} {request : ApiRequest} {step : Step} {answer : Answer}
    (h : (d.serve w request step).2 = .answered answer) :
    (d.asked request (d.visitorId request step) step.visit).serve d.env w step.checked step.run =
      ((d.serve w request step).1, .ok answer) := by
  unfold Deployment.serve at h ⊢
  split at h
  · cases h
  · cases h
  · split at h
    · rename_i w' found hserve
      cases h
      rw [hserve]
    · cases h
    · cases h

theorem marked_of_serve {w : World} {request : ApiRequest} {step : Step}
    (hnonempty : d.visitorId request step ≠ "") :
    Marked (d.serve w request step).1.db step.visit (d.serve w request step).2
      (d.visitorId request step) := by
  constructor
  · intro result hvisit hanswered
    have hserve := serve_answered hanswered
    rcases hvisit with ⟨data, hvisit⟩ | ⟨body, hvisit⟩
    · rw [hvisit] at hserve
      have hrun : runCall d.env w step.run (.login data (some (d.device request
          (d.visitorId request step)))) = ((d.serve w request step).1, .ok (.auth result)) :=
        hserve
      have hout := congrArg Prod.snd hrun
      have hsession := session_of_runCall rfl hnonempty (.inl ⟨data, rfl⟩) hout
      rwa [hrun] at hsession
    · rw [hvisit] at hserve
      cases hread : d.refreshToken request body with
      | none =>
        simp only [Deployment.asked, hread, Request.serve, PublicEndpoint.call] at hserve
        have hout := congrArg Prod.snd hserve
        cases hout
      | some token =>
        simp only [Deployment.asked, hread, Request.serve, PublicEndpoint.call] at hserve
        have hout := congrArg Prod.snd hserve
        have hsession := session_of_runCall rfl hnonempty (.inr ⟨token, rfl⟩) hout
        rwa [hserve] at hsession
  · intro body user hvisit hanswered
    have hserve := serve_answered hanswered
    rw [hvisit] at hserve
    simp only [Deployment.asked, Request.serve, PublicEndpoint.call] at hserve
    have haccount := account_of_runCall (congrArg Prod.snd hserve)
    rwa [hserve] at haccount

/-- A response makes a browser a visitor that was none. -/
theorem visitorAfter_of_new {step : Step} {config : BrowserConfig} {presence : Presence}
    (h : presence.visitorAt step.sent = none) {outcome : Deployment.Outcome}
    (hcrash : outcome ≠ .crashed) :
    step.visitorAfter config presence outcome = some (step.visitor,
      step.arrived + (VisitorMiddleware.cookie config step.visitor).maxAge) := by
  unfold Step.visitorAfter
  rw [h]
  cases outcome with
  | crashed => exact absurd rfl hcrash
  | _ => rfl

/-- A browser is one visitor.  The response to a browser without an id gives it one, and as
long as that cookie is to be kept every request carries the id, and every session that the
browser opens and every account that it registers is marked with it. -/
theorem browser_is_one_visitor (hd : d.Sound) (w : World) {start : Time}
    (before : List Happening) (first : Step) (events : List Happening) (step : Step)
    (h : Chronicle start (before ++ .visit first :: (events ++ [.visit step])))
    (hnew : (d.life w before).presence.visitorAt first.sent = none)
    (hcrash : (d.serve (d.life w before).world (d.request (d.life w before).jar first)
      first).2 ≠ .crashed)
    (hage : step.sent <
      first.arrived + (VisitorMiddleware.cookie d.config first.visitor).maxAge) :
    let life := d.life w (before ++ .visit first :: events)
    let request := d.request life.jar step
    d.visitorId (d.request (d.life w before).jar first) first = first.visitor ∧
    d.visitorId request step = first.visitor ∧
      Marked (d.happen life (.visit step)).world.db step.visit
        (d.serve life.world request step).2 first.visitor := by
  intro life request
  obtain ⟨hbefore, hfirst, hsent, hrest⟩ := chronicle_append.1 h
  obtain ⟨hevents, hstep, hnext, -⟩ := chronicle_append.1 hrest
  have hearlier : Holds d (lastArrived start before) (d.life w before).jar
      (d.life w before).presence := holds_of_chronicle hd hbefore (holds_empty d start)
  have hlife : life = events.foldl d.happen (d.happen (d.life w before) (.visit first)) := by
    show (before ++ .visit first :: events).foldl d.happen _ = _
    rw [List.foldl_append, List.foldl_cons]
    rfl
  have hvisited : Holds d first.arrived (d.happen (d.life w before) (.visit first)).jar
      (d.happen (d.life w before) (.visit first)).presence :=
    hearlier.visit hd.config hd.libraries hd.minutes hfirst hsent _
  have hholds : Holds d (lastArrived first.arrived events) life.jar life.presence := by
    rw [hlife]
    exact holds_of_chronicle hd hevents hvisited
  have hvisitor : life.presence.visitor = some (first.visitor,
      first.arrived + (VisitorMiddleware.cookie d.config first.visitor).maxAge) := by
    rw [hlife]
    exact visitor_of_chronicle hevents (hnext.trans_lt hage) (visitorAfter_of_new hnew hcrash)
  have hknown : life.presence.visitorAt step.sent = some first.visitor := by
    unfold Presence.visitorAt
    rw [hvisitor, Option.bind_some, if_pos hage]
  have hid : d.visitorId request step = first.visitor := by
    unfold Deployment.visitorId
    rw [visitorOf_request hd.config hd.libraries hholds hnext, hknown]
    rfl
  refine ⟨?_, hid, ?_⟩
  · unfold Deployment.visitorId
    rw [visitorOf_request hd.config hd.libraries hearlier hsent, hnew]
    rfl
  · have hnonempty : d.visitorId request step ≠ "" := by
      rw [hid]
      intro hempty
      exact hfirst.visitor.1 (by rw [hempty]; rfl)
    have hmarked : Marked (d.serve life.world request step).1.db step.visit
        (d.serve life.world request step).2 (d.visitorId request step) :=
      marked_of_serve hnonempty
    rw [hid] at hmarked
    exact hmarked

end

namespace Sample

/-- Somebody looks at a profile. -/
def look : Step := step (.guest (.readUser 1)) 10 "v"

/-- Then he registers. -/
def enrol : Step :=
  step (.guest (.register ⟨"bob@example.com", "bob", "secret", "secret", none⟩)) 20 "u"

/-- The service after the first of the two. -/
def looked : Life := deployment.life world [.visit look]

def crashed : Deployment.Outcome → Bool
  | .crashed => true
  | _ => false

end Sample

/-- Bob looks at a page and then registers: his account carries the id of the first visit. -/
theorem browser_is_one_visitor_bob :
    Marked (Sample.deployment.happen Sample.looked (.visit Sample.enrol)).world.db
      Sample.enrol.visit (Sample.deployment.serve Sample.looked.world
        (Sample.deployment.request Sample.looked.jar Sample.enrol) Sample.enrol).2 "v" := by
  have hchronicle : Chronicle 0 ([] ++ .visit Sample.look :: ([] ++ [.visit Sample.enrol])) :=
    ⟨Sample.step_possible (by decide +kernel) (by decide +kernel), by decide +kernel,
      Sample.step_possible (by decide +kernel) (by decide +kernel), by decide +kernel, trivial⟩
  have hanswered : Sample.crashed (Sample.deployment.serve
      (Sample.deployment.life Sample.world []).world
      (Sample.deployment.request (Sample.deployment.life Sample.world []).jar Sample.look)
        Sample.look).2 = false := by
    decide +kernel
  have hage : Sample.enrol.sent < Sample.look.arrived +
      (VisitorMiddleware.cookie Sample.deployment.config Sample.look.visitor).maxAge := by
    decide +kernel
  refine (browser_is_one_visitor Sample.deployment_sound Sample.world [] Sample.look []
    Sample.enrol hchronicle rfl (fun hcrash => ?_) hage).2.2
  rw [hcrash] at hanswered
  cases hanswered

end VideoSite.Users
