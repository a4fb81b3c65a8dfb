import VideoSite.Gateway.AnnouncedRights
import VideoSite.Gateway.SharedClient
import VideoSite.Users.Api
import VideoSite.Users.Csrf
import VideoSite.Users.TokenLiveness

/-!
# Gateway and users-service together

On a route that wants to know the caller the gateway asks users-service, which
authenticates the credential of the request against its tables, and the gateway tells the
service behind the route what it has learned.  `gateway/identity.py` says why: a revoked
session stops working immediately.

* `Site.serve` is a request on its way through both services.
* `caller_is_announced` says whom the service behind the gateway is told about: the owner
  of a live session whose access token the lookup carried, and nobody in all other cases.
  It holds in every world that users-service can reach and for any state of the gateway's
  HTTP client, with or without the cache.

What the libraries find in a `Cookie` line, in an `Authorization` header and in the text
of a token are parameters.
-/

namespace VideoSite

/-- The text of a credential. -/
def Users.Credential.text : Users.Credential → String
  | .cookie token | .header token | .body token => token

namespace Gateway

open Users

/-! ## The two services -/

/-- The gateway and users-service. -/
structure Site (J : Type) where
  env : Env
  cookies : CookieConfig
  config : GatewayConfig
  jar : CookieJar J
  cookieParser : String → List (String × String)
  bearer : Option String → Option String
  /-- What the text of a token stands for. -/
  token : String → Token

namespace Site

variable {J : Type} (site : Site J)

/-- The request of `IdentityResolver.resolve`. -/
def lookup (request : Request) : Exchange where
  url := s!"{rstripSlash site.config.usersServiceUrl}{site.config.apiPrefix}/auth/me"
  headers := IdentityResolver.forwarded request.headers.toDict
  passed := request.cookies site.cookieParser
  setCookies := []

/-- What users-service receives of it. -/
def received (state : J) (request : Request) : ApiRequest where
  headers := .receive ((site.lookup request).send site.jar state).entries
  scheme := "http"
  client := none
  method := "GET"

/-- The access token that `get_access_token` finds on a request. -/
def accessToken (request : ApiRequest) : Option Token :=
  (getAccessToken site.cookieParser site.bearer site.cookies request).map fun credential =>
    site.token credential.text

/-- `GET /auth/me`: the profile, and `none` for any answer but a 200. -/
def readMe (w : World) (t : Time) (request : ApiRequest) : World × Option UserResponse :=
  match (Users.Request.account .readMe (site.accessToken request) {}).serve site.env w t t with
  | (w', .ok (.user user)) => (w', some (toUserResponse user))
  | (w', _) => (w', none)

/-- `IdentityResolver.resolve`. -/
def resolve (w : World) (t : Time) (state : J) (request : Request) : World × Option Identity :=
  let answer := site.readMe w t (site.received state request)
  (answer.1, answer.2.map Identity.fromProfile)

/-- The gateway wants to know who makes the request. -/
def asks (path : String) : Bool :=
  (matchRoute (buildRoutes site.config) ("/" ++ path)).any fun route =>
    route.upstream.isSome && (route.injectIdentity || route.requireIdentity)

/-- A request to the gateway at time `t`, with its HTTP client in `state`. -/
def serve (w : World) (t : Time) (state : J) (request : Request) (path fresh : String) :
    World × Outcome :=
  let resolved := if site.asks path then site.resolve w t state request else (w, none)
  (resolved.1,
    proxy site.cookieParser site.config request path resolved.2 fresh)

/-! ## Credentials -/

/-- The token behind an `Authorization` header and a `Cookie` header: the cookie wins. -/
def credential (authorization cookie : Option String) : Option Token :=
  let fromCookie :=
    if site.cookies.cookieAuthEnabled then
      truthy ((Dict.ofItems (cookie.toList.flatMap site.cookieParser)).get?
        site.cookies.accessCookieName)
    else none
  ((fromCookie.orElse fun _ => truthy (site.bearer authorization)).map site.token)

theorem accessToken_eq (request : ApiRequest) {cookie : Option String}
    (hcookie : request.headers.values "cookie" = cookie.toList) :
    site.accessToken request =
      site.credential (request.headers.get? "authorization") cookie := by
  unfold accessToken getAccessToken credential Request.cookies
  rw [hcookie]
  cases site.cookies.cookieAuthEnabled with
  | false =>
    simp only [Bool.false_eq_true, if_false]
    cases truthy (site.bearer (request.headers.get? "authorization")) <;> rfl
  | true =>
    simp only [if_true]
    cases truthy ((Dict.ofItems (cookie.toList.flatMap site.cookieParser)).get?
      site.cookies.accessCookieName) with
    | none => cases truthy (site.bearer (request.headers.get? "authorization")) <;> rfl
    | some token => rfl

/-- What a service makes of the header lines that a client sends. -/
theorem values_receive (headers : Dict String String) {name : String}
    (hlower : lower name = name) :
    (Headers.receive headers.entries).values name = receivedValues headers name := by
  unfold Headers.values Headers.receive receivedValues Dict.select
  rw [List.filter_map, List.map_map, hlower]
  rfl

/-- A lookup that the HTTP client leaves alone carries the credentials of the request's
first lines. -/
theorem accessToken_received {state : J} {request : Request}
    (h : (site.lookup request).Unmixed site.jar state) :
    site.accessToken (site.received state request) =
      site.credential (request.headers.get? "authorization") (request.headers.get? "cookie") := by
  obtain ⟨-, -, -, -, hcredentials⟩ := headerNames
  have hsent : credentials ((site.lookup request).send site.jar state) =
      credentialNames.map fun name => (request.headers.values name).head?.toList :=
    ((credentials_send_iff site.jar state _).2 h).trans (credentials_resolved request)
  have hvalues : ∀ name ∈ credentialNames, (site.received state request).headers.values name =
      (request.headers.get? name).toList := by
    intro name hname
    have hname' : receivedValues ((site.lookup request).send site.jar state) name =
        (request.headers.values name).head?.toList :=
      List.map_inj_left.1 hsent name hname
    exact (values_receive _ (hcredentials name hname).1).trans hname'
  have hauthorization : (site.received state request).headers.get? "authorization" =
      request.headers.get? "authorization" := by
    rw [Headers.get?, hvalues "authorization" (by simp [credentialNames])]
    cases request.headers.get? "authorization" <;> rfl
  rw [site.accessToken_eq _ (hvalues "cookie" (by simp [credentialNames])), hauthorization]

/-! ## Who is announced -/

/-- `token` is the access token of a live session of the account `u`. -/
def SignedIn (w : World) (t : Time) (token : Option Token) (u : UserId) : Prop :=
  ∃ claims session row, token = some (.jwt claims) ∧ claims ∈ w.signed ∧
    claims.type = .access ∧ t < claims.exp ∧
    session ∈ w.db.sessions ∧ session.jti = claims.jti ∧ session.isValid t = true ∧
    row ∈ w.db.users ∧ row.id = session.userId ∧ row.isActive = true ∧ row.id = u

variable {site} {w : World} {t : Time}

/-- The lookup finds the owner of the session. -/
theorem signedIn_of_readMe (hw : w.Wf site.env) {request : ApiRequest} {profile : UserResponse}
    (h : (site.readMe w t request).2 = some profile) :
    SignedIn w t (site.accessToken request) profile.id := by
  unfold readMe at h
  cases htoken : site.accessToken request with
  | none =>
    rw [htoken] at h
    cases h
  | some token =>
    rw [htoken] at h
    simp only [Users.Request.serve] at h
    cases hauth : (runCall site.env w t (.authenticate token)).2 with
    | error e =>
      have hpair : runCall site.env w t (.authenticate token) =
          ((runCall site.env w t (.authenticate token)).1, .error e) := by rw [← hauth]
      rw [hpair] at h
      cases h
    | ok answer =>
      have hpair : runCall site.env w t (.authenticate token) =
          ((runCall site.env w t (.authenticate token)).1, .ok answer) := by rw [← hauth]
      cases token with
      | text raw =>
        obtain ⟨w', he, -⟩ := runCall_effect site.env w t (.authenticate (.text raw))
        rw [hauth] at he
        cases he with
        | observed hc => exact hc.elim
      | jwt claims =>
        obtain ⟨ht, htype, ⟨session, hsession, hvalid⟩, user, rfl, hid⟩ :=
          authenticate_inv hw hauth
        rw [hpair] at h
        have hprofile : profile = toUserResponse user := by
          simpa [AccountEndpoint.serve, AccountEndpoint.authorize, AccountEndpoint.permission,
            AccountEndpoint.currentJti, AccountEndpoint.needsJti, AccountEndpoint.call]
            using h.symm
        have haccepted := accepted_of_authenticate hw hauth
        have hmem : session ∈ w.db.sessions := List.mem_of_find?_eq_some hsession
        have hjti : session.jti = claims.jti := by simpa using List.find?_some hsession
        obtain ⟨c, hsigned, he, -⟩ := haccepted.signed
        cases he
        have howner : session.userId = claims.sub := hw.signedOwner claims hsigned session hmem hjti
        obtain ⟨row, hrow, hrowid⟩ := List.mem_map.1 (Db.hasUser_iff.1 haccepted.known)
        refine ⟨claims, session, row, rfl, hsigned, htype, ht, hmem, hjti, hvalid, hrow, ?_,
          haccepted.active row hrow hrowid, ?_⟩
        · rw [hrowid, howner, hid]
        · rw [hrowid, hprofile]
          rfl

/-- The owner of a live session is found. -/
theorem readMe_of_signedIn (hw : w.Wf site.env) {request : ApiRequest} {u : UserId}
    (h : SignedIn w t (site.accessToken request) u) :
    ∃ profile, (site.readMe w t request).2 = some profile ∧ profile.id = u := by
  obtain ⟨claims, session, row, htoken, hsigned, htype, ht, hmem, hjti, hvalid, hrow, hrowid,
    hactive, rfl⟩ := h
  have hfound : w.db.sessionByJti claims.jti = some session := by
    rw [← hjti]
    exact hw.db.sessionByJti_of_mem hmem
  have hok := authenticate_succeeds hw hsigned ht htype hfound hvalid
  obtain ⟨answer, hanswer⟩ : ∃ answer,
      (runCall site.env w t (.authenticate (.jwt claims))).2 = .ok answer := by
    cases hout : (runCall site.env w t (.authenticate (.jwt claims))).2 with
    | ok answer => exact ⟨answer, rfl⟩
    | error e =>
      rw [hout] at hok
      cases hok
  obtain ⟨-, -, -, user, rfl, hid⟩ := authenticate_inv hw hanswer
  have hpair : runCall site.env w t (.authenticate (.jwt claims)) =
      ((runCall site.env w t (.authenticate (.jwt claims))).1, .ok (.user user)) := by
    rw [← hanswer]
  refine ⟨toUserResponse user, ?_, ?_⟩
  · unfold readMe
    rw [htoken]
    simp only [Users.Request.serve]
    rw [hpair]
    simp [AccountEndpoint.serve, AccountEndpoint.authorize, AccountEndpoint.permission,
      AccountEndpoint.currentJti, AccountEndpoint.needsJti, AccountEndpoint.call]
  · show user.id = row.id
    rw [hid, hrowid, hw.signedOwner claims hsigned session hmem hjti]

end Site

/-- What a service receives under `X-User-Id`. -/
theorem receivedValues_userId (request : Request) (identity : Option Identity)
    (clientIp visitorId : Option String) (fresh : String) :
    receivedValues (buildForwardHeaders request identity clientIp visitorId fresh) "x-user-id" =
      (identity.map fun identity => toString identity.userId).toList := by
  have hkept : (keptHeaders request).select (fun key => lower key = "x-user-id") = [] := by
    refine Dict.select_eq_nil fun name hname => decide_eq_false fun hsame => ?_
    have hidentity := (mem_keptHeaders hname).2.1
    rw [isIdentityHeader, hsame] at hidentity
    exact absurd hidentity (by decide)
  unfold receivedValues
  rw [select_buildForwardHeaders clientIp (by decide +kernel) (by decide +kernel), hkept,
    List.nil_append, assertedHeaders, List.filter_append, List.filter_append]
  have hvisitor : (visitorLines visitorId).filter (fun line => lower line.1 = "x-user-id") =
      [] := by
    refine List.filter_eq_nil_iff.2 fun line hline => ?_
    rw [visitorLines_name hline]
    decide +kernel
  have hforwarded : (forwardedForLines request clientIp).filter
      (fun line => lower line.1 = "x-user-id") = [] := by
    refine List.filter_eq_nil_iff.2 fun line hline => ?_
    rw [forwardedForLines_name hline]
    decide +kernel
  rw [hvisitor, hforwarded, List.append_nil, List.append_nil]
  cases identity with
  | none => rfl
  | some identity =>
    have hself : lower "X-User-Id" = "x-user-id" := by decide +kernel
    have hothers : lower "X-User-Username" ≠ "x-user-id" ∧
        lower "X-User-Permissions" ≠ "x-user-id" ∧ lower "X-User-Superuser" ≠ "x-user-id" ∧
        lower "X-User-Email-Verified" ≠ "x-user-id" := by decide +kernel
    simp [identityLines, Identity.asHeaders, hself, hothers]

/-- On a route that wants to know the caller, the service behind the gateway is told the
owner of the live session that the lookup presented a token of, and nobody when there is
none.  The token is the one of the request itself, unless the HTTP client added a cookie. -/
theorem caller_is_announced {J : Type} (site : Site J) {w₀ : World} (h₀ : Initial site.env w₀)
    (before : Calls) (t : Time) (state : J) (request : Request) (path fresh : String)
    (hasks : site.asks path = true) {w' : World} {url : String} {headers : Dict String String}
    (hserve : site.serve (runCalls site.env w₀ before) t state request path fresh =
      (w', .forwarded url headers)) :
    let token := site.accessToken (site.received state request)
    (∀ u, Site.SignedIn (runCalls site.env w₀ before) t token u →
      receivedValues headers "x-user-id" = [toString u]) ∧
    ((∀ u, ¬ Site.SignedIn (runCalls site.env w₀ before) t token u) →
      receivedValues headers "x-user-id" = []) ∧
    ((site.lookup request).Unmixed site.jar state →
      token = site.credential (request.headers.get? "authorization")
        (request.headers.get? "cookie")) := by
  have hw : (runCalls site.env w₀ before).Wf site.env := runCalls_wf h₀.wf before
  have hproxy : proxy site.cookieParser site.config request path
      (site.resolve (runCalls site.env w₀ before) t state request).2 fresh =
        .forwarded url headers := by
    unfold Site.serve at hserve
    rw [if_pos hasks] at hserve
    exact congrArg Prod.snd hserve
  obtain ⟨route, upstream, hroute, hupstream, -, -, rfl⟩ := proxy_eq_forwarded.1 hproxy
  have hwants : (route.injectIdentity || route.requireIdentity) = true := by
    unfold Site.asks at hasks
    rw [hroute, Option.any_some, hupstream] at hasks
    exact hasks
  have hasserted : route.asserted (site.resolve (runCalls site.env w₀ before) t state request).2 =
      (site.resolve (runCalls site.env w₀ before) t state request).2 := if_pos hwants
  rw [hasserted, receivedValues_userId]
  refine ⟨fun u hu => ?_, fun hnobody => ?_, site.accessToken_received⟩
  · obtain ⟨profile, hprofile, hid⟩ := Site.readMe_of_signedIn hw hu
    simp [Site.resolve, hprofile, Identity.fromProfile, hid]
    rfl
  · cases hanswer : (site.readMe (runCalls site.env w₀ before) t
      (site.received state request)).2 with
    | none => simp [Site.resolve, hanswer]
    | some profile => exact absurd (Site.signedIn_of_readMe hw hanswer) (hnobody _)

namespace Sample

/-- A site whose users-service has logged alice in. -/
def site : Site (List StoredCookie) where
  env := Users.Sample.env
  cookies := {}
  config := config
  jar := jar
  cookieParser := fun _ => []
  bearer := fun header => header.map fun text => String.ofList (text.toList.drop 7)
  token := fun text => if text = "alice" then Users.Sample.access else .text text

end Sample

/-- Alice watches a video. -/
theorem caller_is_announced_alice :
    let request := Sample.request "203.0.113.9" [("Authorization", "Bearer alice")]
    let headers :=
      match (Sample.site.serve Users.Sample.loggedIn 15 [] request "content/7" "r").2 with
      | .forwarded _ headers => headers
      | .answered _ _ => .empty
    receivedValues headers "x-user-id" = [toString 1] := by
  intro request headers
  have h := caller_is_announced Sample.site Users.Sample.initial
    [(10, Users.Sample.login "secret")] 15 [] request "content/7" "r" (by decide +kernel) rfl
  exact h.1 1 ⟨⟨1, Users.Sample.label 0 0, .access, 1810⟩,
    Users.Sample.loggedIn.db.sessions.get ⟨0, by decide +kernel⟩,
    Users.Sample.loggedIn.db.users.get ⟨0, by decide +kernel⟩, by decide +kernel,
    by decide +kernel, rfl, by decide +kernel, List.get_mem _ _, by decide +kernel,
    by decide +kernel, List.get_mem _ _, by decide +kernel, by decide +kernel,
    by decide +kernel⟩

end Gateway

end VideoSite
