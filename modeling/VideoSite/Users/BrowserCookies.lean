import VideoSite.Lib.CookieJar
import VideoSite.Users.Api
import VideoSite.Users.Csrf

/-!
# What a browser is told to keep

A browser never holds a token in a script: `SessionCookies` of `infrastructure/api/cookies.py`
puts the pair into cookies, with a third one that the page reads and echoes in a header for
`CsrfMiddleware`, and `VisitorMiddleware` gives every browser an id of its own.  The browser
keeps what it is told to keep, for as long as it is told, and sends it back.

* `Deployment.visit` is one request of a browser and its response: the cookies it sends, the
  two middlewares, the handler, and the cookies it is given.
* `Presence` is what a browser stands for: the login it holds and the visitor it is.  A visit
  changes it by its outcome alone.
* `Holds` is the invariant: the jar of a browser shows its presence and nothing else.
  `Holds.visit` says that a visit keeps it.

What HTTP libraries find in a `Cookie` line and in an `Authorization` header, and the text
of a token, are parameters.
-/

namespace VideoSite.Users

open CookieJar

/-! ## The cookies of the service -/

/-- The settings that decide what a browser is told to keep. -/
structure BrowserConfig extends CookieConfig where
  refreshCookiePath : String := "/api/v1/auth"
  visitorCookieName : String := "visitor_id"
  visitorCookieMaxAgeDays : Int := 400
  apiPrefix : String := "/api/v1"
  trustProxyHeaders : Bool := false

/-- What the clock shows while the three cookies are written. -/
structure Readings where
  access : Time
  refresh : Time
  csrf : Time

namespace SessionCookies

/-- `_max_age`, with the clock at `now`: whole seconds. -/
def maxAge (expiresAt now : Time) : Int := max ⌊expiresAt - now⌋ 0

/-- `set_tokens`: the cookies, and the CSRF token for the body.  `fresh` is the text that
`secrets.token_urlsafe` draws. -/
def setTokens (config : BrowserConfig) (text : Token → String) (clock : Readings)
    (fresh : String) (tokens : AuthTokenDTO) : List SetCookie × Option String :=
  let pair : List SetCookie := [
    { name := config.accessCookieName
      value := text tokens.accessToken
      path := "/"
      maxAge := maxAge tokens.accessExpiresAt clock.access },
    { name := config.refreshCookieName
      value := text tokens.refreshToken
      path := config.refreshCookiePath
      maxAge := maxAge tokens.refreshExpiresAt clock.refresh }]
  if config.csrfProtection then
    (pair ++ [
      { name := config.csrfCookieName
        value := fresh
        path := "/"
        maxAge := maxAge tokens.refreshExpiresAt clock.csrf }], some fresh)
  else (pair, none)

/-- `clear_tokens`: Starlette deletes a cookie by setting it with no time left. -/
def clearTokens (config : BrowserConfig) : List SetCookie :=
  [(config.accessCookieName, "/"), (config.refreshCookieName, config.refreshCookiePath),
    (config.csrfCookieName, "/")].map fun cookie => ⟨cookie.1, "", cookie.2, 0⟩

end SessionCookies

/-- The cookie of `VisitorMiddleware`. -/
def VisitorMiddleware.cookie (config : BrowserConfig) (visitorId : String) : SetCookie where
  name := config.visitorCookieName
  value := visitorId
  path := "/"
  maxAge := config.visitorCookieMaxAgeDays * 24 * 60 * 60

/-! ## The routes -/

/-- Method and path, below the prefix of the API. -/
def PublicEndpoint.route : PublicEndpoint → String × String
  | .register _ => ("POST", "/auth/register")
  | .login _ => ("POST", "/auth/login")
  | .refresh _ => ("POST", "/auth/refresh")
  | .verifyEmail _ => ("GET", "/auth/verify-email")
  | .forgotPassword _ => ("POST", "/auth/forgot-password")
  | .resetPassword _ => ("POST", "/auth/reset-password")
  | .readUser userId => ("GET", "/users/" ++ toString userId)

def AccountEndpoint.route : AccountEndpoint → String × String
  | .logout => ("POST", "/auth/logout")
  | .readMe => ("GET", "/users/me")
  | .updateMe _ => ("PATCH", "/users/me")
  | .changeMyPassword _ => ("POST", "/users/me/password")
  | .deleteMe => ("DELETE", "/users/me")
  | .listMySessions => ("GET", "/users/me/sessions")
  | .revokeMySessions _ => ("DELETE", "/users/me/sessions")
  | .revokeMySession sessionId => ("DELETE", "/users/me/sessions/" ++ toString sessionId)
  | .banUser userId _ => ("POST", "/admin/users/" ++ toString userId ++ "/ban")
  | .unbanUser userId => ("DELETE", "/admin/users/" ++ toString userId ++ "/ban")
  | .listPermissions => ("GET", "/admin/permissions")
  | .createPermission _ _ _ => ("POST", "/admin/permissions")
  | .listRoles => ("GET", "/admin/roles")
  | .createRole _ _ => ("POST", "/admin/roles")
  | .deleteRole roleId => ("DELETE", "/admin/roles/" ++ toString roleId)
  | .grantPermissionToRole roleId _ =>
      ("POST", "/admin/roles/" ++ toString roleId ++ "/permissions")
  | .revokePermissionFromRole roleId permissionId =>
      ("DELETE",
        "/admin/roles/" ++ toString roleId ++ "/permissions/" ++ toString permissionId)
  | .listUsers => ("GET", "/admin/users")
  | .assignRoleToUser userId _ => ("POST", "/admin/users/" ++ toString userId ++ "/roles")
  | .revokeRoleFromUser userId roleId =>
      ("DELETE", "/admin/users/" ++ toString userId ++ "/roles/" ++ toString roleId)

/-- What a page asks for.  The token of `.guest (.refresh token)` is the one in the body. -/
inductive Visit where
  | guest (endpoint : PublicEndpoint)
  | account (endpoint : AccountEndpoint)

def Visit.route : Visit → String × String
  | .guest endpoint => endpoint.route
  | .account endpoint => endpoint.route

/-- A visit as it happens: when the browser sends it, when it is authenticated and carried
out, what the clock shows while cookies are written, and when the response arrives.
`visitor` and `csrf` are the texts that would be drawn for it. -/
structure Step where
  visit : Visit
  agent : String
  client : Option String
  sent : Time
  checked : Time
  run : Time
  clock : Readings
  arrived : Time
  visitor : String
  csrf : String

/-! ## The deployment -/

/-- The service as a browser meets it. -/
structure Deployment where
  env : Env
  config : BrowserConfig
  cookieParser : String → List (String × String)
  bearer : Option String → Option String
  text : Token → String
  token : String → Token

namespace Deployment

variable (d : Deployment)

/-- The path that a step asks for. -/
def path (step : Step) : String := d.config.apiPrefix ++ step.visit.route.2

/-- The request that a browser sends.  The page echoes the CSRF cookie it can read. -/
def request (jar : Jar Time) (step : Step) : ApiRequest where
  headers := .receive (
    (match jar.sent step.sent (d.path step) with
      | [] => []
      | items => [("Cookie", cookieLine items)]) ++
    ((jar.live step.sent (d.config.csrfCookieName, "/")).toList.map fun token =>
      (d.config.csrfHeaderName, token)) ++
    [("User-Agent", step.agent)])
  scheme := "https"
  client := step.client
  method := step.visit.route.1

/-- `get_device_info`. -/
def device (request : ApiRequest) (visitorId : String) : DeviceInfoDTO where
  visitorId := some visitorId
  userAgent := request.headers.get? "user-agent"
  ipAddress := Gateway.callerAddress d.config.trustProxyHeaders request.toRequest

/-- The access token that a handler finds. -/
def accessToken (request : ApiRequest) : Option Token :=
  (getAccessToken d.cookieParser d.bearer d.config.toCookieConfig request).map fun credential =>
    match credential with
    | .cookie text | .header text | .body text => d.token text

/-- The refresh token that `refresh` finds, with `body` for the one in the body. -/
def refreshToken (request : ApiRequest) (body : Option Token) : Option Token :=
  (refreshCredential d.cookieParser d.config.toCookieConfig request (body.map d.text)).map
    fun credential =>
      match credential with
      | .cookie text | .header text | .body text => d.token text

/-- What the handler is asked to do. -/
def asked (request : ApiRequest) (visitorId : String) : Visit → Request
  | .guest (.refresh body) =>
      .guest (.refresh (d.refreshToken request body)) (d.device request visitorId)
  | .guest endpoint => .guest endpoint (d.device request visitorId)
  | .account endpoint =>
      .account endpoint (d.accessToken request) (d.device request visitorId)

/-- The cookies that a handler writes with its answer. -/
def written (step : Step) (answer : Answer) : List SetCookie :=
  match step.visit, answer with
  | .guest (.login _), .auth result | .guest (.refresh _), .auth result =>
      if d.config.cookieAuthEnabled then
        (SessionCookies.setTokens d.config d.text step.clock step.csrf result.tokens).1
      else []
  | .account .logout, _ | .account (.changeMyPassword _), _ | .account .deleteMe, _
  | .account (.revokeMySessions false), _ => SessionCookies.clearTokens d.config
  | _, _ => []

/-- How a visit ends: the middleware refuses it, its handler answers or fails, or an
exception leaves both middlewares. -/
inductive Outcome where
  | refused (statusCode : Nat)
  | answered (answer : Answer)
  | failed (error : ApplicationError)
  | crashed

/-- The visitor that the request says it is from. -/
def visitorOf (request : ApiRequest) : Option String :=
  Gateway.truthy ((request.cookies d.cookieParser).get? d.config.visitorCookieName)

/-- What `VisitorMiddleware` hands to the handlers: the id that was sent, or a fresh one. -/
def visitorId (request : ApiRequest) (step : Step) : String :=
  (d.visitorOf request).getD step.visitor

/-- The cookie of `VisitorMiddleware`, for a browser that sent none. -/
def visitorCookies (request : ApiRequest) (step : Step) : List SetCookie :=
  if (d.visitorOf request).isNone then [VisitorMiddleware.cookie d.config step.visitor] else []

/-- `VisitorMiddleware` around `CsrfMiddleware` around the handler. -/
def serve (w : World) (request : ApiRequest) (step : Step) : World × Outcome :=
  match CsrfMiddleware.dispatch d.cookieParser d.config.toCookieConfig request with
  | .answered statusCode _ => (w, .refused statusCode)
  | .raised _ => (w, .crashed)
  | .reached =>
      match (d.asked request (d.visitorId request step) step.visit).serve d.env w step.checked
        step.run with
      | (w', .ok answer) => (w', .answered answer)
      | (w', .error (.application error)) => (w', .failed error)
      | (w', .error _) => (w', .crashed)

/-- The `Set-Cookie` lines of a response.  An exception leaves the middleware without one. -/
def setCookies (request : ApiRequest) (step : Step) : Outcome → List SetCookie
  | .answered answer => d.written step answer ++ d.visitorCookies request step
  | .refused _ | .failed _ => d.visitorCookies request step
  | .crashed => []

/-- One visit of a browser. -/
def visit (w : World) (jar : Jar Time) (step : Step) : World × Jar Time :=
  let request := d.request jar step
  let served := d.serve w request step
  (served.1, jar.storeAll step.arrived (d.setCookies request step served.2))

/-! ## What a browser stands for -/

end Deployment

/-- The login that a browser holds. -/
structure Held where
  tokens : AuthTokenDTO
  csrf : String
  accessUntil : Time
  refreshUntil : Time
  csrfUntil : Time

/-- What a browser stands for: a login and a visitor. -/
structure Presence where
  held : Option Held
  visitor : Option (String × Time)

/-- The login that a response brings. -/
def Step.held (step : Step) (tokens : AuthTokenDTO) : Held where
  tokens := tokens
  csrf := step.csrf
  accessUntil := step.arrived + SessionCookies.maxAge tokens.accessExpiresAt step.clock.access
  refreshUntil := step.arrived + SessionCookies.maxAge tokens.refreshExpiresAt step.clock.refresh
  csrfUntil := step.arrived + SessionCookies.maxAge tokens.refreshExpiresAt step.clock.csrf

/-- The login after a visit: a login or a refresh brings one, what signs this device out
takes it away. -/
def Step.heldAfter (step : Step) (held : Option Held) : Deployment.Outcome → Option Held
  | .answered answer =>
      match step.visit, answer with
      | .guest (.login _), .auth result | .guest (.refresh _), .auth result =>
          some (step.held result.tokens)
      | .account .logout, _ | .account (.changeMyPassword _), _ | .account .deleteMe, _
      | .account (.revokeMySessions false), _ => none
      | _, _ => held
  | _ => held

/-- The visitor that a browser is at `t`. -/
def Presence.visitorAt (presence : Presence) (t : Time) : Option String :=
  presence.visitor.bind fun visitor => if t < visitor.2 then some visitor.1 else none

/-- The visitor after a visit: the first response makes the browser one. -/
def Step.visitorAfter (step : Step) (config : BrowserConfig) (presence : Presence)
    (outcome : Deployment.Outcome) : Option (String × Time) :=
  match presence.visitorAt step.sent, outcome with
  | some _, _ | none, .crashed => presence.visitor
  | none, _ =>
      some (step.visitor, step.arrived + (VisitorMiddleware.cookie config step.visitor).maxAge)

def Step.after (step : Step) (config : BrowserConfig) (presence : Presence)
    (outcome : Deployment.Outcome) : Presence where
  held := step.heldAfter presence.held outcome
  visitor := step.visitorAfter config presence outcome

/-! ## Assumptions -/

/-- The names of the cookies. -/
def BrowserConfig.cookieNames (config : BrowserConfig) : List String :=
  [config.accessCookieName, config.refreshCookieName, config.csrfCookieName,
    config.visitorCookieName]

/-- Cookies are used and protected, have names of their own, and the refresh cookie is sent
where it is needed. -/
structure BrowserConfig.WellFormed (config : BrowserConfig) : Prop where
  cookies : config.cookieAuthEnabled = true
  protection : config.csrfProtection = true
  names : config.cookieNames.Nodup
  plain : ∀ name ∈ config.cookieNames, Plain name.toList
  header : Gateway.lower config.csrfHeaderName ≠ "cookie"
  credential : Gateway.lower config.csrfHeaderName ≠ "authorization"
  apiPrefix : config.apiPrefix = "" ∨ config.apiPrefix.toList.head? = some '/'
  refreshPath : pathMatches config.refreshCookiePath (config.apiPrefix ++ "/auth/refresh") = true

/-- What the libraries do: a `Cookie` line of plain items is read as it was written, there is
no bearer token without a header, and a token is its text. -/
structure Deployment.Faithful (d : Deployment) : Prop where
  parses : ∀ items : List (String × String),
    (∀ item ∈ items, Plain item.1.toList ∧ Plain item.2.toList) →
    d.cookieParser (cookieLine items) = items
  bearer : d.bearer none = none
  token : ∀ claims, d.token (d.text (.jwt claims)) = .jwt claims
  plain : ∀ claims, Plain (d.text (.jwt claims)).toList

/-- The deployment is as it should be, and its access tokens expire first. -/
structure Deployment.Sound (d : Deployment) : Prop where
  config : d.config.WellFormed
  libraries : d.Faithful
  minutes : d.env.config.accessTokenExpireMinutes < d.env.config.refreshTokenExpireMinutes

/-- A step as it can happen: what is drawn for it is plain text, and the response arrives
after the request was sent.  The cookies are written within a second. -/
structure Step.Possible (step : Step) : Prop where
  visitor : Plain step.visitor.toList
  csrf : Plain step.csrf.toList
  ascii : isAscii step.csrf = true
  arrived : step.sent ≤ step.arrived
  access : step.clock.access ≤ step.clock.refresh
  refresh : step.clock.refresh ≤ step.clock.csrf
  prompt : step.clock.csrf ≤ step.clock.access + 1

/-! ## What is on a request -/

section

variable {d : Deployment} {jar : Jar Time} {step : Step}

/-- The path of a name. -/
def BrowserConfig.pathOf (config : BrowserConfig) (name : String) : String :=
  if name = config.refreshCookieName then config.refreshCookiePath else "/"

/-- Nothing but the four cookies is in the jar, each under its path. -/
structure Tidy (config : BrowserConfig) (jar : Jar Time) : Prop where
  paths : ∀ cookie ∈ jar.cookies, cookie.path = config.pathOf cookie.name
  plain : ∀ cookie ∈ jar.cookies, Plain cookie.name.toList ∧ Plain cookie.value.toList

theorem route_head (visit : Visit) : visit.route.2.toList.head? = some '/' := by
  cases visit with
  | guest endpoint => cases endpoint <;> simp [Visit.route, PublicEndpoint.route]
  | account endpoint => cases endpoint <;> simp [Visit.route, AccountEndpoint.route]

/-- Every path of the service is below `/`. -/
theorem pathMatches_root (hconfig : d.config.WellFormed) (step : Step) :
    pathMatches "/" (d.path step) = true := by
  have hroute := route_head step.visit
  have hhead : (d.path step).toList.head? = some '/' := by
    unfold Deployment.path
    rw [String.toList_append]
    rcases hconfig.apiPrefix with hempty | hslash
    · rw [hempty]
      exact hroute
    · rw [List.head?_append, hslash]
      rfl
  unfold pathMatches
  cases hpath : (d.path step).toList with
  | nil =>
    rw [hpath] at hhead
    cases hhead
  | cons c rest =>
    rw [hpath] at hhead
    cases hhead
    simp

/-- The service reads the cookies that the browser sent. -/
theorem cookies_request (hconfig : d.config.WellFormed) (hlibraries : d.Faithful)
    (htidy : Tidy d.config jar) :
    (d.request jar step).cookies d.cookieParser =
      Dict.ofItems (jar.sent step.sent (d.path step)) := by
  have hnames : Gateway.lower "Cookie" = "cookie" ∧ Gateway.lower "cookie" = "cookie" ∧
      Gateway.lower "User-Agent" ≠ "cookie" := by decide +kernel
  obtain ⟨hcookie, hself, hagent⟩ := hnames
  have hplain : ∀ item ∈ jar.sent step.sent (d.path step),
      Plain item.1.toList ∧ Plain item.2.toList := by
    intro item hitem
    obtain ⟨cookie, hmem, rfl⟩ := List.mem_map.1 hitem
    exact htidy.plain cookie (List.mem_filter.1 hmem).1
  have hvalues : (d.request jar step).headers.values "cookie" =
      match jar.sent step.sent (d.path step) with
      | [] => []
      | items => [cookieLine items] := by
    unfold Gateway.Headers.values Deployment.request Gateway.Headers.receive
    have hheader := hconfig.header
    cases jar.sent step.sent (d.path step) <;>
      cases jar.live step.sent (d.config.csrfCookieName, "/") <;>
      simp [hcookie, hself, hagent, hheader]
  unfold Gateway.Request.cookies
  rw [hvalues]
  cases hitems : jar.sent step.sent (d.path step) with
  | nil => rfl
  | cons item rest =>
    rw [hitems] at hplain
    rw [List.flatMap_singleton, hlibraries.parses _ hplain]

/-- Under each name it finds the cookie of the name's path. -/
theorem get?_cookies_request (hconfig : d.config.WellFormed) (hlibraries : d.Faithful)
    (htidy : Tidy d.config jar) (name : String) :
    ((d.request jar step).cookies d.cookieParser).get? name =
      if pathMatches (d.config.pathOf name) (d.path step) then
        jar.live step.sent (name, d.config.pathOf name)
      else none := by
  rw [cookies_request hconfig hlibraries htidy]
  exact Jar.get?_sent htidy.paths step.sent (d.path step) name

/-- A page that can read the CSRF cookie has echoed it. -/
theorem csrfHeader_request (hconfig : d.config.WellFormed) {token : String}
    (h : jar.live step.sent (d.config.csrfCookieName, "/") = some token) :
    (d.request jar step).headers.get? d.config.csrfHeaderName = some token := by
  have hcookie : Gateway.lower "Cookie" = "cookie" := by decide +kernel
  have hheader := hconfig.header
  unfold Gateway.Headers.get? Gateway.Headers.values Deployment.request Gateway.Headers.receive
  cases jar.sent step.sent (d.path step) <;>
    simp [h, hcookie, Ne.symm hheader]

/-- A page sends no `Authorization` header. -/
theorem authorization_request (hconfig : d.config.WellFormed) :
    (d.request jar step).headers.get? "authorization" = none := by
  have hnames : Gateway.lower "Cookie" ≠ "authorization" ∧
      Gateway.lower "authorization" = "authorization" ∧
      Gateway.lower "User-Agent" ≠ "authorization" := by decide +kernel
  obtain ⟨hcookie, hself, hagent⟩ := hnames
  have hcredential := hconfig.credential
  unfold Gateway.Headers.get? Gateway.Headers.values Deployment.request Gateway.Headers.receive
  cases jar.sent step.sent (d.path step) <;>
    cases jar.live step.sent (d.config.csrfCookieName, "/") <;>
    simp [hcookie, hself, hagent, hcredential]

/-! ## What a response leaves in the jar -/

theorem Tidy.storeAll {config : BrowserConfig} (h : Tidy config jar) {t : Time}
    {lines : List SetCookie}
    (hlines : ∀ line ∈ lines, line.path = config.pathOf line.name ∧
      (0 < line.maxAge → Plain line.name.toList ∧ Plain line.value.toList)) :
    Tidy config (jar.storeAll t lines) := by
  have hcookie {cookie : Cookie Time} (hmem : cookie ∈ (jar.storeAll t lines).cookies) :
      cookie.path = config.pathOf cookie.name ∧
        Plain cookie.name.toList ∧ Plain cookie.value.toList := by
    rcases Jar.mem_storeAll hmem with hold | ⟨line, hline, hkept⟩
    · exact ⟨h.paths cookie hold, h.plain cookie hold⟩
    · obtain ⟨hleft, rfl⟩ := SetCookie.kept_eq_some.1 hkept
      exact ⟨(hlines line hline).1, (hlines line hline).2 hleft⟩
  exact ⟨fun cookie hmem => (hcookie hmem).1, fun cookie hmem => (hcookie hmem).2⟩

/-- The four names differ. -/
theorem BrowserConfig.WellFormed.distinct {config : BrowserConfig} (h : config.WellFormed) :
    config.accessCookieName ≠ config.refreshCookieName ∧
      config.accessCookieName ≠ config.csrfCookieName ∧
      config.accessCookieName ≠ config.visitorCookieName ∧
      config.refreshCookieName ≠ config.csrfCookieName ∧
      config.refreshCookieName ≠ config.visitorCookieName ∧
      config.csrfCookieName ≠ config.visitorCookieName := by
  have hnames := h.names
  simp only [BrowserConfig.cookieNames, List.nodup_cons, List.mem_cons, not_or] at hnames
  obtain ⟨⟨har, hac, hav, -⟩, ⟨hrc, hrv, -⟩, ⟨hcv, -⟩, -⟩ := hnames
  exact ⟨har, hac, hav, hrc, hrv, hcv⟩

/-- What is kept of a login from `arrived` on. -/
structure Kept (d : Deployment) (jar : Jar Time) (t : Time) (held : Option Held) : Prop where
  access : jar.live t (d.config.accessCookieName, "/") =
    held.bind fun held =>
      if t < held.accessUntil then some (d.text held.tokens.accessToken) else none
  refresh : jar.live t (d.config.refreshCookieName, d.config.refreshCookiePath) =
    held.bind fun held =>
      if t < held.refreshUntil then some (d.text held.tokens.refreshToken) else none
  csrf : jar.live t (d.config.csrfCookieName, "/") =
    held.bind fun held => if t < held.csrfUntil then some held.csrf else none

/-- `set_tokens`. -/
theorem kept_setTokens (hconfig : d.config.WellFormed) {t : Time} (ht : step.arrived ≤ t)
    (tokens : AuthTokenDTO) :
    Kept d (jar.storeAll step.arrived (SessionCookies.setTokens d.config d.text step.clock
      step.csrf tokens).1) t (some (step.held tokens)) := by
  obtain ⟨har, hac, -, hrc, -, -⟩ := hconfig.distinct
  have hlines : (SessionCookies.setTokens d.config d.text step.clock step.csrf tokens).1 = [
      ⟨d.config.accessCookieName, d.text tokens.accessToken, "/",
        SessionCookies.maxAge tokens.accessExpiresAt step.clock.access⟩,
      ⟨d.config.refreshCookieName, d.text tokens.refreshToken, d.config.refreshCookiePath,
        SessionCookies.maxAge tokens.refreshExpiresAt step.clock.refresh⟩,
      ⟨d.config.csrfCookieName, step.csrf, "/",
        SessionCookies.maxAge tokens.refreshExpiresAt step.clock.csrf⟩] := by
    unfold SessionCookies.setTokens
    rw [if_pos hconfig.protection]
    rfl
  rw [hlines]
  simp only [Jar.storeAll_cons, Jar.storeAll_nil]
  constructor <;>
    simp [Jar.live_store _ ht, SetCookie.key, har, hac, hrc, Step.held]

/-- `clear_tokens`. -/
theorem kept_clearTokens (hconfig : d.config.WellFormed) {t : Time} (ht : step.arrived ≤ t) :
    Kept d (jar.storeAll step.arrived (SessionCookies.clearTokens d.config)) t none := by
  obtain ⟨har, hac, -, hrc, -, -⟩ := hconfig.distinct
  simp only [SessionCookies.clearTokens, List.map_cons, List.map_nil, Jar.storeAll_cons,
    Jar.storeAll_nil]
  constructor <;>
    simp [Jar.live_store _ ht, SetCookie.key, har, hac, hrc, ht]

/-- The cookies of a handler are those of the login that the browser holds after it. -/
theorem written_cases (hconfig : d.config.WellFormed) (answer : Answer) :
    (d.written step answer = [] ∧ ∀ held, step.heldAfter held (.answered answer) = held) ∨
    (∃ result, answer = .auth result ∧
      ((∃ data, step.visit = .guest (.login data)) ∨
        ∃ token, step.visit = .guest (.refresh token)) ∧
      d.written step answer = (SessionCookies.setTokens d.config d.text step.clock step.csrf
        result.tokens).1 ∧
      ∀ held, step.heldAfter held (.answered answer) = some (step.held result.tokens)) ∨
    (d.written step answer = SessionCookies.clearTokens d.config ∧
      ∀ held, step.heldAfter held (.answered answer) = none) := by
  have hcookies := hconfig.cookies
  unfold Deployment.written Step.heldAfter
  simp only [hcookies, if_true]
  cases step.visit with
  | guest endpoint =>
    cases endpoint with
    | login data =>
      cases answer with
      | auth result => exact .inr (.inl ⟨result, rfl, .inl ⟨data, rfl⟩, rfl, fun _ => rfl⟩)
      | _ => exact .inl ⟨rfl, fun _ => rfl⟩
    | refresh token =>
      cases answer with
      | auth result => exact .inr (.inl ⟨result, rfl, .inr ⟨token, rfl⟩, rfl, fun _ => rfl⟩)
      | _ => exact .inl ⟨rfl, fun _ => rfl⟩
    | _ => exact .inl ⟨rfl, fun _ => rfl⟩
  | account endpoint =>
    cases endpoint with
    | logout | changeMyPassword | deleteMe => exact .inr (.inr ⟨rfl, fun _ => rfl⟩)
    | revokeMySessions keepCurrent =>
      cases keepCurrent with
      | true => exact .inl ⟨rfl, fun _ => rfl⟩
      | false => exact .inr (.inr ⟨rfl, fun _ => rfl⟩)
    | _ => exact .inl ⟨rfl, fun _ => rfl⟩

/-! ## The invariant -/

/-- A login as the service gives it out: two signed tokens and a CSRF token that can be
compared, which is kept as long as the access token and to within a second as long as the
refresh token. -/
structure Held.Issued (held : Held) : Prop where
  access : ∃ claims, held.tokens.accessToken = .jwt claims
  refresh : ∃ claims, held.tokens.refreshToken = .jwt claims
  plain : Plain held.csrf.toList
  ascii : isAscii held.csrf = true
  accessUntil : held.accessUntil ≤ held.csrfUntil
  refreshUntil : held.refreshUntil ≤ held.csrfUntil + 1

/-- From `now` on the jar shows what the browser stands for. -/
structure Holds (d : Deployment) (now : Time) (jar : Jar Time) (presence : Presence) :
    Prop where
  tidy : Tidy d.config jar
  kept : ∀ t, now ≤ t → Kept d jar t presence.held
  visitor : ∀ t, now ≤ t →
    jar.live t (d.config.visitorCookieName, "/") = presence.visitorAt t
  issued : ∀ held, presence.held = some held → held.Issued

theorem holds_empty (d : Deployment) (now : Time) : Holds d now .empty ⟨none, none⟩ where
  tidy := ⟨by simp [Jar.empty], by simp [Jar.empty]⟩
  kept := fun _ _ => ⟨rfl, rfl, rfl⟩
  visitor := fun _ _ => rfl
  issued := by simp

/-- Whole seconds that are left at the first of two readings. -/
theorem maxAge_le {expiresAt expiresAt' now now' : Time}
    (h : expiresAt - now ≤ expiresAt' - now') :
    SessionCookies.maxAge expiresAt now ≤ SessionCookies.maxAge expiresAt' now' :=
  max_le_max (Int.floor_le_floor h) le_rfl

/-- A pair of tokens of a login or a refresh. -/
theorem Step.Possible.issued (hstep : step.Possible) {tokens : AuthTokenDTO}
    (haccess : ∃ claims, tokens.accessToken = .jwt claims)
    (hrefresh : ∃ claims, tokens.refreshToken = .jwt claims)
    (hshorter : tokens.accessExpiresAt + 1 ≤ tokens.refreshExpiresAt) :
    (step.held tokens).Issued where
  access := haccess
  refresh := hrefresh
  plain := hstep.csrf
  ascii := hstep.ascii
  accessUntil := by
    have hprompt := hstep.prompt
    have hage : SessionCookies.maxAge tokens.accessExpiresAt step.clock.access ≤
        SessionCookies.maxAge tokens.refreshExpiresAt step.clock.csrf :=
      maxAge_le (by linarith)
    have hage' : (SessionCookies.maxAge tokens.accessExpiresAt step.clock.access : Time) ≤
        SessionCookies.maxAge tokens.refreshExpiresAt step.clock.csrf := by exact_mod_cast hage
    show step.arrived + _ ≤ step.arrived + _
    linarith
  refreshUntil := by
    have hprompt := hstep.prompt
    have haccess := hstep.access
    have hage : SessionCookies.maxAge tokens.refreshExpiresAt step.clock.refresh ≤
        SessionCookies.maxAge (tokens.refreshExpiresAt + 1) step.clock.csrf :=
      maxAge_le (by linarith)
    have hsecond : SessionCookies.maxAge (tokens.refreshExpiresAt + 1) step.clock.csrf ≤
        SessionCookies.maxAge tokens.refreshExpiresAt step.clock.csrf + 1 := by
      unfold SessionCookies.maxAge
      have hfloor : ⌊tokens.refreshExpiresAt + 1 - step.clock.csrf⌋ =
          ⌊tokens.refreshExpiresAt - step.clock.csrf⌋ + 1 := by
        rw [← Int.floor_add_one]
        congr 1
        ring
      rw [hfloor]
      omega
    have hage' : (SessionCookies.maxAge tokens.refreshExpiresAt step.clock.refresh : Time) ≤
        SessionCookies.maxAge tokens.refreshExpiresAt step.clock.csrf + 1 := by
      exact_mod_cast hage.trans hsecond
    show step.arrived + _ ≤ step.arrived + _ + 1
    linarith

/-! ## One visit -/

/-- A cookie that is read is plain text. -/
theorem Tidy.plain_of_live {config : BrowserConfig} (h : Tidy config jar) {t : Time}
    {key : String × String} {value : String} (hlive : jar.live t key = some value) :
    Plain value.toList := by
  unfold Jar.live at hlive
  obtain ⟨cookie, hfind, hvalue⟩ := Option.bind_eq_some_iff.1 hlive
  split at hvalue
  · cases hvalue
    exact (h.plain cookie (Jar.find_eq_some.1 hfind).1).2
  · cases hvalue

theorem truthy_of_plain {value : Option String} (h : ∀ text, value = some text →
    Plain text.toList) : Gateway.truthy value = value := by
  cases value with
  | none => rfl
  | some text =>
    refine Gateway.truthy_some fun hempty => ?_
    exact (h text rfl).1 (by rw [hempty]; rfl)

/-- A cookie for the whole site is read off any request. -/
theorem truthy_root (hconfig : d.config.WellFormed) (hlibraries : d.Faithful)
    (htidy : Tidy d.config jar) {name : String} (hname : name ≠ d.config.refreshCookieName) :
    Gateway.truthy (((d.request jar step).cookies d.cookieParser).get? name) =
      jar.live step.sent (name, "/") := by
  have hpath : d.config.pathOf name = "/" := if_neg hname
  rw [get?_cookies_request hconfig hlibraries htidy, hpath,
    if_pos (pathMatches_root hconfig step)]
  exact truthy_of_plain fun text htext => htidy.plain_of_live htext

/-- The request says which visitor the browser is. -/
theorem visitorOf_request (hconfig : d.config.WellFormed) (hlibraries : d.Faithful)
    {now : Time} {presence : Presence} (h : Holds d now jar presence)
    (hnow : now ≤ step.sent) :
    d.visitorOf (d.request jar step) = presence.visitorAt step.sent := by
  obtain ⟨-, -, -, -, hrv, -⟩ := hconfig.distinct
  unfold Deployment.visitorOf
  rw [truthy_root hconfig hlibraries h.tidy (Ne.symm hrv), h.visitor step.sent hnow]

/-- A login or a refresh answers with a pair that was issued then. -/
theorem issuedPair_of_runCall {env : Env} {w : World} {t : Time} {c : Call}
    {result : AuthResultDTO}
    (hc : (∃ data device, c = .login data device) ∨ ∃ token device, c = .refresh token device)
    (h : (runCall env w t c).2 = .ok (.auth result)) :
    ∃ user jti, result = issuedPair env t user jti := by
  obtain ⟨w', heffect, -⟩ := runCall_effect env w t c
  rw [h] at heffect
  rcases hc with ⟨data, device, rfl⟩ | ⟨token, device, rfl⟩
  · cases heffect with
    | observed hobserves => exact hobserves.elim
    | loggedIn => exact ⟨_, _, rfl⟩
  · cases heffect with
    | observed hobserves => exact hobserves.elim
    | refreshed => exact ⟨_, _, rfl⟩

/-- The pair that a visit brings. -/
theorem issued_of_serve (hminutes : d.env.config.accessTokenExpireMinutes <
      d.env.config.refreshTokenExpireMinutes) (hstep : step.Possible) {w : World}
    {request : ApiRequest} {result : AuthResultDTO}
    (hvisit : (∃ data, step.visit = .guest (.login data)) ∨
      ∃ token, step.visit = .guest (.refresh token))
    (h : (d.serve w request step).2 = .answered (.auth result)) :
    (step.held result.tokens).Issued := by
  have hpair : ∃ user jti, result = issuedPair d.env step.run user jti := by
    unfold Deployment.serve at h
    split at h
    · cases h
    · cases h
    · split at h
      · rename_i w' answer hserve
        cases h
        have hout := congrArg Prod.snd hserve
        rcases hvisit with ⟨data, hvisit⟩ | ⟨token, hvisit⟩
        · rw [hvisit] at hout
          exact issuedPair_of_runCall (.inl ⟨_, _, rfl⟩) hout
        · rw [hvisit] at hout
          simp only [Deployment.asked, Request.serve] at hout
          split at hout
          · rename_i c hc
            cases hread : d.refreshToken request token with
            | none =>
              rw [hread] at hc
              cases hc
            | some found =>
              rw [hread] at hc
              cases hc
              exact issuedPair_of_runCall (.inr ⟨_, _, rfl⟩) hout
          · cases hout
      · cases h
      · cases h
  obtain ⟨user, jti, rfl⟩ := hpair
  refine hstep.issued ⟨_, rfl⟩ ⟨_, rfl⟩ ?_
  show JwtTokenService.expiresAt d.env.config step.run .access + 1 ≤
    JwtTokenService.expiresAt d.env.config step.run .refresh
  unfold JwtTokenService.expiresAt JwtTokenService.minutes
  have hgap : (d.env.config.accessTokenExpireMinutes : Time) + 1 ≤
      d.env.config.refreshTokenExpireMinutes := by exact_mod_cast hminutes
  linarith

/-- A login that an answer brings was issued then. -/
theorem issued_of_answered (hconfig : d.config.WellFormed)
    (hminutes : d.env.config.accessTokenExpireMinutes <
      d.env.config.refreshTokenExpireMinutes) (hstep : step.Possible) {w : World}
    {request : ApiRequest} {answer : Answer}
    (h : (d.serve w request step).2 = .answered answer) {held : Held}
    (hheld : step.heldAfter none (.answered answer) = some held) : held.Issued := by
  rcases written_cases hconfig answer with
    ⟨-, hsame⟩ | ⟨result, rfl, hvisit, -, hnew⟩ | ⟨-, hcleared⟩
  · rw [hsame] at hheld
    cases hheld
  · rw [hnew] at hheld
    cases hheld
    exact issued_of_serve hminutes hstep hvisit h
  · rw [hcleared] at hheld
    cases hheld

/-- The lines of the handlers carry the names of a login, each with its path and with text
that may stand there. -/
theorem written_line (hconfig : d.config.WellFormed) (hlibraries : d.Faithful)
    {answer : Answer}
    (hissued : ∀ held, step.heldAfter none (.answered answer) = some held → held.Issued)
    {line : SetCookie} (hline : line ∈ d.written step answer) :
    line.path = d.config.pathOf line.name ∧ line.name ≠ d.config.visitorCookieName ∧
      Plain line.name.toList ∧ Clean line.value.toList ∧
      (0 < line.maxAge → Plain line.value.toList) := by
  obtain ⟨har, hac, hav, hrc, hrv, hcv⟩ := hconfig.distinct
  have hplain {name : String} (hname : name ∈ d.config.cookieNames) := hconfig.plain name hname
  have haccess : Plain d.config.accessCookieName.toList :=
    hplain (by simp [BrowserConfig.cookieNames])
  have hrefresh : Plain d.config.refreshCookieName.toList :=
    hplain (by simp [BrowserConfig.cookieNames])
  have hproof : Plain d.config.csrfCookieName.toList :=
    hplain (by simp [BrowserConfig.cookieNames])
  have hempty : Clean "".toList := fun c hc => by cases hc
  rcases written_cases hconfig answer with
    ⟨hnone, -⟩ | ⟨result, -, -, hset, hheld⟩ | ⟨hcleared, -⟩
  · rw [hnone] at hline
    cases hline
  · have hnew := hissued _ (hheld none)
    obtain ⟨a, ha⟩ := hnew.access
    obtain ⟨r, hr⟩ := hnew.refresh
    have ha' : result.tokens.accessToken = .jwt a := ha
    have hr' : result.tokens.refreshToken = .jwt r := hr
    have hatext := hlibraries.plain a
    have hrtext := hlibraries.plain r
    have hcsrf : Plain step.csrf.toList := hnew.plain
    rw [hset] at hline
    unfold SessionCookies.setTokens at hline
    rw [if_pos hconfig.protection, ha', hr'] at hline
    simp only [List.cons_append, List.nil_append, List.mem_cons, List.not_mem_nil,
      or_false] at hline
    rcases hline with rfl | rfl | rfl
    · exact ⟨(if_neg har).symm, hav, haccess, hatext.clean, fun _ => hatext⟩
    · exact ⟨(if_pos rfl).symm, hrv, hrefresh, hrtext.clean, fun _ => hrtext⟩
    · exact ⟨(if_neg (Ne.symm hrc)).symm, hcv, hproof, hcsrf.clean, fun _ => hcsrf⟩
  · rw [hcleared] at hline
    simp only [SessionCookies.clearTokens, List.map_cons, List.map_nil, List.mem_cons,
      List.not_mem_nil, or_false] at hline
    rcases hline with rfl | rfl | rfl
    · exact ⟨(if_neg har).symm, hav, haccess, hempty, fun hleft => absurd hleft (lt_irrefl 0)⟩
    · exact ⟨(if_pos rfl).symm, hrv, hrefresh, hempty, fun hleft => absurd hleft (lt_irrefl 0)⟩
    · exact ⟨(if_neg (Ne.symm hrc)).symm, hcv, hproof, hempty,
        fun hleft => absurd hleft (lt_irrefl 0)⟩

/-- The handler's part of a response. -/
theorem Holds.written (hconfig : d.config.WellFormed) (hlibraries : d.Faithful) {now : Time}
    {presence : Presence} (h : Holds d now jar presence) (harrived : now ≤ step.arrived)
    {answer : Answer}
    (hissued : ∀ held, step.heldAfter none (.answered answer) = some held → held.Issued) :
    Holds d step.arrived (jar.storeAll step.arrived (d.written step answer))
      ⟨step.heldAfter presence.held (.answered answer), presence.visitor⟩ where
  tidy := h.tidy.storeAll fun line hline =>
    have hfacts := written_line hconfig hlibraries hissued hline
    ⟨hfacts.1, fun hleft => ⟨hfacts.2.2.1, hfacts.2.2.2.2 hleft⟩⟩
  kept := by
    intro t ht
    rcases written_cases hconfig answer with
      ⟨hnone, hheld⟩ | ⟨result, -, -, hset, hheld⟩ | ⟨hcleared, hheld⟩
    · rw [hnone, hheld]
      exact h.kept t (harrived.trans ht)
    · rw [hset, hheld]
      exact kept_setTokens hconfig ht result.tokens
    · rw [hcleared, hheld]
      exact kept_clearTokens hconfig ht
  visitor := by
    intro t ht
    rw [Jar.live_storeAll_of_names ht fun line hline =>
      (written_line hconfig hlibraries hissued hline).2.1]
    exact h.visitor t (harrived.trans ht)
  issued := by
    intro held hheld
    rcases written_cases hconfig answer with
      ⟨-, hsame⟩ | ⟨result, -, -, -, hnew⟩ | ⟨-, hcleared⟩
    · exact h.issued held ((hsame presence.held).symm.trans hheld)
    · have hsame : some (step.held result.tokens) = some held :=
        (hnew presence.held).symm.trans hheld
      exact hissued held ((hnew none).trans hsame)
    · have hnone := (hcleared presence.held).symm.trans hheld
      cases hnone

/-- The part of `VisitorMiddleware`. -/
theorem Holds.visitorCookies (hconfig : d.config.WellFormed) {now : Time}
    {presence : Presence} (h : Holds d now jar presence) (hstep : step.Possible)
    {request : ApiRequest} {outcome : Deployment.Outcome} (hcrash : outcome ≠ .crashed)
    (hvisitor : d.visitorOf request = presence.visitorAt step.sent)
    (hnow : now ≤ step.arrived) :
    Holds d step.arrived (jar.storeAll step.arrived (d.visitorCookies request step))
      ⟨presence.held, step.visitorAfter d.config presence outcome⟩ := by
  obtain ⟨-, -, hav, -, hrv, hcv⟩ := hconfig.distinct
  unfold Deployment.visitorCookies Step.visitorAfter
  rw [hvisitor]
  cases hknown : presence.visitorAt step.sent with
  | some visitor =>
    exact ⟨h.tidy, fun t ht => h.kept t (hnow.trans ht), fun t ht => h.visitor t (hnow.trans ht),
      h.issued⟩
  | none =>
    have hother {name : String} (hname : name ≠ d.config.visitorCookieName) :
        ∀ line ∈ [VisitorMiddleware.cookie d.config step.visitor], line.name ≠ name := by
      intro line hline
      rw [List.mem_singleton.1 hline]
      exact Ne.symm hname
    refine ⟨h.tidy.storeAll fun line hline => ?_, fun t ht => ?_, fun t ht => ?_, h.issued⟩
    · obtain rfl := List.mem_singleton.1 hline
      refine ⟨(if_neg (Ne.symm hrv)).symm, fun _ => ⟨?_, hstep.visitor⟩⟩
      exact hconfig.plain _ (by simp [BrowserConfig.cookieNames, VisitorMiddleware.cookie])
    · have hkept := h.kept t (hnow.trans ht)
      constructor
      · rw [← hkept.access]
        exact Jar.live_storeAll_of_names ht (hother hav)
      · rw [← hkept.refresh]
        exact Jar.live_storeAll_of_names ht (hother hrv)
      · rw [← hkept.csrf]
        exact Jar.live_storeAll_of_names ht (hother hcv)
    · cases outcome with
      | crashed => exact absurd rfl hcrash
      | _ =>
        have hkey : (d.config.visitorCookieName, "/") =
            (VisitorMiddleware.cookie d.config step.visitor).key := rfl
        simp only [Option.isNone_none, if_true, Jar.storeAll_cons, Jar.storeAll_nil]
        rw [Jar.live_store _ ht, if_pos hkey]
        rfl

/-- A visit leaves a browser that holds what it stands for after the visit. -/
theorem Holds.visit (hconfig : d.config.WellFormed) (hlibraries : d.Faithful)
    (hminutes : d.env.config.accessTokenExpireMinutes <
      d.env.config.refreshTokenExpireMinutes) (hstep : step.Possible) {now : Time}
    (hnow : now ≤ step.sent) {presence : Presence} (h : Holds d now jar presence) (w : World) :
    Holds d step.arrived (d.visit w jar step).2
      (step.after d.config presence (d.serve w (d.request jar step) step).2) := by
  have hvisitor := visitorOf_request hconfig hlibraries h hnow
  have harrived : now ≤ step.arrived := hnow.trans hstep.arrived
  unfold Deployment.visit Step.after
  simp only
  cases houtcome : (d.serve w (d.request jar step) step).2 with
  | answered answer =>
    have hissued : ∀ held, step.heldAfter none (.answered answer) = some held →
        held.Issued := fun _ => issued_of_answered hconfig hminutes hstep houtcome
    unfold Deployment.setCookies
    rw [Jar.storeAll_append]
    exact (h.written hconfig hlibraries harrived hissued).visitorCookies hconfig hstep (by simp)
      hvisitor le_rfl
  | refused statusCode =>
    exact h.visitorCookies hconfig hstep (by simp) hvisitor harrived
  | failed error =>
    exact h.visitorCookies hconfig hstep (by simp) hvisitor harrived
  | crashed =>
    have hsame : step.visitorAfter d.config presence .crashed = presence.visitor := by
      unfold Step.visitorAfter
      cases presence.visitorAt step.sent <;> rfl
    rw [hsame]
    exact ⟨h.tidy, fun t ht => h.kept t (harrived.trans ht),
      fun t ht => h.visitor t (harrived.trans ht), h.issued⟩

end

/-! ## A deployment -/

namespace Sample

/-- The numbers of a token: what it says, and its `jti` letter by letter. -/
def tokenNumbers (c : Claims) : List Nat :=
  [c.sub, if c.type = .access then 0 else 1, if c.exp < 0 then 1 else 0, c.exp.natAbs] ++
    c.jti.toList.map Char.toNat

/-- A token as text: its numbers between dots. -/
def tokenText : Token → String
  | .jwt c => String.ofList (['.'].intercalate ((tokenNumbers c).map (Nat.toDigits 10)))
  | .text raw => raw

def claimsOf : List Nat → Option Claims
  | sub :: type :: sign :: exp :: jti =>
      some ⟨sub, String.ofList (jti.map Char.ofNat), if type = 0 then .access else .refresh,
        if sign = 1 then -exp else exp⟩
  | _ => none

def readToken (text : String) : Token :=
  match claimsOf ((text.toList.splitOn '.').map fun part => Nat.ofDigitChars 10 part 0) with
  | some c => .jwt c
  | none => .text text

theorem claimsOf_tokenNumbers (c : Claims) : claimsOf (tokenNumbers c) = some c := by
  obtain ⟨sub, jti, type, exp⟩ := c
  have hjti : String.ofList ((jti.toList.map Char.toNat).map Char.ofNat) = jti := by
    rw [List.map_map]
    have hid : jti.toList.map (Char.ofNat ∘ Char.toNat) = jti.toList :=
      (List.map_congr_left fun c _ => Char.ofNat_toNat c).trans (List.map_id' _)
    rw [hid, String.ofList_toList]
  have htype : (if (if type = TokenType.access then 0 else 1) = 0 then TokenType.access
      else .refresh) = type := by cases type <;> rfl
  have hexp : (if (if exp < 0 then 1 else 0) = 1 then -(exp.natAbs : Int) else exp.natAbs) =
      exp := by
    by_cases h : exp < 0
    · rw [if_pos h, if_pos rfl]
      omega
    · rw [if_neg h, if_neg (by decide)]
      omega
  simp only [tokenNumbers, List.cons_append, List.nil_append, claimsOf, hjti, htype, hexp]

theorem readToken_tokenText (c : Claims) : readToken (tokenText (.jwt c)) = .jwt c := by
  have hsplit : (tokenText (.jwt c)).toList.splitOn '.' =
      (tokenNumbers c).map (Nat.toDigits 10) := by
    unfold tokenText
    rw [String.toList_ofList]
    refine List.splitOn_intercalate _ ?_ (by simp [tokenNumbers])
    intro part hpart hdot
    obtain ⟨n, -, rfl⟩ := List.mem_map.1 hpart
    exact absurd (digit_of_mem hdot) (by decide)
  have hread : ((tokenNumbers c).map (Nat.toDigits 10)).map
      (fun part => Nat.ofDigitChars 10 part 0) = tokenNumbers c := by
    rw [List.map_map]
    refine (List.map_congr_left fun n _ => ?_).trans (List.map_id' _)
    exact Nat.ofDigitChars_ten_toDigits
  unfold readToken
  rw [hsplit, hread, claimsOf_tokenNumbers]

theorem mem_intercalate {x y : Char} {parts : List (List Char)}
    (h : x ∈ [y].intercalate parts) : x = y ∨ ∃ part ∈ parts, x ∈ part := by
  induction parts with
  | nil => cases h
  | cons part rest ih =>
    cases rest with
    | nil => exact .inr ⟨part, List.mem_cons_self, by simpa using h⟩
    | cons next rest =>
      rw [List.intercalate_cons_cons, List.append_assoc, List.mem_append] at h
      rcases h with hpart | hrest
      · exact .inr ⟨part, List.mem_cons_self, hpart⟩
      · rcases List.mem_append.1 hrest with hdot | hlater
        · exact .inl (List.mem_singleton.1 hdot)
        · rcases ih hlater with hsame | ⟨other, hother, hx⟩
          · exact .inl hsame
          · exact .inr ⟨other, List.mem_cons_of_mem _ hother, hx⟩

theorem tokenText_plain (c : Claims) : Plain (tokenText (.jwt c)).toList := by
  unfold tokenText
  rw [String.toList_ofList]
  constructor
  · simp [tokenNumbers, List.intercalate_cons_cons]
  · intro x hx
    rcases mem_intercalate hx with rfl | ⟨part, hpart, hmem⟩
    · decide
    · obtain ⟨n, -, rfl⟩ := List.mem_map.1 hpart
      exact clean_of_isDigit (digit_of_mem hmem)

/-- The deployment of the samples. -/
def deployment : Deployment where
  env := env
  config := {}
  cookieParser := parseCookies
  bearer := fun header => header.map fun text => String.ofList (text.toList.drop 7)
  text := tokenText
  token := readToken

theorem deployment_sound : deployment.Sound where
  config := by
    refine ⟨rfl, rfl, by decide +kernel, by decide +kernel, by decide +kernel, by decide +kernel,
      .inr (by decide +kernel), by decide +kernel⟩
  libraries := ⟨fun _ h => parseCookies_cookieLine fun item hitem =>
      ⟨(h item hitem).1, (h item hitem).2.clean⟩, rfl, readToken_tokenText, tokenText_plain⟩
  minutes := by decide

end Sample

end VideoSite.Users
