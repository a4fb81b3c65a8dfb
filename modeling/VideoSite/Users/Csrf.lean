import VideoSite.Gateway.Http

/-!
# Cookies and the CSRF proof

`CsrfMiddleware` of `infrastructure/api/csrf_middleware.py` stands before the handlers and
decides by the cookies of a request whether it has to prove that it is not forged.  Where a
handler takes its credential from is decided behind it: `get_access_token` looks at a cookie
and then at the `Authorization` header, and `POST /auth/refresh` at a cookie and then at its
body.

* `dispatch_of_checked` and `dispatch_of_unchecked` say what the middleware does.
* `cookies_need_proof_iff` compares its decision with those of the handlers.

What HTTP libraries find in the `Cookie` lines and in the `Authorization` header are
parameters.
-/

namespace VideoSite.Users

/-! ## The request -/

/-- The settings that decide about cookies. -/
structure CookieConfig where
  cookieAuthEnabled : Bool := true
  accessCookieName : String := "access_token"
  refreshCookieName : String := "refresh_token"
  csrfProtection : Bool := true
  csrfCookieName : String := "csrf_token"
  csrfHeaderName : String := "X-CSRF-Token"

/-- A request with its method. -/
structure ApiRequest extends Gateway.Request where
  method : String

def safeMethods : List String := ["GET", "HEAD", "OPTIONS", "TRACE"]

/-! ## The middleware -/

/-- What `dispatch` does with a request. -/
inductive Dispatched where
  | reached
  | answered (statusCode : Nat) (detail : String)
  | raised (error : String)
  deriving DecidableEq

/-- `str.isascii`. -/
def isAscii (text : String) : Bool := text.toList.all fun c => c.toNat < 128

/-- `secrets.compare_digest` on two strings, and `none` where it raises a `TypeError`. -/
def compareDigest (a b : String) : Option Bool :=
  if isAscii a && isAscii b then some (a = b) else none

section

variable (cookieParser : String → List (String × String))

namespace CsrfMiddleware

/-- `_requires_check`. -/
def requiresCheck (config : CookieConfig) (request : ApiRequest) : Bool :=
  if !(config.csrfProtection && config.cookieAuthEnabled) then false
  else if safeMethods.contains request.method then false
  else [config.accessCookieName, config.refreshCookieName].any fun name =>
    (request.cookies cookieParser).keys.contains name

/-- `_token_matches`. -/
def tokenMatches (config : CookieConfig) (request : ApiRequest) : Option Bool :=
  match Gateway.truthy ((request.cookies cookieParser).get? config.csrfCookieName),
    Gateway.truthy (request.headers.get? config.csrfHeaderName) with
  | some cookie, some header => compareDigest cookie header
  | _, _ => some false

def dispatch (config : CookieConfig) (request : ApiRequest) : Dispatched :=
  if requiresCheck cookieParser config request then
    match tokenMatches cookieParser config request with
    | some true => .reached
    | some false => .answered 403 "CSRF token missing or invalid"
    | none => .raised "TypeError"
  else .reached

end CsrfMiddleware

/-! ## The handlers -/

/-- A credential and where it was found. -/
inductive Credential where
  | cookie (token : String)
  | header (token : String)
  | body (token : String)

/-- The handlers behind the middleware, by where they look for a credential: most have
`get_access_token` among their dependencies, some need none. -/
inductive RouteHandler where
  | account
  | refresh (body : Option String)
  | anybody

variable (bearer : Option String → Option String)

/-- `get_access_token`, without its `AuthenticationError`. -/
def getAccessToken (config : CookieConfig) (request : ApiRequest) : Option Credential :=
  let credentials := bearer (request.headers.get? "authorization")
  if config.cookieAuthEnabled then
    match Gateway.truthy ((request.cookies cookieParser).get? config.accessCookieName) with
    | some fromCookie => some (.cookie fromCookie)
    | none => (Gateway.truthy credentials).map .header
  else (Gateway.truthy credentials).map .header

/-- The token that `refresh` uses. -/
def refreshCredential (config : CookieConfig) (request : ApiRequest) (body : Option String) :
    Option Credential :=
  match Gateway.truthy ((request.cookies cookieParser).get? config.refreshCookieName) with
  | some fromCookie => some (.cookie fromCookie)
  | none => (Gateway.truthy body).map .body

/-- The credential that a handler acts on. -/
def RouteHandler.credential (config : CookieConfig) (request : ApiRequest) :
    RouteHandler → Option Credential
  | .account => getAccessToken cookieParser bearer config request
  | .refresh body => refreshCredential cookieParser config request body
  | .anybody => none

/-! ## What the middleware lets through -/

/-- The header is not empty and equals the cookie. -/
def HasProof (config : CookieConfig) (request : ApiRequest) : Prop :=
  ∃ token, Gateway.truthy (request.headers.get? config.csrfHeaderName) = some token ∧
    (request.cookies cookieParser).get? config.csrfCookieName = some token

/-- The request carries a cookie for credentials, under either of the names. -/
def CarriesAuthCookie (config : CookieConfig) (request : ApiRequest) : Prop :=
  config.accessCookieName ∈ (request.cookies cookieParser).keys ∨
    config.refreshCookieName ∈ (request.cookies cookieParser).keys

/-- Cookie and header are there and cannot be compared. -/
def Incomparable (config : CookieConfig) (request : ApiRequest) : Prop :=
  ∃ cookie header,
    Gateway.truthy ((request.cookies cookieParser).get? config.csrfCookieName) = some cookie ∧
      Gateway.truthy (request.headers.get? config.csrfHeaderName) = some header ∧
      ¬ (isAscii cookie = true ∧ isAscii header = true)

/-- A handler acts on a cookie only with the proof, and the middleware never fails. -/
def CookiesNeedProof (config : CookieConfig) (request : ApiRequest) (handler : RouteHandler) :
    Prop :=
  (∀ token, handler.credential cookieParser bearer config request = some (.cookie token) →
    (CsrfMiddleware.dispatch cookieParser config request = .reached ↔
      HasProof cookieParser config request) ∧
    (¬ HasProof cookieParser config request →
      CsrfMiddleware.dispatch cookieParser config request =
        .answered 403 "CSRF token missing or invalid")) ∧
  ∀ error, CsrfMiddleware.dispatch cookieParser config request ≠ .raised error

section

variable {cookieParser : String → List (String × String)}
  {bearer : Option String → Option String} {config : CookieConfig}
  {request : ApiRequest} {handler : RouteHandler}

theorem requiresCheck_iff (hprotection : config.csrfProtection = true)
    (hmethod : request.method ∉ safeMethods) :
    CsrfMiddleware.requiresCheck cookieParser config request = true ↔
      config.cookieAuthEnabled = true ∧ CarriesAuthCookie cookieParser config request := by
  unfold CsrfMiddleware.requiresCheck CarriesAuthCookie
  cases config.cookieAuthEnabled <;> simp [hprotection, hmethod]

theorem tokenMatches_eq_none :
    CsrfMiddleware.tokenMatches cookieParser config request = none ↔
      Incomparable cookieParser config request := by
  unfold CsrfMiddleware.tokenMatches Incomparable
  cases Gateway.truthy ((request.cookies cookieParser).get? config.csrfCookieName) with
  | none => simp
  | some cookie =>
    cases Gateway.truthy (request.headers.get? config.csrfHeaderName) with
    | none => simp
    | some header => simp [compareDigest]

/-- Cookie and header match just if they are the proof. -/
theorem tokenMatches_eq_true (hcomparable : ¬ Incomparable cookieParser config request) :
    CsrfMiddleware.tokenMatches cookieParser config request = some true ↔
      HasProof cookieParser config request := by
  have htruthy {text : Option String} {token : String} (h : Gateway.truthy text = some token) :
      text = some token ∧ token ≠ "" := by
    have hfilter := Option.filter_eq_some_iff.1 h
    exact ⟨hfilter.1, by simpa using hfilter.2⟩
  unfold HasProof
  constructor
  · intro h
    unfold CsrfMiddleware.tokenMatches at h
    split at h
    · rename_i cookie header hcookie hheader
      unfold compareDigest at h
      split_ifs at h
      have hsame : cookie = header := by simpa using h
      exact ⟨header, hheader, hsame ▸ (htruthy hcookie).1⟩
    · cases h
  · rintro ⟨token, hheader, hcookie⟩
    have hnonempty := (htruthy hheader).2
    have hsent : Gateway.truthy ((request.cookies cookieParser).get? config.csrfCookieName) =
        some token := by
      rw [hcookie, Gateway.truthy_some hnonempty]
    have hascii : isAscii token = true := by
      by_contra hforeign
      exact hcomparable ⟨token, token, hsent, hheader, fun h => hforeign h.1⟩
    unfold CsrfMiddleware.tokenMatches
    rw [hsent, hheader]
    show compareDigest token token = some true
    unfold compareDigest
    rw [hascii]
    simp

/-- A request that need not be checked reaches its handler. -/
theorem dispatch_of_unchecked
    (h : CsrfMiddleware.requiresCheck cookieParser config request ≠ true) :
    CsrfMiddleware.dispatch cookieParser config request = .reached := by
  unfold CsrfMiddleware.dispatch
  rw [if_neg h]

/-- One that has to be checked does with the proof, and is refused without, where cookie and
header can be compared. -/
theorem dispatch_of_checked
    (h : CsrfMiddleware.requiresCheck cookieParser config request = true) :
    (Incomparable cookieParser config request →
        CsrfMiddleware.dispatch cookieParser config request = .raised "TypeError") ∧
      (¬ Incomparable cookieParser config request →
        (HasProof cookieParser config request →
            CsrfMiddleware.dispatch cookieParser config request = .reached) ∧
          (¬ HasProof cookieParser config request →
            CsrfMiddleware.dispatch cookieParser config request =
              .answered 403 "CSRF token missing or invalid")) := by
  unfold CsrfMiddleware.dispatch
  rw [if_pos h]
  refine ⟨fun hforeign => ?_, fun hcomparable => ⟨fun hproof => ?_, fun hproof => ?_⟩⟩
  · rw [tokenMatches_eq_none.2 hforeign]
  · rw [(tokenMatches_eq_true hcomparable).2 hproof]
  · cases hmatch : CsrfMiddleware.tokenMatches cookieParser config request with
    | none => exact absurd (tokenMatches_eq_none.1 hmatch) hcomparable
    | some verdict =>
      cases verdict with
      | true => exact absurd ((tokenMatches_eq_true hcomparable).1 hmatch) hproof
      | false => rfl

/-- A handler takes its credential from a cookie that the request carries: the access cookie
where the settings have it, the refresh cookie in any case. -/
theorem credential_eq_cookie {token : String}
    (h : handler.credential cookieParser bearer config request = some (.cookie token)) :
    CarriesAuthCookie cookieParser config request ∧
      (config.cookieAuthEnabled = false → ∃ body, handler = .refresh body ∧
        Gateway.truthy ((request.cookies cookieParser).get? config.refreshCookieName) =
          some token) := by
  have hkeys {name : String}
      (hsome : Gateway.truthy ((request.cookies cookieParser).get? name) = some token) :
      name ∈ (request.cookies cookieParser).keys := by
    by_contra hnone
    rw [Dict.get?_eq_none hnone] at hsome
    cases hsome
  cases handler with
  | account =>
    unfold RouteHandler.credential getAccessToken at h
    cases henabled : config.cookieAuthEnabled with
    | false => simp [henabled] at h
    | true =>
      cases hcookie : Gateway.truthy
          ((request.cookies cookieParser).get? config.accessCookieName) with
      | none => simp [henabled, hcookie] at h
      | some found =>
        have hfound : found = token := by simpa [henabled, hcookie] using h
        exact ⟨.inl (hkeys (hfound ▸ hcookie)), fun hoff => by cases hoff⟩
  | refresh body =>
    unfold RouteHandler.credential refreshCredential at h
    cases hcookie : Gateway.truthy
        ((request.cookies cookieParser).get? config.refreshCookieName) with
    | none => simp [hcookie] at h
    | some found =>
      have hfound : found = token := by simpa [hcookie] using h
      exact ⟨.inr (hkeys (hfound ▸ hcookie)), fun _ => ⟨body, rfl, by rw [hfound]⟩⟩
  | anybody => cases h

/-- Where protection is on, an unsafe request acts on a cookie only with the proof and never
makes the middleware fail, just if the middleware has not got to compare strings that it
cannot compare, and, where cookie authentication is off, no refresh cookie is sent without
the proof to the one handler that uses it all the same. -/
theorem cookies_need_proof_iff (cookieParser : String → List (String × String))
    (bearer : Option String → Option String) (config : CookieConfig) (request : ApiRequest)
    (handler : RouteHandler) (hprotection : config.csrfProtection = true)
    (hmethod : request.method ∉ safeMethods) :
    CookiesNeedProof cookieParser bearer config request handler ↔
      ¬ (config.cookieAuthEnabled = true ∧ CarriesAuthCookie cookieParser config request ∧
          Incomparable cookieParser config request) ∧
      ∀ body token, config.cookieAuthEnabled = false → handler = .refresh body →
        Gateway.truthy ((request.cookies cookieParser).get? config.refreshCookieName) =
          some token →
        HasProof cookieParser config request := by
  have hrequires := @requiresCheck_iff cookieParser config request hprotection hmethod
  unfold CookiesNeedProof
  by_cases hchecked : CsrfMiddleware.requiresCheck cookieParser config request = true
  · obtain ⟨henabled, hcarries⟩ := hrequires.1 hchecked
    obtain ⟨hforeign, hcomparable⟩ := dispatch_of_checked hchecked
    constructor
    · rintro ⟨-, hraised⟩
      refine ⟨fun h => hraised _ (hforeign h.2.2), fun body token hoff => ?_⟩
      rw [henabled] at hoff
      cases hoff
    · rintro ⟨hlegible, -⟩
      have hanswer := hcomparable fun h => hlegible ⟨henabled, hcarries, h⟩
      by_cases hproof : HasProof cookieParser config request
      · rw [hanswer.1 hproof]
        simp [hproof]
      · rw [hanswer.2 hproof]
        simp [hproof]
  · have hreached := dispatch_of_unchecked hchecked
    rw [hreached]
    constructor
    · rintro ⟨hproof, -⟩
      refine ⟨fun h => hchecked (hrequires.2 ⟨h.1, h.2.1⟩), ?_⟩
      rintro body token - rfl hcookie
      have hcredential : (RouteHandler.refresh body).credential cookieParser bearer config
          request = some (.cookie token) := by
        unfold RouteHandler.credential refreshCredential
        rw [hcookie]
      exact (hproof token hcredential).1.1 rfl
    · rintro ⟨-, hrefresh⟩
      refine ⟨fun token hcredential => ?_, fun error h => by cases h⟩
      obtain ⟨hcarries, hoff⟩ := credential_eq_cookie hcredential
      have hdisabled : config.cookieAuthEnabled = false := by
        by_contra henabled
        exact hchecked (hrequires.2 ⟨by simpa using henabled, hcarries⟩)
      obtain ⟨body, hhandler, hcookie⟩ := hoff hdisabled
      have hproof := hrefresh body token hdisabled hhandler hcookie
      exact ⟨iff_of_true rfl hproof, fun hnone => absurd hproof hnone⟩

end

end

namespace Sample

/-- A request that changes the profile of a browser's user, with its cookies and the CSRF
header. -/
def browserRequest (header : String) : ApiRequest where
  headers := .receive [("Cookie", "access_token=eyJ; refresh_token=eyK; csrf_token=caf\u00e9"),
    ("X-CSRF-Token", header)]
  scheme := "https"
  client := some "10.0.0.9"
  method := "POST"

/-- What is read from that `Cookie` line. -/
def browserCookies (_ : String) : List (String × String) :=
  [("access_token", "eyJ"), ("refresh_token", "eyK"), ("csrf_token", "caf\u00e9")]

end Sample

/-- A browser without the header: the middleware refuses. -/
theorem cookies_need_proof_missing :
    CookiesNeedProof Sample.browserCookies (fun _ => none) {} (Sample.browserRequest "")
      .account := by
  refine (cookies_need_proof_iff _ _ _ _ _ rfl (by decide)).2 ⟨?_, ?_⟩
  · rintro ⟨-, -, cookie, header, -, hheader, -⟩
    have hnone : Gateway.truthy ((Sample.browserRequest "").headers.get? "X-CSRF-Token") =
        none := by decide +kernel
    rw [hnone] at hheader
    cases hheader
  · intro body token hoff
    cases hoff

/-- A browser with a CSRF cookie beyond ASCII makes the middleware fail; and with cookie
authentication off, a refresh cookie does without any proof. -/
theorem cookies_without_proof :
    ¬ CookiesNeedProof Sample.browserCookies (fun _ => none) {} (Sample.browserRequest "x")
        .account ∧
      ¬ CookiesNeedProof Sample.browserCookies (fun _ => none)
        { cookieAuthEnabled := false } (Sample.browserRequest "") (.refresh none) := by
  constructor
  · intro h
    exact h.2 "TypeError" (by decide +kernel)
  · intro h
    have hreached : CsrfMiddleware.dispatch Sample.browserCookies
        { cookieAuthEnabled := false } (Sample.browserRequest "") = .reached := by
      decide +kernel
    have hrefused := (h.1 "eyK" rfl).1.1 hreached
    obtain ⟨token, hheader, -⟩ := hrefused
    have hnone : Gateway.truthy ((Sample.browserRequest "").headers.get? "X-CSRF-Token") =
        none := by decide +kernel
    rw [hnone] at hheader
    cases hheader

end VideoSite.Users
