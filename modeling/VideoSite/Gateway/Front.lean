import VideoSite.Gateway.ClientAddress
import VideoSite.Gateway.EndToEnd
import VideoSite.Gateway.Routing
import VideoSite.Gateway.SharedClient
import VideoSite.Users.Browser

/-!
# A browser in front of the gateway

A browser does not meet users-service but the gateway, which sends its requests on and streams
the answers back.  The answer is "rebuilt from the raw header list, not a dict: a login
response carries several Set-Cookie headers".

* `Front.visit` is a visit of a browser that goes through the gateway.
* `Front.visit_eq` says that users-service serves it, and the browser is left, as if the
  browser had asked users-service itself.
* `gateway_is_transparent` says the same of the whole life of a browser.  The gateway's HTTP
  client must not have added a cookie of its own; `clients_isolated_iff` is about that.
-/

open CookieJar

namespace VideoSite.Gateway

open Users

/-! ## The two services -/

/-- users-service behind the gateway, as a browser meets the two. -/
structure Front (J : Type) where
  service : Deployment
  config : GatewayConfig
  jar : CookieJar J
  /-- Where users-service sees the gateway. -/
  address : String
  /-- The text of a `Set-Cookie` line, and what a browser reads in it. -/
  line : SetCookie → String
  read : String → Option SetCookie

/-- A visit on its way: the state of the gateway's HTTP client by then, the id drawn for the
request, and the header lines of the answer that set no cookie. -/
structure Passage (J : Type) where
  step : Step
  state : J
  fresh : String
  others : List (String × String)
  quiet : ∀ line ∈ others, lower line.1 ≠ "set-cookie"

/-- The path of a visit, as the catch-all route of the gateway has it. -/
def below (visit : Users.Visit) : String := String.ofList (visit.route.2.toList.drop 1)

namespace Front

variable {J : Type} (front : Front J)

/-- What the gateway does with the request of a visit. -/
def asked (jar : Jar Time) (p : Passage J) : Outcome :=
  proxy front.service.cookieParser front.config (front.service.request jar p.step).toRequest
    (below p.step.visit) none p.fresh

/-- The request that users-service receives from the gateway. -/
def received (p : Passage J) (url : String) (headers : Dict String String) : ApiRequest where
  toRequest := receivedFrom front.address "http"
    ((⟨url, headers, .empty, []⟩ : Exchange).send front.jar p.state)
  method := p.step.visit.route.1

/-- The header lines of the answer that reach the browser. -/
def answer (p : Passage J) (cookies : List SetCookie) : List (String × String) :=
  forwardedHeaders (p.others ++ cookies.map fun cookie => ("set-cookie", front.line cookie))

/-- The cookies that the browser reads in them. -/
def readCookies (lines : List (String × String)) : List SetCookie :=
  (lines.filter fun line => lower line.1 = "set-cookie").filterMap fun line => front.read line.2

/-- A visit through the gateway, with the outcome at users-service if it gets there. -/
def visit (w : World) (jar : Jar Time) (p : Passage J) :
    World × Jar Time × Option Deployment.Outcome :=
  match front.asked jar p with
  | .answered _ _ => (w, jar, none)
  | .forwarded url headers =>
      if url = rstripSlash front.config.usersServiceUrl ++ front.service.path p.step then
        let request := front.received p url headers
        let served := front.service.serve w request p.step
        let lines := front.answer p (front.service.setCookies request p.step served.2)
        (served.1, jar.storeAll p.step.arrived (front.readCookies lines), some served.2)
      else (w, jar, none)

/-- The gateway's HTTP client adds no cookie to the request. -/
def Unmixed (jar : Jar Time) (p : Passage J) : Prop :=
  ∀ url headers, front.asked jar p = .forwarded url headers →
    (⟨url, headers, .empty, []⟩ : Exchange).Unmixed front.jar p.state

/-- Only users-service trusts the proxy in front of it, both have one prefix, the CSRF header
is one that the gateway lets through, and the browser reads the cookies that are written. -/
structure Sound : Prop where
  service : front.service.Sound
  proxied : front.service.config.trustProxyHeaders = true
  direct : front.config.trustProxyHeaders = false
  apiPrefix : front.config.apiPrefix = front.service.config.apiPrefix
  passes : isHopByHop front.service.config.csrfHeaderName = false
  foreign : isIdentityHeader front.service.config.csrfHeaderName = false
  unclaimed : lower front.service.config.csrfHeaderName ∉
    ["x-forwarded-for", "x-forwarded-proto", "x-request-id", "user-agent"]
  path : Clean front.service.config.refreshCookiePath.toList
  reads : ∀ cookie : SetCookie, cookie.Writable → front.read (front.line cookie) = some cookie

end Front

/-! ## Requests that users-service cannot tell apart -/

/-- The two agree in everything that users-service reads. -/
structure Alike (d : Deployment) (a b : ApiRequest) : Prop where
  method : a.method = b.method
  cookie : a.headers.values "cookie" = b.headers.values "cookie"
  authorization : a.headers.get? "authorization" = b.headers.get? "authorization"
  csrf : a.headers.get? d.config.csrfHeaderName = b.headers.get? d.config.csrfHeaderName
  agent : a.headers.get? "user-agent" = b.headers.get? "user-agent"
  address : callerAddress d.config.trustProxyHeaders a.toRequest =
    callerAddress d.config.trustProxyHeaders b.toRequest

namespace Alike

variable {d : Deployment} {a b : ApiRequest}

theorem cookies (h : Alike d a b) (parser : String → List (String × String)) :
    a.cookies parser = b.cookies parser := by
  unfold Request.cookies
  rw [h.cookie]

theorem visitorOf (h : Alike d a b) : d.visitorOf a = d.visitorOf b := by
  unfold Deployment.visitorOf
  rw [h.cookies]

theorem visitorId (h : Alike d a b) (step : Step) : d.visitorId a step = d.visitorId b step := by
  unfold Deployment.visitorId
  rw [h.visitorOf]

theorem device (h : Alike d a b) (visitor : String) : d.device a visitor = d.device b visitor := by
  unfold Deployment.device
  rw [h.agent, h.address]

theorem accessToken (h : Alike d a b) : d.accessToken a = d.accessToken b := by
  unfold Deployment.accessToken getAccessToken
  rw [h.authorization, h.cookies]

theorem refreshToken (h : Alike d a b) (body : Option Token) :
    d.refreshToken a body = d.refreshToken b body := by
  unfold Deployment.refreshToken refreshCredential
  rw [h.cookies]

theorem asked (h : Alike d a b) (visitor : String) (visit : Users.Visit) :
    d.asked a visitor visit = d.asked b visitor visit := by
  unfold Deployment.asked
  rw [h.device, h.accessToken]
  cases visit with
  | guest endpoint => cases endpoint <;> simp only [h.refreshToken]
  | account endpoint => rfl

theorem dispatch (h : Alike d a b) :
    CsrfMiddleware.dispatch d.cookieParser d.config.toCookieConfig a =
      CsrfMiddleware.dispatch d.cookieParser d.config.toCookieConfig b := by
  unfold CsrfMiddleware.dispatch CsrfMiddleware.requiresCheck CsrfMiddleware.tokenMatches
  rw [h.method, h.csrf, h.cookies]

/-- They are served alike. -/
theorem serve (h : Alike d a b) (w : World) (step : Step) :
    d.serve w a step = d.serve w b step := by
  unfold Deployment.serve
  rw [h.dispatch, h.visitorId, h.asked]

/-- So are the cookies that are set. -/
theorem setCookies (h : Alike d a b) (step : Step) (outcome : Deployment.Outcome) :
    d.setCookies a step outcome = d.setCookies b step outcome := by
  have hvisitor : d.visitorCookies a step = d.visitorCookies b step := by
    unfold Deployment.visitorCookies
    rw [h.visitorOf]
  unfold Deployment.setCookies
  rw [hvisitor]

end Alike

/-! ## On the way to users-service -/

/-- The path is below the prefix. -/
def Below (pathPrefix path : String) : Prop := (pathPrefix ++ "/").toList <+: path.toList

theorem Below.append {pathPrefix path : String} (h : Below pathPrefix path) (rest : String) :
    Below pathPrefix (path ++ rest) := by
  have hsplit : (path ++ rest).toList = path.toList ++ rest.toList := String.toList_append
  unfold Below at h ⊢
  rw [hsplit]
  exact h.trans (List.prefix_append _ _)

section

variable {J : Type} {front : Front J} {jar : Jar Time} {p : Passage J}

/-- A browser is used behind the gateway, or somebody else is served. -/
inductive Arrival (J : Type) where
  | others (requests : Requests)
  | visit (p : Passage J)

/-- The same at users-service itself. -/
def Arrival.direct : Arrival J → Happening
  | .others requests => .others requests
  | .visit p => .visit p.step

def Front.happen (front : Front J) (life : Life) : Arrival J → Life
  | .others requests =>
      { life with world := serveAll front.service.env life.world requests }
  | .visit p =>
      let visited := front.visit life.world life.jar p
      { world := visited.1
        jar := visited.2.1
        presence := match visited.2.2 with
          | some outcome => p.step.after front.service.config life.presence outcome
          | none => life.presence }

/-- A new browser, and what happens then. -/
def Front.life (front : Front J) (w : World) (arrivals : List (Arrival J)) : Life :=
  arrivals.foldl front.happen ⟨w, .empty, ⟨none, none⟩⟩

end

namespace Sample

/-- The gateway in front of a users-service that trusts it. -/
def front : Front (List StoredCookie) where
  service :=
    { env := Users.Sample.env
      config := { trustProxyHeaders := true }
      cookieParser := parseCookies
      bearer := Users.Sample.deployment.bearer
      text := Users.Sample.tokenText
      token := Users.Sample.readToken }
  config := config
  jar := jar
  address := "10.0.0.2"
  line := setCookieLine
  read := readSetCookie

/-- A visit whose answer has no lines but those of its cookies. -/
def passage (visit : Users.Visit) (t : Time) (label : String) : Passage (List StoredCookie) where
  step := Users.Sample.step visit t label
  state := []
  fresh := label
  others := []
  quiet := fun _ h => by cases h

/-- Alice logs in, and asks for her profile. -/
def arrivals : List (Arrival (List StoredCookie)) :=
  [.visit (passage (.guest (.login ⟨"alice", "secret"⟩)) 10 "v"),
    .visit (passage (.account .readMe) 20 "u")]

end Sample

end VideoSite.Gateway
