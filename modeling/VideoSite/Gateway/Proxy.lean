import VideoSite.Gateway.Http
import Mathlib.Data.List.Sort

/-!
# The gateway

The routing table, the identity that is asserted to the services, the headers of a
forwarded request, and the handler that fronts every service.  The definitions follow
`gateway/routes.py`, `gateway/identity.py`, `gateway/proxy.py` and
`gateway/gateway_router.py`.
-/

namespace VideoSite.Gateway

/-! ## Configuration and routes -/

/-- The settings that the handler reads. -/
structure GatewayConfig where
  apiPrefix : String := "/api/v1"
  usersServiceUrl : String := "http://localhost:8001"
  contentServiceUrl : Option String := none
  visitorCookieName : String := "visitor_id"
  trustProxyHeaders : Bool := false

/-- One prefix of the public API and the service that answers it. -/
structure Route where
  pathPrefix : String
  upstream : Option String
  injectIdentity : Bool
  requireIdentity : Bool := false
  deriving DecidableEq

/-- The longest prefix comes first. -/
def buildRoutes (config : GatewayConfig) : List Route :=
  let routes : List Route := [
    { pathPrefix := "/auth", upstream := some config.usersServiceUrl, injectIdentity := false },
    { pathPrefix := "/users", upstream := some config.usersServiceUrl, injectIdentity := false },
    { pathPrefix := "/admin", upstream := some config.usersServiceUrl, injectIdentity := false },
    { pathPrefix := "/content", upstream := config.contentServiceUrl, injectIdentity := true }]
  routes.insertionSort fun a b => b.pathPrefix.length ≤ a.pathPrefix.length

/-- The route has the path. -/
def Route.owns (route : Route) (path : String) : Bool :=
  path = route.pathPrefix || (route.pathPrefix ++ "/").toList.isPrefixOf path.toList

/-- `match`: the route owning `path`. -/
def matchRoute (routes : List Route) (path : String) : Option Route :=
  routes.find? fun route => route.owns path

/-! ## Identity -/

/-- The names under which the gateway speaks about the caller. -/
def identityHeaders : List String :=
  ["x-user-id", "x-user-username", "x-user-permissions", "x-user-superuser",
    "x-user-email-verified", "x-visitor-id"]

/-- The caller, as far as users-service is concerned. -/
structure Identity where
  userId : Int
  username : String
  permissions : List String
  isSuperuser : Bool
  emailVerified : Bool
  visitorId : Option String
  deriving DecidableEq

def Identity.asHeaders (identity : Identity) : List (String × String) := [
  ("X-User-Id", toString identity.userId),
  ("X-User-Username", identity.username),
  ("X-User-Permissions", ",".intercalate identity.permissions),
  ("X-User-Superuser", if identity.isSuperuser then "true" else "false"),
  ("X-User-Email-Verified", if identity.emailVerified then "true" else "false")]

/-- The gateway speaks about the caller under this name, up to letter case. -/
def isIdentityHeader (name : String) : Bool := identityHeaders.contains (lower name)

/-- Drop identity headers that came from the client. -/
def stripClientIdentity (headers : Dict String String) : Dict String String :=
  headers.filter fun name => !isIdentityHeader name

/-- The headers that carry credentials. -/
def isCredential (name : String) : Bool :=
  lower name = "authorization" || lower name = "cookie"

/-- The headers of the request that `IdentityResolver.resolve` makes. -/
def IdentityResolver.forwarded (headers : Dict String String) : Dict String String :=
  headers.filter isCredential

/-! ## Forwarded headers -/

/-- Headers that belong to a single connection. -/
def hopByHop : List String :=
  ["connection", "keep-alive", "proxy-authenticate", "proxy-authorization", "te", "trailer",
    "transfer-encoding", "upgrade", "content-length", "host"]

def isHopByHop (name : String) : Bool := hopByHop.contains (lower name)

def requestIdHeader : String := "X-Request-Id"

/-- `f"{forwarded}, {client_ip}" if forwarded else client_ip`. -/
def forwardedFor (forwarded : Option String) (clientIp : String) : String :=
  match truthy forwarded with
  | some forwarded => s!"{forwarded}, {clientIp}"
  | none => clientIp

/-- The headers that the upstream will see; `fresh` is a new `uuid4().hex`. -/
def buildForwardHeaders (request : Request) (identity : Option Identity)
    (clientIp visitorId : Option String) (fresh : String) : Dict String String :=
  let headers := Dict.ofItems (request.headers.lines.filter fun line => !isHopByHop line.1)
  let headers := stripClientIdentity headers
  let headers :=
    match identity with
    | some identity => headers.update identity.asHeaders
    | none => headers
  let headers :=
    match truthy visitorId with
    | some visitorId => headers.set "X-Visitor-Id" visitorId
    | none => headers
  let headers :=
    match truthy clientIp with
    | some clientIp =>
        headers.set "X-Forwarded-For"
          (forwardedFor (request.headers.get? "x-forwarded-for") clientIp)
    | none => headers
  let headers := headers.set "X-Forwarded-Proto" request.scheme
  headers.setDefault requestIdHeader
    ((truthy (request.headers.get? requestIdHeader)).getD fresh)

/-- The headers of the answer that `forward` streams back: those of the upstream, from the
raw list. -/
def forwardedHeaders (raw : List (String × String)) : List (String × String) :=
  raw.filter fun line => !isHopByHop line.1

/-! ## The handler -/

/-- What the handler does with a request. -/
inductive Outcome where
  | answered (statusCode : Nat) (detail : String)
  | forwarded (target : String) (headers : Dict String String)

/-- `text.lstrip("/")`. -/
def lstripSlash (text : String) : String := String.ofList (text.toList.dropWhile (· = '/'))

/-- `text.rstrip("/")`. -/
def rstripSlash (text : String) : String :=
  String.ofList (text.toList.reverse.dropWhile (· = '/')).reverse

/-- `_client_ip`. -/
def clientIp (request : Request) (config : GatewayConfig) : Option String :=
  callerAddress config.trustProxyHeaders request

/-- The URL that a request for `path` is sent to. -/
def target (config : GatewayConfig) (upstream path : String) : String :=
  s!"{rstripSlash upstream}{config.apiPrefix}/{path}"

/-- What the gateway asserts about a caller on a route. -/
def Route.asserted (route : Route) (resolved : Option Identity) : Option Identity :=
  if route.injectIdentity || route.requireIdentity then resolved else none

/-- `proxy`, where `resolved` is what users-service says about the caller. -/
def proxy (cookieParser : String → List (String × String)) (config : GatewayConfig)
    (request : Request) (path : String) (resolved : Option Identity) (fresh : String) :
    Outcome :=
  match matchRoute (buildRoutes config) ("/" ++ path) with
  | none => .answered 404 "Unknown route"
  | some route =>
      match route.upstream with
      | none => .answered 503 s!"{lstripSlash route.pathPrefix} is not available"
      | some upstream =>
          let identity := route.asserted resolved
          if route.requireIdentity && identity.isNone then
            .answered 401 "Authentication required"
          else
            .forwarded (target config upstream path)
              (buildForwardHeaders request identity (clientIp request config)
                ((request.cookies cookieParser).get? config.visitorCookieName) fresh)

/-- A request is forwarded on the route that owns its path. -/
theorem proxy_eq_forwarded {cookieParser : String → List (String × String)}
    {config : GatewayConfig} {request : Request} {path url : String}
    {resolved : Option Identity} {fresh : String} {headers : Dict String String} :
    proxy cookieParser config request path resolved fresh = .forwarded url headers ↔
      ∃ route upstream, matchRoute (buildRoutes config) ("/" ++ path) = some route ∧
        route.upstream = some upstream ∧
        (route.requireIdentity = true → (route.asserted resolved).isSome = true) ∧
        url = target config upstream path ∧
        headers = buildForwardHeaders request (route.asserted resolved)
          (clientIp request config)
          ((request.cookies cookieParser).get? config.visitorCookieName) fresh := by
  unfold proxy
  constructor
  · intro h
    cases hroute : matchRoute (buildRoutes config) ("/" ++ path) with
    | none => simp [hroute] at h
    | some route =>
      cases hupstream : route.upstream with
      | none => simp [hroute, hupstream] at h
      | some upstream =>
        simp only [hroute, hupstream] at h
        split_ifs at h with hrefused
        obtain ⟨hurl, hheaders⟩ := Outcome.forwarded.inj h
        refine ⟨route, upstream, rfl, hupstream, fun hrequire => ?_, hurl.symm, hheaders.symm⟩
        cases hasserted : route.asserted resolved with
        | none => simp [hrequire, hasserted] at hrefused
        | some identity => rfl
  · intro h
    obtain ⟨route, upstream, hroute, hupstream, hasserted, rfl, rfl⟩ := h
    simp only [hroute, hupstream]
    rw [if_neg]
    intro hrefused
    obtain ⟨hrequire, hnone⟩ := Bool.and_eq_true_iff.1 hrefused
    rw [Option.isNone_iff_eq_none] at hnone
    have hsome := hasserted hrequire
    rw [hnone] at hsome
    cases hsome

/-! ## A small deployment -/

namespace Sample

/-- A gateway with a content service behind it. -/
def config : GatewayConfig where
  contentServiceUrl := some "http://content:8002/"

/-- A request from `peer` with these header lines. -/
def request (peer : String) (sent : List (String × String)) : Request where
  headers := .receive sent
  scheme := "http"
  client := some peer

def viewer : Identity where
  userId := 7
  username := "viewer"
  permissions := ["content.read"]
  isSuperuser := false
  emailVerified := true
  visitorId := none

end Sample

end VideoSite.Gateway
