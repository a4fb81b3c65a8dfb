import VideoSite.Gateway.ForwardedHeaders

/-!
# One HTTP client for everybody

All requests of a gateway process go out through one HTTP client, and the client has one
cookie jar.  It stores the `Set-Cookie` headers of every response, and a request that
carries no `Cookie` header gets the stored cookies that match its URL.

A run is a list of visits: requests of clients, each with what the services answered, and
probes of the readiness endpoint.

* `credentials_send_iff` says when the client leaves the credentials of a request alone.
* `clients_isolated_iff` is the result about runs.
-/

namespace VideoSite.Gateway

/-! ## The client -/

/-- The cookie jar of the HTTP client: what it makes of the `Set-Cookie` headers of a
response, and the `Cookie` header it has for a URL, given the cookies that are passed
with the request. -/
structure CookieJar (J : Type) where
  empty : J
  store : J → (url : String) → (setCookies : List String) → J
  header : J → (url : String) → (passed : Dict String String) → Option String

/-- A request of the client, with the `Set-Cookie` headers of its response. -/
structure Exchange where
  url : String
  headers : Dict String String
  passed : Dict String String
  setCookies : List String

/-- The values that a service receives under a name. -/
def receivedValues (headers : Dict String String) (name : String) : List String :=
  (headers.select fun key => lower key = name).map Prod.snd

/-- The values under each of the names that carry credentials. -/
abbrev Credentials := List (List String)

/-- The credentials that a service receives. -/
def credentials (headers : Dict String String) : Credentials :=
  credentialNames.map (receivedValues headers)

section

variable {J : Type} (jar : CookieJar J)

/-- The headers that the client sends: the jar speaks where the request has no `Cookie`. -/
def Exchange.send (state : J) (exchange : Exchange) : Dict String String :=
  if receivedValues exchange.headers "cookie" = [] then
    match jar.header state exchange.url exchange.passed with
    | some cookie => exchange.headers.set "Cookie" cookie
    | none => exchange.headers
  else exchange.headers

/-- The request carries a `Cookie` header, or the jar has nothing for its URL. -/
def Exchange.Unmixed (state : J) (exchange : Exchange) : Prop :=
  receivedValues exchange.headers "cookie" ≠ [] ∨
    jar.header state exchange.url exchange.passed = none

/-- The jar's header is the only one where there was none. -/
theorem receivedValues_set {headers : Dict String String} (cookie : String)
    (h : receivedValues headers "cookie" = []) :
    receivedValues (headers.set "Cookie" cookie) "cookie" = [cookie] := by
  unfold receivedValues at h ⊢
  rw [List.map_eq_nil_iff] at h
  have hlower : lower "Cookie" = "cookie" := by decide +kernel
  have hnew : "Cookie" ∉ headers.keys := by
    intro hmem
    obtain ⟨entry, hentry, hname⟩ := List.mem_map.1 hmem
    have hselected : entry ∈ headers.select fun key => lower key = "cookie" :=
      List.mem_filter.2 ⟨hentry, by simp [hname, hlower]⟩
    rw [h] at hselected
    cases hselected
  rw [Dict.select_set_new cookie hnew (by simp [hlower]), h]
  rfl

/-- The client leaves the credentials of a request alone just if the request carries a
`Cookie` header or the jar has nothing for it. -/
theorem credentials_send_iff (state : J) (exchange : Exchange) :
    credentials (exchange.send jar state) = credentials exchange.headers ↔
      exchange.Unmixed jar state := by
  unfold Exchange.send Exchange.Unmixed
  by_cases hcookie : receivedValues exchange.headers "cookie" = []
  · rw [if_pos hcookie]
    cases hjar : jar.header state exchange.url exchange.passed with
    | none => simp
    | some cookie =>
      have hset := receivedValues_set cookie hcookie
      simp [credentials, credentialNames, hset, hcookie]
  · rw [if_neg hcookie]
    simp [hcookie]

/-- What the services receive in a row of requests, and when the client leaves all of them
alone. -/
def receivedAlong (state : J) : List Exchange → List Credentials
  | [] => []
  | exchange :: rest =>
      credentials (exchange.send jar state) ::
        receivedAlong (jar.store state exchange.url exchange.setCookies) rest

def UnmixedAlong (state : J) : List Exchange → Prop
  | [] => True
  | exchange :: rest =>
      exchange.Unmixed jar state ∧
        UnmixedAlong (jar.store state exchange.url exchange.setCookies) rest

theorem receivedAlong_iff (state : J) (exchanges : List Exchange) :
    receivedAlong jar state exchanges =
        exchanges.map (fun exchange => credentials exchange.headers) ↔
      UnmixedAlong jar state exchanges := by
  induction exchanges generalizing state with
  | nil => simp [receivedAlong, UnmixedAlong]
  | cons exchange rest ih =>
    rw [receivedAlong, List.map_cons, List.cons.injEq, credentials_send_iff, ih]
    rfl

/-- The jar after a row of requests. -/
def storedAlong (state : J) (exchanges : List Exchange) : J :=
  exchanges.foldl (fun state exchange =>
    jar.store state exchange.url exchange.setCookies) state

/-! ## Visits -/

/-- A request of a client and what the services answered to it: what users-service says
about the caller, and the `Set-Cookie` headers of its answer and of the one of the service
that the request was forwarded to. -/
structure Visit where
  request : Request
  path : String
  resolved : Option Identity
  fresh : String
  lookupCookies : List String
  serviceCookies : List String

variable (cookieParser : String → List (String × String)) (config : GatewayConfig)

/-- What `IdentityResolver.resolve` asks users-service, on a route that wants to know. -/
def Visit.lookup (visit : Visit) : Option Exchange :=
  match matchRoute (buildRoutes config) ("/" ++ visit.path) with
  | some route =>
      if route.upstream.isSome && (route.injectIdentity || route.requireIdentity) then
        some
          { url := s!"{rstripSlash config.usersServiceUrl}{config.apiPrefix}/auth/me"
            headers := IdentityResolver.forwarded visit.request.headers.toDict
            passed := visit.request.cookies cookieParser
            setCookies := visit.lookupCookies }
      else none
  | none => none

/-- What `forward` asks the service. -/
def Visit.forward (visit : Visit) : Option Exchange :=
  match proxy cookieParser config visit.request visit.path visit.resolved visit.fresh with
  | .forwarded url headers =>
      some { url := url, headers := headers, passed := .empty, setCookies := visit.serviceCookies }
  | .answered _ _ => none

def Visit.exchanges (visit : Visit) : List Exchange :=
  (visit.lookup cookieParser config).toList ++ (visit.forward cookieParser config).toList

/-- The credentials of a request, from its own headers: the lookup gets the first line of
each name, the service the last. -/
def ownCredentials (request : Request) (path : String) : List Credentials :=
  match matchRoute (buildRoutes config) ("/" ++ path) with
  | some route =>
      if route.upstream.isSome then
        (if route.injectIdentity || route.requireIdentity then
          [credentialNames.map fun name => (request.headers.values name).head?.toList]
        else []) ++
          [credentialNames.map fun name => (request.headers.values name).getLast?.toList]
      else []
  | none => []

theorem credentials_resolved (request : Request) :
    credentials (IdentityResolver.forwarded request.headers.toDict) =
      credentialNames.map fun name => (request.headers.values name).head?.toList := by
  refine List.map_congr_left fun name hname => ?_
  unfold receivedValues
  rw [select_resolved hname, List.map_map]
  exact List.map_id _

theorem credentials_forwarded (request : Request) (identity : Option Identity)
    (clientIp visitorId : Option String) (fresh : String) :
    credentials (buildForwardHeaders request identity clientIp visitorId fresh) =
      credentialNames.map fun name => (request.headers.values name).getLast?.toList := by
  refine List.map_congr_left fun name hname => ?_
  unfold receivedValues
  rw [select_forwarded clientIp hname, List.map_map]
  exact List.map_id _

/-- No route of the gateway refuses anonymous callers. -/
theorem requireIdentity_eq_false {route : Route} (h : route ∈ buildRoutes config) :
    route.requireIdentity = false := by
  unfold buildRoutes at h
  rw [List.mem_insertionSort] at h
  simp only [List.mem_cons, List.not_mem_nil, or_false] at h
  rcases h with rfl | rfl | rfl | rfl <;> rfl

/-- The requests that the gateway makes for a visit carry the credentials of its request. -/
theorem Visit.exchanges_credentials (visit : Visit) :
    (visit.exchanges cookieParser config).map (fun exchange => credentials exchange.headers) =
      ownCredentials config visit.request visit.path := by
  unfold Visit.exchanges Visit.lookup Visit.forward ownCredentials proxy
  cases hroute : matchRoute (buildRoutes config) ("/" ++ visit.path) with
  | none => rfl
  | some route =>
    have hrequire := requireIdentity_eq_false config (List.mem_of_find?_eq_some hroute)
    cases hupstream : route.upstream with
    | none => simp [hupstream]
    | some upstream =>
      cases hinject : route.injectIdentity <;>
        simp [hupstream, hinject, hrequire, credentials_resolved, credentials_forwarded]

/-! ## Runs -/

/-- What reaches the gateway process: a request of a client, or a probe of its readiness,
which asks users-service whether it is ready. -/
inductive Event where
  | served (visit : Visit)
  | readiness (setCookies : List String)

def Event.exchanges : Event → List Exchange
  | .served visit => visit.exchanges cookieParser config
  | .readiness setCookies =>
      [{ url := s!"{rstripSlash config.usersServiceUrl}/health/ready"
         headers := .empty
         passed := .empty
         setCookies := setCookies }]

/-- The credentials that the services receive for a request of a client. -/
def Event.received (state : J) : Event → List Credentials
  | .served visit => receivedAlong jar state (visit.exchanges cookieParser config)
  | .readiness _ => []

/-- The credentials of the request itself. -/
def Event.own : Event → List Credentials
  | .served visit => ownCredentials config visit.request visit.path
  | .readiness _ => []

/-- Nothing is asked for a client without a `Cookie` header at a URL that the jar has a
cookie for. -/
def Event.Unmixed (state : J) : Event → Prop
  | .served visit => UnmixedAlong jar state (visit.exchanges cookieParser config)
  | .readiness _ => True

theorem Event.received_iff (state : J) (event : Event) :
    event.received jar cookieParser config state = event.own config ↔
      event.Unmixed jar cookieParser config state := by
  cases event with
  | served visit =>
    show receivedAlong jar state (visit.exchanges cookieParser config) =
        ownCredentials config visit.request visit.path ↔
      UnmixedAlong jar state (visit.exchanges cookieParser config)
    rw [← visit.exchanges_credentials cookieParser config, receivedAlong_iff]
  | readiness setCookies => exact ⟨fun _ => trivial, fun _ => rfl⟩

/-- The credentials that the services receive in a run. -/
def received (state : J) : List Event → List (List Credentials)
  | [] => []
  | event :: rest =>
      event.received jar cookieParser config state ::
        received (storedAlong jar state (event.exchanges cookieParser config)) rest

/-- No event of a run mixes the credentials of two clients. -/
def Unmixed (state : J) : List Event → Prop
  | [] => True
  | event :: rest =>
      event.Unmixed jar cookieParser config state ∧
        Unmixed (storedAlong jar state (event.exchanges cookieParser config)) rest

/-- In a run from any jar the services receive the credentials of each request itself, just
if no event mixes credentials. -/
theorem received_iff (state : J) (events : List Event) :
    received jar cookieParser config state events = events.map (Event.own config) ↔
      Unmixed jar cookieParser config state events := by
  induction events generalizing state with
  | nil => simp [received, Unmixed]
  | cons event rest ih =>
    unfold received Unmixed
    rw [List.map_cons, List.cons.injEq, ih, event.received_iff]

/-- The credentials that the services receive for a request are a function of that request
alone, in the runs of a gateway process in which no request is made for a client without
a `Cookie` header to a URL that the jar has a cookie for, and in no others. -/
theorem clients_isolated_iff (events : List Event) :
    received jar cookieParser config jar.empty events = events.map (Event.own config) ↔
      Unmixed jar cookieParser config jar.empty events :=
  received_iff jar cookieParser config jar.empty events

end

/-! ### A jar -/

namespace Sample

/-- A cookie of a host. -/
structure StoredCookie where
  host : String
  secure : Bool
  pair : String
  deriving DecidableEq

/-- The host in an absolute URL. -/
def hostOf (url : String) : String :=
  String.ofList (((url.toList.dropWhile (· ≠ ':')).drop 3).takeWhile fun c => c ≠ ':' && c ≠ '/')

/-- A jar for cookies with the path `/` and without a domain. -/
def jar : CookieJar (List StoredCookie) where
  empty := []
  store := fun stored url setCookies =>
    stored ++ setCookies.map fun text =>
      { host := hostOf url
        secure := (text.toList.splitOn ';').contains " Secure".toList
        pair := String.ofList (text.toList.takeWhile (· ≠ ';')) }
  header := fun stored url passed =>
    let own := passed.entries.map fun cookie => s!"{cookie.1}={cookie.2}"
    let matching := stored.filter fun cookie =>
      cookie.host = hostOf url && (!cookie.secure || "https".toList.isPrefixOf url.toList)
    match own ++ matching.map (·.pair) with
    | [] => none
    | pairs => some ("; ".intercalate pairs)

/-- Alice logs in, and the answer sets a cookie. -/
def alice : Visit where
  request := request "203.0.113.9" []
  path := "auth/login"
  resolved := none
  fresh := "a"
  lookupCookies := []
  serviceCookies := ["access_token=alice; Path=/; HttpOnly"]

/-- Bob asks who he is, without a cookie. -/
def bob : Visit where
  request := request "198.51.100.7" []
  path := "users/me"
  resolved := none
  fresh := "b"
  lookupCookies := []
  serviceCookies := []

end Sample

/-- Bob's request is forwarded with alice's cookie if she was served before him, and
without one if not: what the service receives for it is no function of it. -/
theorem bob_sends_alices_cookie :
    ¬ ∃ own : Visit → List Credentials, ∀ visits : List Visit,
      received Sample.jar (fun _ => []) Sample.config Sample.jar.empty (visits.map .served) =
        visits.map own := by
  intro h
  obtain ⟨own, hown⟩ := h
  have hbob := hown [Sample.bob]
  have hboth := hown [Sample.alice, Sample.bob]
  have hfirst : received Sample.jar (fun _ => []) Sample.config Sample.jar.empty
      [.served Sample.bob] = [[[[], []]]] := by decide +kernel
  have hsecond : received Sample.jar (fun _ => []) Sample.config Sample.jar.empty
      [.served Sample.alice, .served Sample.bob] =
        [[[[], []]], [[[], ["access_token=alice"]]]] := by decide +kernel
  rw [List.map_cons, List.map_nil, hfirst] at hbob
  rw [List.map_cons, List.map_cons, List.map_nil, hsecond] at hboth
  simp at hbob hboth
  rw [← hbob] at hboth
  simp at hboth

end VideoSite.Gateway
