import VideoSite.Gateway.Proxy
import VideoSite.Lib.Url

/-!
# The path of a forwarded request

The handler gets the path with its escapes decoded, matches the routes on it, and puts
it into the text of the URL as it is.  What the HTTP client makes of that text is in
`VideoSite.Lib.Url`.

* `path_transparent_iff` says for which paths the upstream is asked for the path that
  the route was matched on.
-/

namespace VideoSite.Gateway

open Url

/-- The URL of a service: an origin, perhaps with slashes after it. -/
structure UpstreamUrl where
  origin : Origin
  named : origin.authority ≠ []
  slashes : Nat

def UpstreamUrl.text (upstream : UpstreamUrl) : String :=
  String.ofList (upstream.origin.text ++ List.replicate upstream.slashes '/')

/-- The services are named by their origins, and the API prefix is empty or begins with a
slash. -/
structure GatewayConfig.WellFormed (config : GatewayConfig) : Prop where
  users : ∃ upstream : UpstreamUrl, config.usersServiceUrl = upstream.text
  content : ∀ url, config.contentServiceUrl = some url →
    ∃ upstream : UpstreamUrl, url = upstream.text
  apiPrefix : ∀ c ∈ config.apiPrefix.toList.head?, c = '/'

/-- The path under which a request is meant to reach its service. -/
def intendedPath (config : GatewayConfig) (path : String) : String :=
  config.apiPrefix ++ "/" ++ path

theorem UpstreamUrl.rstripSlash (upstream : UpstreamUrl) :
    rstripSlash upstream.text = String.ofList upstream.origin.text := by
  obtain ⟨origin, hnamed, n⟩ := upstream
  -- the last character of the origin is one of the host, so it is no slash
  have hlast : ∀ c ∈ origin.text.reverse.head?, c ≠ '/' := by
    intro c hc
    rw [List.head?_reverse, Origin.text, List.getLast?_append_of_ne_nil _ hnamed] at hc
    have hplain := origin.authorityPlain c (List.mem_of_getLast? hc)
    rintro rfl
    cases hplain
  have hslashes : ∀ c ∈ List.replicate n '/', decide (c = '/') = true := by
    intro c hc
    rw [List.eq_of_mem_replicate hc]
    rfl
  unfold Gateway.rstripSlash text
  rw [String.toList_ofList, List.reverse_append, List.reverse_replicate,
    (takeWhile_append_of_head hslashes fun c hc => by simpa using hlast c hc).2,
    List.reverse_reverse]

/-- Every route leads to a service of the configuration. -/
theorem GatewayConfig.WellFormed.upstream {config : GatewayConfig} (h : config.WellFormed)
    {route : Route} (hroute : route ∈ buildRoutes config) {url : String}
    (hurl : route.upstream = some url) : ∃ upstream : UpstreamUrl, url = upstream.text := by
  unfold buildRoutes at hroute
  rw [List.mem_insertionSort] at hroute
  simp only [List.mem_cons, List.not_mem_nil, or_false] at hroute
  rcases hroute with rfl | rfl | rfl | rfl
  · cases hurl
    exact h.users
  · cases hurl
    exact h.users
  · cases hurl
    exact h.users
  · exact h.content url hurl

/-- A request that is forwarded asks its service for the intended path, and for no query
or fragment, just if the intended path has no `?` and no `#`, no `.` or `..` segment and
no escape `%XX`. -/
theorem path_transparent_iff (safe : Char → Bool) {config : GatewayConfig}
    (hconfig : config.WellFormed) {cookieParser : String → List (String × String)}
    {request : Request} {path url : String} {resolved : Option Identity} {fresh : String}
    {headers : Dict String String}
    (hforwarded : proxy cookieParser config request path resolved fresh =
      .forwarded url headers) :
    (unquote (parse safe url.toList).path = utf8 (intendedPath config path).toList ∧
      (parse safe url.toList).query = none ∧ (parse safe url.toList).fragment = none) ↔
      Clean (intendedPath config path).toList := by
  obtain ⟨route, serviceUrl, hroute, hservice, -, rfl, -⟩ := proxy_eq_forwarded.1 hforwarded
  obtain ⟨upstream, rfl⟩ := hconfig.upstream (List.mem_of_find?_eq_some hroute) hservice
  have htext : (target config upstream.text path).toList =
      upstream.origin.text ++ (intendedPath config path).toList := by
    unfold target intendedPath
    rw [upstream.rstripSlash]
    simp [toString, List.append_assoc]
  have hslash : (intendedPath config path).toList.head? = some '/' := by
    unfold intendedPath
    rw [String.toList_append, String.toList_append]
    cases hpath : config.apiPrefix.toList with
    | nil => rfl
    | cons c rest =>
      have hc := hconfig.apiPrefix c (by rw [hpath]; rfl)
      rw [hc]
      rfl
  rw [htext]
  exact parse_origin_iff safe upstream.origin hslash

namespace Sample

/-- The characters that the client leaves as they are in a path. -/
def pathSafe (c : Char) : Bool :=
  0x20 < c.toNat && c.toNat < 0x7F && !("\"#<>?`\x7b\x7d".toList.contains c)

theorem plain_of_any {authority : List Char} (h : authority.any endsAuthority = false) :
    ∀ c ∈ authority, endsAuthority c = false :=
  fun c hc => by simpa using List.any_eq_false.1 h c hc

def usersService : UpstreamUrl where
  origin := ⟨"http".toList, "localhost:8001".toList, by decide, plain_of_any (by decide)⟩
  named := by decide
  slashes := 0

def contentService : UpstreamUrl where
  origin := ⟨"http".toList, "content:8002".toList, by decide, plain_of_any (by decide)⟩
  named := by decide
  slashes := 1

theorem config_wellFormed : config.WellFormed where
  users := ⟨usersService, by decide +kernel⟩
  content := by
    intro url hurl
    cases hurl
    exact ⟨contentService, by decide +kernel⟩
  apiPrefix := fun c hc => by
    have hhead : config.apiPrefix.toList.head? = some '/' := by decide +kernel
    rw [hhead] at hc
    exact (Option.mem_some.1 hc).symm

/-- A request for a path of the content service is forwarded. -/
theorem forwarded {path : String}
    (hroute : matchRoute (buildRoutes config) ("/" ++ path) =
      some ⟨"/content", some "http://content:8002/", true, false⟩) :
    ∃ headers, proxy (fun _ => []) config (request "10.0.0.9" []) path none "fresh" =
      .forwarded (target config "http://content:8002/" path) headers :=
  ⟨_, proxy_eq_forwarded.2 ⟨_, _, hroute, rfl, by simp, rfl, rfl⟩⟩

end Sample

/-- A video, by its name with a space in it. -/
theorem path_transparent_iff_video :
    let url := target Sample.config "http://content:8002/" "content/my video"
    (unquote (parse Sample.pathSafe url.toList).path =
        utf8 (intendedPath Sample.config "content/my video").toList ∧
      (parse Sample.pathSafe url.toList).query = none ∧
      (parse Sample.pathSafe url.toList).fragment = none) ↔
      Clean (intendedPath Sample.config "content/my video").toList := by
  obtain ⟨headers, hforwarded⟩ := @Sample.forwarded "content/my video" (by decide +kernel)
  exact path_transparent_iff Sample.pathSafe Sample.config_wellFormed hforwarded

/-- A path of the content service that leaves it for the administration. -/
theorem path_leaves_service :
    Sample.config.WellFormed ∧
      (∃ headers, proxy (fun _ => []) Sample.config (Sample.request "10.0.0.9" [])
        "content/../admin/users" none "fresh" = .forwarded
          (target Sample.config "http://content:8002/" "content/../admin/users") headers) ∧
      unquote (parse Sample.pathSafe (target Sample.config "http://content:8002/"
        "content/../admin/users").toList).path ≠
          utf8 (intendedPath Sample.config "content/../admin/users").toList :=
  ⟨Sample.config_wellFormed, Sample.forwarded (by decide +kernel), by decide +kernel⟩

end VideoSite.Gateway
