import VideoSite.Gateway.Proxy

/-!
# The headers of a forwarded request

`buildForwardHeaders` starts from the headers of the client that may pass, and assigns
the gateway's own on top.  What it forwards under a given kind of name is therefore what
is left of the client's headers followed by what the gateway assigns.

* `select_buildForwardHeaders` is that rule.
* `identity_not_forged` is the case of the identity headers.
* `credentials_agree_iff` compares the credentials that are forwarded with those that
  the identity was resolved from.
-/

namespace VideoSite.Gateway

variable {request : Request} {identity : Option Identity} {visitorId : Option String}
  {fresh : String}

/-! ## What is left of the client's headers -/

/-- The headers of the client that may pass. -/
def keptHeaders (request : Request) : Dict String String :=
  stripClientIdentity
    (Dict.ofItems (request.headers.lines.filter fun line => !isHopByHop line.1))

/-- The lines of an identity, none for an anonymous caller. -/
def identityLines (identity : Option Identity) : List (String × String) :=
  (identity.map Identity.asHeaders).getD []

/-- The line of the visitor cookie. -/
def visitorLines (visitorId : Option String) : List (String × String) :=
  (truthy visitorId).toList.map fun visitorId => ("X-Visitor-Id", visitorId)

/-- The line with the addresses that the request came through. -/
def forwardedForLines (request : Request) (clientIp : Option String) :
    List (String × String) :=
  (truthy clientIp).toList.map fun clientIp =>
    ("X-Forwarded-For", forwardedFor (request.headers.get? "x-forwarded-for") clientIp)

/-- The gateway's headers, in the order in which they are assigned. -/
def assertedHeaders (request : Request) (identity : Option Identity)
    (clientIp visitorId : Option String) : List (String × String) :=
  identityLines identity ++ visitorLines visitorId ++ forwardedForLines request clientIp

theorem buildForwardHeaders_eq (clientIp : Option String) :
    buildForwardHeaders request identity clientIp visitorId fresh =
      (((keptHeaders request).update
        (assertedHeaders request identity clientIp visitorId)).set "X-Forwarded-Proto"
          request.scheme).setDefault requestIdHeader
        ((truthy (request.headers.get? requestIdHeader)).getD fresh) := by
  unfold buildForwardHeaders assertedHeaders identityLines visitorLines forwardedForLines
  cases identity <;> cases truthy visitorId <;> cases truthy clientIp <;>
    simp only [Option.map_none, Option.map_some, Option.getD_none, Option.getD_some,
      Option.toList_none, Option.toList_some, List.map_nil, List.map_cons, List.nil_append,
      List.append_nil, Dict.update_append, Dict.update_cons, Dict.update_nil] <;>
    rfl

/-- A header that passes has a lower-case name, is on a line of the client, and is none
of the gateway's. -/
theorem mem_keptHeaders {name : String} (h : name ∈ (keptHeaders request).keys) :
    lower name = name ∧ isIdentityHeader name = false ∧ isHopByHop name = false := by
  unfold keptHeaders stripClientIdentity at h
  rw [Dict.mem_keys_filter, Dict.mem_keys_ofItems] at h
  obtain ⟨hmem, hstays⟩ := h
  obtain ⟨line, hline, rfl⟩ := List.mem_map.1 hmem
  obtain ⟨hsent, hhop⟩ := List.mem_filter.1 hline
  exact ⟨request.headers.lowered line hsent, by simpa using hstays, by simpa using hhop⟩

/-- A name with a capital letter is not among them. -/
theorem not_mem_keptHeaders {name : String} (h : lower name ≠ name) :
    name ∉ (keptHeaders request).keys := fun hmem => h (mem_keptHeaders hmem).1

/-- The names of an identity. -/
def identityNames : List String :=
  ["X-User-Id", "X-User-Username", "X-User-Permissions", "X-User-Superuser",
    "X-User-Email-Verified"]

/-- The names that the gateway assigns before the protocol and the id of the request. -/
def gatewayNames : List String :=
  ["X-User-Id", "X-User-Username", "X-User-Permissions", "X-User-Superuser",
    "X-User-Email-Verified", "X-Visitor-Id", "X-Forwarded-For"]

/-- The names of the headers that carry credentials. -/
def credentialNames : List String := ["authorization", "cookie"]

/-- What the names are like, up to letter case and not. -/
theorem headerNames :
    (gatewayNames.map lower).Nodup ∧
      (∀ name ∈ gatewayNames, lower name ≠ name ∧ lower name ∉ credentialNames) ∧
      (∀ name ∈ identityNames ++ ["X-Visitor-Id"], isIdentityHeader name = true) ∧
      (∀ name ∈ ["X-Forwarded-For", "X-Forwarded-Proto", requestIdHeader],
        isIdentityHeader name = false ∧ lower name ∉ credentialNames) ∧
      ∀ name ∈ credentialNames,
        lower name = name ∧ isIdentityHeader name = false ∧ isHopByHop name = false := by
  decide +kernel

/-- The gateway assigns the names in their order, each at most once. -/
theorem assertedHeaders_sublist (clientIp : Option String) :
    ((assertedHeaders request identity clientIp visitorId).map Prod.fst).Sublist
      gatewayNames := by
  have hidentity : ((identityLines identity).map Prod.fst).Sublist identityNames := by
    cases identity with
    | none => exact List.nil_sublist _
    | some identity => exact List.Sublist.refl _
  have hvisitor : ((visitorLines visitorId).map Prod.fst).Sublist ["X-Visitor-Id"] := by
    unfold visitorLines
    cases truthy visitorId with
    | none => exact List.nil_sublist _
    | some visitorId => exact List.Sublist.refl _
  have hforwarded : ((forwardedForLines request clientIp).map Prod.fst).Sublist
      ["X-Forwarded-For"] := by
    unfold forwardedForLines
    cases truthy clientIp with
    | none => exact List.nil_sublist _
    | some clientIp => exact List.Sublist.refl _
  unfold assertedHeaders
  rw [List.map_append, List.map_append]
  exact (hidentity.append hvisitor).append hforwarded

/-- Every name that the gateway assigns is assigned once and has a capital letter. -/
theorem assertedHeaders_names (clientIp : Option String) :
    ((assertedHeaders request identity clientIp visitorId).map Prod.fst).Nodup ∧
      ∀ name ∈ (assertedHeaders request identity clientIp visitorId).map Prod.fst,
        lower name ≠ name := by
  obtain ⟨hnodup, hcapital, -⟩ := headerNames
  have hsublist := @assertedHeaders_sublist request identity visitorId clientIp
  exact ⟨hsublist.nodup hnodup.of_map, fun name hname => (hcapital name (hsublist.mem hname)).1⟩

theorem identityLines_name {line : String × String} (h : line ∈ identityLines identity) :
    line.1 ∈ identityNames := by
  cases identity with
  | none => cases h
  | some identity => exact List.mem_map_of_mem (f := Prod.fst) h

theorem visitorLines_name {line : String × String} (h : line ∈ visitorLines visitorId) :
    line.1 = "X-Visitor-Id" := by
  obtain ⟨value, -, rfl⟩ := List.mem_map.1 h
  rfl

theorem forwardedForLines_name {clientIp : Option String} {line : String × String}
    (h : line ∈ forwardedForLines request clientIp) : line.1 = "X-Forwarded-For" := by
  obtain ⟨value, -, rfl⟩ := List.mem_map.1 h
  rfl

theorem mem_assertedHeaders {clientIp : Option String} {line : String × String}
    (h : line ∈ assertedHeaders request identity clientIp visitorId) :
    line.1 ∈ gatewayNames :=
  (assertedHeaders_sublist clientIp).mem (List.mem_map_of_mem (f := Prod.fst) h)

/-- What is forwarded under the names that meet `p`. -/
theorem select_buildForwardHeaders {p : String → Bool} (clientIp : Option String)
    (hproto : p "X-Forwarded-Proto" = false) (hid : p requestIdHeader = false) :
    (buildForwardHeaders request identity clientIp visitorId fresh).select p =
      (keptHeaders request).select p ++
        (assertedHeaders request identity clientIp visitorId).filter fun line =>
          p line.1 := by
  rw [buildForwardHeaders_eq, Dict.select_setDefault_of_not _ hid,
    Dict.select_set_of_not _ hproto]
  obtain ⟨hnodup, hcapital⟩ := @assertedHeaders_names request identity visitorId clientIp
  exact Dict.select_update hnodup fun name hname => not_mem_keptHeaders (hcapital name hname)

/-! ## Identity headers -/

/-- Under the names of the gateway's vocabulary stand the lines of the identity and of
the visitor cookie. -/
theorem select_identityHeaders (clientIp : Option String) :
    (buildForwardHeaders request identity clientIp visitorId fresh).select isIdentityHeader =
      identityLines identity ++ visitorLines visitorId := by
  obtain ⟨-, -, hown, hother, -⟩ := headerNames
  have hidentity : (identityLines identity).filter (fun line => isIdentityHeader line.1) =
      identityLines identity :=
    List.filter_eq_self.2 fun line hline =>
      hown line.1 (List.mem_append_left _ (identityLines_name hline))
  have hvisitor : (visitorLines visitorId).filter (fun line => isIdentityHeader line.1) =
      visitorLines visitorId := by
    refine List.filter_eq_self.2 fun line hline => ?_
    rw [visitorLines_name hline]
    exact hown _ (by simp)
  have hforwarded : (forwardedForLines request clientIp).filter
      (fun line => isIdentityHeader line.1) = [] := by
    refine List.filter_eq_nil_iff.2 fun line hline => ?_
    rw [forwardedForLines_name hline, (hother _ (by simp)).1]
    exact Bool.false_ne_true
  rw [select_buildForwardHeaders clientIp (hother _ (by simp)).1 (hother _ (by simp)).1,
    Dict.select_eq_nil fun name hname => (mem_keptHeaders hname).2.1, List.nil_append,
    assertedHeaders, List.filter_append, List.filter_append, hidentity, hvisitor, hforwarded,
    List.append_nil]

/-- Whatever header lines a client sends, under the names of the identity headers, up to
letter case, the gateway forwards the lines of the identity it has resolved and the line
of the visitor cookie, each exactly once; and no identity where the route does not ask
for one. -/
theorem identity_not_forged (request : Request) :
    (∀ identity clientIp visitorId fresh,
      (buildForwardHeaders request identity clientIp visitorId fresh).select
          isIdentityHeader = identityLines identity ++ visitorLines visitorId ∧
        ((identityLines identity ++ visitorLines visitorId).map
          fun line => lower line.1).Nodup) ∧
      ∀ cookieParser config path resolved fresh target headers,
        proxy cookieParser config request path resolved fresh = .forwarded target headers →
        ∃ route ∈ buildRoutes config, matchRoute (buildRoutes config) ("/" ++ path) =
            some route ∧
          headers.select isIdentityHeader =
            identityLines (route.asserted resolved) ++
              visitorLines ((request.cookies cookieParser).get? config.visitorCookieName) := by
  refine ⟨fun identity clientIp visitorId fresh => ⟨select_identityHeaders clientIp, ?_⟩, ?_⟩
  · obtain ⟨hnodup, -⟩ := headerNames
    have hsublist := (@assertedHeaders_sublist request identity visitorId none).map lower
    rw [List.map_map] at hsublist
    have hnone : assertedHeaders request identity none visitorId =
        identityLines identity ++ visitorLines visitorId := List.append_nil _
    rw [hnone] at hsublist
    exact hsublist.nodup hnodup
  · intro cookieParser config path resolved fresh target headers h
    obtain ⟨route, upstream, hroute, -, -, -, rfl⟩ := proxy_eq_forwarded.1 h
    exact ⟨route, List.mem_of_find?_eq_some hroute, hroute, select_identityHeaders _⟩

/-- The viewer claims to be account 1 and to be a superuser. -/
theorem identity_not_forged_viewer :
    let sent := [("X-User-Id", "1"), ("x-USER-superuser", "true")]
    let request := Sample.request "10.0.0.9" sent
    let headers := buildForwardHeaders request (some Sample.viewer)
      (clientIp request Sample.config) ((request.cookies fun _ => []).get? "visitor_id") "fresh"
    ∃ route ∈ buildRoutes Sample.config,
      matchRoute (buildRoutes Sample.config) ("/" ++ "content/videos") = some route ∧
        headers.select isIdentityHeader =
          identityLines (route.asserted (some Sample.viewer)) ++
            visitorLines ((request.cookies fun _ => []).get?
              Sample.config.visitorCookieName) := by
  intro sent request headers
  have hroute : matchRoute (buildRoutes Sample.config) ("/" ++ "content/videos") =
      some ⟨"/content", some "http://content:8002/", true, false⟩ := by decide +kernel
  have hforwarded : proxy (fun _ => []) Sample.config request "content/videos"
      (some Sample.viewer) "fresh" =
        .forwarded (target Sample.config "http://content:8002/" "content/videos") headers :=
    proxy_eq_forwarded.2 ⟨_, _, hroute, rfl, by simp, rfl, rfl⟩
  exact (identity_not_forged request).2 _ _ _ _ _ _ _ hforwarded

/-! ## One line under a name -/

/-- Where all names are in lower case, there is at most one line under a name up to
letter case. -/
theorem select_lower {d : Dict String String} (hkeys : ∀ key ∈ d.keys, lower key = key)
    (name : String) :
    d.select (fun key => lower key = name) =
      (d.get? name).toList.map fun value => (name, value) := by
  rw [← Dict.select_key]
  refine Dict.select_congr fun key hkey => ?_
  rw [hkeys key hkey]

/-- The headers that pass keep the last line of a name. -/
theorem get?_keptHeaders {name : String} (hidentity : isIdentityHeader name = false)
    (hhop : isHopByHop name = false) (hlower : lower name = name) :
    (keptHeaders request).get? name = (request.headers.values name).getLast? := by
  unfold keptHeaders stripClientIdentity Headers.values
  rw [Dict.get?_filter _ (by simpa using hidentity), Dict.get?_ofItems, List.filter_filter,
    List.getLast?_map, hlower]
  congr 2
  refine List.filter_congr fun line _ => ?_
  by_cases h : line.1 = name
  · simp [h, hhop]
  · simp [h]

/-! ## Credentials -/

theorem isCredential_iff {name : String} :
    isCredential name = true ↔ lower name ∈ credentialNames := by
  simp [isCredential, credentialNames]

theorem Headers.get?_of_mem {headers : Headers} {line : String × String}
    (h : line ∈ headers.lines) : ∃ value, headers.get? line.1 = some value := by
  have hmem : line.2 ∈ headers.values line.1 := by
    unfold Headers.values
    rw [headers.lowered line h]
    exact List.mem_map_of_mem (List.mem_filter.2 ⟨h, by simp⟩)
  unfold Headers.get?
  cases hvalues : headers.values line.1 with
  | nil => rw [hvalues] at hmem; cases hmem
  | cons value rest => exact ⟨value, rfl⟩

theorem Headers.mem_keys_toDict {headers : Headers} {name : String}
    (h : name ∈ headers.toDict.keys) : lower name = name := by
  unfold Headers.toDict at h
  rw [Dict.mem_keys_ofItems] at h
  obtain ⟨item, hitem, rfl⟩ := List.mem_map.1 h
  obtain ⟨line, hline, hvalue⟩ := List.mem_filterMap.1 hitem
  obtain ⟨value, -, rfl⟩ := Option.map_eq_some_iff.1 hvalue
  exact headers.lowered line hline

/-- `dict(headers)` has the first line of a name. -/
theorem Headers.get?_toDict {headers : Headers} {name : String} (hlower : lower name = name) :
    headers.toDict.get? name = headers.get? name := by
  unfold Headers.toDict
  rw [Dict.get?_ofItems]
  cases hlast : ((headers.lines.filterMap fun line =>
      (headers.get? line.1).map fun value => (line.1, value)).filter
        fun item => item.1 = name).getLast? with
  | none =>
    -- no line has the name
    rw [List.getLast?_eq_none_iff, List.filter_eq_nil_iff] at hlast
    have hvalues : headers.values name = [] := by
      unfold Headers.values
      rw [List.map_eq_nil_iff, List.filter_eq_nil_iff, hlower]
      intro line hline hname
      obtain ⟨value, hvalue⟩ := Headers.get?_of_mem hline
      refine hlast (line.1, value) (List.mem_filterMap.2 ⟨line, hline, ?_⟩) hname
      rw [hvalue]
      rfl
    unfold Headers.get?
    rw [hvalues]
    rfl
  | some item =>
    obtain ⟨hmem, hname⟩ := List.mem_filter.1 (List.mem_of_getLast? hlast)
    obtain ⟨line, hline, hvalue⟩ := List.mem_filterMap.1 hmem
    obtain ⟨value, hget, rfl⟩ := Option.map_eq_some_iff.1 hvalue
    have hsame : line.1 = name := by simpa using hname
    rw [← hsame, hget]
    rfl

/-- The credentials that the identity is resolved from are those of the first lines. -/
theorem select_resolved {name : String} (h : name ∈ credentialNames) :
    (IdentityResolver.forwarded request.headers.toDict).select (fun key => lower key = name) =
      (request.headers.values name).head?.toList.map fun value => (name, value) := by
  obtain ⟨-, -, -, -, hcredentials⟩ := headerNames
  unfold IdentityResolver.forwarded
  rw [Dict.select_filter, ← Headers.get?, ← Headers.get?_toDict (hcredentials name h).1,
    ← select_lower fun key hkey => Headers.mem_keys_toDict hkey]
  refine Dict.select_congr fun key _ => ?_
  by_cases hkey : lower key = name
  · have hcredential : isCredential key = true := isCredential_iff.2 (hkey ▸ h)
    simp [hkey, hcredential]
  · simp [hkey]

/-- The credentials that are forwarded are those of the last lines. -/
theorem select_forwarded (clientIp : Option String) {name : String}
    (h : name ∈ credentialNames) :
    (buildForwardHeaders request identity clientIp visitorId fresh).select
        (fun key => lower key = name) =
      (request.headers.values name).getLast?.toList.map fun value => (name, value) := by
  obtain ⟨-, hgateway, -, hplain, hcredentials⟩ := headerNames
  obtain ⟨hlower, hidentity, hhop⟩ := hcredentials name h
  have hother {key : String} (hkey : lower key ∉ credentialNames) :
      decide (lower key = name) = false :=
    decide_eq_false fun hsame => hkey (hsame ▸ h)
  have hnone : (assertedHeaders request identity clientIp visitorId).filter
      (fun line => lower line.1 = name) = [] := by
    refine List.filter_eq_nil_iff.2 fun line hline => ?_
    rw [hother (hgateway line.1 (mem_assertedHeaders hline)).2]
    exact Bool.false_ne_true
  have hselect := @select_buildForwardHeaders request identity visitorId fresh
    (fun key => lower key = name) clientIp (hother (hplain _ (by simp)).2)
    (hother (hplain _ (by simp)).2)
  rw [hselect, hnone, select_lower fun key hkey => (mem_keptHeaders hkey).1,
    get?_keptHeaders hidentity hhop hlower, List.append_nil]

/-- The credentials behind the asserted identity are those that are forwarded, just if the
first and the last line of `Authorization` agree, and so for `Cookie`. -/
theorem credentials_agree_iff (request : Request) (identity : Option Identity)
    (clientIp visitorId : Option String) (fresh : String) :
    (∀ name ∈ credentialNames,
      (IdentityResolver.forwarded request.headers.toDict).select (fun key => lower key = name) =
        (buildForwardHeaders request identity clientIp visitorId fresh).select
          fun key => lower key = name) ↔
      ∀ name ∈ credentialNames,
        (request.headers.values name).head? = (request.headers.values name).getLast? := by
  refine forall₂_congr fun name hname => ?_
  rw [select_resolved hname, select_forwarded clientIp hname]
  constructor
  · intro h
    cases hfirst : (request.headers.values name).head? <;>
      cases hlast : (request.headers.values name).getLast? <;>
        simp [hfirst, hlast] at h ⊢
    exact h
  · intro h
    rw [h]

/-- A request with two `Authorization` lines, alice's and bob's: the identity is resolved
from the first and the last is forwarded. -/
theorem credentials_differ :
    let request := Sample.request "10.0.0.9"
      [("Authorization", "Bearer alice"), ("Authorization", "Bearer bob")]
    ¬ ∀ name ∈ credentialNames,
      (IdentityResolver.forwarded request.headers.toDict).select (fun key => lower key = name) =
        (buildForwardHeaders request (some Sample.viewer) (clientIp request Sample.config) none
          "fresh").select fun key => lower key = name := by
  decide +kernel

end VideoSite.Gateway
