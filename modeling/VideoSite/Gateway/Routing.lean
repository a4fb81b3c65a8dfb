import VideoSite.Gateway.Proxy

/-!
# The routing table

`build_routes` sorts the routes by the length of their prefixes, longest first, and
`match` takes the first route that owns the path, "so `/users/me` cannot be shadowed by
`/users`".  Here that is said of every table that may be written there: the route found
is the owner whose prefix extends the prefixes of all other owners.  In what order the
table lists its routes does not matter, nor does a route that does not own the path.

The sort key is the length only.  It is enough because all owners of a path have prefixes
of that path, and of two prefixes of one text the longer extends the shorter.
-/

namespace VideoSite.Gateway

/-! ## The first match in a ranked list -/

section

variable {α : Type} {rank : α → Nat} {p : α → Bool}

/-- The first match in a list that is sorted by rank, highest first, has the highest rank
of all matches. -/
theorem rank_le_of_find? {sorted : List α}
    (hsorted : sorted.Pairwise fun a b => rank b ≤ rank a) {a : α}
    (h : sorted.find? p = some a) {b : α} (hb : b ∈ sorted) (hp : p b = true) :
    rank b ≤ rank a := by
  obtain ⟨-, before, after, hsplit, hbefore⟩ := List.find?_eq_some_iff_append.1 h
  rw [hsplit] at hb hsorted
  have hafter : ∀ c ∈ after, rank c ≤ rank a :=
    (List.pairwise_cons.1 (List.pairwise_append.1 hsorted).2.1).1
  rcases List.mem_append.1 hb with hearlier | hlater
  · have hno : p b = false := by simpa using hbefore b hearlier
    rw [hp] at hno
    cases hno
  · rcases List.mem_cons.1 hlater with he | hlast
    · rw [he]
    · exact hafter b hlast

/-- `sorted(list, key=rank, reverse=True)`, which keeps the order of equal ranks. -/
def sortByRank (rank : α → Nat) (list : List α) : List α :=
  list.insertionSort fun a b => rank b ≤ rank a

theorem pairwise_sortByRank (list : List α) :
    (sortByRank rank list).Pairwise fun a b => rank b ≤ rank a := by
  have htotal : Std.Total fun a b : α => rank b ≤ rank a := ⟨fun a b => Nat.le_total _ _⟩
  have htrans : IsTrans α fun a b => rank b ≤ rank a := ⟨fun _ _ _ h h' => Nat.le_trans h' h⟩
  exact List.pairwise_insertionSort _ list

theorem mem_sortByRank {list : List α} {a : α} : a ∈ sortByRank rank list ↔ a ∈ list :=
  List.mem_insertionSort _

end

/-! ## Tables of routes -/

/-- The rank of a route: `len(route.prefix)`. -/
def Route.rank (route : Route) : Nat := route.pathPrefix.length

/-- The table of `build_routes` before it is sorted. -/
def routeTable (config : GatewayConfig) : List Route := [
  { pathPrefix := "/auth", upstream := some config.usersServiceUrl, injectIdentity := false },
  { pathPrefix := "/users", upstream := some config.usersServiceUrl, injectIdentity := false },
  { pathPrefix := "/admin", upstream := some config.usersServiceUrl, injectIdentity := false },
  { pathPrefix := "/content", upstream := config.contentServiceUrl, injectIdentity := true }]

theorem buildRoutes_eq (config : GatewayConfig) :
    buildRoutes config = sortByRank Route.rank (routeTable config) := rfl

/-- The prefix of `route` extends the one of `other`. -/
def Route.Extends (route other : Route) : Prop :=
  other.pathPrefix.toList <+: route.pathPrefix.toList

/-- An owner of a path has a prefix of it. -/
theorem Route.prefix_of_owns {route : Route} {path : String} (h : route.owns path = true) :
    route.pathPrefix.toList <+: path.toList := by
  unfold Route.owns at h
  rcases Bool.or_eq_true_iff.1 h with hsame | hbelow
  · have hpath := of_decide_eq_true hsame
    subst hpath
    exact List.prefix_rfl
  · have hslash : (route.pathPrefix ++ "/").toList <+: path.toList :=
      List.isPrefixOf_iff_prefix.1 hbelow
    rw [String.toList_append] at hslash
    exact (List.prefix_append _ _).trans hslash

/-- Of two owners of a path, the one that ranks higher extends the other. -/
theorem Route.extends_of_rank_le {route other : Route} {path : String}
    (hroute : route.owns path = true) (hother : other.owns path = true)
    (hrank : other.rank ≤ route.rank) : route.Extends other := by
  have hlength : other.pathPrefix.toList.length ≤ route.pathPrefix.toList.length := by
    rw [String.length_toList, String.length_toList]
    exact hrank
  exact List.prefix_of_prefix_length_le (prefix_of_owns hother) (prefix_of_owns hroute) hlength

/-- Routes that extend each other have the same prefix. -/
theorem Route.Extends.antisymm {route other : Route} (h : route.Extends other)
    (h' : other.Extends route) : route.pathPrefix = other.pathPrefix :=
  String.toList_injective (h'.eq_of_length_le h.length_le)

/-- No two routes of the table have one prefix. -/
def Distinct (routes : List Route) : Prop :=
  ∀ a ∈ routes, ∀ b ∈ routes, a.pathPrefix = b.pathPrefix → a = b

/-- The route that owns `path` and extends all its other owners. -/
structure IsLongestOwner (routes : List Route) (path : String) (route : Route) : Prop where
  mem : route ∈ routes
  owns : route.owns path = true
  longest : ∀ other ∈ routes, other.owns path = true → route.Extends other

/-- A table has one longest owner of a path at most. -/
theorem IsLongestOwner.unique {routes : List Route} (hdistinct : Distinct routes)
    {path : String} {a b : Route} (ha : IsLongestOwner routes path a)
    (hb : IsLongestOwner routes path b) : a = b := by
  have hsame : a.pathPrefix = b.pathPrefix :=
    (ha.longest b hb.mem hb.owns).antisymm (hb.longest a ha.mem ha.owns)
  exact hdistinct a ha.mem b hb.mem hsame

/-- The table of the gateway is one, whatever the services are. -/
theorem distinct_routeTable (config : GatewayConfig) : Distinct (routeTable config) := by
  intro a ha b hb hsame
  simp only [routeTable, List.mem_cons, List.not_mem_nil, or_false] at ha hb
  rcases ha with rfl | rfl | rfl | rfl <;> rcases hb with rfl | rfl | rfl | rfl <;>
    first | rfl | simp at hsame

/-- What is matched in a table that was sorted is the longest owner. -/
theorem isLongestOwner_of_match {routes : List Route} {path : String} {route : Route}
    (h : matchRoute (sortByRank Route.rank routes) path = some route) :
    IsLongestOwner routes path route := by
  have howns : route.owns path = true := List.find?_some (p := fun r : Route => r.owns path) h
  refine ⟨mem_sortByRank.1 (List.mem_of_find?_eq_some h), howns, fun other hother hother' => ?_⟩
  have hrank : other.rank ≤ route.rank :=
    rank_le_of_find? (pairwise_sortByRank routes) h (mem_sortByRank.2 hother) hother'
  exact Route.extends_of_rank_le howns hother' hrank

theorem match_eq_none_iff {routes : List Route} {path : String} :
    matchRoute (sortByRank Route.rank routes) path = none ↔
      ∀ route ∈ routes, route.owns path = false := by
  unfold matchRoute
  rw [List.find?_eq_none]
  simp [mem_sortByRank]

theorem match_eq_some_iff {routes : List Route} (hdistinct : Distinct routes) {path : String}
    {route : Route} :
    matchRoute (sortByRank Route.rank routes) path = some route ↔
      IsLongestOwner routes path route := by
  refine ⟨isLongestOwner_of_match, fun h => ?_⟩
  cases hmatch : matchRoute (sortByRank Route.rank routes) path with
  | none =>
    have hno := match_eq_none_iff.1 hmatch route h.mem
    rw [h.owns] at hno
    cases hno
  | some found => rw [h.unique hdistinct (isLongestOwner_of_match hmatch)]

/-- In the table of the gateway, and in any other whose prefixes differ, however its routes
are listed, a path is matched to the route that owns it and extends all its other owners; it
is matched to none when it has no owner. -/
theorem longest_prefix_owns {routes : List Route} (hdistinct : Distinct routes)
    (config : GatewayConfig) (path : String) :
    ((∀ route, matchRoute (buildRoutes config) path = some route ↔
        IsLongestOwner (routeTable config) path route) ∧
      (matchRoute (buildRoutes config) path = none ↔
        ∀ route ∈ routeTable config, route.owns path = false)) ∧
    (∀ route, matchRoute (sortByRank Route.rank routes) path = some route ↔
      IsLongestOwner routes path route) ∧
    (matchRoute (sortByRank Route.rank routes) path = none ↔
      ∀ route ∈ routes, route.owns path = false) := by
  rw [buildRoutes_eq]
  exact ⟨⟨fun _ => match_eq_some_iff (distinct_routeTable config), match_eq_none_iff⟩,
    fun _ => match_eq_some_iff hdistinct, match_eq_none_iff⟩

/-- A table with a service inside the users-service's part of the API. -/
theorem longest_prefix_owns_nested :
    let avatars : Route :=
      { pathPrefix := "/users/avatars", upstream := none, injectIdentity := true }
    matchRoute (sortByRank Route.rank (routeTable Sample.config ++ [avatars]))
      "/users/avatars/7" = some avatars := by
  have h := @longest_prefix_owns (routeTable Sample.config ++
    [{ pathPrefix := "/users/avatars", upstream := none, injectIdentity := true }])
    (by unfold Distinct; decide +kernel) Sample.config "/users/avatars/7"
  exact (h.2.1 _).2 ⟨by decide +kernel, by decide +kernel, by
    simp only [Route.Extends]
    decide +kernel⟩

end VideoSite.Gateway
