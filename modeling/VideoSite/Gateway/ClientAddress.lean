import VideoSite.Gateway.ForwardedHeaders
import Mathlib.Data.List.TakeWhile

/-!
# The address of the client

The gateway appends the address of its peer to the `X-Forwarded-For` of the client, and
users-service takes the first address of the first line.  The gateway's header has another
spelling than the one it was received under, so both lines are forwarded, the client's
first.

* `attributed_eq` is what users-service makes of the forwarded request.
* `client_address_iff` says when that is the peer.
-/

namespace VideoSite.Gateway

variable {request : Request} {identity : Option Identity} {visitorId : Option String}
  {fresh : String}

/-- The address of a peer: no comma and no white space in it. -/
structure PeerAddress where
  text : String
  nonempty : text ≠ ""
  plain : ∀ c ∈ text.toList, c ≠ ',' ∧ isSpace c = false

/-- The request that users-service receives from the gateway at `gateway`. -/
def receivedFrom (gateway scheme : String) (sent : Dict String String) : Request where
  headers := .receive sent.entries
  scheme := scheme
  client := some gateway

/-- `_client_ip` of users-service. -/
def UsersService.clientIp (request : Request) (trustProxyHeaders : Bool) : Option String :=
  callerAddress trustProxyHeaders request

theorem dropWhile_isSpace {chars : List Char} (h : ∀ c ∈ chars, isSpace c = false) :
    chars.dropWhile isSpace = chars := by
  cases chars with
  | nil => rfl
  | cons c rest => rw [List.dropWhile_cons_of_neg (by simp [h c List.mem_cons_self])]

/-- An address that stands alone is read as it is. -/
theorem PeerAddress.read (peer : PeerAddress) : strip (beforeComma peer.text) = peer.text := by
  have hcomma : beforeComma peer.text = peer.text := by
    unfold beforeComma
    rw [List.takeWhile_eq_self_iff.2 fun c hc => by simpa using (peer.plain c hc).1,
      String.ofList_toList]
  have hspace (c : Char) (hc : c ∈ peer.text.toList) : isSpace c = false := (peer.plain c hc).2
  rw [hcomma, strip, dropWhile_isSpace hspace,
    dropWhile_isSpace fun c hc => hspace c (List.mem_reverse.1 hc), List.reverse_reverse,
    String.ofList_toList]

/-- Which of the gateway's names are `X-Forwarded-For` up to letter case. -/
theorem forwardedForName :
    lower "x-forwarded-for" = "x-forwarded-for" ∧ isIdentityHeader "x-forwarded-for" = false ∧
      isHopByHop "x-forwarded-for" = false ∧ lower "X-Forwarded-For" = "x-forwarded-for" ∧
      ∀ name ∈ identityNames ++ ["X-Visitor-Id", "X-Forwarded-Proto", requestIdHeader],
        lower name ≠ "x-forwarded-for" := by
  decide +kernel

/-- The lines under `X-Forwarded-For`: the client's last one, then the gateway's. -/
theorem forwardedFor_values (gateway scheme : String) (clientIp : Option String) :
    (receivedFrom gateway scheme (buildForwardHeaders request identity clientIp visitorId
        fresh)).headers.values "x-forwarded-for" =
      (request.headers.values "x-forwarded-for").getLast?.toList ++
        (forwardedForLines request clientIp).map Prod.snd := by
  obtain ⟨hlower, hidentity, hhop, hown, hother⟩ := forwardedForName
  have hfalse {name : String}
      (hname : name ∈ identityNames ++ ["X-Visitor-Id", "X-Forwarded-Proto", requestIdHeader]) :
      decide (lower name = "x-forwarded-for") = false :=
    decide_eq_false (hother name hname)
  have hasserted : (assertedHeaders request identity clientIp visitorId).filter
      (fun line => lower line.1 = "x-forwarded-for") = forwardedForLines request clientIp := by
    have hnone : (identityLines identity ++ visitorLines visitorId).filter
        (fun line => lower line.1 = "x-forwarded-for") = [] := by
      refine List.filter_eq_nil_iff.2 fun line hline => ?_
      have hname : line.1 ∈ identityNames ++
          ["X-Visitor-Id", "X-Forwarded-Proto", requestIdHeader] := by
        rcases List.mem_append.1 hline with hline | hline
        · exact List.mem_append_left _ (identityLines_name hline)
        · rw [visitorLines_name hline]
          exact List.mem_append_right _ List.mem_cons_self
      rw [hfalse hname]
      exact Bool.false_ne_true
    have hforwarded : (forwardedForLines request clientIp).filter
        (fun line => lower line.1 = "x-forwarded-for") = forwardedForLines request clientIp := by
      refine List.filter_eq_self.2 fun line hline => ?_
      rw [forwardedForLines_name hline]
      exact decide_eq_true hown
    rw [assertedHeaders, List.filter_append, hnone, hforwarded, List.nil_append]
  have hselect := @select_buildForwardHeaders request identity visitorId fresh
    (fun name => lower name = "x-forwarded-for") clientIp (hfalse (by simp)) (hfalse (by simp))
  rw [hasserted, select_lower fun key hkey => (mem_keptHeaders hkey).1,
    get?_keptHeaders hidentity hhop hlower] at hselect
  have hvalues := congrArg (List.map Prod.snd) hselect
  rw [List.map_append, List.map_map] at hvalues
  unfold receivedFrom Headers.receive Headers.values
  rw [hlower, List.filter_map, List.map_map]
  refine Eq.trans ?_ (hvalues.trans ?_)
  · rfl
  · congr 1
    exact List.map_id _

/-- What users-service takes for the address of a client whose last `X-Forwarded-For` line
is `last`. -/
def attributed (last : Option String) (gateway peer : String) : String :=
  match last with
  | none => peer
  | some last => if last = "" then gateway else strip (beforeComma last)

theorem attributed_eq (config : GatewayConfig) (hdirect : config.trustProxyHeaders = false)
    (peer : PeerAddress) (hpeer : request.client = some peer.text) (gateway scheme : String) :
    UsersService.clientIp (receivedFrom gateway scheme (buildForwardHeaders request identity
        (clientIp request config) visitorId fresh)) true =
      some (attributed (request.headers.values "x-forwarded-for").getLast? gateway
        peer.text) := by
  have hclient : clientIp request config = some peer.text := by
    unfold clientIp callerAddress
    rw [hdirect]
    exact hpeer
  have htruthy : truthy (some peer.text) = some peer.text := truthy_some peer.nonempty
  unfold UsersService.clientIp callerAddress
  rw [if_pos rfl, Headers.get?, forwardedFor_values, hclient, forwardedForLines, htruthy]
  cases hlast : (request.headers.values "x-forwarded-for").getLast? with
  | none =>
    -- the gateway's line is the only one, and it has the peer alone
    have hnone : request.headers.get? "x-forwarded-for" = none := by
      unfold Headers.get?
      rw [List.getLast?_eq_none_iff.1 hlast]
      rfl
    have halone : forwardedFor none peer.text = peer.text := rfl
    simp [hnone, halone, htruthy, attributed, peer.read]
  | some last =>
    by_cases hempty : last = ""
    · simp [hempty, truthy_empty, attributed, receivedFrom]
    · simp [hempty, truthy_some, attributed]

/-- With a gateway that does not trust proxies and a users-service that does, the address
that users-service attributes to a forwarded request is that of the gateway's peer, just
if the client sent no `X-Forwarded-For` line, or its last one begins with that address,
or is empty and the gateway has that address itself. -/
theorem client_address_iff (request : Request) (config : GatewayConfig)
    (hdirect : config.trustProxyHeaders = false) (peer : PeerAddress)
    (hpeer : request.client = some peer.text) (identity : Option Identity)
    (visitorId : Option String) (fresh gateway scheme : String) :
    UsersService.clientIp (receivedFrom gateway scheme (buildForwardHeaders request identity
        (clientIp request config) visitorId fresh)) true = some peer.text ↔
      ∀ last ∈ (request.headers.values "x-forwarded-for").getLast?,
        if last = "" then gateway = peer.text else strip (beforeComma last) = peer.text := by
  rw [attributed_eq config hdirect peer hpeer, Option.some.injEq]
  cases (request.headers.values "x-forwarded-for").getLast? with
  | none => simp [attributed]
  | some last =>
    by_cases hempty : last = ""
    · simp [attributed, hempty]
    · simp [attributed, hempty]

namespace Sample

def peer : PeerAddress where
  text := "203.0.113.9"
  nonempty := by decide
  plain := fun c hc => by
    have hall : "203.0.113.9".toList.all (fun c => c != ',' && !isSpace c) = true := by
      decide +kernel
    simpa using List.all_eq_true.1 hall c hc

end Sample

/-- A client that says where it is. -/
theorem client_address_iff_honest :
    let request := Sample.request "203.0.113.9" [("x-forwarded-for", "203.0.113.9")]
    UsersService.clientIp (receivedFrom "10.0.0.2" "http" (buildForwardHeaders request none
        (clientIp request Sample.config) none "fresh")) true = some "203.0.113.9" ↔
      ∀ last ∈ (request.headers.values "x-forwarded-for").getLast?,
        if last = "" then "10.0.0.2" = "203.0.113.9"
        else strip (beforeComma last) = "203.0.113.9" :=
  client_address_iff (Sample.request "203.0.113.9" [("x-forwarded-for", "203.0.113.9")])
    Sample.config rfl Sample.peer rfl none none "fresh" "10.0.0.2" "http"

/-- A client that says it is somebody else. -/
theorem client_address_forged :
    let request := Sample.request "203.0.113.9" [("X-Forwarded-For", "198.51.100.7")]
    Sample.config.trustProxyHeaders = false ∧ request.client = some Sample.peer.text ∧
      UsersService.clientIp (receivedFrom "10.0.0.2" "http" (buildForwardHeaders request none
        (clientIp request Sample.config) none "fresh")) true ≠ some Sample.peer.text := by
  decide +kernel

end VideoSite.Gateway
