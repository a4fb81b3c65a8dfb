import VideoSite.Gateway.ForwardedHeaders

/-!
# Headers from end to end

The gateway stands between a client and a service, and takes header lines from either side
for the other.  Some are for the gateway alone: those of the hop-by-hop set, and those that
a message nominates itself, in its `Connection` header.  Some the gateway asserts.  All
others are meant for the far end.

* `entries_buildForwardHeaders` says which lines the gateway sends for a request: those of
  the client that may pass, each name once, and its own.
* `headers_survive_iff` is about the lines that are meant for the far end.
* `asserted_once_iff` is about those that the gateway asserts.
-/

namespace VideoSite.Gateway

/-! ## What is for one connection -/

/-- The values under a name up to letter case, line by line. -/
def valuesUnder (lines : List (String × String)) (name : String) : List String :=
  (lines.filter fun line => lower line.1 = lower name).map Prod.snd

/-- Space or tab. -/
def isBlank (c : Char) : Bool := c == ' ' || c == '\t'

/-- The elements of a comma-separated list, without the blanks around them. -/
def listElements (value : String) : List String :=
  (value.toList.splitOn ',').map fun element =>
    String.ofList ((element.dropWhile isBlank).reverse.dropWhile isBlank).reverse

/-- The names that a message nominates as meant for one connection. -/
def nominated (lines : List (String × String)) : List String :=
  ((valuesUnder lines "connection").flatMap listElements).map lower

/-- A message nominates the name. -/
def isNominated (lines : List (String × String)) (name : String) : Bool :=
  (nominated lines).contains (lower name)

/-- Lines under the name belong to one connection. -/
def belongsToHop (lines : List (String × String)) (name : String) : Bool :=
  isHopByHop name || isNominated lines name

/-- What is received and what is forwarded agree under a name. -/
def AgreeUnder (received forwarded : List (String × String)) (name : String) : Prop :=
  valuesUnder forwarded name = valuesUnder received name

/-! ## The lines of a forwarded request -/

section

variable {request : Request} {identity : Option Identity} {clientIp visitorId : Option String}
  {fresh : String}

/-- The id of a request: the client's, if it sends one, and else a new one. -/
def requestId (request : Request) (fresh : String) : String :=
  (truthy (request.headers.get? requestIdHeader)).getD fresh

/-- Everything that the gateway says itself about a request. -/
def gatewayLines (request : Request) (identity : Option Identity)
    (clientIp visitorId : Option String) (fresh : String) : List (String × String) :=
  assertedHeaders request identity clientIp visitorId ++
    [("X-Forwarded-Proto", request.scheme), (requestIdHeader, requestId request fresh)]

/-- The names of all the gateway's lines are different and have capital letters. -/
theorem gatewayLines_names :
    ((gatewayLines request identity clientIp visitorId fresh).map Prod.fst).Nodup ∧
      ∀ name ∈ (gatewayLines request identity clientIp visitorId fresh).map Prod.fst,
        lower name ≠ name := by
  have hall : (gatewayNames ++ ["X-Forwarded-Proto", requestIdHeader]).Nodup ∧
      ∀ name ∈ gatewayNames ++ ["X-Forwarded-Proto", requestIdHeader], lower name ≠ name := by
    decide +kernel
  have hsublist : ((gatewayLines request identity clientIp visitorId fresh).map Prod.fst).Sublist
      (gatewayNames ++ ["X-Forwarded-Proto", requestIdHeader]) := by
    unfold gatewayLines
    rw [List.map_append]
    exact (assertedHeaders_sublist clientIp).append (List.Sublist.refl _)
  exact ⟨hsublist.nodup hall.1, fun name hname => hall.2 name (hsublist.mem hname)⟩

/-- The lines of the client that may pass come first, then the gateway's own. -/
theorem entries_buildForwardHeaders :
    (buildForwardHeaders request identity clientIp visitorId fresh).entries =
      (keptHeaders request).entries ++
        gatewayLines request identity clientIp visitorId fresh := by
  have hnames := @gatewayLines_names request identity clientIp visitorId fresh
  have hnew : ∀ name ∈ (gatewayLines request identity clientIp visitorId fresh).map Prod.fst,
      name ∉ (keptHeaders request).keys :=
    fun name hname => not_mem_keptHeaders (hnames.2 name hname)
  rw [← Dict.entries_update_new hnames.1 hnew, buildForwardHeaders_eq, gatewayLines,
    Dict.update_append, Dict.update_cons, Dict.update_cons, Dict.update_nil]
  have hid : requestIdHeader ∉ (((keptHeaders request).update
      (assertedHeaders request identity clientIp visitorId)).set "X-Forwarded-Proto"
        request.scheme).keys := by
    intro hmem
    rcases Dict.mem_keys_set.1 hmem with hmem | hproto
    · rcases Dict.mem_keys_update.1 hmem with hkept | hasserted
      · exact not_mem_keptHeaders (by decide +kernel) hkept
      · have hgateway := (assertedHeaders_sublist clientIp).mem hasserted
        exact absurd hgateway (by decide +kernel)
    · exact absurd hproto (by decide +kernel)
  unfold Dict.setDefault
  rw [if_neg hid]
  rfl

/-! ## The values under a name -/

theorem valuesUnder_append (lines lines' : List (String × String)) (name : String) :
    valuesUnder (lines ++ lines') name = valuesUnder lines name ++ valuesUnder lines' name := by
  unfold valuesUnder
  rw [List.filter_append, List.map_append]

theorem valuesUnder_eq_nil {lines : List (String × String)} {name : String}
    (h : ∀ line ∈ lines, lower line.1 ≠ lower name) : valuesUnder lines name = [] := by
  unfold valuesUnder
  rw [List.map_eq_nil_iff, List.filter_eq_nil_iff]
  intro line hline
  simpa using h line hline

/-- The lines of a client have lower-case names. -/
theorem valuesUnder_lines (headers : Headers) (name : String) :
    valuesUnder headers.lines name = headers.values name := by
  unfold valuesUnder Headers.values
  refine congrArg (List.map Prod.snd) (List.filter_congr fun line hline => ?_)
  rw [headers.lowered line hline]

theorem isHopByHop_lower (name : String) : isHopByHop (lower name) = isHopByHop name := by
  unfold isHopByHop
  rw [lower_lower]

theorem isIdentityHeader_lower (name : String) :
    isIdentityHeader (lower name) = isIdentityHeader name := by
  unfold isIdentityHeader
  rw [lower_lower]

/-- Of the values of a client, the last one is left. -/
theorem valuesUnder_keptHeaders {name : String} (hidentity : isIdentityHeader name = false)
    (hhop : isHopByHop name = false) :
    valuesUnder (keptHeaders request).entries name =
      (request.headers.values name).getLast?.toList := by
  have hselect := select_lower (d := keptHeaders request)
    (fun key hkey => (mem_keptHeaders hkey).1) (lower name)
  have hlast : (keptHeaders request).get? (lower name) =
      (request.headers.values (lower name)).getLast? :=
    get?_keptHeaders ((isIdentityHeader_lower name).trans hidentity)
      ((isHopByHop_lower name).trans hhop) (lower_lower name)
  have hvalues : request.headers.values (lower name) = request.headers.values name := by
    unfold Headers.values
    rw [lower_lower]
  unfold valuesUnder
  unfold Dict.select at hselect
  rw [hselect, hlast, hvalues]
  cases (request.headers.values name).getLast? <;> rfl

/-! ## Lines for the far end -/

/-- The gateway asserts the headers of the identity, the protocol and the id of a request,
and the addresses it came through where it knows the last of them. -/
def isAsserted (clientIp : Option String) (name : String) : Bool :=
  isIdentityHeader name || lower name = "x-forwarded-proto" || lower name = "x-request-id" ||
    (truthy clientIp).isSome && lower name = "x-forwarded-for"

/-- Every line of the gateway is under one of these names. -/
theorem isAsserted_of_mem {line : String × String}
    (h : line ∈ gatewayLines request identity clientIp visitorId fresh) :
    isAsserted clientIp line.1 = true := by
  obtain ⟨-, -, hown, -⟩ := headerNames
  have hidentity {name : String} (hname : name ∈ identityNames ++ ["X-Visitor-Id"]) :
      isAsserted clientIp name = true := by
    unfold isAsserted
    rw [hown name hname]
    rfl
  unfold gatewayLines assertedHeaders at h
  rcases List.mem_append.1 h with hasserted | hlast
  · rcases List.mem_append.1 hasserted with hfirst | hforwarded
    · rcases List.mem_append.1 hfirst with hline | hline
      · exact hidentity (List.mem_append_left _ (identityLines_name hline))
      · refine hidentity (List.mem_append_right _ ?_)
        rw [visitorLines_name hline]
        exact List.mem_singleton_self _
    · have hname := forwardedForLines_name hforwarded
      obtain ⟨ip, hip, -⟩ := List.mem_map.1 hforwarded
      have hsome : (truthy clientIp).isSome = true := by
        rw [Option.mem_toList.1 hip]
        rfl
      have hlower : lower "X-Forwarded-For" = "x-forwarded-for" := by decide +kernel
      unfold isAsserted
      rw [hname, hsome, hlower]
      simp
  · have hnames : ∀ name ∈ ["X-Forwarded-Proto", requestIdHeader],
        lower name = "x-forwarded-proto" ∨ lower name = "x-request-id" := by
      decide +kernel
    have hmem := List.mem_map_of_mem (f := Prod.fst) hlast
    unfold isAsserted
    rcases hnames line.1 hmem with hname | hname <;> simp [hname]

theorem isAsserted_congr {name other : String} (h : lower name = lower other) :
    isAsserted clientIp name = isAsserted clientIp other := by
  unfold isAsserted isIdentityHeader
  rw [h]

/-- Under a name that is the client's to use, the last of its values is forwarded. -/
theorem valuesUnder_forwarded {name : String} (hhop : isHopByHop name = false)
    (hasserted : isAsserted clientIp name = false) :
    valuesUnder (buildForwardHeaders request identity clientIp visitorId fresh).entries name =
      (request.headers.values name).getLast?.toList := by
  have hidentity : isIdentityHeader name = false := by
    unfold isAsserted at hasserted
    simp only [Bool.or_eq_false_iff] at hasserted
    exact hasserted.1.1.1
  have hgateway : valuesUnder (gatewayLines request identity clientIp visitorId fresh) name =
      [] := by
    refine valuesUnder_eq_nil fun line hline hsame => ?_
    have htrue := isAsserted_of_mem hline
    rw [isAsserted_congr hsame, hasserted] at htrue
    exact Bool.false_ne_true htrue
  rw [entries_buildForwardHeaders, valuesUnder_append, hgateway, List.append_nil,
    valuesUnder_keptHeaders hidentity hhop]

/-- A header of the client passes just if it is none of the hop-by-hop set and none of the
identity's. -/
theorem mem_keptHeaders_iff {name : String} :
    name ∈ (keptHeaders request).keys ↔
      name ∈ request.headers.lines.map Prod.fst ∧ isHopByHop name = false ∧
        isIdentityHeader name = false := by
  constructor
  · intro h
    obtain ⟨-, hidentity, hhop⟩ := mem_keptHeaders h
    unfold keptHeaders stripClientIdentity at h
    rw [Dict.mem_keys_filter, Dict.mem_keys_ofItems] at h
    obtain ⟨line, hline, rfl⟩ := List.mem_map.1 h.1
    exact ⟨List.mem_map_of_mem (List.mem_filter.1 hline).1, hhop, hidentity⟩
  · rintro ⟨hmem, hhop, hidentity⟩
    obtain ⟨line, hline, rfl⟩ := List.mem_map.1 hmem
    unfold keptHeaders stripClientIdentity
    rw [Dict.mem_keys_filter, Dict.mem_keys_ofItems]
    refine ⟨List.mem_map_of_mem (List.mem_filter.2 ⟨hline, ?_⟩), ?_⟩
    · rw [hhop]
      rfl
    · rw [hidentity]
      rfl

end

/-- What a client sends for the service reaches it, and nothing of what it sends for the
connection does. -/
def RequestSurvives (request : Request) (identity : Option Identity)
    (clientIp visitorId : Option String) (fresh : String) : Prop :=
  let received := request.headers.lines
  let forwarded := (buildForwardHeaders request identity clientIp visitorId fresh).entries
  (∀ name, belongsToHop received name = false → isAsserted clientIp name = false →
    AgreeUnder received forwarded name) ∧
  ∀ line ∈ forwarded, belongsToHop received line.1 = true →
    line ∈ gatewayLines request identity clientIp visitorId fresh

/-- The same of an answer, to which the gateway adds nothing. -/
def ResponseSurvives (raw : List (String × String)) : Prop :=
  (∀ name, belongsToHop raw name = false → AgreeUnder raw (forwardedHeaders raw) name) ∧
  ∀ line ∈ forwardedHeaders raw, belongsToHop raw line.1 = false

theorem getLast?_toList_eq_iff {values : List String} :
    values.getLast?.toList = values ↔ values.length ≤ 1 := by
  constructor
  · intro h
    rw [← h]
    cases values.getLast? <;> simp
  · intro h
    match values, h with
    | [], _ => rfl
    | [value], _ => rfl

/-- Nothing of a message's own connection is among what the gateway forwards of a request,
just if every line that the message nominates is dropped for another reason. -/
theorem hop_lines_iff {request : Request} {identity : Option Identity}
    {clientIp visitorId : Option String} {fresh : String} :
    (∀ line ∈ (buildForwardHeaders request identity clientIp visitorId fresh).entries,
      belongsToHop request.headers.lines line.1 = true →
        line ∈ gatewayLines request identity clientIp visitorId fresh) ↔
      ∀ line ∈ request.headers.lines, isNominated request.headers.lines line.1 = true →
        isHopByHop line.1 = true ∨ isIdentityHeader line.1 = true := by
  constructor
  · intro h line hline hnominated
    cases hhop : isHopByHop line.1 with
    | true => exact .inl rfl
    | false =>
      cases hidentity : isIdentityHeader line.1 with
      | true => exact .inr rfl
      | false =>
        -- the nominated line passes, under the lower-case name it has
        have hkept := mem_keptHeaders_iff.2 ⟨List.mem_map_of_mem hline, hhop, hidentity⟩
        obtain ⟨entry, hentry, hname⟩ := List.mem_map.1 hkept
        have hforwarded :
            entry ∈ (buildForwardHeaders request identity clientIp visitorId fresh).entries := by
          rw [entries_buildForwardHeaders]
          exact List.mem_append_left _ hentry
        have hbelongs : belongsToHop request.headers.lines entry.1 = true := by
          unfold belongsToHop
          rw [hname, hnominated, Bool.or_true]
        have howned := h entry hforwarded hbelongs
        have hcapital := gatewayLines_names.2 entry.1 (List.mem_map_of_mem howned)
        exact absurd (hname ▸ request.headers.lowered line hline) hcapital
  · intro h entry hentry hbelongs
    rw [entries_buildForwardHeaders] at hentry
    rcases List.mem_append.1 hentry with hkept | howned
    · obtain ⟨hmem, hhop, hidentity⟩ := mem_keptHeaders_iff.1 (List.mem_map_of_mem hkept)
      obtain ⟨line, hline, hname⟩ := List.mem_map.1 hmem
      unfold belongsToHop at hbelongs
      rw [hhop, Bool.false_or, ← hname] at hbelongs
      have hdropped := h line hline hbelongs
      rw [hname, hhop, hidentity] at hdropped
      simp at hdropped
    · exact howned

/-- Between a service and a client all values of a name outside the hop-by-hop set
survive. -/
theorem valuesUnder_forwardedHeaders {raw : List (String × String)} {name : String}
    (hhop : isHopByHop name = false) :
    valuesUnder (forwardedHeaders raw) name = valuesUnder raw name := by
  unfold valuesUnder forwardedHeaders
  rw [List.filter_filter]
  refine congrArg (List.map Prod.snd) (List.filter_congr fun line _ => ?_)
  by_cases hsame : lower line.1 = lower name
  · have hline : isHopByHop line.1 = false := by
      unfold isHopByHop at hhop ⊢
      rw [hsame, hhop]
    simp [hsame, hline]
  · simp [hsame]

/-- The header lines of a request survive the gateway just if the client repeats none that
are for the service, and nominates no line beyond those that the gateway drops anyway.
Those of an answer do just if the service nominates no line beyond the hop-by-hop set. -/
theorem headers_survive_iff (request : Request) (identity : Option Identity)
    (clientIp visitorId : Option String) (fresh : String) (raw : List (String × String)) :
    (RequestSurvives request identity clientIp visitorId fresh ↔
      (∀ name, belongsToHop request.headers.lines name = false →
        isAsserted clientIp name = false → (request.headers.values name).length ≤ 1) ∧
      ∀ line ∈ request.headers.lines, isNominated request.headers.lines line.1 = true →
        isHopByHop line.1 = true ∨ isIdentityHeader line.1 = true) ∧
    (ResponseSurvives raw ↔
      ∀ line ∈ raw, isNominated raw line.1 = true → isHopByHop line.1 = true) := by
  constructor
  · refine and_congr (forall_congr' fun name => forall₂_congr fun hbelongs hasserted => ?_)
      hop_lines_iff
    have hhop : isHopByHop name = false := by
      unfold belongsToHop at hbelongs
      exact (Bool.or_eq_false_iff.1 hbelongs).1
    unfold AgreeUnder
    rw [valuesUnder_forwarded hhop hasserted, valuesUnder_lines, getLast?_toList_eq_iff]
  · constructor
    · intro h line hline hnominated
      by_contra hhop
      have hforwarded : line ∈ forwardedHeaders raw :=
        List.mem_filter.2 ⟨hline, by simpa using hhop⟩
      have hbelongs := h.2 line hforwarded
      unfold belongsToHop at hbelongs
      rw [hnominated, Bool.or_true] at hbelongs
      exact Bool.false_ne_true hbelongs.symm
    · intro h
      constructor
      · intro name hbelongs
        unfold belongsToHop at hbelongs
        exact valuesUnder_forwardedHeaders (Bool.or_eq_false_iff.1 hbelongs).1
      · intro line hline
        obtain ⟨hreceived, hhop⟩ := List.mem_filter.1 hline
        have hplain : isHopByHop line.1 = false := by simpa using hhop
        unfold belongsToHop
        rw [hplain, Bool.false_or]
        by_contra hnominated
        have hdropped := h line hreceived (by simpa using hnominated)
        rw [hplain] at hdropped
        exact Bool.false_ne_true hdropped

/-- A client that accepts two formats, on two lines, and nominates its trace for the
connection: the service gets one of the formats, and the trace.  The client gets a trace
that the service nominates. -/
theorem headers_do_not_survive :
    let sent := [("Accept", "text/html"), ("Accept", "image/png"), ("Connection", "X-Trace"),
      ("X-Trace", "on")]
    ¬ RequestSurvives (Sample.request "10.0.0.9" sent) none (some "10.0.0.9") none "fresh" ∧
      ¬ ResponseSurvives sent := by
  intro sent
  constructor
  · intro h
    have hagree : valuesUnder (buildForwardHeaders (Sample.request "10.0.0.9" sent) none
          (some "10.0.0.9") none "fresh").entries "accept" =
        valuesUnder (Sample.request "10.0.0.9" sent).headers.lines "accept" :=
      h.1 "accept" (by decide +kernel) (by decide +kernel)
    exact absurd hagree (by decide +kernel)
  · intro h
    have hdropped := h.2 ("X-Trace", "on") (by decide +kernel)
    exact absurd hdropped (by decide +kernel)

/-! ## Lines of the gateway -/

/-- The service hears of the protocol, of the id of the request and of the addresses it came
through once, from the gateway. -/
def AssertedOnce (request : Request) (identity : Option Identity)
    (clientIp visitorId : Option String) (fresh : String) : Prop :=
  let forwarded := (buildForwardHeaders request identity clientIp visitorId fresh).entries
  valuesUnder forwarded "X-Forwarded-Proto" = [request.scheme] ∧
  valuesUnder forwarded requestIdHeader = [requestId request fresh] ∧
  ∀ ip, truthy clientIp = some ip →
    valuesUnder forwarded "X-Forwarded-For" =
      [forwardedFor (some (", ".intercalate (request.headers.values "X-Forwarded-For"))) ip]

section

variable {request : Request} {identity : Option Identity} {clientIp visitorId : Option String}
  {fresh : String}

/-- The gateway has one line for the protocol and one for the id of the request, and one
for the addresses if it knows the last of them. -/
theorem valuesUnder_gatewayLines :
    valuesUnder (gatewayLines request identity clientIp visitorId fresh) "X-Forwarded-Proto" =
        [request.scheme] ∧
      valuesUnder (gatewayLines request identity clientIp visitorId fresh) requestIdHeader =
        [requestId request fresh] ∧
      valuesUnder (gatewayLines request identity clientIp visitorId fresh) "X-Forwarded-For" =
        (truthy clientIp).toList.map (forwardedFor (request.headers.get? "x-forwarded-for")) := by
  have hlower : lower "X-Forwarded-Proto" = "x-forwarded-proto" ∧
      lower requestIdHeader = "x-request-id" ∧ lower "X-Forwarded-For" = "x-forwarded-for" := by
    decide +kernel
  obtain ⟨hproto, hid, hfor⟩ := hlower
  have hothers : ∀ name ∈ gatewayNames, lower name ≠ lower "X-Forwarded-Proto" ∧
      lower name ≠ lower requestIdHeader := by
    decide +kernel
  have hpeople : ∀ name ∈ identityNames ++ ["X-Visitor-Id"],
      lower name ≠ lower "X-Forwarded-For" := by
    decide +kernel
  have hasserted {name : String} (h : ∀ other ∈ gatewayNames, lower other ≠ lower name) :
      valuesUnder (assertedHeaders request identity clientIp visitorId) name = [] :=
    valuesUnder_eq_nil fun line hline => h line.1 (mem_assertedHeaders hline)
  have hidentity : valuesUnder (identityLines identity) "X-Forwarded-For" = [] :=
    valuesUnder_eq_nil fun line hline =>
      hpeople line.1 (List.mem_append_left _ (identityLines_name hline))
  have hvisitor : valuesUnder (visitorLines visitorId) "X-Forwarded-For" = [] := by
    refine valuesUnder_eq_nil fun line hline => ?_
    rw [visitorLines_name hline]
    exact hpeople _ (by simp)
  have hforwarded : valuesUnder (forwardedForLines request clientIp) "X-Forwarded-For" =
      (truthy clientIp).toList.map (forwardedFor (request.headers.get? "x-forwarded-for")) := by
    unfold valuesUnder forwardedForLines
    cases truthy clientIp <;> simp
  unfold gatewayLines
  refine ⟨?_, ?_, ?_⟩
  · rw [valuesUnder_append, hasserted fun other hother => (hothers other hother).1]
    simp [valuesUnder, hproto, hid]
  · rw [valuesUnder_append, hasserted fun other hother => (hothers other hother).2]
    simp [valuesUnder, hproto, hid]
  · have hrest : valuesUnder [("X-Forwarded-Proto", request.scheme),
        (requestIdHeader, requestId request fresh)] "X-Forwarded-For" = [] := by
      simp [valuesUnder, hproto, hid, hfor]
    rw [valuesUnder_append, hrest, List.append_nil, assertedHeaders, valuesUnder_append,
      valuesUnder_append, hidentity, hvisitor, hforwarded]
    rfl

end

/-- Whatever the client sends, the service hears of the protocol, of the id of the request
and of the addresses it came through once and from the gateway, just if the client sends
no lines under these names. -/
theorem asserted_once_iff (request : Request) (identity : Option Identity)
    (clientIp visitorId : Option String) (fresh : String) :
    AssertedOnce request identity clientIp visitorId fresh ↔
      request.headers.values "X-Forwarded-Proto" = [] ∧
      request.headers.values requestIdHeader = [] ∧
      ((truthy clientIp).isSome = true → request.headers.values "X-Forwarded-For" = []) := by
  obtain ⟨hproto, hid, hfor⟩ := @valuesUnder_gatewayLines request identity clientIp visitorId fresh
  have hplain : ∀ name ∈ ["X-Forwarded-Proto", requestIdHeader, "X-Forwarded-For"],
      isIdentityHeader name = false ∧ isHopByHop name = false := by
    decide +kernel
  have hboth {name : String}
      (hname : name ∈ ["X-Forwarded-Proto", requestIdHeader, "X-Forwarded-For"]) :
      valuesUnder (buildForwardHeaders request identity clientIp visitorId fresh).entries name =
        (request.headers.values name).getLast?.toList ++
          valuesUnder (gatewayLines request identity clientIp visitorId fresh) name := by
    obtain ⟨hidentity, hhop⟩ := hplain name hname
    rw [entries_buildForwardHeaders, valuesUnder_append, valuesUnder_keptHeaders hidentity hhop]
  -- the client's line and the gateway's are different ones
  have hone {values : List String} {value other : String} :
      values.getLast?.toList ++ [value] = [other] ↔ values = [] ∧ value = other := by
    cases hlast : values.getLast? with
    | none => simp [List.getLast?_eq_none_iff.1 hlast]
    | some last =>
      have hne : values ≠ [] := fun hnil => by simp [hnil] at hlast
      simp [hne]
  unfold AssertedOnce
  simp only [hboth (List.mem_cons_self), hboth (List.mem_cons_of_mem _ List.mem_cons_self),
    hboth (List.mem_cons_of_mem _ (List.mem_cons_of_mem _ List.mem_cons_self)), hproto, hid, hfor,
    hone, and_true]
  refine and_congr_right fun _ => and_congr_right fun _ => ?_
  cases hip : truthy clientIp with
  | none => simp
  | some ip =>
    -- with no line of the client's, the list that the gateway extends is empty
    have hempty (hnil : request.headers.values "X-Forwarded-For" = []) :
        forwardedFor (request.headers.get? "x-forwarded-for") ip =
          forwardedFor (some (", ".intercalate (request.headers.values "X-Forwarded-For"))) ip := by
      have hsame : request.headers.values "x-forwarded-for" =
          request.headers.values "X-Forwarded-For" := by
        unfold Headers.values
        rw [show lower "x-forwarded-for" = lower "X-Forwarded-For" by decide +kernel]
      unfold Headers.get?
      rw [hsame, hnil]
      rfl
    constructor
    · intro h _
      exact (hone.1 (h ip rfl)).1
    · rintro h other ⟨⟩
      exact hone.2 ⟨h rfl, hempty (h rfl)⟩

/-- A client that names its request: the service is told the id twice. -/
theorem asserted_twice :
    ¬ AssertedOnce (Sample.request "10.0.0.9" [("X-Request-Id", "trace-me")]) none
      (some "10.0.0.9") none "fresh" := by
  intro h
  exact absurd h.2.1 (by decide +kernel)

end VideoSite.Gateway
