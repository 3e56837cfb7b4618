import Oxiproxy.Node.HttpRequest

/-!
# What a forwarded request says

A request that is forwarded presents the host by which its route was chosen, and
the address from which it came.  It asks for another protocol only if the client
did; that this is a websocket is checked for the first of its values.
-/

namespace Oxiproxy.Node

open HeaderMap

/-! ## Upgrades -/

/-- A value that is the name of the protocol has no other token. -/
theorem tokens_websocket {value : HeaderValue} {text : String} (htext : value.toStr = some text)
    (hlower : toAsciiLowercase text = "websocket") : value.tokens = ["websocket"] := by
  obtain ⟨rfl, -⟩ := HeaderValue.toStr_eq_some htext
  have hchars : value.chars.map Char.toLower = "websocket".toList := by
    rw [← hlower, toAsciiLowercase, String.toList_ofList, String.toList_ofList]
  have hmem : ∀ c ∈ value.chars, c.toLower ∈ "websocket".toList := by
    intro c hc
    rw [← hchars]
    exact List.mem_map_of_mem hc
  have hcomma : ',' ∉ value.chars := fun hc ↦ absurd (hmem ',' hc) (by decide)
  have hspace : ∀ c ∈ value.chars, isOptionalSpace c = false := by
    intro c hc
    by_contra hne
    simp only [isOptionalSpace, Bool.not_eq_false, Bool.or_eq_true, beq_iff_eq] at hne
    rcases hne with rfl | rfl
    · exact absurd (hmem ' ' hc) (by decide)
    · exact absurd (hmem '\t' hc) (by decide)
  have hkeep : ∀ l : List Char, (∀ c ∈ l, isOptionalSpace c = false) →
      l.dropWhile isOptionalSpace = l := by
    intro l hl
    cases l with
    | nil => rfl
    | cons c l => simp [hl c List.mem_cons_self]
  rw [HeaderValue.tokens, splitOn_of_notMem hcomma, List.map_singleton, normalToken,
    hkeep _ hspace, hkeep _ fun c hc ↦ hspace c (List.mem_reverse.mp hc), List.reverse_reverse,
    hchars, String.ofList_toList]

section Upgrade

variable {M : Type} [HeaderMap M]

theorem isUpgrade_iff (headers : M) :
    isUpgrade headers = true ↔
      "upgrade" ∈ connectionNames headers ∧ getAll headers "upgrade" ≠ [] := by
  have hlower : toAsciiLowercase "upgrade" = "upgrade" := by decide +kernel
  simp only [isUpgrade, connectionNames, eqIgnoreAsciiCase, hlower, Bool.and_eq_true,
    List.any_eq_true, List.mem_flatMap, List.mem_map, beq_iff_eq, Bool.not_eq_true',
    List.isEmpty_eq_false_iff]

/-- The client asks for another protocol. -/
structure AsksForUpgrade (headers : M) : Prop where
  present : getAll headers "upgrade" ≠ []
  connection : NamedByConnection headers "upgrade"

/-- Every protocol that the values of `Upgrade` name is the websocket. -/
def OnlyWebsocket (values : List HeaderValue) : Prop :=
  ∀ value ∈ values, ∀ token ∈ value.tokens, token = "" ∨ token = "websocket"

instance (values : List HeaderValue) : Decidable (OnlyWebsocket values) :=
  inferInstanceAs (Decidable (∀ value ∈ values, ∀ token ∈ value.tokens, _))

/-- Only for websockets is an upgrade forwarded, and are the connections joined. -/
structure UpgradesWebsockets (env : HttpEnv) (request : HttpRequest M) (forwarding : Forwarding M) :
    Prop where
  forwarded : getAll forwarding.request.headers "upgrade" ≠ [] →
    AsksForUpgrade request.headers ∧ OnlyWebsocket (getAll forwarding.request.headers "upgrade")
  joined : ∀ send response, httpRequest env request send = .ok (response, true) →
    AsksForUpgrade request.headers ∧ OnlyWebsocket (getAll forwarding.request.headers "upgrade")

variable {env : HttpEnv} {request : HttpRequest M} {forwarding : Forwarding M}

/-- The connections are joined only after a request for an upgrade. -/
theorem upgrade_of_joined {send : Forwarding M → Except String (HttpResponse M)}
    {response : HttpResponse M} (h : httpRequest env request send = .ok (response, true))
    (hforward : forwardRequest env request = .ok forwarding) : forwarding.upgrade = true := by
  simp only [httpRequest, bind_eq_ok, orFail_eq_ok] at h
  obtain ⟨other, hother, answer, -, hrelay⟩ := h
  obtain rfl := Except.ok.inj (hforward.symm.trans hother)
  unfold relayResponse at hrelay
  split_ifs at hrelay with hstatus hupgrade
  · exact hupgrade
  · cases hrelay

/-- A forwarded request for an upgrade is one for a websocket exactly if the
values of `Upgrade` after the first one, which is checked, name no other
protocol. -/
theorem upgrades_websockets_iff [LawfulHeaderMap M] (env : HttpEnv) (request : HttpRequest M)
    (forwarding : Forwarding M) (hforward : forwardRequest env request = .ok forwarding) :
    UpgradesWebsockets env request forwarding ↔
      (isUpgrade request.headers = true →
        OnlyWebsocket (getAll request.headers "upgrade").tail) := by
  obtain ⟨haccept, hupgrade, hrewrite⟩ := forwardRequest_ok hforward
  obtain ⟨⟨host, text, domain, hhost, -⟩, hfirst⟩ := acceptRequest_ok haccept
  have hvalues := (rewriteHeaders_ok hhost.only hrewrite).upgrade_eq
  constructor
  · intro h hasks
    rw [if_pos hasks] at hvalues
    have hpresent := ((isUpgrade_iff request.headers).mp hasks).2
    have honly := (h.forwarded (by rwa [hvalues])).2
    rw [hvalues] at honly
    exact fun value hvalue ↦ honly value (List.mem_of_mem_tail hvalue)
  · intro h
    have hall : isUpgrade request.headers = true →
        AsksForUpgrade request.headers ∧
          OnlyWebsocket (getAll forwarding.request.headers "upgrade") := by
      intro hasks
      obtain ⟨hnames, hpresent⟩ := (isUpgrade_iff request.headers).mp hasks
      obtain ⟨connection, hconnection, -, htoken⟩ := mem_connectionNames.mp hnames
      obtain ⟨first, rest, text, hlist, htext, hlower⟩ := hfirst hasks
      have hrest := h hasks
      rw [hlist] at hrest
      rw [hvalues, if_pos hasks, hlist]
      refine ⟨⟨hpresent, connection, hconnection, htoken⟩, fun value hvalue token htoken ↦ ?_⟩
      rcases List.mem_cons.mp hvalue with rfl | hvalue
      · rw [tokens_websocket htext hlower] at htoken
        exact .inr (List.mem_singleton.mp htoken)
      · exact hrest value hvalue token htoken
    refine ⟨fun hpresent ↦ hall ?_, fun send response hjoined ↦ hall ?_⟩
    · by_contra hasks
      exact hpresent (by rw [hvalues, if_neg hasks])
    · rw [← hupgrade]
      exact upgrade_of_joined hjoined hforward

/-! ## Hosts -/

/-- A forwarded request has one host, that of its URI but for the case of letters,
by which its route was chosen.  Through a tunnel it keeps this host, and to an
upstream it carries the host of the upstream and, whatever the client sent under
these names, its own host, the address of the peer and the scheme. -/
theorem forwarded_identity [LawfulHeaderMap M] (env : HttpEnv) (request : HttpRequest M)
    (forwarding : Forwarding M) (hforward : forwardRequest env request = .ok forwarding) :
    ∃ host text domain, NamesHost env request host text domain ∧
      findRoute env.routes domain = some forwarding.route ∧
      (forwarding.route.upstream = none → getAll forwarding.request.headers "host" = [host]) ∧
      ∀ upstream, forwarding.route.upstream = some upstream →
        DirectHeaders env upstream host forwarding.request.headers := by
  obtain ⟨haccept, -, hrewrite⟩ := forwardRequest_ok hforward
  obtain ⟨⟨host, text, domain, hhost, hroute⟩, -⟩ := acceptRequest_ok haccept
  have hrewritten := rewriteHeaders_ok hhost.only hrewrite
  exact ⟨host, text, domain, hhost, hroute, hrewritten.tunnel, hrewritten.direct⟩

end Upgrade

/-! ## Requests to one listener -/

def visibleValue (text : String) : HeaderValue :=
  (HeaderValue.ofStr text).getD ⟨[], rfl⟩

def tunnelRoute : Route where
  config := {
    proxyId := 1, clientId := "5", name := "web", proxyType := "http", domain := "a.example"
    upstreamUrl := "", userId := none, localIp := "127.0.0.1", localPort := 80
    remotePort := 8080, enabled := true }
  upstream := none

/-- A listener with one route, for a client that is online. -/
def oneRouteEnv : HttpEnv where
  routes := (∅ : AList fun _ : String ↦ Route).insert "a.example" tunnelRoute
  isOnline _ := true
  directIsAllowed _ := .ok true
  peer := "192.0.2.7"
  parseAuthority text := .ok (String.ofList (text.toList.takeWhile (· != ':')))
  parsePath := .ok
  port _ := none

def getRequest (authority : Option String) (headers : HeaderFields) : HttpRequest HeaderFields :=
  ⟨"GET", authority, some "/", headers⟩

/-- A request for an upgrade with the given values. -/
def upgradeRequest (values : List String) : HttpRequest HeaderFields :=
  getRequest none ([("host", visibleValue "a.example"), ("connection", visibleValue "Upgrade")] ++
    values.map fun value ↦ ("upgrade", visibleValue value))

/-- The request is forwarded with these values under a name. -/
def forwardedValues (request : HttpRequest HeaderFields) (name : String) :
    Option (List HeaderValue) :=
  (forwardRequest oneRouteEnv request).toOption.map fun forwarding ↦
    getAll forwarding.request.headers name

theorem exists_forwarding {request : HttpRequest HeaderFields} {name : String}
    {values : List HeaderValue} (h : forwardedValues request name = some values) :
    ∃ forwarding, forwardRequest oneRouteEnv request = .ok forwarding ∧
      getAll forwarding.request.headers name = values := by
  obtain ⟨forwarding, hforwarding, hvalues⟩ := Option.map_eq_some_iff.mp h
  cases hresult : forwardRequest oneRouteEnv request with
  | error e =>
      rw [hresult] at hforwarding
      cases hforwarding
  | ok other =>
      rw [hresult] at hforwarding
      cases hforwarding
      exact ⟨forwarding, rfl, hvalues⟩

theorem upgrades_websockets_iff_oneValue :
    ∃ forwarding, forwardRequest oneRouteEnv (upgradeRequest ["WebSocket"]) = .ok forwarding ∧
      getAll forwarding.request.headers "upgrade" = [visibleValue "WebSocket"] ∧
        UpgradesWebsockets oneRouteEnv (upgradeRequest ["WebSocket"]) forwarding := by
  obtain ⟨forwarding, hforward, hvalues⟩ : ∃ forwarding,
      forwardRequest oneRouteEnv (upgradeRequest ["WebSocket"]) = .ok forwarding ∧
        getAll forwarding.request.headers "upgrade" = [visibleValue "WebSocket"] :=
    exists_forwarding (by decide +kernel)
  refine ⟨forwarding, hforward, hvalues, ?_⟩
  exact (upgrades_websockets_iff oneRouteEnv _ forwarding hforward).mpr fun _ ↦ by decide +kernel

/-- A second value of `Upgrade` is forwarded unchecked. -/
theorem not_upgrades_websockets_twoValues :
    ∃ forwarding, forwardRequest oneRouteEnv (upgradeRequest ["websocket", "h2c"]) = .ok forwarding ∧
      ¬ UpgradesWebsockets oneRouteEnv (upgradeRequest ["websocket", "h2c"]) forwarding := by
  obtain ⟨forwarding, hforward, hvalues⟩ : ∃ forwarding,
      forwardRequest oneRouteEnv (upgradeRequest ["websocket", "h2c"]) = .ok forwarding ∧
        getAll forwarding.request.headers "upgrade" =
          [visibleValue "websocket", visibleValue "h2c"] :=
    exists_forwarding (by decide +kernel)
  refine ⟨forwarding, hforward, fun h ↦ ?_⟩
  have honly := (h.forwarded (by rw [hvalues]; exact List.cons_ne_nil _ _)).2
  rw [hvalues] at honly
  exact absurd honly (by decide +kernel)

/-- A request whose URI names the host too. -/
def absoluteRequest (host : String) : HttpRequest HeaderFields :=
  getRequest (some "a.example") [("host", visibleValue host), ("x-forwarded-for", visibleValue "::1")]

theorem forwarded_identity_sameHost :
    ∃ forwarding, forwardRequest oneRouteEnv (absoluteRequest "a.example") = .ok forwarding ∧
      ∃ host text domain, NamesHost oneRouteEnv (absoluteRequest "a.example") host text domain ∧
        findRoute oneRouteEnv.routes domain = some forwarding.route ∧
        (forwarding.route.upstream = none → getAll forwarding.request.headers "host" = [host]) ∧
        ∀ upstream, forwarding.route.upstream = some upstream →
          DirectHeaders oneRouteEnv upstream host forwarding.request.headers := by
  obtain ⟨forwarding, hforward, -⟩ : ∃ forwarding,
      forwardRequest oneRouteEnv (absoluteRequest "a.example") = .ok forwarding ∧
        getAll forwarding.request.headers "host" = [visibleValue "a.example"] :=
    exists_forwarding (by decide +kernel)
  exact ⟨forwarding, hforward, forwarded_identity oneRouteEnv _ forwarding hforward⟩

/-- The host of a forwarded request may differ from its URI in the case of letters. -/
theorem not_same_host_upperCase :
    ∃ forwarding value, forwardRequest oneRouteEnv (absoluteRequest "A.example") = .ok forwarding ∧
      getAll (absoluteRequest "A.example").headers "host" = [value] ∧
        value.toStr ≠ (absoluteRequest "A.example").authority := by
  obtain ⟨forwarding, hforward, -⟩ : ∃ forwarding,
      forwardRequest oneRouteEnv (absoluteRequest "A.example") = .ok forwarding ∧
        getAll forwarding.request.headers "host" = [visibleValue "A.example"] :=
    exists_forwarding (by decide +kernel)
  exact ⟨forwarding, visibleValue "A.example", hforward, by decide +kernel, by decide +kernel⟩

end Oxiproxy.Node
