import Oxiproxy.Node.HttpHeaders
import Oxiproxy.Node.Listeners

/-!
# Requests of a shared HTTP listener

The route of a request is found by its `Host`.  The node rewrites the headers and
sends the request on, over a tunnel or to the upstream of a direct proxy; after a
switch of protocols it copies bytes between the two connections.
-/

namespace Oxiproxy.Node

open HeaderMap

structure HttpRequest (M : Type) where
  method : String
  /-- The authority of the URI, if the request names one. -/
  authority : Option String
  pathAndQuery : Option String
  headers : M

structure HttpResponse (M : Type) where
  status : ℕ
  headers : M

/-- What becomes of a request that is not forwarded, or whose forwarding fails;
an error is answered with the status 502. -/
inductive Refusal
  | status (code : ℕ)
  | failed (error : String)
  deriving DecidableEq

/-- What the node knows and asks while it handles a request, and the parsers of
third-party crates. -/
structure HttpEnv where
  routes : AList fun _ : String ↦ Route
  isOnline : String → Bool
  directIsAllowed : Int → Except String Bool
  /-- The address of the peer. -/
  peer : String
  /-- The host of an authority. -/
  parseAuthority : String → Except String String
  parsePath : String → Except String String
  /-- The port of a URL, unless it is the one of its scheme. -/
  port : Url → Option UInt16

def eqIgnoreAsciiCase (a b : String) : Bool := toAsciiLowercase a == toAsciiLowercase b

def closeValue : HeaderValue := ⟨[99, 108, 111, 115, 101], by decide⟩

def httpValue : HeaderValue := ⟨[104, 116, 116, 112], by decide⟩

def toStrOrError (value : HeaderValue) : Except String String :=
  match value.toStr with
  | some text => .ok text
  | none => .error "failed to convert header to a str"

def parseValue (text : String) : Except Refusal HeaderValue :=
  match HeaderValue.ofStr text with
  | some value => .ok value
  | none => .error (.failed "failed to parse header value")

/-- An error that is answered with 502. -/
def orFail {α : Type} : Except String α → Except Refusal α
  | .ok a => .ok a
  | .error e => .error (.failed e)

def allow (condition : Bool) (code : ℕ) : Except Refusal Unit :=
  if condition then .ok () else .error (.status code)

section Handle

variable {M : Type} [HeaderMap M] (env : HttpEnv) (request : HttpRequest M)

def requestDomain : Except String String :=
  match getAll request.headers "host" with
  | [] => .error "缺少 Host"
  | value :: rest => do
      let host ← toStrOrError value
      ensure rest.isEmpty "重复 Host"
      let authority ← env.parseAuthority host
      ensure (!host.toList.contains '@') "无效 Host"
      let domain ← normalizeDomain authority
      ensure (request.authority.all fun uriAuthority ↦ eqIgnoreAsciiCase uriAuthority host)
        "请求 URI 与 Host 不一致"
      return domain

/-- The request asks for another protocol. -/
def isUpgrade (headers : M) : Bool :=
  ((getAll headers "connection").filterMap HeaderValue.toStr).any (fun value ↦
      (splitOn ',' value.toList).any fun token ↦
        eqIgnoreAsciiCase (trim (String.ofList token)) "upgrade") &&
    !(getAll headers "upgrade").isEmpty

/-- A direct proxy has to have traffic left. -/
def checkDirect (route : Route) : Except Refusal Unit :=
  if route.upstream.isNone then allow (env.isOnline route.config.clientId) 503
  else
    match env.directIsAllowed route.config.proxyId with
    | .ok allowed => allow allowed 403
    | .error _ => .error (.status 503)

/-- The route of a request that is to be forwarded. -/
def acceptRequest : Except Refusal Route :=
  match requestDomain env request with
  | .error _ => .error (.status 400)
  | .ok domain =>
      if request.method = "CONNECT" then .error (.status 405)
      else
        match findRoute env.routes domain with
        | none => .error (.status 404)
        | some route => do
            checkDirect env route
            -- of several values the first one is looked at
            let upgrade := (getAll request.headers "upgrade").head?.bind HeaderValue.toStr
            allow (!isUpgrade request.headers || eqIgnoreAsciiCase (upgrade.getD "") "websocket") 400
            return route

/-- The headers for the upstream of a direct proxy. -/
def directHeaders (upstream : Url) (host : HeaderValue) (headers : M) : Except Refusal M := do
  let hostStr ← orFail (upstream.hostStr.elim (.error "目标缺少主机") .ok)
  let authority ← parseValue (hostStr ++ (env.port upstream).elim "" fun port ↦ ":" ++ toString port)
  let headers := insert headers "host" authority
  let headers := insert headers "x-forwarded-host" host
  let peer ← parseValue env.peer
  let headers := insert headers "x-forwarded-for" peer
  let headers := insert headers "x-forwarded-proto" httpValue
  return remove headers "forwarded"

def rewriteHeaders (route : Route) (upgrade : Bool) (headers : M) : Except Refusal M :=
  match getAll headers "host" with
  | [] => .error (.failed "缺少 Host")
  | host :: _ => do
      let headers := insert (stripHopHeaders headers upgrade) "host" host
      let headers ← route.upstream.elim (.ok headers) fun upstream ↦
        directHeaders env upstream host headers
      return if upgrade then headers else insert headers "connection" closeValue

/-- A request on its way to the upstream. -/
structure Forwarding (M : Type) where
  route : Route
  upgrade : Bool
  request : HttpRequest M

def forwardRequest : Except Refusal (Forwarding M) := do
  let route ← acceptRequest env request
  let upgrade := isUpgrade request.headers
  let headers ← rewriteHeaders env route upgrade request.headers
  let path ← orFail (env.parsePath (request.pathAndQuery.getD "/"))
  return ⟨route, upgrade, ⟨request.method, none, some path, headers⟩⟩

/-- The answer for the client, and whether the connections are joined. -/
def relayResponse (upgrade : Bool) (response : HttpResponse M) :
    Except Refusal (HttpResponse M × Bool) :=
  if response.status = 101 then
    if upgrade then .ok (⟨response.status, stripHopHeaders response.headers true⟩, true)
    else .error (.failed "意外的协议升级")
  else .ok (⟨response.status, stripHopHeaders response.headers false⟩, false)

def httpRequest (send : Forwarding M → Except String (HttpResponse M)) :
    Except Refusal (HttpResponse M × Bool) := do
  let forwarding ← forwardRequest env request
  let response ← orFail (send forwarding)
  relayResponse forwarding.upgrade response

end Handle

/-! ## What a forwarded request has passed -/

theorem orFail_eq_ok {α : Type} {result : Except String α} {a : α} :
    orFail result = .ok a ↔ result = .ok a := by
  cases result <;> simp [orFail]

theorem allow_eq_ok {condition : Bool} {code : ℕ} {u : Unit} :
    allow condition code = .ok u ↔ condition = true := by
  cases condition <;> simp [allow]

theorem toStrOrError_eq_ok {value : HeaderValue} {text : String} :
    toStrOrError value = .ok text ↔ value.toStr = some text := by
  unfold toStrOrError
  split <;> rename_i h <;> simp [h]

theorem parseValue_eq_ok {text : String} {value : HeaderValue} :
    parseValue text = .ok value ↔ HeaderValue.ofStr text = some value := by
  unfold parseValue
  split <;> rename_i h <;> simp [h]

section Spec

variable {M : Type} [HeaderMap M] {env : HttpEnv} {request : HttpRequest M} {headers headers' : M}
  {route : Route} {upgrade : Bool}

/-- The host that a request names, and the domain under which its route is found. -/
structure NamesHost (env : HttpEnv) (request : HttpRequest M) (host : HeaderValue)
    (text domain : String) : Prop where
  only : getAll request.headers "host" = [host]
  text_eq : host.toStr = some text
  noUserinfo : '@' ∉ text.toList
  authority : ∀ uriAuthority ∈ request.authority, eqIgnoreAsciiCase uriAuthority text = true
  domain_eq : ∃ name, env.parseAuthority text = .ok name ∧ normalizeDomain name = .ok domain

theorem requestDomain_ok {domain : String} (h : requestDomain env request = .ok domain) :
    ∃ host text, NamesHost env request host text domain := by
  unfold requestDomain at h
  split at h
  · cases h
  · rename_i host rest hhost
    simp only [bind_eq_ok, toStrOrError_eq_ok, ensure_eq_ok, pure, Except.pure,
      Except.ok.injEq] at h
    obtain ⟨text, htext, -, hrest, name, hname, -, huserinfo, domain, hdomain, -, hauthority, rfl⟩ := h
    rw [List.isEmpty_iff.mp hrest] at hhost
    refine ⟨host, text, hhost, htext, by simpa using huserinfo, fun uriAuthority huri ↦ ?_,
      name, hname, hdomain⟩
    rw [Option.mem_def.mp huri] at hauthority
    exact hauthority

/-- A request that is accepted has a route, and its first `Upgrade` value, if it
asks for another protocol, is that of a websocket. -/
theorem acceptRequest_ok (h : acceptRequest env request = .ok route) :
    (∃ host text domain, NamesHost env request host text domain ∧
      findRoute env.routes domain = some route) ∧
      (isUpgrade request.headers = true → ∃ value rest text,
        getAll request.headers "upgrade" = value :: rest ∧ value.toStr = some text ∧
          toAsciiLowercase text = "websocket") := by
  unfold acceptRequest at h
  split at h
  · cases h
  · rename_i domain hdomain
    split_ifs at h
    split at h
    · cases h
    · rename_i found hfound
      simp only [bind_eq_ok, allow_eq_ok, pure, Except.pure, Except.ok.injEq] at h
      obtain ⟨-, -, -, hwebsocket, rfl⟩ := h
      obtain ⟨host, text, hhost⟩ := requestDomain_ok hdomain
      refine ⟨⟨host, text, domain, hhost, hfound⟩, fun hupgrade ↦ ?_⟩
      have hlower : toAsciiLowercase "websocket" = "websocket" := by decide +kernel
      have hempty : toAsciiLowercase "" ≠ "websocket" := by decide +kernel
      simp only [hupgrade, Bool.not_true, Bool.false_or, eqIgnoreAsciiCase, hlower,
        beq_iff_eq] at hwebsocket
      cases hvalues : getAll request.headers "upgrade" with
      | nil =>
          rw [hvalues] at hwebsocket
          exact (hempty hwebsocket).elim
      | cons value rest =>
          cases htext : value.toStr with
          | none =>
              simp only [hvalues, List.head?_cons, Option.bind_some, htext] at hwebsocket
              exact (hempty hwebsocket).elim
          | some text =>
              simp only [hvalues, List.head?_cons, Option.bind_some, htext,
                Option.getD_some] at hwebsocket
              exact ⟨value, rest, text, rfl, htext, hwebsocket⟩

theorem forwardRequest_ok {forwarding : Forwarding M}
    (h : forwardRequest env request = .ok forwarding) :
    acceptRequest env request = .ok forwarding.route ∧
      forwarding.upgrade = isUpgrade request.headers ∧
      rewriteHeaders env forwarding.route (isUpgrade request.headers) request.headers =
        .ok forwarding.request.headers := by
  simp only [forwardRequest, bind_eq_ok, orFail_eq_ok, pure, Except.pure, Except.ok.injEq] at h
  obtain ⟨route, hroute, headers, hheaders, path, -, rfl⟩ := h
  exact ⟨hroute, rfl, hheaders⟩

variable [LawfulHeaderMap M]

open LawfulHeaderMap

/-- What a request through the upstream of a direct proxy carries. -/
structure DirectHeaders (env : HttpEnv) (upstream : Url) (host : HeaderValue) (headers : M) :
    Prop where
  authority : ∃ hostStr authority, upstream.hostStr = some hostStr ∧
    HeaderValue.ofStr (hostStr ++ (env.port upstream).elim "" fun port ↦ ":" ++ toString port) =
      some authority ∧ getAll headers "host" = [authority]
  forwardedHost : getAll headers "x-forwarded-host" = [host]
  forwardedFor : ∃ peer, HeaderValue.ofStr env.peer = some peer ∧
    getAll headers "x-forwarded-for" = [peer]
  forwardedProto : getAll headers "x-forwarded-proto" = [httpValue]
  forwarded : getAll headers "forwarded" = []

theorem directHeaders_ok {upstream : Url} {host : HeaderValue}
    (h : directHeaders env upstream host headers = .ok headers') :
    DirectHeaders env upstream host headers' ∧
      getAll headers' "upgrade" = getAll headers "upgrade" := by
  simp only [directHeaders, bind_eq_ok, orFail_eq_ok, parseValue_eq_ok, pure, Except.pure,
    Except.ok.injEq] at h
  obtain ⟨hostStr, hhostStr, authority, hauthority, peer, hpeer, rfl⟩ := h
  have hsome : upstream.hostStr = some hostStr := by
    cases hcases : upstream.hostStr with
    | none =>
        rw [hcases] at hhostStr
        cases hhostStr
    | some text =>
        rw [hcases] at hhostStr
        cases hhostStr
        rfl
  refine ⟨⟨⟨hostStr, authority, hsome, hauthority, ?_⟩, ?_, ⟨peer, hpeer, ?_⟩, ?_, ?_⟩, ?_⟩ <;>
    simp [getAll_remove, getAll_insert]

/-- The headers of a forwarded request. -/
structure Rewritten (env : HttpEnv) (route : Route) (upgrade : Bool) (host : HeaderValue)
    (headers headers' : M) : Prop where
  upgrade_eq : getAll headers' "upgrade" = if upgrade = true then getAll headers "upgrade" else []
  tunnel : route.upstream = none → getAll headers' "host" = [host]
  direct : ∀ upstream, route.upstream = some upstream → DirectHeaders env upstream host headers'

theorem DirectHeaders.insert_connection {upstream : Url} {host value : HeaderValue}
    (h : DirectHeaders env upstream host headers) :
    DirectHeaders env upstream host (insert headers "connection" value) := by
  obtain ⟨⟨hostStr, authority, hhostStr, hauthority, hhost⟩, hforwardedHost,
    ⟨peer, hpeer, hforwardedFor⟩, hproto, hforwarded⟩ := h
  refine ⟨⟨hostStr, authority, hhostStr, hauthority, ?_⟩, ?_, ⟨peer, hpeer, ?_⟩, ?_, ?_⟩ <;>
    simp [getAll_insert, *]

theorem Rewritten.insert_connection {host value : HeaderValue}
    (h : Rewritten env route upgrade host headers headers') :
    Rewritten env route upgrade host headers (insert headers' "connection" value) where
  upgrade_eq := by
    rw [getAll_insert, if_neg (by decide)]
    exact h.upgrade_eq
  tunnel hnone := by
    rw [getAll_insert, if_neg (by decide)]
    exact h.tunnel hnone
  direct upstream hupstream := (h.direct upstream hupstream).insert_connection

theorem rewriteHeaders_ok {host : HeaderValue} (hhost : getAll headers "host" = [host])
    (h : rewriteHeaders env route upgrade headers = .ok headers') :
    Rewritten env route upgrade host headers headers' := by
  simp only [rewriteHeaders, hhost, bind_eq_ok, pure, Except.pure, Except.ok.injEq] at h
  obtain ⟨inner, hinner, rfl⟩ := h
  have hstrip : getAll (insert (stripHopHeaders headers upgrade) "host" host) "upgrade" =
      if upgrade = true then getAll headers "upgrade" else [] := by
    have hhop : "upgrade" ∈ hopHeaders := by decide
    rw [getAll_insert, if_neg (by decide), getAll_stripHopHeaders]
    cases upgrade <;> simp [hhop]
  have hrewritten : Rewritten env route upgrade host headers inner := by
    cases hupstream : route.upstream with
    | none =>
        rw [hupstream] at hinner
        cases hinner
        refine ⟨hstrip, fun _ ↦ ?_, fun upstream hsome ↦ ?_⟩
        · rw [getAll_insert, if_pos rfl]
        · rw [hupstream] at hsome
          cases hsome
    | some upstream =>
        rw [hupstream] at hinner
        obtain ⟨hdirect, hup⟩ := directHeaders_ok hinner
        refine ⟨hup.trans hstrip, fun hnone ↦ ?_, fun other hsome ↦ ?_⟩
        · rw [hupstream] at hnone
          cases hnone
        · rw [hupstream] at hsome
          cases hsome
          exact hdirect
  split_ifs
  · exact hrewritten
  · exact hrewritten.insert_connection

end Spec

end Oxiproxy.Node
