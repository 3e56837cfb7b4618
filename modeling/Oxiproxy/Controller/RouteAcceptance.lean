import Oxiproxy.Controller.RouteTrigger
import Oxiproxy.Node.Listeners

/-!
# Routes the controller accepts

The controller compares the routes of a node pairwise, in normal form; the node
compares each new route with the listener of its port.  What the one accepts the
other starts, in any order and with the same result.
-/

namespace Oxiproxy.Controller

open Oxiproxy.Node

/-- A row of an enabled domain proxy as the controller writes it; `render` turns
a parsed upstream back into text. -/
structure AcceptedRoute (parse : UrlParser) (render : Url → String) (p : Proxy) : Prop where
  enabled : p.enabled = true
  kind : p.proxyType = "http" ∨ p.proxyType = "https"
  domain : ∃ raw, validateRoute p.proxyType raw = .ok p.domain
  upstream : (p.upstreamUrl = "" ∧ ∃ client, p.clientId = some client ∧ client ≠ "") ∨
    (p.clientId = none ∧ p.upstreamUrl ≠ "" ∧
      ∃ raw url, parseUpstream parse p.proxyType raw = .ok url ∧ p.upstreamUrl = render url)

/-- Start the proxies one after another; the first failure ends it. -/
def startEach (parse : UrlParser) (binds : Binds) :
    ProxyListenerManager → List Proxy → Except String ProxyListenerManager
  | m, [] => .ok m
  | m, p :: ps =>
      match m.startClientProxiesFromConfigs parse binds p.config.clientId [p.config] with
      | (m, .ok ()) => startEach parse binds m ps
      | (_, .error e) => .error e

/-- The route chosen for a host name on a port. -/
def routeFor (m : ProxyListenerManager) (port : UInt16) (host : String) : Option Route :=
  (m.domains.lookup port).bind fun listener ↦ findRoute listener.routes host

/-- The route a node keeps for a proxy. -/
def routeOf (parse : UrlParser) (p : Proxy) : Route :=
  ⟨p.config, (routeUpstream parse p.config).toOption.join⟩

/-- The listeners serve exactly the routes of the proxies. -/
structure ServesRoutes (parse : UrlParser) (ps : List Proxy) (m : ProxyListenerManager) :
    Prop where
  tasks : ∀ client, m.clientListeners client = ∅
  closed : ∀ port, m.domains.lookup port = none → ∀ p ∈ ps, p.remotePort ≠ port
  used : ∀ port listener, m.domains.lookup port = some listener → ∃ p ∈ ps, p.remotePort = port
  kind : ∀ port listener, m.domains.lookup port = some listener →
    ∀ p ∈ ps, p.remotePort = port → listener.kind = p.proxyType
  routes : ∀ port listener, m.domains.lookup port = some listener → ∀ domain route,
    listener.routes.lookup domain = some route ↔
      ∃ p ∈ ps, p.remotePort = port ∧ p.domain = domain ∧ route = routeOf parse p

/-- The proxy's port has its route under its domain. -/
def IsServed (parse : UrlParser) (m : ProxyListenerManager) (p : Proxy) : Prop :=
  ∃ listener, m.domains.lookup p.remotePort = some listener ∧ listener.kind = p.proxyType ∧
    listener.routes.lookup p.domain = some (routeOf parse p)

section Start

variable {parse : UrlParser} {render : Url → String} {binds : Binds} {p : Proxy}
  {ps : List Proxy} {m : ProxyListenerManager}

theorem ServesRoutes.new : ServesRoutes parse [] .new where
  tasks _ := rfl
  closed _ _ p hp := (List.not_mem_nil hp).elim
  used _ _ h := by simp [ProxyListenerManager.new] at h
  kind _ _ h := by simp [ProxyListenerManager.new] at h
  routes _ _ h := by simp [ProxyListenerManager.new] at h

theorem AcceptedRoute.normalizePattern_domain (hp : AcceptedRoute parse render p) :
    normalizePattern p.domain = .ok p.domain := by
  obtain ⟨raw, hraw⟩ := hp.domain
  rw [validateRoute, if_pos hp.kind] at hraw
  exact normalizePattern_idempotent hraw

theorem AcceptedRoute.routeUpstream_eq (hp : AcceptedRoute parse render p)
    (hreparse : ∀ kind value url, parseUpstream parse kind value = .ok url →
      ∃ url', parseUpstream parse kind (render url) = .ok url') :
    routeUpstream parse p.config = .ok (routeOf parse p).upstream := by
  have hok : ∃ upstream, routeUpstream parse p.config = .ok upstream := by
    rcases hp.upstream with ⟨hempty, client, hclient, hne⟩ | ⟨hclient, hne, raw, url, hurl, hrender⟩
    · refine ⟨none, ?_⟩
      simp [routeUpstream, Proxy.config, hempty, hclient, hne, ensure]
    · obtain ⟨url', hurl'⟩ := hreparse _ _ _ hurl
      refine ⟨some url', ?_⟩
      rw [← hrender] at hurl'
      simp [routeUpstream, Proxy.config, hclient, hne, ensure, hurl']
      rfl
  obtain ⟨upstream, hupstream⟩ := hok
  rw [routeOf, hupstream]
  rfl

theorem domainListeners_start_new (hp : AcceptedRoute parse render p) (domains : DomainListeners)
    (hupstream : routeUpstream parse p.config = .ok (routeOf parse p).upstream)
    (hbinds : ∀ protocol port, binds protocol port = .ok ())
    (hnone : domains.lookup p.remotePort = none) :
    domains.start parse binds p.config =
      .ok (domains.insert p.remotePort
        ⟨p.proxyType, (∅ : AList fun _ : String ↦ Route).insert p.domain (routeOf parse p)⟩) := by
  have hdomain : normalizePattern p.config.domain = .ok p.config.domain := hp.normalizePattern_domain
  have hport : domains.lookup p.config.remotePort = none := hnone
  simp only [DomainListeners.start, hdomain, hupstream, hport, hbinds, bind, Except.bind]
  rfl

theorem domainListeners_start_shared (hp : AcceptedRoute parse render p) (domains : DomainListeners)
    (hupstream : routeUpstream parse p.config = .ok (routeOf parse p).upstream)
    {listener : Listener} (hsome : domains.lookup p.remotePort = some listener)
    (hkind : listener.kind = p.proxyType) (hfree : listener.routes.lookup p.domain = none) :
    domains.start parse binds p.config =
      .ok (domains.insert p.remotePort
        { listener with routes := listener.routes.insert p.domain (routeOf parse p) }) := by
  have hdomain : normalizePattern p.config.domain = .ok p.config.domain := hp.normalizePattern_domain
  have hport : domains.lookup p.config.remotePort = some listener := hsome
  have hkind : (listener.kind == p.config.proxyType) = true := beq_iff_eq.mpr hkind
  have hfree : listener.routes.lookup p.config.domain = none := hfree
  simp only [DomainListeners.start, DomainListeners.addRoute, hdomain, hupstream, hport, hkind,
    hfree, bind, Except.bind, ensure, Option.all_none, if_true]
  rfl

theorem startClientProxies_domain (htasks : ∀ client, m.clientListeners client = ∅)
    (hkind : p.proxyType = "http" ∨ p.proxyType = "https") {domains : DomainListeners}
    (hstart : m.domains.start parse binds p.config = .ok domains) :
    ∃ m', m.startClientProxiesFromConfigs parse binds p.config.clientId [p.config] =
        (m', .ok ()) ∧ m'.domains = domains ∧ ∀ client, m'.clientListeners client = ∅ := by
  have hdomain : isDomainKind p.config.proxyType = true := by
    rcases hkind with hkind | hkind <;>
      simp [isDomainKind, Proxy.config, hkind]
  have htasks' : ∀ client, ProxyListenerManager.clientListeners
      { m with listeners := m.listeners.insert p.config.clientId (m.clientListeners p.config.clientId) }
      client = ∅ := by
    intro client
    simp only [ProxyListenerManager.clientListeners, AList.lookup_insert_eq_ite]
    split_ifs
    · exact htasks p.config.clientId
    · exact htasks client
  refine ⟨⟨domains, m.listeners.insert p.config.clientId (m.clientListeners p.config.clientId)⟩,
    ?_, rfl, htasks'⟩
  simp only [ProxyListenerManager.startClientProxiesFromConfigs, List.isEmpty_cons,
    Bool.false_eq_true, if_false, ProxyListenerManager.startProxies,
    ProxyListenerManager.startProxy, htasks', hdomain, if_true, hstart, bind, Except.bind]
  rw [if_neg (AList.notMem_empty _)]
  rfl

/-- A listener that also serves one more proxy takes the place of the old one. -/
theorem ServesRoutes.insert (hm : ServesRoutes parse ps m) {m' : ProxyListenerManager}
    {listener : Listener} (htasks : ∀ client, m'.clientListeners client = ∅)
    (hdomains : m'.domains = m.domains.insert p.remotePort listener)
    (hkind : ∀ q ∈ p :: ps, q.remotePort = p.remotePort → listener.kind = q.proxyType)
    (hroutes : ∀ domain route, listener.routes.lookup domain = some route ↔
      ∃ q ∈ p :: ps, q.remotePort = p.remotePort ∧ q.domain = domain ∧ route = routeOf parse q) :
    ServesRoutes parse (p :: ps) m' := by
  have hlookup : ∀ port, m'.domains.lookup port =
      if port = p.remotePort then some listener else m.domains.lookup port := by
    intro port
    rw [hdomains, AList.lookup_insert_eq_ite]
  have hother : ∀ port, port ≠ p.remotePort → ∀ P : Proxy → Prop,
      (∃ q ∈ p :: ps, q.remotePort = port ∧ P q) ↔ ∃ q ∈ ps, q.remotePort = port ∧ P q := by
    intro port hport P
    constructor
    · rintro ⟨q, hq, hqport, hP⟩
      rcases List.mem_cons.mp hq with rfl | hq
      · exact (hport hqport.symm).elim
      · exact ⟨q, hq, hqport, hP⟩
    · rintro ⟨q, hq, h⟩
      exact ⟨q, List.mem_cons_of_mem _ hq, h⟩
  refine ⟨htasks, fun port hnone q hq hqport ↦ ?_, fun port l hl ↦ ?_, fun port l hl q hq hqport ↦ ?_,
    fun port l hl domain route ↦ ?_⟩
  · rw [hlookup] at hnone
    split_ifs at hnone with hport
    rcases List.mem_cons.mp hq with rfl | hq
    · exact hport hqport.symm
    · exact hm.closed port hnone q hq hqport
  · rw [hlookup] at hl
    split_ifs at hl with hport
    · exact ⟨p, List.mem_cons_self, hport.symm⟩
    · obtain ⟨q, hq, hqport⟩ := hm.used port l hl
      exact ⟨q, List.mem_cons_of_mem _ hq, hqport⟩
  · rw [hlookup] at hl
    split_ifs at hl with hport
    · cases hl
      exact hkind q hq (hqport.trans hport)
    · rcases List.mem_cons.mp hq with rfl | hq
      · exact (hport hqport.symm).elim
      · exact hm.kind port l hl q hq hqport
  · rw [hlookup] at hl
    split_ifs at hl with hport
    · cases hl
      rw [hport]
      exact hroutes domain route
    · rw [hm.routes port l hl, hother port hport]

/-- One more proxy that conflicts with none of those that are served. -/
theorem ServesRoutes.start (hm : ServesRoutes parse ps m) (hp : AcceptedRoute parse render p)
    (hbinds : ∀ protocol port, binds protocol port = .ok ())
    (hreparse : ∀ kind value url, parseUpstream parse kind value = .ok url →
      ∃ url', parseUpstream parse kind (render url) = .ok url')
    (hfree : ∀ q ∈ ps, q.remotePort = p.remotePort →
      routesConflict p.proxyType p.domain q.proxyType q.domain = false) :
    ∃ m', m.startClientProxiesFromConfigs parse binds p.config.clientId [p.config] =
        (m', .ok ()) ∧ ServesRoutes parse (p :: ps) m' := by
  have hupstream := hp.routeUpstream_eq hreparse
  have hdistinct : ∀ q ∈ ps, q.remotePort = p.remotePort →
      p.proxyType = q.proxyType ∧ p.domain ≠ q.domain := by
    intro q hq hport
    have hno := hfree q hq hport
    simp only [routesConflict, Bool.or_eq_false_iff, bne_eq_false_iff_eq, beq_eq_false_iff_ne] at hno
    exact ⟨hno.1.2, hno.2⟩
  have hkind : ∀ q ∈ p :: ps, q.remotePort = p.remotePort → p.proxyType = q.proxyType := by
    intro q hq hport
    rcases List.mem_cons.mp hq with rfl | hq
    · rfl
    · exact (hdistinct q hq hport).1
  cases hlookup : m.domains.lookup p.remotePort with
  | none =>
      obtain ⟨m', hstart, hdomains, htasks⟩ := startClientProxies_domain hm.tasks hp.kind
        (domainListeners_start_new hp m.domains hupstream hbinds hlookup)
      refine ⟨m', hstart, hm.insert htasks hdomains hkind fun domain route ↦ ?_⟩
      rw [AList.lookup_insert_eq_ite, AList.lookup_empty]
      constructor
      · intro h
        split_ifs at h with hdomain
        cases h
        exact ⟨p, List.mem_cons_self, rfl, hdomain.symm, rfl⟩
      · rintro ⟨q, hq, hport, hdomain, rfl⟩
        rcases List.mem_cons.mp hq with rfl | hq
        · rw [if_pos hdomain.symm]
        · exact (hm.closed _ hlookup q hq hport).elim
  | some listener =>
      obtain ⟨q, hq, hport⟩ := hm.used _ listener hlookup
      have hlistener : listener.kind = p.proxyType :=
        (hm.kind _ listener hlookup q hq hport).trans (hdistinct q hq hport).1.symm
      have hnone : listener.routes.lookup p.domain = none := by
        cases hroute : listener.routes.lookup p.domain with
        | none => rfl
        | some route =>
            obtain ⟨q, hq, hport, hdomain, -⟩ := (hm.routes _ listener hlookup _ _).mp hroute
            exact ((hdistinct q hq hport).2 hdomain.symm).elim
      obtain ⟨m', hstart, hdomains, htasks⟩ := startClientProxies_domain hm.tasks hp.kind
        (domainListeners_start_shared hp m.domains hupstream hlookup hlistener hnone)
      refine ⟨m', hstart, hm.insert htasks hdomains
        (fun q hq hport ↦ hlistener.trans (hkind q hq hport)) fun domain route ↦ ?_⟩
      rw [AList.lookup_insert_eq_ite]
      constructor
      · intro h
        split_ifs at h with hdomain
        · cases h
          exact ⟨p, List.mem_cons_self, rfl, hdomain.symm, rfl⟩
        · obtain ⟨q, hq, hroute⟩ := (hm.routes _ listener hlookup domain route).mp h
          exact ⟨q, List.mem_cons_of_mem _ hq, hroute⟩
      · rintro ⟨q, hq, hport, hdomain, rfl⟩
        rcases List.mem_cons.mp hq with rfl | hq
        · rw [if_pos hdomain.symm]
        · have hne : domain ≠ p.domain := fun heq ↦
            (hdistinct q hq hport).2 (heq.symm.trans hdomain.symm)
          rw [if_neg hne]
          exact (hm.routes _ listener hlookup domain _).mpr ⟨q, hq, hport, hdomain, rfl⟩

/-- The two routes have different ports or do not conflict. -/
def Apart (p q : Proxy) : Prop :=
  q.remotePort = p.remotePort → routesConflict p.proxyType p.domain q.proxyType q.domain = false

theorem ServesRoutes.startEach (hm : ServesRoutes parse ps m) (qs : List Proxy)
    (hbinds : ∀ protocol port, binds protocol port = .ok ())
    (hreparse : ∀ kind value url, parseUpstream parse kind value = .ok url →
      ∃ url', parseUpstream parse kind (render url) = .ok url')
    (haccepted : ∀ q ∈ qs, AcceptedRoute parse render q)
    (hold : ∀ q ∈ qs, ∀ p ∈ ps, Apart q p) (hnew : qs.Pairwise fun p q ↦ Apart q p) :
    ∃ m', startEach parse binds m qs = .ok m' ∧ ServesRoutes parse (qs.reverse ++ ps) m' := by
  induction qs generalizing m ps with
  | nil => exact ⟨m, rfl, hm⟩
  | cons q qs ih =>
      obtain ⟨hq, hqs⟩ := List.pairwise_cons.mp hnew
      obtain ⟨m₁, hstart, hm₁⟩ := hm.start (haccepted q List.mem_cons_self) hbinds hreparse
        (hold q List.mem_cons_self)
      have hold₁ : ∀ r ∈ qs, ∀ p ∈ q :: ps, Apart r p := by
        intro r hr p hp
        rcases List.mem_cons.mp hp with rfl | hp
        · exact hq r hr
        · exact hold r (List.mem_cons_of_mem _ hr) p hp
      obtain ⟨m', hrest, hm'⟩ := ih hm₁ (fun r hr ↦ haccepted r (List.mem_cons_of_mem _ hr)) hold₁ hqs
      refine ⟨m', ?_, by simpa using hm'⟩
      simp only [Controller.startEach, hstart, hrest]

/-- What is served determines the route of every host name. -/
theorem ServesRoutes.routeFor_eq {qs : List Proxy} {m' : ProxyListenerManager}
    (hm : ServesRoutes parse ps m) (hm' : ServesRoutes parse qs m') (hsame : ∀ p, p ∈ ps ↔ p ∈ qs)
    (port : UInt16) (host : String) : routeFor m port host = routeFor m' port host := by
  unfold routeFor
  cases hlookup : m.domains.lookup port with
  | none =>
      cases hlookup' : m'.domains.lookup port with
      | none => rfl
      | some listener =>
          obtain ⟨q, hq, hport⟩ := hm'.used port listener hlookup'
          exact (hm.closed port hlookup q ((hsame q).mpr hq) hport).elim
  | some listener =>
      cases hlookup' : m'.domains.lookup port with
      | none =>
          obtain ⟨q, hq, hport⟩ := hm.used port listener hlookup
          exact (hm'.closed port hlookup' q ((hsame q).mp hq) hport).elim
      | some listener' =>
          apply findRoute_congr
          intro domain
          ext route
          rw [hm.routes port listener hlookup, hm'.routes port listener' hlookup']
          simp only [hsame]

theorem ServesRoutes.isServed (hm : ServesRoutes parse ps m) (hp : p ∈ ps) : IsServed parse m p := by
  cases hport : m.domains.lookup p.remotePort with
  | none => exact absurd rfl (hm.closed _ hport p hp)
  | some listener =>
      exact ⟨listener, hport, hm.kind _ _ hport p hp rfl,
        (hm.routes _ _ hport _ _).mpr ⟨p, hp, rfl, rfl, rfl⟩⟩

end Start

/-- The enabled domain proxies of one node that the controller accepts all start
on a node without listeners, in any order, and each is served under its own domain;
the routes of the hosts are always the same. -/
theorem accepted_routes_start (parse : UrlParser) (render : Url → String) (binds : Binds)
    (hbinds : ∀ protocol port, binds protocol port = .ok ())
    (hreparse : ∀ kind value url, parseUpstream parse kind value = .ok url →
      ∃ url', parseUpstream parse kind (render url) = .ok url')
    (proxies : Table Proxy) (node : ℤ) (hnode : ∀ p ∈ proxies.rows, p.nodeId = some node)
    (haccepted : ∀ p ∈ proxies.rows, AcceptedRoute parse render p)
    (hdisjoint : RoutesDisjoint proxies) :
    ∃ route : UInt16 → String → Option Route, ∀ order : List Proxy, order.Perm proxies.rows →
      ∃ m, startEach parse binds .new order = .ok m ∧
        (∀ p ∈ proxies.rows, IsServed parse m p) ∧
          ∀ port host, routeFor m port host = route port host := by
  have hstart : ∀ order : List Proxy, order.Perm proxies.rows →
      ∃ m, startEach parse binds .new order = .ok m ∧ ServesRoutes parse (order.reverse ++ []) m := by
    intro order horder
    have hids : (order.map key).Nodup := (horder.map key).nodup_iff.mpr proxies.nodup
    have hpairwise : order.Pairwise fun p q ↦ Apart q p := by
      refine (List.pairwise_map.mp hids).imp_of_mem fun {p q} hp hq hne hport ↦ ?_
      have hp := horder.mem_iff.mp hp
      have hq := horder.mem_iff.mp hq
      exact hdisjoint q hq p hp (Ne.symm hne) (haccepted q hq).enabled (haccepted p hp).enabled
        ((hnode q hq).trans (hnode p hp).symm) hport.symm
    exact ServesRoutes.new.startEach order hbinds hreparse
      (fun q hq ↦ haccepted q (horder.mem_iff.mp hq)) (fun _ _ p hp ↦ (List.not_mem_nil hp).elim)
      hpairwise
  obtain ⟨m₀, -, hm₀⟩ := hstart proxies.rows (List.Perm.refl _)
  refine ⟨routeFor m₀, fun order horder ↦ ?_⟩
  obtain ⟨m, hok, hm⟩ := hstart order horder
  have hmem : ∀ p, p ∈ order.reverse ++ [] ↔ p ∈ proxies.rows := by simp [horder.mem_iff]
  have hsame : ∀ p, p ∈ order.reverse ++ [] ↔ p ∈ proxies.rows.reverse ++ [] := by
    simp [horder.mem_iff]
  exact ⟨m, hok, fun p hp ↦ hm.isServed ((hmem p).mpr hp), hm.routeFor_eq hm₀ hsame⟩

/-! ## A tunnel and a direct proxy on one port -/

def originUrl : Url := ⟨"https", some "origin.test", some 443, "", none, "/", none, none⟩

/-- A parser that knows one URL. -/
def parseOrigin : UrlParser := fun value ↦
  if value = "https://origin.test/" then .ok originUrl else .error "relative URL without a base"

theorem parseOrigin_render (kind value : String) (url : Url)
    (h : parseUpstream parseOrigin kind value = .ok url) :
    ∃ url', parseUpstream parseOrigin kind "https://origin.test/" = .ok url' := by
  have htrim : trim "https://origin.test/" = "https://origin.test/" := by decide +kernel
  by_cases hvalue : trim value = "https://origin.test/"
  · refine ⟨url, ?_⟩
    unfold parseUpstream at h ⊢
    rwa [hvalue, ← htrim] at h
  · unfold parseUpstream parseOrigin at h
    rw [if_neg hvalue] at h
    cases hkind : ensure (kind == "http" || kind == "https") "公网直连仅支持 HTTP/HTTPS 域名代理" <;>
      rw [hkind] at h <;> cases h

def tunnelAndDirect : Table Proxy :=
  ⟨[{ httpProxy 1 "a.test" with clientId := some "3" },
    { httpProxy 2 "*.a.test" with upstreamUrl := "https://origin.test/" }], by decide⟩

theorem accepted_routes_start_two :
    ∃ route : UInt16 → String → Option Route, ∀ order : List Proxy,
      order.Perm tunnelAndDirect.rows → ∃ m, startEach parseOrigin (fun _ _ ↦ .ok ()) .new order = .ok m ∧
        (∀ p ∈ tunnelAndDirect.rows, IsServed parseOrigin m p) ∧
          ∀ port host, routeFor m port host = route port host := by
  refine accepted_routes_start parseOrigin (fun _ ↦ "https://origin.test/") (fun _ _ ↦ .ok ())
    (fun _ _ ↦ rfl) parseOrigin_render tunnelAndDirect 1 (by decide) (fun p hp ↦ ?_) ?_
  · rcases List.mem_cons.mp hp with rfl | hp
    · exact ⟨rfl, .inl rfl, ⟨"A.test.", by decide +kernel⟩, .inl ⟨rfl, "3", rfl, by decide⟩⟩
    · obtain rfl := List.mem_singleton.mp hp
      exact ⟨rfl, .inl rfl, ⟨" *.a.test", by decide +kernel⟩,
        .inr ⟨rfl, by decide, "https://origin.test/", originUrl, by decide +kernel, rfl⟩⟩
  · intro p hp q hq
    have hp : p ∈ tunnelAndDirect.rows := hp
    have hdecide : ∀ p ∈ tunnelAndDirect.rows, ∀ q ∈ tunnelAndDirect.rows, p.id ≠ q.id →
        routesConflict p.proxyType p.domain q.proxyType q.domain = false := by decide +kernel
    exact fun hne _ _ _ _ ↦ hdecide p hp q hq hne

end Oxiproxy.Controller
