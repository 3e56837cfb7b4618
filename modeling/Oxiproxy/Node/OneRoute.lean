import Oxiproxy.Foundation.Runs
import Oxiproxy.Node.Listeners

/-!
# The endpoints of a proxy

The listeners and domain routes that belong to one client's proxy, across both
tables.  Each operation of the manager is described by what it does to these
endpoints; that a proxy has at most one of them then follows for every run in
which no proxy is started over an endpoint of another shape.
-/

namespace Oxiproxy.Node

open Transition

/-! ## Single routes -/

/-- The route of a port for a domain, with the kind of the port. -/
def routeAt (listeners : DomainListeners) (port : UInt16) (domain : String) :
    Option (String × Route) :=
  (listeners.lookup port).bind fun listener ↦
    (listener.routes.lookup domain).map (listener.kind, ·)

theorem routeAt_eq_some {listeners : DomainListeners} {port : UInt16} {domain kind : String}
    {route : Route} :
    routeAt listeners port domain = some (kind, route) ↔
      ∃ listener, listeners.lookup port = some listener ∧ listener.kind = kind ∧
        listener.routes.lookup domain = some route := by
  simp only [routeAt, Option.bind_eq_some_iff, Option.map_eq_some_iff, Prod.mk.injEq]
  constructor
  · rintro ⟨l, hl, r, hr, rfl, rfl⟩
    exact ⟨l, hl, rfl, hr⟩
  · rintro ⟨l, hl, rfl, hr⟩
    exact ⟨l, hl, route, hr, rfl, rfl⟩

theorem routeAt_insert (listeners : DomainListeners) (port q : UInt16) (listener : Listener)
    (domain : String) :
    routeAt (listeners.insert port listener) q domain =
      if q = port then (listener.routes.lookup domain).map (listener.kind, ·)
      else routeAt listeners q domain := by
  unfold routeAt
  rw [AList.lookup_insert_eq_ite]
  by_cases hq : q = port
  · rw [if_pos hq, if_pos hq, Option.bind_some]
  · rw [if_neg hq, if_neg hq]

/-- Writing one route into the routes a port already has. -/
theorem routeAt_insert_route {listeners : DomainListeners} {port : UInt16} {listener : Listener}
    (hport : ∀ d, routeAt listeners port d = (listener.routes.lookup d).map (listener.kind, ·))
    (domain : String) (route : Route) (q : UInt16) (d : String) :
    routeAt (listeners.insert port
        { listener with routes := listener.routes.insert domain route }) q d =
      if q = port ∧ d = domain then some (listener.kind, route) else routeAt listeners q d := by
  rw [routeAt_insert]
  by_cases hq : q = port
  · subst hq
    by_cases hd : d = domain
    · subst hd
      simp only [AList.lookup_insert, and_self, if_true, Option.map_some]
    · rw [if_pos rfl, AList.lookup_insert_ne hd, if_neg (by simp [hd]), hport]
  · rw [if_neg hq, if_neg (by simp [hq])]

theorem addRoute_eq_ok {listener listener' : Listener} {route : Route}
    (h : DomainListeners.addRoute listener route = .ok listener') :
    listener.kind = route.config.proxyType ∧
      (∀ old, listener.routes.lookup route.config.domain = some old →
        old.config.proxyId = route.config.proxyId ∧
          old.config.clientId = route.config.clientId) ∧
      listener' = { listener with
        routes := listener.routes.insert route.config.domain route } := by
  simp only [DomainListeners.addRoute, bind, Except.bind, pure, Except.pure] at h
  split at h
  · cases h
  · rename_i hkind
    split at h
    · cases h
    · rename_i howner
      rw [ensure_eq_ok] at hkind howner
      refine ⟨by simpa using hkind, ?_, (Except.ok.inj h).symm⟩
      intro old hold
      simpa [hold] using howner

/-- A start either adds a route to a port that is shared already, or binds the
port for it. -/
theorem DomainListeners.start_cases {parse : UrlParser} {binds : Binds}
    {listeners listeners' : DomainListeners} {config : ProxyConfig}
    (h : listeners.start parse binds config = .ok listeners') :
    ∃ domain upstream, normalizePattern config.domain = .ok domain ∧
      routeUpstream parse { config with domain } = .ok upstream ∧
      ((∃ listener, listeners.lookup config.remotePort = some listener ∧
          listener.kind = config.proxyType ∧
          (∀ old, listener.routes.lookup domain = some old →
            old.config.proxyId = config.proxyId ∧ old.config.clientId = config.clientId) ∧
          listeners' = listeners.insert config.remotePort
            { listener with
              routes := listener.routes.insert domain ⟨{ config with domain }, upstream⟩ }) ∨
        listeners.lookup config.remotePort = none ∧
          listeners' = listeners.insert config.remotePort
            ⟨config.proxyType, (∅ : AList fun _ : String ↦ Route).insert domain
              ⟨{ config with domain }, upstream⟩⟩) := by
  unfold start at h
  cases hdomain : normalizePattern config.domain with
  | error e => simp [hdomain, bind, Except.bind] at h
  | ok domain =>
      cases hupstream : routeUpstream parse { config with domain } with
      | error e => simp [hdomain, hupstream, bind, Except.bind] at h
      | ok upstream =>
          simp only [hdomain, hupstream, bind, Except.bind, pure, Except.pure] at h
          refine ⟨domain, upstream, rfl, hupstream, ?_⟩
          cases hport : listeners.lookup config.remotePort with
          | some listener =>
              simp only [hport] at h
              split at h
              · cases h
              · next listener' hadd =>
                  obtain ⟨hkind, howner, rfl⟩ := addRoute_eq_ok hadd
                  exact .inl ⟨listener, rfl, hkind, howner, (Except.ok.inj h).symm⟩
          | none =>
              simp only [hport] at h
              split at h
              · cases h
              · exact .inr ⟨rfl, (Except.ok.inj h).symm⟩

/-- A successful start installs exactly one route; what it replaces belonged to
the same proxy. -/
theorem DomainListeners.start_eq_ok {parse : UrlParser} {binds : Binds}
    {listeners listeners' : DomainListeners} {config : ProxyConfig}
    (h : listeners.start parse binds config = .ok listeners') :
    ∃ domain upstream, normalizePattern config.domain = .ok domain ∧
      routeUpstream parse { config with domain } = .ok upstream ∧
      (∀ kind old, routeAt listeners config.remotePort domain = some (kind, old) →
        old.config.clientId = config.clientId ∧ old.config.proxyId = config.proxyId) ∧
      ∀ port d, routeAt listeners' port d =
        if port = config.remotePort ∧ d = domain then
          some (config.proxyType, ⟨{ config with domain }, upstream⟩)
        else routeAt listeners port d := by
  obtain ⟨domain, upstream, hdomain, hupstream, hcases⟩ := start_cases h
  refine ⟨domain, upstream, hdomain, hupstream, fun kind old hold ↦ ?_, fun port d ↦ ?_⟩
  · obtain ⟨listener, hlistener, -, hr⟩ := routeAt_eq_some.mp hold
    rcases hcases with ⟨listener', hport, -, howner, -⟩ | ⟨hnone, -⟩
    · obtain rfl := Option.some.inj (hlistener.symm.trans hport)
      exact (howner old hr).symm
    · cases hnone.symm.trans hlistener
  · rcases hcases with ⟨listener, hport, hkind, -, rfl⟩ | ⟨hnone, rfl⟩
    · have hroutes : ∀ d, routeAt listeners config.remotePort d =
          (listener.routes.lookup d).map (listener.kind, ·) := by
        simp [routeAt, hport]
      rw [routeAt_insert_route hroutes, hkind]
    · let fresh : Listener := ⟨config.proxyType, ∅⟩
      have hroutes : ∀ d, routeAt listeners config.remotePort d =
          (fresh.routes.lookup d).map (fresh.kind, ·) := by
        simp [routeAt, hnone, fresh]
      exact routeAt_insert_route hroutes _ _ port d

/-- Stopping removes exactly the routes of the client, or of its one proxy. -/
theorem routeAt_stop (listeners : DomainListeners) (client : String) (proxy : Option Int)
    {port : UInt16} {domain kind : String} {route : Route} :
    routeAt (listeners.stop client proxy) port domain = some (kind, route) ↔
      routeAt listeners port domain = some (kind, route) ∧
        route.belongsTo client proxy = false := by
  simp only [routeAt_eq_some, DomainListeners.stop, AList.lookup_filterMapVal,
    Option.bind_eq_some_iff]
  constructor
  · rintro ⟨l', ⟨l, hl, hl'⟩, rfl, hr⟩
    split_ifs at hl' with hempty
    obtain rfl := Option.some.inj hl'
    obtain ⟨hr, hp⟩ := AList.lookup_retain_eq_some.mp hr
    exact ⟨⟨l, hl, rfl, hr⟩, by simpa using hp⟩
  · rintro ⟨⟨l, hl, rfl, hr⟩, hp⟩
    have hr' : (l.routes.retain fun _ r ↦ !r.belongsTo client proxy).lookup domain =
        some route :=
      AList.lookup_retain_eq_some.mpr ⟨hr, by simp [hp]⟩
    refine ⟨_, ⟨l, hl, if_neg ?_⟩, rfl, hr'⟩
    intro hempty
    rw [List.isEmpty_iff] at hempty
    rw [AList.lookup, hempty] at hr'
    cases hr'

/-! ## Endpoints -/

/-- Something a proxy serves the public with: a listener, or a route with the
port, domain and kind under which it is found. -/
inductive Endpoint
  | listener (task : ListenerTask)
  | route (port : UInt16) (domain kind : String) (route : Route)
  deriving DecidableEq

/-- The endpoints a client's proxy owns in either table. -/
def Owns (m : ProxyListenerManager) (clientId : String) (proxyId : Int) : Endpoint → Prop
  | .listener task => (m.clientListeners clientId).lookup proxyId = some task
  | .route port domain kind route =>
      routeAt m.domains port domain = some (kind, route) ∧
        route.config.clientId = clientId ∧ route.config.proxyId = proxyId

/-- The endpoint a configuration asks for.  The name of a listener only occurs
in its log lines. -/
def Describes (parse : UrlParser) (config : ProxyConfig) : Endpoint → Prop
  | .listener task =>
      isDomainKind config.proxyType = false ∧ task.protocol = .ofString config.proxyType ∧
        task.listenAddr = ProxyListenerManager.listenAddr config ∧
        task.targetAddr = ProxyListenerManager.targetAddr config
  | .route port domain kind route =>
      isDomainKind config.proxyType = true ∧ port = config.remotePort ∧
        kind = config.proxyType ∧ normalizePattern config.domain = .ok domain ∧
        route.config = { config with domain } ∧
        routeUpstream parse route.config = .ok route.upstream

namespace ProxyListenerManager

variable {m m' : ProxyListenerManager} {parse : UrlParser} {binds : Binds}
  {clientId : String} {config : ProxyConfig}

theorem clientListeners_insert (m : ProxyListenerManager) (domains : DomainListeners)
    (clientId c : String) (tasks : AList fun _ : Int ↦ ListenerTask) :
    clientListeners ⟨domains, m.listeners.insert clientId tasks⟩ c =
      if c = clientId then tasks else m.clientListeners c := by
  unfold clientListeners
  rw [AList.lookup_insert_eq_ite]
  by_cases hc : c = clientId
  · rw [if_pos hc, if_pos hc, Option.getD_some]
  · rw [if_neg hc, if_neg hc]

theorem owns_stopClientProxies (m : ProxyListenerManager) (clientId c : String) (p : Int)
    (e : Endpoint) :
    Owns (m.stopClientProxies clientId) c p e ↔ Owns m c p e ∧ c ≠ clientId := by
  cases e with
  | listener task =>
      simp only [Owns, stopClientProxies, clientListeners, AList.lookup_erase_eq_ite]
      by_cases hc : c = clientId <;> simp [hc]
  | route port domain kind route =>
      simp only [Owns, stopClientProxies, routeAt_stop, Route.belongsTo, Option.all_none,
        Bool.and_true, beq_eq_false_iff_ne]
      constructor
      · rintro ⟨⟨hr, hne⟩, rfl, rfl⟩
        exact ⟨⟨hr, rfl, rfl⟩, hne⟩
      · rintro ⟨⟨hr, rfl, rfl⟩, hne⟩
        exact ⟨⟨hr, hne⟩, rfl, rfl⟩

theorem owns_stopSingleProxy (m : ProxyListenerManager) (clientId c : String) (proxyId p : Int)
    (e : Endpoint) :
    Owns (m.stopSingleProxy clientId proxyId) c p e ↔
      Owns m c p e ∧ ¬ (c = clientId ∧ p = proxyId) := by
  cases e with
  | listener task =>
      simp only [Owns, stopSingleProxy]
      cases hl : m.listeners.lookup clientId with
      | none =>
          by_cases hc : c = clientId
          · subst hc
            simp [clientListeners, hl]
          · simp [clientListeners, hc]
      | some tasks =>
          simp only [clientListeners, AList.lookup_insert_eq_ite]
          by_cases hc : c = clientId
          · subst hc
            rw [if_pos rfl, Option.getD_some, AList.lookup_erase_eq_ite]
            by_cases hp : p = proxyId <;> simp [hp, hl]
          · simp [hc]
  | route port domain kind route =>
      simp only [Owns, stopSingleProxy, routeAt_stop, Route.belongsTo, Option.all_some,
        Bool.and_eq_false_iff, beq_eq_false_iff_ne]
      constructor
      · rintro ⟨⟨hr, hne⟩, rfl, rfl⟩
        refine ⟨⟨hr, rfl, rfl⟩, ?_⟩
        rintro ⟨hc, hp⟩
        exact hne.elim (fun h ↦ h hc) fun h ↦ h hp.symm
      · rintro ⟨⟨hr, rfl, rfl⟩, hne⟩
        refine ⟨⟨hr, ?_⟩, rfl, rfl⟩
        by_cases hc : route.config.clientId = clientId
        · exact .inr fun hp ↦ hne ⟨hc, hp.symm⟩
        · exact .inl hc

/-- What a successful start of one proxy did. -/
theorem startProxy_cases (h : startProxy parse binds clientId m config = .ok m') :
    (config.proxyId ∈ m.clientListeners clientId ∧ m' = m) ∨
    (config.proxyId ∉ m.clientListeners clientId ∧ isDomainKind config.proxyType = true ∧
      ∃ domains, DomainListeners.start parse binds m.domains config = .ok domains ∧
        m' = ⟨domains, m.listeners⟩) ∨
    (config.proxyId ∉ m.clientListeners clientId ∧ isDomainKind config.proxyType = false ∧
      m' = ⟨m.domains, m.listeners.insert clientId
        ((m.clientListeners clientId).insert config.proxyId (listenerTask config))⟩) := by
  unfold startProxy at h
  by_cases hmem : config.proxyId ∈ m.clientListeners clientId
  · rw [if_pos hmem] at h
    exact .inl ⟨hmem, (Except.ok.inj h).symm⟩
  · rw [if_neg hmem] at h
    cases hkind : isDomainKind config.proxyType with
    | true =>
        simp only [hkind, if_true, bind, Except.bind, pure, Except.pure] at h
        split at h
        · cases h
        · rename_i domains hdomains
          exact .inr (.inl ⟨hmem, rfl, domains, hdomains, (Except.ok.inj h).symm⟩)
    | false =>
        simp only [hkind, Bool.false_eq_true, if_false, bind, Except.bind, pure,
          Except.pure] at h
        split at h
        · cases h
        · split at h
          · cases h
          · exact .inr (.inr ⟨hmem, rfl, (Except.ok.inj h).symm⟩)

/-- Starting a proxy leaves the endpoints of all others alone. -/
theorem owns_startProxy_of_ne (h : startProxy parse binds clientId m config = .ok m')
    (hclient : config.clientId = clientId) {c : String} {p : Int}
    (hne : ¬ (c = clientId ∧ p = config.proxyId)) (e : Endpoint) :
    Owns m' c p e ↔ Owns m c p e := by
  rcases startProxy_cases h with ⟨-, rfl⟩ | ⟨-, -, domains, hstart, rfl⟩ | ⟨-, -, rfl⟩
  · rfl
  · cases e with
    | listener task => rfl
    | route port d kind route =>
        obtain ⟨domain, upstream, -, -, hold, hroutes⟩ := DomainListeners.start_eq_ok hstart
        simp only [Owns, hroutes]
        by_cases hkey : port = config.remotePort ∧ d = domain
        · obtain ⟨rfl, rfl⟩ := hkey
          simp only [and_self, if_true]
          constructor
          · rintro ⟨heq, rfl, rfl⟩
            obtain ⟨-, rfl⟩ := Prod.mk.inj (Option.some.inj heq)
            exact (hne ⟨hclient, rfl⟩).elim
          · rintro ⟨heq, rfl, rfl⟩
            obtain ⟨hc, hp⟩ := hold kind route heq
            exact (hne ⟨hc.trans hclient, hp⟩).elim
        · rw [if_neg hkey]
  · cases e with
    | listener task =>
        simp only [Owns, clientListeners_insert]
        by_cases hc : c = clientId
        · subst hc
          have hp : p ≠ config.proxyId := fun hp ↦ hne ⟨rfl, hp⟩
          rw [if_pos rfl, AList.lookup_insert_ne hp]
        · rw [if_neg hc]
    | route port d kind route => rfl

/-- A started proxy owns an endpoint. -/
theorem exists_owns_startProxy (h : startProxy parse binds clientId m config = .ok m')
    (hclient : config.clientId = clientId) : ∃ e, Owns m' clientId config.proxyId e := by
  rcases startProxy_cases h with ⟨hmem, rfl⟩ | ⟨-, -, domains, hstart, rfl⟩ | ⟨-, -, rfl⟩
  · obtain ⟨task, htask⟩ := Option.isSome_iff_exists.mp (AList.lookup_isSome.mpr hmem)
    exact ⟨.listener task, htask⟩
  · obtain ⟨domain, upstream, -, -, -, hroutes⟩ := DomainListeners.start_eq_ok hstart
    refine ⟨.route config.remotePort domain config.proxyType ⟨{ config with domain }, upstream⟩,
      ?_, hclient, rfl⟩
    rw [hroutes, if_pos ⟨rfl, rfl⟩]
  · refine ⟨.listener (listenerTask config), ?_⟩
    simp only [Owns, clientListeners_insert, if_true, AList.lookup_insert]

end ProxyListenerManager

/-! ## One endpoint per proxy -/

/-- The proxy owns at most one endpoint in the two tables together. -/
def AtMostOne (m : ProxyListenerManager) (clientId : String) (proxyId : Int) : Prop :=
  ∀ e e', Owns m clientId proxyId e → Owns m clientId proxyId e' → e = e'

/-- What the proxy of a configuration owns may be started over: a listener that
is already the one described, or a route at the described port and domain. -/
def Compatible (parse : UrlParser) (m : ProxyListenerManager) (config : ProxyConfig) : Prop :=
  ∀ e, Owns m config.clientId config.proxyId e →
    match e with
    | .listener task => Describes parse config (.listener task)
    | .route port domain _ _ =>
        isDomainKind config.proxyType = true ∧ port = config.remotePort ∧
          normalizePattern config.domain = .ok domain

namespace ProxyListenerManager

variable {m m' : ProxyListenerManager} {parse : UrlParser} {binds : Binds}
  {clientId : String} {config : ProxyConfig}

/-- A proxy started over compatible endpoints owns exactly the described one. -/
theorem owns_startProxy_self (h : startProxy parse binds clientId m config = .ok m')
    (hclient : config.clientId = clientId) (hone : AtMostOne m clientId config.proxyId)
    (hcompat : Compatible parse m config) :
    ∃ e, Describes parse config e ∧ ∀ e', Owns m' clientId config.proxyId e' ↔ e' = e := by
  subst hclient
  rcases startProxy_cases h with ⟨hmem, rfl⟩ | ⟨hmem, hkind, domains, hstart, rfl⟩ |
    ⟨hmem, hkind, rfl⟩
  · obtain ⟨task, htask⟩ := Option.isSome_iff_exists.mp (AList.lookup_isSome.mpr hmem)
    have howns : Owns m' config.clientId config.proxyId (.listener task) := htask
    refine ⟨.listener task, hcompat _ howns, fun e' ↦ ⟨fun he ↦ hone _ _ he howns, ?_⟩⟩
    rintro rfl
    exact howns
  · obtain ⟨domain, upstream, hdomain, hupstream, -, hroutes⟩ :=
      DomainListeners.start_eq_ok hstart
    refine ⟨.route config.remotePort domain config.proxyType ⟨{ config with domain }, upstream⟩,
      ⟨hkind, rfl, rfl, hdomain, rfl, hupstream⟩, fun e' ↦ ?_⟩
    cases e' with
    | listener task =>
        have hnone : (m.clientListeners config.clientId).lookup config.proxyId = none :=
          AList.lookup_eq_none.mpr hmem
        simp only [reduceCtorEq, iff_false]
        intro howns
        have htask : (m.clientListeners config.clientId).lookup config.proxyId = some task :=
          howns
        rw [hnone] at htask
        cases htask
    | route port d kind route =>
        simp only [Owns, hroutes, Endpoint.route.injEq]
        constructor
        · rintro ⟨heq, hc, hp⟩
          split_ifs at heq with hkey
          · obtain ⟨rfl, rfl⟩ := Prod.mk.inj (Option.some.inj heq)
            exact ⟨hkey.1, hkey.2, rfl, rfl⟩
          · obtain ⟨-, hport, hd⟩ := hcompat (.route port d kind route) ⟨heq, hc, hp⟩
            exact (hkey ⟨hport, Except.ok.inj (hd.symm.trans hdomain)⟩).elim
        · rintro ⟨rfl, rfl, rfl, rfl⟩
          simp
  · refine ⟨.listener (listenerTask config), ⟨hkind, rfl, rfl, rfl⟩, fun e' ↦ ?_⟩
    cases e' with
    | listener task =>
        simp only [Owns, clientListeners_insert, if_true, AList.lookup_insert, Option.some.injEq,
          Endpoint.listener.injEq]
        exact eq_comm
    | route port d kind route =>
        simp only [reduceCtorEq, iff_false]
        intro howns
        have := (hcompat (.route port d kind route) howns).1
        simp [hkind] at this

/-- The configurations of one client, as the controller's query returns them:
one for each proxy, all naming the client. -/
structure Batch where
  clientId : String
  proxies : List ProxyConfig
  owned : ∀ config ∈ proxies, config.clientId = clientId
  nodup : (proxies.map (·.proxyId)).Nodup

/-- Starting a list of proxies leaves the endpoints of all others alone, also
when it fails. -/
theorem owns_startProxies_of_notMem {configs : List ProxyConfig} {result : Except String Unit}
    (h : startProxies parse binds clientId m configs = (m', result))
    (howned : ∀ config ∈ configs, config.clientId = clientId) {c : String} {p : Int}
    (hne : ¬ (c = clientId ∧ p ∈ configs.map (·.proxyId))) (e : Endpoint) :
    Owns m' c p e ↔ Owns m c p e := by
  induction configs generalizing m with
  | nil =>
      obtain ⟨rfl, -⟩ := Prod.mk.inj h
      rfl
  | cons config configs ih =>
      simp only [List.map_cons, List.mem_cons] at hne
      rw [startProxies] at h
      cases hstart : startProxy parse binds clientId m config with
      | error err =>
          rw [hstart] at h
          obtain ⟨rfl, -⟩ := Prod.mk.inj h
          rfl
      | ok m₁ =>
          rw [hstart] at h
          rw [ih h (fun config' h' ↦ howned config' (List.mem_cons_of_mem _ h'))
            fun h' ↦ hne ⟨h'.1, .inr h'.2⟩]
          exact owns_startProxy_of_ne hstart (howned config List.mem_cons_self)
            (fun h' ↦ hne ⟨h'.1, .inl h'.2⟩) e

/-- After a successful start of a list every one of its proxies owns an
endpoint. -/
theorem exists_owns_startProxies {configs : List ProxyConfig}
    (h : startProxies parse binds clientId m configs = (m', .ok ()))
    (howned : ∀ config ∈ configs, config.clientId = clientId)
    (hnodup : (configs.map (·.proxyId)).Nodup) :
    ∀ config ∈ configs, ∃ e, Owns m' clientId config.proxyId e := by
  induction configs generalizing m with
  | nil => simp
  | cons config configs ih =>
      simp only [List.map_cons, List.nodup_cons] at hnodup
      have howned' : ∀ config ∈ configs, config.clientId = clientId :=
        fun config' h' ↦ howned config' (List.mem_cons_of_mem _ h')
      rw [startProxies] at h
      cases hstart : startProxy parse binds clientId m config with
      | error err =>
          rw [hstart] at h
          cases (Prod.mk.inj h).2
      | ok m₁ =>
          rw [hstart] at h
          intro config' hconfig'
          rcases List.mem_cons.mp hconfig' with rfl | hconfig'
          · obtain ⟨e, he⟩ := exists_owns_startProxy hstart (howned _ List.mem_cons_self)
            exact ⟨e, (owns_startProxies_of_notMem h howned' (fun ⟨_, hp⟩ ↦ hnodup.1 hp) e).mpr he⟩
          · exact ih h howned' hnodup.2 config' hconfig'

/-- The start loop over compatible endpoints: no proxy gets a second endpoint,
and on success every listed one has exactly the one described. -/
theorem startProxies_one {configs : List ProxyConfig} {result : Except String Unit}
    (h : startProxies parse binds clientId m configs = (m', result))
    (howned : ∀ config ∈ configs, config.clientId = clientId)
    (hnodup : (configs.map (·.proxyId)).Nodup)
    (hone : ∀ c p, AtMostOne m c p) (hcompat : ∀ config ∈ configs, Compatible parse m config) :
    (∀ c p, AtMostOne m' c p) ∧
      (result = .ok () → ∀ config ∈ configs,
        ∃ e, Describes parse config e ∧ ∀ e', Owns m' clientId config.proxyId e' ↔ e' = e) := by
  induction configs generalizing m with
  | nil =>
      obtain ⟨rfl, -⟩ := Prod.mk.inj h
      exact ⟨hone, by simp⟩
  | cons config configs ih =>
      simp only [List.map_cons, List.nodup_cons] at hnodup
      have howned' : ∀ config ∈ configs, config.clientId = clientId :=
        fun config' h' ↦ howned config' (List.mem_cons_of_mem _ h')
      have hclient := howned config List.mem_cons_self
      rw [startProxies] at h
      cases hstart : startProxy parse binds clientId m config with
      | error err =>
          rw [hstart] at h
          obtain ⟨rfl, rfl⟩ := Prod.mk.inj h
          exact ⟨hone, by simp⟩
      | ok m₁ =>
          rw [hstart] at h
          obtain ⟨e, hdesc, hself⟩ := owns_startProxy_self hstart hclient (hone _ _)
            (hcompat config List.mem_cons_self)
          have hone₁ : ∀ c p, AtMostOne m₁ c p := by
            intro c p e₁ e₂ h₁ h₂
            by_cases hkey : c = clientId ∧ p = config.proxyId
            · obtain ⟨rfl, rfl⟩ := hkey
              rw [hself] at h₁ h₂
              exact h₁.trans h₂.symm
            · rw [owns_startProxy_of_ne hstart hclient hkey] at h₁ h₂
              exact hone c p _ _ h₁ h₂
          have hcompat₁ : ∀ config ∈ configs, Compatible parse m₁ config := by
            intro config' hconfig' e' he'
            have hne : ¬ (config'.clientId = clientId ∧ config'.proxyId = config.proxyId) :=
              fun ⟨_, hp⟩ ↦ hnodup.1 (hp ▸ List.mem_map_of_mem hconfig')
            rw [owns_startProxy_of_ne hstart hclient hne] at he'
            exact hcompat config' (List.mem_cons_of_mem _ hconfig') e' he'
          obtain ⟨hone', hdone⟩ := ih h howned' hnodup.2 hone₁ hcompat₁
          refine ⟨hone', fun hok config' hconfig' ↦ ?_⟩
          rcases List.mem_cons.mp hconfig' with rfl | hconfig'
          · refine ⟨e, hdesc, fun e' ↦ ?_⟩
            rw [owns_startProxies_of_notMem h howned' fun ⟨_, hp⟩ ↦ hnodup.1 hp]
            exact hself e'
          · exact hdone hok config' hconfig'

/-! ## Runs of the manager -/

inductive Op
  | startClientProxies (batch : Batch) (binds : Binds)
  | stopSingleProxy (clientId : String) (proxyId : Int)
  | stopClientProxies (clientId : String)

def step (parse : UrlParser) (m : ProxyListenerManager) : Op → Option ProxyListenerManager
  | .startClientProxies batch binds =>
      some (m.startClientProxiesFromConfigs parse binds batch.clientId batch.proxies).1
  | .stopSingleProxy clientId proxyId => some (m.stopSingleProxy clientId proxyId)
  | .stopClientProxies clientId => some (m.stopClientProxies clientId)

/-- A bulk start finds only compatible endpoints. -/
def StartsCompatible (parse : UrlParser) (m : ProxyListenerManager) : Op → Prop
  | .startClientProxies batch _ => ∀ config ∈ batch.proxies, Compatible parse m config
  | _ => True

theorem not_owns_new (c : String) (p : Int) (e : Endpoint) : ¬ Owns new c p e := by
  cases e <;> simp [Owns, new, clientListeners, routeAt]

/-- The entry made for the client before the loop changes no endpoint. -/
theorem owns_entry (m : ProxyListenerManager) (clientId c : String) (p : Int) (e : Endpoint) :
    Owns ⟨m.domains, m.listeners.insert clientId (m.clientListeners clientId)⟩ c p e ↔
      Owns m c p e := by
  cases e with
  | listener task =>
      simp only [Owns, clientListeners_insert]
      by_cases hc : c = clientId
      · rw [if_pos hc, hc]
      · rw [if_neg hc]
  | route port domain kind route => rfl

/-- After a successful bulk start every proxy of the batch owns an endpoint. -/
theorem exists_owns_startClientProxies {batch : Batch}
    (h : m.startClientProxiesFromConfigs parse binds batch.clientId batch.proxies =
      (m', .ok ())) :
    ∀ config ∈ batch.proxies, ∃ e, Owns m' batch.clientId config.proxyId e := by
  unfold startClientProxiesFromConfigs at h
  split_ifs at h with hempty
  · simp [List.isEmpty_iff.mp hempty]
  · exact exists_owns_startProxies h batch.owned batch.nodup

/-- A bulk start over compatible endpoints. -/
theorem startClientProxiesFromConfigs_one {batch : Batch} {result : Except String Unit}
    (h : m.startClientProxiesFromConfigs parse binds batch.clientId batch.proxies = (m', result))
    (hone : ∀ c p, AtMostOne m c p)
    (hcompat : ∀ config ∈ batch.proxies, Compatible parse m config) :
    (∀ c p, AtMostOne m' c p) ∧
      (result = .ok () → ∀ config ∈ batch.proxies, ∃ e, Describes parse config e ∧
        ∀ e', Owns m' batch.clientId config.proxyId e' ↔ e' = e) := by
  unfold startClientProxiesFromConfigs at h
  split_ifs at h with hempty
  · obtain ⟨rfl, -⟩ := Prod.mk.inj h
    rw [List.isEmpty_iff.mp hempty]
    exact ⟨hone, by simp⟩
  · refine startProxies_one h batch.owned batch.nodup ?_ ?_
    · intro c p e e' he he'
      rw [owns_entry] at he he'
      exact hone c p e e' he he'
    · intro config hconfig e he
      rw [owns_entry] at he
      exact hcompat config hconfig e he

/-- A client that comes back with the same configurations finds its endpoints as
they are described. -/
theorem compatible_restart {batch : Batch}
    (h : m.startClientProxiesFromConfigs parse binds batch.clientId batch.proxies = (m', .ok ()))
    (hone : ∀ c p, AtMostOne m c p)
    (hcompat : ∀ config ∈ batch.proxies, Compatible parse m config) :
    ∀ config ∈ batch.proxies, Compatible parse m' config := by
  intro config hconfig e he
  obtain ⟨e', hdescribes, howns⟩ :=
    (startClientProxiesFromConfigs_one h hone hcompat).2 rfl config hconfig
  rw [batch.owned config hconfig] at he
  obtain rfl := (howns e).mp he
  cases e with
  | listener task => exact hdescribes
  | route port domain kind route =>
      obtain ⟨hkind, hport, -, hdomain, -⟩ := hdescribes
      exact ⟨hkind, hport, hdomain⟩

theorem atMostOne_step {op : Op} (hone : ∀ c p, AtMostOne m c p)
    (hok : StartsCompatible parse m op) (hstep : step parse m op = some m') :
    ∀ c p, AtMostOne m' c p := by
  cases op with
  | startClientProxies batch binds =>
      cases hstep
      exact (startClientProxiesFromConfigs_one (Prod.mk.eta).symm hone hok).1
  | stopSingleProxy clientId proxyId =>
      cases hstep
      intro c p e e' he he'
      exact hone c p e e' ((owns_stopSingleProxy ..).mp he).1 ((owns_stopSingleProxy ..).mp he').1
  | stopClientProxies clientId =>
      cases hstep
      intro c p e e' he he'
      exact hone c p e e' ((owns_stopClientProxies ..).mp he).1
        ((owns_stopClientProxies ..).mp he').1

/-- In every run whose bulk starts find only compatible endpoints, each proxy
owns at most one endpoint, and a bulk start that succeeds leaves each of its
proxies with exactly the endpoint described by its configuration. -/
theorem one_route_per_proxy {ops : List Op} (hrun : run (step parse) new ops = some m)
    (hok : Within (step parse) (StartsCompatible parse) new ops) :
    (∀ c p, AtMostOne m c p) ∧
      ∀ (batch : Batch) (binds : Binds) (m' : ProxyListenerManager),
        (∀ config ∈ batch.proxies, Compatible parse m config) →
        m.startClientProxiesFromConfigs parse binds batch.clientId batch.proxies =
          (m', .ok ()) →
        ∀ config ∈ batch.proxies, ∃ e, Describes parse config e ∧
          ∀ e', Owns m' batch.clientId config.proxyId e' ↔ e' = e := by
  have hstep : ∀ (s : ProxyListenerManager) (op : Op) (t : ProxyListenerManager),
      (∀ c p, AtMostOne s c p) → StartsCompatible parse s op → step parse s op = some t →
        ∀ c p, AtMostOne t c p :=
    fun _ _ _ hone hok hstep ↦ atMostOne_step hone hok hstep
  have hnew : ∀ c p, AtMostOne new c p := fun c p e _ he ↦ (not_owns_new c p e he).elim
  have hone : ∀ c p, AtMostOne m c p := run_invariant hstep hnew hok hrun
  refine ⟨hone, fun batch binds m' hcompat hstart ↦ ?_⟩
  exact (startClientProxiesFromConfigs_one hstart hone hcompat).2 rfl

/-- A web proxy of client 1 under the given domain. -/
def webConfig (domain : String) : ProxyConfig where
  proxyId := 7
  clientId := "1"
  name := "web"
  proxyType := "http"
  domain := domain
  upstreamUrl := ""
  userId := some 1
  localIp := "127.0.0.1"
  localPort := 8080
  remotePort := 80
  enabled := true

def webBatch (domain : String) : Batch where
  clientId := "1"
  proxies := [webConfig domain]
  owned := by simp [webConfig]
  nodup := List.nodup_singleton _

def noUrls : UrlParser := fun _ ↦ .error "relative URL without a base"

def bindsSucceed : Binds := fun _ _ ↦ .ok ()

/-- A shell of client 1 behind a port of its own. -/
def sshConfig : ProxyConfig where
  proxyId := 8
  clientId := "1"
  name := "ssh"
  proxyType := "tcp"
  domain := ""
  upstreamUrl := ""
  userId := some 1
  localIp := "127.0.0.1"
  localPort := 22
  remotePort := 2222
  enabled := true

def homeBatch : Batch where
  clientId := "1"
  proxies := [webConfig "a.example.com", sshConfig]
  owned := by decide
  nodup := by decide

/-- Client 1 comes back with the same two proxies. -/
theorem one_route_per_proxy_homeBatch :
    ∃ m, run (step noUrls) new [.startClientProxies homeBatch bindsSucceed] = some m ∧
      (∀ c p, AtMostOne m c p) ∧
        ∀ config ∈ homeBatch.proxies, ∃ e, Describes noUrls config e ∧
          ∀ e', Owns (m.startClientProxiesFromConfigs noUrls bindsSucceed homeBatch.clientId
            homeBatch.proxies).1 homeBatch.clientId config.proxyId e' ↔ e' = e := by
  have hrun : run (step noUrls) new [.startClientProxies homeBatch bindsSucceed] = some _ := rfl
  have hfirst : StartsCompatible noUrls new (.startClientProxies homeBatch bindsSucceed) :=
    fun config _ e he ↦ (not_owns_new _ _ e he).elim
  have hok : (new.startClientProxiesFromConfigs noUrls bindsSucceed homeBatch.clientId
      homeBatch.proxies).2 = .ok () :=
    by decide +kernel
  obtain ⟨hone, hstart⟩ := one_route_per_proxy hrun ⟨hfirst, fun _ _ ↦ trivial⟩
  refine ⟨_, hrun, hone, hstart homeBatch bindsSucceed _ ?_ ?_⟩
  · exact compatible_restart (Prod.ext rfl hok) (fun c p e _ he ↦ (not_owns_new c p e he).elim)
      hfirst
  · exact Prod.ext rfl (by decide +kernel)

/-- A reconnect with a changed domain leaves the proxy with two routes. -/
theorem not_atMostOne_domain_change :
    ∃ m, run (step noUrls) new
        [.startClientProxies (webBatch "a.example.com") bindsSucceed,
          .startClientProxies (webBatch "b.example.com") bindsSucceed] = some m ∧
      ¬ AtMostOne m "1" 7 := by
  refine ⟨_, rfl, fun hone ↦ ?_⟩
  have hroutes := hone
    (.route 80 "a.example.com" "http" ⟨webConfig "a.example.com", none⟩)
    (.route 80 "b.example.com" "http" ⟨webConfig "b.example.com", none⟩)
    ⟨by decide +kernel, rfl, rfl⟩ ⟨by decide +kernel, rfl, rfl⟩
  simp at hroutes

end ProxyListenerManager

end Oxiproxy.Node
