import Oxiproxy.Node.ListenerTable
import Oxiproxy.Node.LocalProxyControl

/-!
# Bad configurations in a bulk start

Starting the proxies of a client ends at the first one that fails, and so does
the replacement of the direct proxies at the first configuration that it takes
for invalid.  What stands behind is not started.
-/

namespace Oxiproxy.Node

open ProxyListenerManager

variable (parse : UrlParser) (binds : Binds)

/-- The port takes a route for the domain: it can be bound, or is shared by routes
of the same kind of which none is in the way. -/
structure PortOpen (listeners : DomainListeners) (config : ProxyConfig) (domain : String) : Prop where
  free : listeners.lookup config.remotePort = none → binds .tcp config.remotePort = .ok ()
  kind : ∀ listener, listeners.lookup config.remotePort = some listener →
    listener.kind = config.proxyType
  owner : ∀ listener old, listeners.lookup config.remotePort = some listener →
    listener.routes.lookup domain = some old →
      old.config.proxyId = config.proxyId ∧ old.config.clientId = config.clientId

/-- The configuration is of a known kind, its domain and upstream are valid, and
its port can be bound or shared. -/
def Startable (m : ProxyListenerManager) (config : ProxyConfig) : Prop :=
  if isDomainKind config.proxyType = true then
    ∃ domain upstream, normalizePattern config.domain = .ok domain ∧
      routeUpstream parse { config with domain } = .ok upstream ∧
      PortOpen binds m.domains config domain
  else
    (config.proxyType = "tcp" ∨ config.proxyType = "udp") ∧
      binds (.ofString config.proxyType) config.remotePort = .ok ()

/-- The transport whose port the proxy needs. -/
def transport (config : ProxyConfig) : ProxyProtocol :=
  if isDomainKind config.proxyType then .tcp else .ofString config.proxyType

/-- Two routes may share a port. -/
def SharePort (a b : ProxyConfig) : Prop :=
  isDomainKind a.proxyType = true ∧ a.proxyType = b.proxyType ∧
    normalizePattern a.domain ≠ normalizePattern b.domain

/-- The two proxies cannot both run. -/
def Conflict (a b : ProxyConfig) : Prop :=
  a.remotePort = b.remotePort ∧ transport a = transport b ∧ ¬ SharePort a b

/-- The proxy has the endpoint that its configuration asks for. -/
def Running (m : ProxyListenerManager) (config : ProxyConfig) : Prop :=
  ∃ e, Owns m config.clientId config.proxyId e ∧ Describes parse config e

/-- A listener of the proxy is left as it is. -/
def Skipped (m : ProxyListenerManager) (config : ProxyConfig) : Prop :=
  config.proxyId ∈ m.clientListeners config.clientId

/-- The configuration can be started and no outdated listener of its proxy is
left. -/
structure Good (m : ProxyListenerManager) (config : ProxyConfig) : Prop where
  startable : Startable parse binds m config
  current : Skipped m config → Running parse m config

/-- The configuration cannot be started and is not skipped. -/
def Bad (m : ProxyListenerManager) (config : ProxyConfig) : Prop :=
  ¬ Skipped m config ∧ ¬ Startable parse binds m config

/-- Different proxies of one client, of which those that can be started do not
conflict with one another. -/
structure Coherent (clientId : String) (startable : ProxyConfig → Prop)
    (configs : List ProxyConfig) : Prop where
  client : ∀ config ∈ configs, config.clientId = clientId
  ids : configs.Pairwise fun a b ↦ a.proxyId ≠ b.proxyId
  conflict : configs.Pairwise fun a b ↦ startable a → startable b → ¬ Conflict a b

/-! ## Which starts succeed -/

section Start

variable {parse binds} {m m' : ProxyListenerManager} {listeners listeners' : DomainListeners}
  {config a b : ProxyConfig} {clientId : String}

theorem start_isOk_iff :
    (∃ listeners', listeners.start parse binds config = .ok listeners') ↔
      ∃ domain upstream, normalizePattern config.domain = .ok domain ∧
        routeUpstream parse { config with domain } = .ok upstream ∧
        PortOpen binds listeners config domain := by
  constructor
  · rintro ⟨listeners', h⟩
    obtain ⟨domain, hdomain, hstart⟩ := bind_eq_ok.mp h
    obtain ⟨upstream, hupstream, hstart⟩ := bind_eq_ok.mp hstart
    refine ⟨domain, upstream, hdomain, hupstream, ?_⟩
    cases hport : listeners.lookup config.remotePort with
    | none =>
        simp only [hport] at hstart
        obtain ⟨⟨⟩, hbind, -⟩ := bind_eq_ok.mp hstart
        refine ⟨fun _ ↦ hbind, fun listener hsome ↦ ?_, fun listener old hsome ↦ ?_⟩ <;>
          simp [hport] at hsome
    | some listener =>
        simp only [hport] at hstart
        obtain ⟨listener', hadd, -⟩ := bind_eq_ok.mp hstart
        obtain ⟨hkind, howner, -⟩ := addRoute_eq_ok hadd
        refine ⟨fun hnone ↦ (by simp [hport] at hnone), fun l hl ↦ ?_, fun l old hl hold ↦ ?_⟩
        · obtain rfl := Option.some.inj (hport.symm.trans hl)
          exact hkind
        · obtain rfl := Option.some.inj (hport.symm.trans hl)
          exact howner old hold
  · rintro ⟨domain, upstream, hdomain, hupstream, hopen⟩
    unfold DomainListeners.start
    simp only [hdomain, hupstream, bind, Except.bind, pure, Except.pure]
    cases hport : listeners.lookup config.remotePort with
    | none => simp [hopen.free hport]
    | some listener =>
        have hkind : listener.kind = config.proxyType := hopen.kind listener hport
        have howner : (listener.routes.lookup domain).all (fun old ↦
            old.config.proxyId == config.proxyId && old.config.clientId == config.clientId) =
              true := by
          cases hold : listener.routes.lookup domain with
          | none => rfl
          | some old =>
              obtain ⟨hid, hclient⟩ := hopen.owner listener old hport hold
              simp [hid, hclient]
        simp [DomainListeners.addRoute, hkind, howner, ensure, bind, Except.bind, pure, Except.pure]

theorem preflight_eq_ok :
    preflight binds config = .ok () ↔ binds (.ofString config.proxyType) config.remotePort = .ok () := by
  unfold preflight
  dsimp only
  cases binds (.ofString config.proxyType) config.remotePort with
  | ok => simp
  | error e => simp

theorem startProxy_isOk_iff (hclient : config.clientId = clientId) :
    (∃ m', m.startProxy parse binds clientId config = .ok m') ↔
      Skipped m config ∨ Startable parse binds m config := by
  subst hclient
  unfold ProxyListenerManager.startProxy Skipped Startable
  by_cases hskip : config.proxyId ∈ m.clientListeners config.clientId
  · simp [hskip, pure, Except.pure]
  · rw [if_neg hskip, or_iff_right hskip]
    cases hkind : isDomainKind config.proxyType with
    | true =>
        rw [if_pos rfl, if_pos rfl, ← start_isOk_iff]
        constructor
        · rintro ⟨m', h⟩
          obtain ⟨domains, hdomains, -⟩ := bind_eq_ok.mp h
          exact ⟨domains, hdomains⟩
        · rintro ⟨domains, hdomains⟩
          exact ⟨_, bind_eq_ok.mpr ⟨domains, hdomains, rfl⟩⟩
    | false =>
        rw [if_neg Bool.false_ne_true, if_neg Bool.false_ne_true]
        constructor
        · rintro ⟨m', h⟩
          obtain ⟨_, htype, h⟩ := bind_eq_ok.mp h
          obtain ⟨_, hbind, -⟩ := bind_eq_ok.mp h
          rw [ensure_eq_ok] at htype
          exact ⟨by simpa using htype, preflight_eq_ok.mp hbind⟩
        · rintro ⟨htype, hbind⟩
          refine ⟨_, bind_eq_ok.mpr ⟨(), ?_, bind_eq_ok.mpr ⟨(), preflight_eq_ok.mpr hbind, rfl⟩⟩⟩
          rw [ensure_eq_ok]
          simpa using htype

/-! ## What a start does to the other proxies -/

/-- The port that a route is started on has its kind, its route and the routes
that were there before. -/
theorem lookup_start (h : listeners.start parse binds a = .ok listeners') :
    ∃ domain upstream listener, normalizePattern a.domain = .ok domain ∧
      PortOpen binds listeners a domain ∧
      (∀ port, port ≠ a.remotePort → listeners'.lookup port = listeners.lookup port) ∧
      listeners'.lookup a.remotePort = some listener ∧ listener.kind = a.proxyType ∧
      listener.routes.lookup domain = some ⟨{ a with domain }, upstream⟩ ∧
      ∀ d, d ≠ domain →
        listener.routes.lookup d = (listeners.lookup a.remotePort).bind (·.routes.lookup d) := by
  obtain ⟨domain, upstream, hdomain, -, hcases⟩ := DomainListeners.start_cases h
  obtain ⟨domain', -, hdomain', -, hopen⟩ := start_isOk_iff.mp ⟨listeners', h⟩
  obtain rfl := Except.ok.inj (hdomain'.symm.trans hdomain)
  rcases hcases with ⟨old, hold, hkind, -, rfl⟩ | ⟨hnone, rfl⟩
  · refine ⟨domain', upstream, _, hdomain, hopen, fun port hport ↦ AList.lookup_insert_ne hport,
      AList.lookup_insert _, hkind, AList.lookup_insert _, fun d hd ↦ ?_⟩
    rw [hold, Option.bind_some]
    exact AList.lookup_insert_ne hd
  · refine ⟨domain', upstream, _, hdomain, hopen, fun port hport ↦ AList.lookup_insert_ne hport,
      AList.lookup_insert _, rfl, AList.lookup_insert _, fun d hd ↦ ?_⟩
    rw [hnone, Option.bind_none]
    exact AList.lookup_insert_ne hd

/-- A route that can be started beside another one could be started before. -/
theorem PortOpen.of_start {domain : String} (h : listeners.start parse binds a = .ok listeners')
    (hid : a.proxyId ≠ b.proxyId) (hopen : PortOpen binds listeners' b domain) :
    PortOpen binds listeners b domain := by
  obtain ⟨domain', upstream, listener, -, hopen', hother, hlookup, hkind, hroute, hold⟩ := lookup_start h
  by_cases hport : b.remotePort = a.remotePort
  · have hsame : listener.kind = b.proxyType := hopen.kind listener (by rw [hport, hlookup])
    refine ⟨fun hnone ↦ ?_, fun l hl ↦ ?_, fun l old hl hlookup' ↦ ?_⟩
    · rw [hport] at hnone ⊢
      exact hopen'.free hnone
    · rw [hport] at hl
      rw [hopen'.kind l hl, ← hkind, hsame]
    · have howner := hopen.owner listener
      rw [hport] at hl howner
      by_cases hd : domain = domain'
      · obtain ⟨hsameId, -⟩ := howner _ hlookup (hd ▸ hroute)
        exact absurd hsameId hid
      · refine howner old hlookup ?_
        rw [hold domain hd, hl, Option.bind_some, hlookup']
  · have hlookup' := hother b.remotePort hport
    refine ⟨fun hnone ↦ hopen.free (hlookup'.trans hnone), fun l hl ↦ hopen.kind l (hlookup'.trans hl),
      fun l old hl ↦ hopen.owner l old (hlookup'.trans hl)⟩

/-- A route that does not conflict with the started one can still be started. -/
theorem PortOpen.start {domain : String} (hopen : PortOpen binds listeners b domain)
    (hdomain : normalizePattern b.domain = .ok domain)
    (h : listeners.start parse binds a = .ok listeners')
    (hshare : b.remotePort = a.remotePort → SharePort a b) : PortOpen binds listeners' b domain := by
  obtain ⟨domain', upstream, listener, hdomain', -, hother, hlookup, hkind, hroute, hold⟩ :=
    lookup_start h
  by_cases hport : b.remotePort = a.remotePort
  · obtain ⟨-, hsame, hne⟩ := hshare hport
    rw [hdomain, hdomain'] at hne
    have hd : domain ≠ domain' := fun heq ↦ hne (by rw [heq])
    refine ⟨fun hnone ↦ ?_, fun l hl ↦ ?_, fun l old hl hlookup' ↦ ?_⟩
    · rw [hport, hlookup] at hnone
      cases hnone
    · rw [hport, hlookup] at hl
      obtain rfl := Option.some.inj hl
      exact hkind.trans hsame
    · rw [hport, hlookup] at hl
      obtain rfl := Option.some.inj hl
      rw [hold domain hd, Option.bind_eq_some_iff] at hlookup'
      obtain ⟨l, hl, hroute'⟩ := hlookup'
      exact hopen.owner l old (by rw [hport, hl]) hroute'
  · have hlookup' := hother b.remotePort hport
    refine ⟨fun hnone ↦ hopen.free (hlookup'.symm.trans hnone),
      fun l hl ↦ hopen.kind l (hlookup'.symm.trans hl),
      fun l old hl ↦ hopen.owner l old (hlookup'.symm.trans hl)⟩

theorem startable_startProxy_iff (h : m.startProxy parse binds clientId a = .ok m')
    (hclient : a.clientId = clientId) (hid : a.proxyId ≠ b.proxyId)
    (hconflict : Startable parse binds m a → Startable parse binds m b → ¬ Conflict a b) :
    Startable parse binds m' b ↔ Startable parse binds m b := by
  have hstartable : ¬ Skipped m a → Startable parse binds m a := fun hskip ↦
    ((startProxy_isOk_iff hclient).mp ⟨m', h⟩).resolve_left hskip
  subst hclient
  rcases startProxy_cases h with ⟨-, rfl⟩ | ⟨hskip, hkind, domains, hstart, rfl⟩ | ⟨-, -, rfl⟩
  · rfl
  · by_cases hb : isDomainKind b.proxyType = true
    · constructor
      · intro hs
        rw [Startable, if_pos hb] at hs ⊢
        obtain ⟨domain, upstream, hdomain, hupstream, hopen⟩ := hs
        exact ⟨domain, upstream, hdomain, hupstream, hopen.of_start hstart hid⟩
      · intro hs
        have hfree := hconflict (hstartable hskip) hs
        rw [Startable, if_pos hb] at hs ⊢
        obtain ⟨domain, upstream, hdomain, hupstream, hopen⟩ := hs
        refine ⟨domain, upstream, hdomain, hupstream, hopen.start hdomain hstart fun hport ↦ ?_⟩
        by_contra hshare
        have htransport : transport a = transport b := by
          rw [transport, transport, if_pos hkind, if_pos hb]
        exact hfree ⟨hport.symm, htransport, hshare⟩
    · rw [Startable, Startable, if_neg hb, if_neg hb]
  · rfl

theorem skipped_startProxy_iff (h : m.startProxy parse binds clientId a = .ok m')
    (ha : a.clientId = clientId) (hb : b.clientId = clientId) (hid : a.proxyId ≠ b.proxyId) :
    Skipped m' b ↔ Skipped m b := by
  have howns : ∀ m : ProxyListenerManager, Skipped m b ↔
      ∃ task, Owns m clientId b.proxyId (.listener task) := by
    intro m
    rw [Skipped, hb, ← AList.lookup_isSome, Option.isSome_iff_exists]
    rfl
  rw [howns, howns]
  exact exists_congr fun task ↦ owns_startProxy_of_ne h ha (fun hsame ↦ hid hsame.2.symm) _

theorem running_startProxy_iff (h : m.startProxy parse binds clientId a = .ok m')
    (ha : a.clientId = clientId) (hid : a.proxyId ≠ b.proxyId) :
    Running parse m' b ↔ Running parse m b :=
  exists_congr fun e ↦ and_congr_left fun _ ↦
    owns_startProxy_of_ne h ha (fun hsame ↦ hid hsame.2.symm) e

/-- A good configuration that has been started runs. -/
theorem running_of_startProxy (h : m.startProxy parse binds clientId a = .ok m')
    (ha : a.clientId = clientId) (hcurrent : Skipped m a → Running parse m a) :
    Running parse m' a := by
  subst ha
  rcases startProxy_cases h with ⟨hskip, rfl⟩ | ⟨-, hkind, domains, hstart, rfl⟩ | ⟨-, hkind, rfl⟩
  · exact hcurrent hskip
  · obtain ⟨domain, upstream, hdomain, hupstream, -, hroutes⟩ := DomainListeners.start_eq_ok hstart
    refine ⟨.route a.remotePort domain a.proxyType ⟨{ a with domain }, upstream⟩, ⟨?_, rfl, rfl⟩,
      hkind, rfl, rfl, hdomain, rfl, hupstream⟩
    rw [hroutes, if_pos ⟨rfl, rfl⟩]
  · refine ⟨.listener (listenerTask a), ?_, hkind, rfl, rfl, rfl⟩
    simp only [Owns, clientListeners_insert, if_true, AList.lookup_insert]

/-! ## The loops -/

theorem Coherent.cons_iff {startable : ProxyConfig → Prop} {configs : List ProxyConfig} :
    Coherent clientId startable (a :: configs) ↔
      a.clientId = clientId ∧ (∀ b ∈ configs, a.proxyId ≠ b.proxyId) ∧
        (∀ b ∈ configs, startable a → startable b → ¬ Conflict a b) ∧
        Coherent clientId startable configs := by
  constructor
  · rintro ⟨hclient, hids, hconflict⟩
    rw [List.pairwise_cons] at hids hconflict
    exact ⟨hclient a List.mem_cons_self, hids.1, hconflict.1,
      ⟨fun b hb ↦ hclient b (List.mem_cons_of_mem a hb), hids.2, hconflict.2⟩⟩
  · rintro ⟨hclient, hids, hconflict, hrest⟩
    refine ⟨fun b hb ↦ ?_, List.pairwise_cons.mpr ⟨hids, hrest.ids⟩,
      List.pairwise_cons.mpr ⟨hconflict, hrest.conflict⟩⟩
    rcases List.mem_cons.mp hb with rfl | hb
    · exact hclient
    · exact hrest.client b hb

theorem Coherent.congr {startable startable' : ProxyConfig → Prop} {configs : List ProxyConfig}
    (h : Coherent clientId startable configs)
    (hiff : ∀ b ∈ configs, startable' b ↔ startable b) : Coherent clientId startable' configs := by
  refine ⟨h.client, h.ids, h.conflict.imp_of_mem fun ha hb hfree ↦ ?_⟩
  rw [hiff _ ha, hiff _ hb]
  exact hfree

theorem running_startProxies_of_ne {configs : List ProxyConfig}
    (hclient : ∀ b ∈ configs, b.clientId = clientId) (hids : ∀ b ∈ configs, b.proxyId ≠ a.proxyId) :
    Running parse (m.startProxies parse binds clientId configs).1 a ↔ Running parse m a := by
  have hne : ¬ (a.clientId = clientId ∧ a.proxyId ∈ configs.map (·.proxyId)) := by
    rintro ⟨-, hmem⟩
    obtain ⟨b, hb, hsame⟩ := List.mem_map.mp hmem
    exact hids b hb hsame
  exact exists_congr fun e ↦ and_congr_left fun _ ↦ owns_startProxies_of_notMem rfl hclient hne e

/-- The loop over the configurations starts all good ones if and only if no bad
one stands before a good one that does not run yet. -/
theorem running_startProxies_iff {configs : List ProxyConfig}
    (hlist : Coherent clientId (Startable parse binds m) configs) :
    (∀ c ∈ configs, Good parse binds m c →
        Running parse (m.startProxies parse binds clientId configs).1 c) ↔
      configs.Pairwise fun b c ↦ Bad parse binds m b → Good parse binds m c → Running parse m c := by
  induction configs generalizing m with
  | nil => simp
  | cons a configs ih =>
      obtain ⟨ha, hids, hconflict, hrest⟩ := Coherent.cons_iff.mp hlist
      rw [List.pairwise_cons, startProxies]
      cases hstart : m.startProxy parse binds clientId a with
      | error e =>
          -- the loop ends here
          have hbad : Bad parse binds m a := by
            rw [Bad, ← not_or, ← startProxy_isOk_iff ha, hstart]
            rintro ⟨m', hm'⟩
            cases hm'
          constructor
          · intro hall
            have hrunning : ∀ c ∈ configs, Good parse binds m c → Running parse m c :=
              fun c hc ↦ hall c (List.mem_cons_of_mem a hc)
            exact ⟨fun c hc _ ↦ hrunning c hc,
              List.pairwise_of_forall_mem_list fun _ _ c hc _ ↦ hrunning c hc⟩
          · rintro ⟨hrunning, -⟩ c hc hgood
            rcases List.mem_cons.mp hc with rfl | hc
            · exact absurd hgood.startable hbad.2
            · exact hrunning c hc hbad hgood
      | ok m₁ =>
          have hnotBad : ¬ Bad parse binds m a := fun hbad ↦
            ((startProxy_isOk_iff ha).mp ⟨m₁, hstart⟩).elim hbad.1 hbad.2
          have hself : Good parse binds m a →
              Running parse (m₁.startProxies parse binds clientId configs).1 a := by
            intro hgood
            rw [running_startProxies_of_ne hrest.client fun b hb ↦ (hids b hb).symm]
            exact running_of_startProxy hstart ha hgood.current
          have hstartable : ∀ b ∈ configs, Startable parse binds m₁ b ↔ Startable parse binds m b :=
            fun b hb ↦ startable_startProxy_iff hstart ha (hids b hb) (hconflict b hb)
          have hskipped : ∀ b ∈ configs, Skipped m₁ b ↔ Skipped m b := fun b hb ↦
            skipped_startProxy_iff hstart ha (hrest.client b hb) (hids b hb)
          have hrunning : ∀ b ∈ configs, Running parse m₁ b ↔ Running parse m b := fun b hb ↦
            running_startProxy_iff hstart ha (hids b hb)
          have hgood : ∀ b ∈ configs, Good parse binds m₁ b ↔ Good parse binds m b := by
            intro b hb
            constructor
            · exact fun h ↦ ⟨(hstartable b hb).mp h.startable,
                fun hs ↦ (hrunning b hb).mp (h.current ((hskipped b hb).mpr hs))⟩
            · exact fun h ↦ ⟨(hstartable b hb).mpr h.startable,
                fun hs ↦ (hrunning b hb).mpr (h.current ((hskipped b hb).mp hs))⟩
          have hbad : ∀ b ∈ configs, Bad parse binds m₁ b ↔ Bad parse binds m b := fun b hb ↦
            and_congr (not_congr (hskipped b hb)) (not_congr (hstartable b hb))
          have hloop := ih (hrest.congr hstartable)
          have hpairs : (configs.Pairwise fun b c ↦
              Bad parse binds m₁ b → Good parse binds m₁ c → Running parse m₁ c) ↔
              configs.Pairwise fun b c ↦
                Bad parse binds m b → Good parse binds m c → Running parse m c :=
            List.Pairwise.iff_of_mem fun {b c} hb hc ↦ by
              rw [hbad b hb, hgood c hc, hrunning c hc]
          rw [hpairs] at hloop
          constructor
          · intro hall
            refine ⟨fun c _ hbad ↦ absurd hbad hnotBad, hloop.mp fun c hc hc' ↦ ?_⟩
            exact hall c (List.mem_cons_of_mem a hc) ((hgood c hc).mp hc')
          · rintro ⟨-, hpairwise⟩ c hc hc'
            rcases List.mem_cons.mp hc with rfl | hc
            · exact hself hc'
            · exact hloop.mpr hpairwise c hc ((hgood c hc).mpr hc')

/-- An endpoint that is there after a start was there before or is described by
the started configuration. -/
theorem owns_startProxy (h : m.startProxy parse binds clientId a = .ok m')
    (ha : a.clientId = clientId) {p : ℤ} {e : Endpoint} (howns : Owns m' clientId p e) :
    Owns m clientId p e ∨ a.proxyId = p ∧ Describes parse a e := by
  by_cases hp : p = a.proxyId
  · subst hp ha
    rcases startProxy_cases h with ⟨-, rfl⟩ | ⟨-, hkind, domains, hstart, rfl⟩ | ⟨-, hkind, rfl⟩
    · exact .inl howns
    · cases e with
      | listener task => exact .inl howns
      | route port d kind route =>
          obtain ⟨domain, upstream, hdomain, hupstream, -, hroutes⟩ :=
            DomainListeners.start_eq_ok hstart
          obtain ⟨hroute, hclient, hid⟩ := howns
          rw [hroutes] at hroute
          split_ifs at hroute with hkey
          · obtain ⟨rfl, rfl⟩ := hkey
            obtain ⟨rfl, rfl⟩ := Prod.mk.inj (Option.some.inj hroute)
            exact .inr ⟨rfl, hkind, rfl, rfl, hdomain, rfl, hupstream⟩
          · exact .inl ⟨hroute, hclient, hid⟩
    · cases e with
      | listener task =>
          simp only [Owns, clientListeners_insert, if_true, AList.lookup_insert] at howns
          obtain rfl := Option.some.inj howns
          exact .inr ⟨rfl, hkind, rfl, rfl, rfl⟩
      | route port d kind route => exact .inl howns
  · exact .inl ((owns_startProxy_of_ne h ha (fun hsame ↦ hp hsame.2) e).mp howns)

/-- The manager with an entry for the client. -/
def withEntry (m : ProxyListenerManager) (clientId : String) : ProxyListenerManager :=
  { m with listeners := m.listeners.insert clientId (m.clientListeners clientId) }

theorem startClientProxies_cons (configs : List ProxyConfig) :
    (m.startClientProxiesFromConfigs parse binds clientId (a :: configs)).1 =
      match (withEntry m clientId).startProxy parse binds clientId a with
      | .ok m' => (startProxies parse binds clientId m' configs).1
      | .error _ => withEntry m clientId := by
  unfold startClientProxiesFromConfigs
  rw [List.isEmpty_cons, if_neg Bool.false_ne_true, startProxies]
  unfold withEntry
  cases ProxyListenerManager.startProxy parse binds clientId
      { m with listeners := m.listeners.insert clientId (m.clientListeners clientId) } a with
  | ok m₁ => rfl
  | error e => rfl

theorem startClientProxies_one :
    (m.startClientProxiesFromConfigs parse binds clientId [a]).1 =
      match (withEntry m clientId).startProxy parse binds clientId a with
      | .ok m' => m'
      | .error _ => withEntry m clientId :=
  startClientProxies_cons []

theorem skipped_withEntry : Skipped (withEntry m clientId) b ↔ Skipped m b := by
  unfold Skipped withEntry
  rw [clientListeners_insert]
  split_ifs with hc
  · rw [hc]
  · rfl

theorem running_withEntry : Running parse (withEntry m clientId) b ↔ Running parse m b :=
  exists_congr fun e ↦ and_congr_left fun _ ↦ owns_entry m clientId _ _ e

end Start

/-! ## The direct proxies -/

/-- A direct configuration that the sync takes for valid and that can be
started. -/
structure GoodDirect (m : ProxyListenerManager) (config : ProxyConfig) : Prop where
  check : checkDirectConfig config = .ok ()
  startable : Startable parse binds m config

section Sync

variable {parse binds} {m m' : ProxyListenerManager} {a b : ProxyConfig}
  {configs : List ProxyConfig} {p : ℤ} {e : Endpoint}

theorem owns_startOneDirect (hcheck : checkDirectConfig a = .ok ())
    (howns : Owns (m.startClientProxiesFromConfigs parse binds "" [a]).1 "" p e) :
    Owns m "" p e ∨ a.proxyId = p ∧ Describes parse a e := by
  rw [startClientProxies_one] at howns
  cases hstart : (withEntry m "").startProxy parse binds "" a with
  | error err =>
      rw [hstart] at howns
      exact .inl ((owns_entry m "" "" p e).mp howns)
  | ok m₁ =>
      rw [hstart] at howns
      exact (owns_startProxy hstart (clientId_of_checkDirectConfig hcheck) howns).imp_left
        (owns_entry m "" "" p e).mp

/-- The direct endpoints after the loop were there before or are described by its
configurations. -/
theorem owns_syncEach (howns : Owns (syncEach parse binds m configs).1 "" p e) :
    Owns m "" p e ∨ ∃ c ∈ configs, c.proxyId = p ∧ Describes parse c e := by
  induction configs generalizing m with
  | nil => exact .inl howns
  | cons a configs ih =>
      rw [syncEach] at howns
      cases hcheck : checkDirectConfig a with
      | error err =>
          rw [hcheck] at howns
          exact .inl howns
      | ok =>
          rw [hcheck] at howns
          rcases ih howns with howns | ⟨c, hc, hdesc⟩
          · exact (owns_startOneDirect hcheck howns).imp_right fun h ↦ ⟨a, List.mem_cons_self, h⟩
          · exact .inr ⟨c, List.mem_cons_of_mem a hc, hdesc⟩

/-- The endpoints of a direct proxy that is not in the list stay. -/
theorem owns_syncEach_of_ne (hids : ∀ b ∈ configs, b.proxyId ≠ p) (howns : Owns m "" p e) :
    Owns (syncEach parse binds m configs).1 "" p e := by
  induction configs generalizing m with
  | nil => exact howns
  | cons a configs ih =>
      rw [syncEach]
      cases hcheck : checkDirectConfig a with
      | error err => exact howns
      | ok =>
          refine ih (fun b hb ↦ hids b (List.mem_cons_of_mem a hb)) ?_
          have hentry : Owns (withEntry m "") "" p e := (owns_entry m "" "" p e).mpr howns
          rw [startClientProxies_one]
          cases hstart : (withEntry m "").startProxy parse binds "" a with
          | error err => exact hentry
          | ok m₁ =>
              have hne : ¬ ("" = "" ∧ p = a.proxyId) := fun hsame ↦
                hids a List.mem_cons_self hsame.2.symm
              exact (owns_startProxy_of_ne hstart (clientId_of_checkDirectConfig hcheck) hne e).mpr
                hentry

/-- A start leaves alone which of the other direct proxies are good. -/
theorem goodDirect_startOne_iff (hcheck : checkDirectConfig a = .ok ())
    (hid : a.proxyId ≠ b.proxyId)
    (hfree : GoodDirect parse binds m a → GoodDirect parse binds m b → ¬ Conflict a b) :
    GoodDirect parse binds (m.startClientProxiesFromConfigs parse binds "" [a]).1 b ↔
      GoodDirect parse binds m b := by
  rw [startClientProxies_one]
  cases hstart : (withEntry m "").startProxy parse binds "" a with
  | error err => exact ⟨fun h ↦ ⟨h.check, h.startable⟩, fun h ↦ ⟨h.check, h.startable⟩⟩
  | ok m₁ =>
      have hiff : checkDirectConfig b = .ok () →
          (Startable parse binds m₁ b ↔ Startable parse binds (withEntry m "") b) := fun hb ↦
        startable_startProxy_iff hstart (clientId_of_checkDirectConfig hcheck) hid fun hsa hsb ↦
          hfree ⟨hcheck, hsa⟩ ⟨hb, hsb⟩
      exact ⟨fun h ↦ ⟨h.check, (hiff h.check).mp h.startable⟩,
        fun h ↦ ⟨h.check, (hiff h.check).mpr h.startable⟩⟩

theorem running_startOneDirect (h : GoodDirect parse binds m a)
    (hfresh : ∀ e, ¬ Owns m "" a.proxyId e) :
    Running parse (m.startClientProxiesFromConfigs parse binds "" [a]).1 a := by
  have ha : a.clientId = "" := clientId_of_checkDirectConfig h.check
  have hstart : ∃ m₁, (withEntry m "").startProxy parse binds "" a = .ok m₁ :=
    (startProxy_isOk_iff ha).mpr (.inr h.startable)
  obtain ⟨m₁, hstart⟩ := hstart
  have hskip : ¬ Skipped (withEntry m "") a := by
    rw [skipped_withEntry, Skipped, ha, ← AList.lookup_isSome, Option.isSome_iff_exists]
    rintro ⟨task, htask⟩
    exact hfresh (.listener task) htask
  rw [startClientProxies_one, hstart]
  exact running_of_startProxy hstart ha fun h ↦ absurd h hskip

theorem running_syncEach_of_ne (ha : a.clientId = "") (hids : ∀ b ∈ configs, b.proxyId ≠ a.proxyId)
    (h : Running parse m a) : Running parse (syncEach parse binds m configs).1 a := by
  obtain ⟨e, howns, hdesc⟩ := h
  refine ⟨e, ?_, hdesc⟩
  rw [ha] at howns ⊢
  exact owns_syncEach_of_ne hids howns

/-- The loop over the snapshot starts all good direct proxies if and only if no
configuration that it takes for invalid stands before one of them. -/
theorem running_syncEach_iff (hids : configs.Pairwise fun a b ↦ a.proxyId ≠ b.proxyId)
    (hconflict : configs.Pairwise fun a b ↦
      GoodDirect parse binds m a → GoodDirect parse binds m b → ¬ Conflict a b)
    (hfresh : ∀ c ∈ configs, ∀ e, ¬ Owns m "" c.proxyId e) :
    (∀ c ∈ configs, GoodDirect parse binds m c →
        Running parse (syncEach parse binds m configs).1 c) ↔
      configs.Pairwise fun b c ↦ checkDirectConfig b ≠ .ok () → ¬ GoodDirect parse binds m c := by
  induction configs generalizing m with
  | nil => simp
  | cons a configs ih =>
      rw [List.pairwise_cons] at hids hconflict
      have hnotRunning : ∀ c ∈ a :: configs, GoodDirect parse binds m c → ¬ Running parse m c := by
        rintro c hc hgood ⟨e, howns, -⟩
        rw [clientId_of_checkDirectConfig hgood.check] at howns
        exact hfresh c hc e howns
      rw [List.pairwise_cons, syncEach]
      cases hcheck : checkDirectConfig a with
      | error err =>
          -- the loop ends here
          constructor
          · intro hall
            have hnone : ∀ c ∈ configs, ¬ GoodDirect parse binds m c := fun c hc hgood ↦
              hnotRunning c (List.mem_cons_of_mem a hc) hgood
                (hall c (List.mem_cons_of_mem a hc) hgood)
            exact ⟨fun c hc _ ↦ hnone c hc,
              List.pairwise_of_forall_mem_list fun _ _ c hc _ ↦ hnone c hc⟩
          · rintro ⟨hnone, -⟩ c hc hgood
            rcases List.mem_cons.mp hc with rfl | hc
            · have hok := hgood.check
              rw [hcheck] at hok
              cases hok
            · exact absurd hgood (hnone c hc (by simp))
      | ok =>
          have hgood : ∀ b ∈ configs,
              GoodDirect parse binds (m.startClientProxiesFromConfigs parse binds "" [a]).1 b ↔
                GoodDirect parse binds m b := fun b hb ↦
            goodDirect_startOne_iff hcheck (hids.1 b hb) (hconflict.1 b hb)
          have hself : GoodDirect parse binds m a → Running parse (syncEach parse binds
              (m.startClientProxiesFromConfigs parse binds "" [a]).1 configs).1 a := fun h ↦
            running_syncEach_of_ne (clientId_of_checkDirectConfig hcheck)
              (fun b hb ↦ (hids.1 b hb).symm)
              (running_startOneDirect h (hfresh a List.mem_cons_self))
          have hfresh' : ∀ c ∈ configs, ∀ e,
              ¬ Owns (m.startClientProxiesFromConfigs parse binds "" [a]).1 "" c.proxyId e := by
            intro c hc e howns
            rcases owns_startOneDirect hcheck howns with howns | ⟨hsame, -⟩
            · exact hfresh c (List.mem_cons_of_mem a hc) e howns
            · exact hids.1 c hc hsame
          generalize (m.startClientProxiesFromConfigs parse binds "" [a]).1 = m₁ at *
          have hloop := ih hids.2 (hconflict.2.imp_of_mem fun {b c} hb hc hfree ↦ by
            rwa [hgood b hb, hgood c hc]) hfresh'
          have hpairs : (configs.Pairwise fun b c ↦
              checkDirectConfig b ≠ .ok () → ¬ GoodDirect parse binds m₁ c) ↔
              configs.Pairwise fun b c ↦
                checkDirectConfig b ≠ .ok () → ¬ GoodDirect parse binds m c :=
            List.Pairwise.iff_of_mem fun {b c} _ hc ↦ by rw [hgood c hc]
          rw [hpairs] at hloop
          constructor
          · intro hall
            refine ⟨fun c _ hbad ↦ absurd rfl hbad, hloop.mp fun c hc hc' ↦ ?_⟩
            exact hall c (List.mem_cons_of_mem a hc) ((hgood c hc).mp hc')
          · rintro ⟨-, hpairwise⟩ c hc hc'
            rcases List.mem_cons.mp hc with rfl | hc
            · exact hself hc'
            · exact hloop.mpr hpairwise c hc ((hgood c hc).mpr hc')

end Sync

/-- A bulk start leaves every good configuration of a client running if and only
if no bad one stands before a good one that does not run yet.  A sync leaves every
good direct proxy running, and no direct endpoint that its list does not describe,
if and only if no configuration that it takes for invalid stands before a good
one. -/
theorem isolated_iff (parse : UrlParser) (binds : Binds) (m : ProxyListenerManager) :
    (∀ batch : Batch,
      (batch.proxies.Pairwise fun a b ↦
        Startable parse binds m a → Startable parse binds m b → ¬ Conflict a b) →
      ((∀ c ∈ batch.proxies, Good parse binds m c → Running parse
          (m.startClientProxiesFromConfigs parse binds batch.clientId batch.proxies).1 c) ↔
        batch.proxies.Pairwise fun b c ↦
          Bad parse binds m b → Good parse binds m c → Running parse m c)) ∧
    ∀ configs : List ProxyConfig, (configs.Pairwise fun a b ↦ a.proxyId ≠ b.proxyId) →
      (configs.Pairwise fun a b ↦ GoodDirect parse binds (m.stopClientProxies "") a →
        GoodDirect parse binds (m.stopClientProxies "") b → ¬ Conflict a b) →
      (((∀ c ∈ configs, GoodDirect parse binds (m.stopClientProxies "") c →
          Running parse (syncDirectProxies parse binds m configs).1 c) ∧
        ∀ p e, Owns (syncDirectProxies parse binds m configs).1 "" p e →
          ∃ c ∈ configs, c.proxyId = p ∧ Describes parse c e) ↔
        configs.Pairwise fun b c ↦ checkDirectConfig b ≠ .ok () →
          ¬ GoodDirect parse binds (m.stopClientProxies "") c) := by
  constructor
  · intro batch hconflict
    have hids : batch.proxies.Pairwise fun a b ↦ a.proxyId ≠ b.proxyId :=
      List.pairwise_map.mp batch.nodup
    have hlist : Coherent batch.clientId (Startable parse binds (withEntry m batch.clientId))
        batch.proxies := ⟨batch.owned, hids, hconflict⟩
    have hloop := running_startProxies_iff hlist
    have hgood : ∀ c, Good parse binds (withEntry m batch.clientId) c ↔ Good parse binds m c := by
      intro c
      constructor
      · exact fun h ↦ ⟨h.startable, fun hs ↦
          running_withEntry.mp (h.current (skipped_withEntry.mpr hs))⟩
      · exact fun h ↦ ⟨h.startable, fun hs ↦
          running_withEntry.mpr (h.current (skipped_withEntry.mp hs))⟩
    have hbad : ∀ c, Bad parse binds (withEntry m batch.clientId) c ↔ Bad parse binds m c :=
      fun c ↦ and_congr_left fun _ ↦ not_congr skipped_withEntry
    simp only [hgood, hbad, running_withEntry] at hloop
    rw [startClientProxiesFromConfigs]
    cases hempty : batch.proxies.isEmpty with
    | true =>
        rw [List.isEmpty_iff] at hempty
        simp [hempty]
    | false =>
        rw [if_neg Bool.false_ne_true]
        exact hloop
  · intro configs hids hconflict
    have hstopped : ∀ p e, ¬ Owns (m.stopClientProxies "") "" p e := fun p e howns ↦
      ((owns_stopClientProxies m "" "" p e).mp howns).2 rfl
    have hremoved : ∀ p e, Owns (syncDirectProxies parse binds m configs).1 "" p e →
        ∃ c ∈ configs, c.proxyId = p ∧ Describes parse c e := fun p e howns ↦
      (owns_syncEach howns).resolve_left (hstopped p e)
    rw [and_iff_left hremoved]
    exact running_syncEach_iff hids hconflict fun c _ e ↦ hstopped c.proxyId e

/-- A proxy of client 1 of a kind that does not exist. -/
def ftpConfig : ProxyConfig := { webConfig "a.example.com" with proxyId := 8, proxyType := "ftp" }

theorem startable_webConfig : Startable noUrls bindsSucceed new (webConfig "a.example.com") := by
  have hport : (∅ : DomainListeners).lookup 80 = none := rfl
  refine ⟨"a.example.com", none, by decide +kernel, rfl, fun _ ↦ rfl, fun listener h ↦ ?_,
    fun listener old h ↦ ?_⟩ <;> exact absurd (hport.symm.trans h) (by simp)

theorem good_webConfig : Good noUrls bindsSucceed new (webConfig "a.example.com") :=
  ⟨startable_webConfig, fun h ↦ absurd h (AList.notMem_empty _)⟩

theorem not_startable_ftpConfig : ¬ Startable noUrls bindsSucceed new ftpConfig := by
  have hkind : ¬ isDomainKind ftpConfig.proxyType = true := by decide +kernel
  rw [Startable, if_neg hkind]
  rintro ⟨htype, -⟩
  revert htype
  decide

def goodFirst : Batch where
  clientId := "1"
  proxies := [webConfig "a.example.com", ftpConfig]
  owned := by simp [webConfig, ftpConfig]
  nodup := by decide

def badFirst : Batch where
  clientId := "1"
  proxies := [ftpConfig, webConfig "a.example.com"]
  owned := by simp [webConfig, ftpConfig]
  nodup := by decide

theorem isolated_iff_goodFirst :
    Running noUrls (new.startClientProxiesFromConfigs noUrls bindsSucceed "1"
      [webConfig "a.example.com", ftpConfig]).1 (webConfig "a.example.com") := by
  have hconflict : goodFirst.proxies.Pairwise fun a b ↦ Startable noUrls bindsSucceed new a →
      Startable noUrls bindsSucceed new b → ¬ Conflict a b :=
    List.pairwise_pair.mpr fun _ h ↦ absurd h not_startable_ftpConfig
  have hbefore : goodFirst.proxies.Pairwise fun b c ↦ Bad noUrls bindsSucceed new b →
      Good noUrls bindsSucceed new c → Running noUrls new c :=
    List.pairwise_pair.mpr fun hbad _ ↦ absurd startable_webConfig hbad.2
  exact ((isolated_iff noUrls bindsSucceed new).1 goodFirst hconflict).mpr hbefore _
    List.mem_cons_self good_webConfig

/-- A proxy of an unknown kind ends the start before the one behind it. -/
theorem not_isolated_badFirst :
    ¬ ∀ parse binds (m : ProxyListenerManager) (batch : Batch),
      (batch.proxies.Pairwise fun a b ↦
        Startable parse binds m a → Startable parse binds m b → ¬ Conflict a b) →
      ∀ c ∈ batch.proxies, Good parse binds m c → Running parse
        (m.startClientProxiesFromConfigs parse binds batch.clientId batch.proxies).1 c := by
  intro h
  have hconflict : badFirst.proxies.Pairwise fun a b ↦ Startable noUrls bindsSucceed new a →
      Startable noUrls bindsSucceed new b → ¬ Conflict a b :=
    List.pairwise_pair.mpr fun h ↦ absurd h not_startable_ftpConfig
  have hend : (new.startClientProxiesFromConfigs noUrls bindsSucceed "1"
      [ftpConfig, webConfig "a.example.com"]).1 = withEntry new "1" := by
    rw [startClientProxies_cons]
    cases hstart : (withEntry new "1").startProxy noUrls bindsSucceed "1" ftpConfig with
    | error e => rfl
    | ok m₁ =>
        have hskip : ¬ Skipped (withEntry new "1") ftpConfig := by
          rw [skipped_withEntry]
          exact AList.notMem_empty _
        have hstarted := (startProxy_isOk_iff rfl).mp ⟨m₁, hstart⟩
        exact absurd (hstarted.resolve_left hskip) not_startable_ftpConfig
  obtain ⟨e, howns, -⟩ := h noUrls bindsSucceed new badFirst hconflict (webConfig "a.example.com")
    (List.mem_cons_of_mem _ List.mem_cons_self) good_webConfig
  change Owns (new.startClientProxiesFromConfigs noUrls bindsSucceed "1"
    [ftpConfig, webConfig "a.example.com"]).1 "1" 7 e at howns
  rw [hend] at howns
  exact not_owns_new "1" 7 e ((owns_entry new "1" "1" 7 e).mp howns)

end Oxiproxy.Node
