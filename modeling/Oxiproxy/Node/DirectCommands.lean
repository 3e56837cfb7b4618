import Oxiproxy.Node.ListenerTable
import Oxiproxy.Node.LocalProxyControl

/-!
# Direct commands in stream order

The loop over the controller's commands executes those for direct proxies itself
and spawns a task for every other one.  All of them work on the same listeners,
in calls that hold the lock of the table.  The direct routes come out as if the
loop had executed the direct commands alone.  Binds succeed here.
-/

namespace Oxiproxy.Node

open Transition ProxyListenerManager

/-- The commands of the stream, with what the loop needs of them. -/
inductive ControllerCommand
  | syncDirectProxies (configs : List ProxyConfig)
  | startProxy (clientId : String) (proxyId : ℤ) (config : Option ProxyConfig)
  | stopProxy (clientId : String) (proxyId : ℤ)
  | getStatus
  | getClientLogs
  | getNodeLogs
  | updateProtocol
  | updateSpeedLimit
  | softwareUpdate
  | updateCertificate
  | restart

/-- A call of the listener manager; each is atomic. -/
inductive ManagerCall
  | stopClientProxies (clientId : String)
  | stopSingleProxy (clientId : String) (proxyId : ℤ)
  | start (clientId : String) (proxies : List ProxyConfig)

/-- What is left of a spawned task; it asks for the client's proxies once it has
stopped the old listener. -/
inductive ClientTask
  | startProxy (clientId : String) (proxyId : ℤ)
  | getClientProxies (clientId : String) (proxyId : ℤ)
  | stopProxy (clientId : String) (proxyId : ℤ)

def stopProxy (m : ProxyListenerManager) (clientId : String) (proxyId : ℤ) :
    ProxyListenerManager × Except String Unit :=
  (m.stopSingleProxy clientId proxyId, .ok ())

namespace ManagerCall

def apply (parse : UrlParser) (m : ProxyListenerManager) : ManagerCall → ProxyListenerManager
  | stopClientProxies clientId => m.stopClientProxies clientId
  | stopSingleProxy clientId proxyId => m.stopSingleProxy clientId proxyId
  | start clientId proxies =>
      (m.startClientProxiesFromConfigs parse bindsSucceed clientId proxies).1

end ManagerCall

namespace ControllerCommand

/-- The commands that the loop executes itself. -/
def direct : ControllerCommand → Bool
  | syncDirectProxies _ | startProxy _ _ (some _) => true
  | stopProxy clientId _ => clientId.isEmpty
  | _ => false

/-- The listeners after a direct command. -/
def execute (parse : UrlParser) (m : ProxyListenerManager) : ControllerCommand → ProxyListenerManager
  | syncDirectProxies configs => (Node.syncDirectProxies parse bindsSucceed m configs).1
  | startProxy _ _ (some config) => (startDirectProxy parse bindsSucceed m config).1
  | stopProxy clientId proxyId => (Node.stopProxy m clientId proxyId).1
  | _ => m

/-- The calls of the loop over a snapshot, up to the first invalid configuration. -/
def syncCalls : List ProxyConfig → List ManagerCall
  | [] => []
  | config :: configs =>
      match checkDirectConfig config with
      | .error _ => []
      | .ok () => .start "" [config] :: syncCalls configs

/-- The calls that a direct command makes one by one. -/
def calls : ControllerCommand → List ManagerCall
  | syncDirectProxies configs => .stopClientProxies "" :: syncCalls configs
  | startProxy _ _ (some config) =>
      match checkDirectConfig config with
      | .error _ => []
      | .ok () => [.stopSingleProxy "" config.proxyId, .start "" [config]]
  | stopProxy clientId proxyId => [.stopSingleProxy clientId proxyId]
  | _ => []

/-- The configurations in a command. -/
def configs : ControllerCommand → List ProxyConfig
  | syncDirectProxies configs => configs
  | startProxy _ _ config => config.toList
  | _ => []

/-- The task that is spawned for a command and works on the listeners. -/
def task : ControllerCommand → Option ClientTask
  | startProxy clientId proxyId _ => some (.startProxy clientId proxyId)
  | stopProxy clientId proxyId => some (.stopProxy clientId proxyId)
  | _ => none

variable {parse : UrlParser}

theorem foldl_syncCalls (m : ProxyListenerManager) (configs : List ProxyConfig) :
    (syncCalls configs).foldl (ManagerCall.apply parse) m =
      (syncEach parse bindsSucceed m configs).1 := by
  induction configs generalizing m with
  | nil => rfl
  | cons config configs ih =>
      unfold syncCalls syncEach
      cases checkDirectConfig config with
      | error e => rfl
      | ok u => exact ih _

/-- One by one, the calls of a direct command do what the command does. -/
theorem foldl_calls (m : ProxyListenerManager) (cmd : ControllerCommand) :
    cmd.calls.foldl (ManagerCall.apply parse) m = cmd.execute parse m := by
  cases cmd with
  | syncDirectProxies configs => exact foldl_syncCalls _ configs
  | startProxy clientId proxyId config =>
      cases config with
      | none => rfl
      | some config =>
          simp only [calls, execute, startDirectProxy]
          cases checkDirectConfig config <;> rfl
  | _ => rfl

end ControllerCommand

namespace ClientTask

/-- The next call of a task and what is left of it, when it is answered with the
proxies of its client. -/
def next (answer : Except String (List ProxyConfig)) : ClientTask → Option ManagerCall × Option ClientTask
  | startProxy clientId proxyId =>
      (some (.stopSingleProxy clientId proxyId),
        (parseI64 clientId).map fun _ ↦ .getClientProxies clientId proxyId)
  | getClientProxies clientId proxyId =>
      match answer with
      | .error _ => (none, none)
      | .ok allProxies =>
          (some (.start clientId
            (allProxies.filter fun p ↦ p.proxyId == proxyId && p.enabled)), none)
  | stopProxy clientId proxyId => (some (.stopSingleProxy clientId proxyId), none)

def clientId : ClientTask → String
  | startProxy clientId _ | getClientProxies clientId _ | stopProxy clientId _ => clientId

end ClientTask

/-- The loop over the commands and the tasks it has spawned. -/
structure CommandLoop where
  manager : ProxyListenerManager
  stream : List ControllerCommand
  /-- What is left of the direct command being executed. -/
  executing : List ManagerCall
  tasks : List ClientTask

namespace CommandLoop

inductive Input
  | receive
  | execute
  | task (i : ℕ) (answer : Except String (List ProxyConfig))

/-- The lock of the direct commands is left out: without it the tasks may
interleave even more. -/
def step (parse : UrlParser) (s : CommandLoop) : Input → Option CommandLoop
  | .receive =>
      match s.executing, s.stream with
      | [], cmd :: stream =>
          if cmd.direct then some { s with stream, executing := cmd.calls }
          else some { s with stream, tasks := s.tasks ++ cmd.task.toList }
      | _, _ => none
  | .execute =>
      match s.executing with
      | [] => none
      | call :: executing => some { s with manager := call.apply parse s.manager, executing }
  | .task i answer =>
      s.tasks[i]?.map fun task ↦
        { s with
          manager := ((task.next answer).1.map (ManagerCall.apply parse s.manager)).getD s.manager
          tasks := s.tasks.eraseIdx i ++ (task.next answer).2.toList }

end CommandLoop

/-! ## What is shared -/

/-- A route of this port, kind and domain is in the way of a direct proxy. -/
def Blocks (port : UInt16) (kind domain : String) (config : ProxyConfig) : Prop :=
  isDomainKind config.proxyType = true ∧ config.remotePort = port ∧
    (kind ≠ config.proxyType ∨ normalizePattern config.domain = .ok domain)

/-- A client's proxy that is not in the way of any of the direct ones. -/
def Peaceful (directs : List ProxyConfig) (config : ProxyConfig) : Prop :=
  config.clientId ≠ "" ∧ (isDomainKind config.proxyType = true →
    ∀ domain, normalizePattern config.domain = .ok domain → ∀ d ∈ directs,
      ¬ Blocks config.remotePort config.proxyType domain d)

/-- The clients' routes that there are are not in the way of the direct proxies. -/
structure Undisturbed (directs : List ProxyConfig) (m : ProxyListenerManager) : Prop where
  wellFormed : m.domains.WellFormed
  free : ∀ port domain kind route, routeAt m.domains port domain = some (kind, route) →
    route.config.clientId ≠ "" → ∀ d ∈ directs, ¬ Blocks port kind domain d

/-- The same direct proxies have the same endpoints. -/
def SameDirect (m m' : ProxyListenerManager) : Prop :=
  ∀ p e, Owns m "" p e ↔ Owns m' "" p e

namespace DomainListeners

variable {parse : UrlParser} {listeners listeners' : DomainListeners} {config : ProxyConfig}

theorem routeUpstream_domain (parse : UrlParser) (config : ProxyConfig) (domain : String) :
    routeUpstream parse { config with domain } = routeUpstream parse config := rfl

/-- When binds succeed, a start fails for the configuration or for the routes
that the port has. -/
theorem start_ok_iff (hwf : WellFormed listeners) :
    (∃ listeners', listeners.start parse bindsSucceed config = .ok listeners') ↔
      ∃ domain upstream, normalizePattern config.domain = .ok domain ∧
        routeUpstream parse config = .ok upstream ∧
        (∀ d kind route, routeAt listeners config.remotePort d = some (kind, route) →
          kind = config.proxyType) ∧
        ∀ kind route, routeAt listeners config.remotePort domain = some (kind, route) →
          route.config.proxyId = config.proxyId ∧ route.config.clientId = config.clientId := by
  constructor
  · rintro ⟨listeners', h⟩
    obtain ⟨domain, upstream, hdomain, hupstream, howner, -⟩ := start_eq_ok h
    refine ⟨domain, upstream, hdomain, hupstream, fun d kind route hroute ↦ ?_,
      fun kind route hroute ↦ (howner kind route hroute).symm⟩
    obtain ⟨listener, hport, rfl, hr⟩ := routeAt_eq_some.mp hroute
    obtain ⟨-, -, -, -, ⟨listener', hport', hkind, -⟩ | ⟨hnone, -⟩⟩ := start_cases h
    · obtain rfl := Option.some.inj (hport.symm.trans hport')
      exact hkind
    · rw [hnone] at hport
      cases hport
  · rintro ⟨domain, upstream, hdomain, hupstream, hkind, howner⟩
    simp only [start, hdomain, routeUpstream_domain, hupstream, bind, Except.bind, pure, Except.pure]
    cases hport : listeners.lookup config.remotePort with
    | none => exact ⟨_, rfl⟩
    | some listener =>
        obtain ⟨d, route, hroute⟩ := (hwf _ _ hport).nonempty
        have hsame := hkind d listener.kind route (routeAt_eq_some.mpr ⟨listener, hport, rfl, hroute⟩)
        have hfree : (listener.routes.lookup domain).all (fun old ↦
            old.config.proxyId == config.proxyId && old.config.clientId == config.clientId) =
              true := by
          cases hold : listener.routes.lookup domain with
          | none => rfl
          | some old =>
              obtain ⟨hid, hclient⟩ := howner listener.kind old
                (routeAt_eq_some.mpr ⟨listener, hport, rfl, hold⟩)
              simp [hid, hclient]
        simp [addRoute, hsame, hfree, ensure, bind, Except.bind, pure, Except.pure]

end DomainListeners

section Clients

variable {parse : UrlParser} {directs : List ProxyConfig} {m m' : ProxyListenerManager}
  {clientId : String} {config : ProxyConfig}

theorem SameDirect.refl (m : ProxyListenerManager) : SameDirect m m := fun _ _ ↦ Iff.rfl

theorem SameDirect.symm (h : SameDirect m m') : SameDirect m' m := fun p e ↦ (h p e).symm

theorem SameDirect.trans {m'' : ProxyListenerManager} (h : SameDirect m m')
    (h' : SameDirect m' m'') : SameDirect m m'' := fun p e ↦ (h p e).trans (h' p e)

theorem SameDirect.mem_iff (h : SameDirect m m') (p : ℤ) :
    p ∈ m.clientListeners "" ↔ p ∈ m'.clientListeners "" := by
  rw [← AList.lookup_isSome, ← AList.lookup_isSome, Option.isSome_iff_exists,
    Option.isSome_iff_exists]
  exact exists_congr fun task ↦ h p (.listener task)

theorem Undisturbed.stop (h : Undisturbed directs m) (client : String) (proxy : Option ℤ)
    (listeners : AList fun _ : String ↦ AList fun _ : Int ↦ ListenerTask) :
    Undisturbed directs ⟨m.domains.stop client proxy, listeners⟩ :=
  ⟨h.wellFormed.stop client proxy, fun port domain kind route hroute ↦
    h.free port domain kind route ((routeAt_stop _ _ _).mp hroute).1⟩

/-- A started route is free if it is a direct one or one of a peaceful client. -/
theorem Undisturbed.start (h : Undisturbed directs m) {binds : Binds} {domains : DomainListeners}
    (hstart : m.domains.start parse binds config = .ok domains)
    (hconfig : config.clientId ≠ "" → Peaceful directs config)
    (hkind : isDomainKind config.proxyType = true)
    (listeners : AList fun _ : String ↦ AList fun _ : Int ↦ ListenerTask) :
    Undisturbed directs ⟨domains, listeners⟩ := by
  obtain ⟨domain, upstream, hdomain, -, -, hroutes⟩ := DomainListeners.start_eq_ok hstart
  refine ⟨h.wellFormed.start hstart, fun port d kind route hroute hclient ↦ ?_⟩
  rw [hroutes] at hroute
  split_ifs at hroute with hkey
  · obtain ⟨rfl, rfl⟩ := hkey
    obtain ⟨rfl, rfl⟩ := Prod.mk.inj (Option.some.inj hroute)
    exact (hconfig hclient).2 hkind d hdomain
  · exact h.free port d kind route hroute hclient

/-- A client's proxy is started without a change for the direct ones. -/
theorem client_startProxy (hm : Undisturbed directs m) {binds : Binds} (hclient : clientId ≠ "")
    (hconfig : Peaceful directs config)
    (h : ProxyListenerManager.startProxy parse binds clientId m config = .ok m') :
    Undisturbed directs m' ∧ SameDirect m m' := by
  rcases startProxy_cases h with ⟨-, rfl⟩ | ⟨-, hkind, domains, hstart, rfl⟩ | ⟨-, -, rfl⟩
  · exact ⟨hm, .refl _⟩
  · refine ⟨hm.start hstart (fun _ ↦ hconfig) hkind _, fun p e ↦ ?_⟩
    cases e with
    | listener task => exact Iff.rfl
    | route port d kind route =>
        obtain ⟨domain, upstream, -, -, hold, hroutes⟩ := DomainListeners.start_eq_ok hstart
        simp only [Owns, hroutes]
        split_ifs with hkey
        · obtain ⟨rfl, rfl⟩ := hkey
          constructor
          · rintro ⟨hroute, hnone, -⟩
            exact (hconfig.1 ((hold _ _ hroute).1.symm.trans hnone)).elim
          · rintro ⟨hroute, hnone, -⟩
            obtain ⟨-, rfl⟩ := Prod.mk.inj (Option.some.inj hroute)
            exact (hconfig.1 hnone).elim
        · exact Iff.rfl
  · refine ⟨⟨hm.wellFormed, hm.free⟩, fun p e ↦ ?_⟩
    cases e with
    | listener task => simp only [Owns, clientListeners_insert, if_neg (Ne.symm hclient)]
    | route port d kind route => exact Iff.rfl

theorem client_startProxies (hm : Undisturbed directs m) {binds : Binds} (hclient : clientId ≠ "")
    {proxies : List ProxyConfig} (hproxies : ∀ config ∈ proxies, Peaceful directs config) :
    Undisturbed directs (startProxies parse binds clientId m proxies).1 ∧
      SameDirect m (startProxies parse binds clientId m proxies).1 := by
  induction proxies generalizing m with
  | nil => exact ⟨hm, .refl _⟩
  | cons config proxies ih =>
      rw [startProxies]
      cases hstart : ProxyListenerManager.startProxy parse binds clientId m config with
      | error e => exact ⟨hm, .refl _⟩
      | ok m₁ =>
          obtain ⟨hm₁, hsame⟩ := client_startProxy hm hclient (hproxies _ List.mem_cons_self) hstart
          obtain ⟨hm', hsame'⟩ := ih hm₁ fun config h ↦ hproxies config (List.mem_cons_of_mem _ h)
          exact ⟨hm', hsame.trans hsame'⟩

/-- The call is made for a client, and starts peaceful proxies only. -/
def ManagerCall.ForClient (directs : List ProxyConfig) : ManagerCall → Prop
  | .stopClientProxies clientId | .stopSingleProxy clientId _ => clientId ≠ ""
  | .start clientId proxies => clientId ≠ "" ∧ ∀ config ∈ proxies, Peaceful directs config

/-- A call for a client changes nothing for the direct proxies. -/
theorem ManagerCall.ForClient.apply (hm : Undisturbed directs m) {call : ManagerCall}
    (hcall : call.ForClient directs) :
    Undisturbed directs (call.apply parse m) ∧ SameDirect m (call.apply parse m) := by
  cases call with
  | stopClientProxies clientId =>
      refine ⟨hm.stop clientId none _, fun p e ↦ ?_⟩
      exact ((owns_stopClientProxies m clientId "" p e).trans (and_iff_left hcall.symm)).symm
  | stopSingleProxy clientId proxyId =>
      refine ⟨hm.stop clientId (some proxyId) _, fun p e ↦ ?_⟩
      refine ((owns_stopSingleProxy m clientId "" proxyId p e).trans (and_iff_left ?_)).symm
      exact fun h ↦ hcall h.1.symm
  | start clientId proxies =>
      simp only [ManagerCall.apply, startClientProxiesFromConfigs]
      split_ifs
      · exact ⟨hm, .refl _⟩
      · have hentry : SameDirect m
            ⟨m.domains, m.listeners.insert clientId (m.clientListeners clientId)⟩ :=
          fun p e ↦ (owns_entry m clientId "" p e).symm
        have hm₁ : Undisturbed directs
            ⟨m.domains, m.listeners.insert clientId (m.clientListeners clientId)⟩ :=
          ⟨hm.wellFormed, hm.free⟩
        obtain ⟨hm', hsame⟩ := client_startProxies hm₁ hcall.1 hcall.2
        exact ⟨hm', hentry.trans hsame⟩

end Clients

section Directs

variable {parse : UrlParser} {directs : List ProxyConfig} {m m' : ProxyListenerManager}
  {config : ProxyConfig}

/-- A direct proxy that starts beside some clients' routes starts beside others. -/
theorem direct_start_ok (hm : Undisturbed directs m) (hm' : Undisturbed directs m')
    (hsame : SameDirect m m') (hmem : config ∈ directs)
    (hkind : isDomainKind config.proxyType = true)
    (h : ∃ domains, m'.domains.start parse bindsSucceed config = .ok domains) :
    ∃ domains, m.domains.start parse bindsSucceed config = .ok domains := by
  obtain ⟨domain, upstream, hdomain, hupstream, hkinds, howner⟩ :=
    (DomainListeners.start_ok_iff hm'.wellFormed).mp h
  refine (DomainListeners.start_ok_iff hm.wellFormed).mpr
    ⟨domain, upstream, hdomain, hupstream, fun d kind route hroute ↦ ?_, fun kind route hroute ↦ ?_⟩
  all_goals by_cases hclient : route.config.clientId = ""
  · have howns : Owns m "" route.config.proxyId (.route config.remotePort d kind route) :=
      ⟨hroute, hclient, rfl⟩
    exact hkinds d kind route ((hsame _ _).mp howns).1
  · by_contra hne
    exact hm.free _ d kind route hroute hclient config hmem ⟨hkind, rfl, .inl hne⟩
  · have howns : Owns m "" route.config.proxyId (.route config.remotePort domain kind route) :=
      ⟨hroute, hclient, rfl⟩
    exact howner kind route ((hsame _ _).mp howns).1
  · exact (hm.free _ domain kind route hroute hclient config hmem
      ⟨hkind, rfl, .inr hdomain⟩).elim

theorem SameDirect.start {binds : Binds} {domains domains' : DomainListeners}
    {listeners listeners' : AList fun _ : String ↦ AList fun _ : Int ↦ ListenerTask}
    (hsame : SameDirect ⟨m.domains, listeners⟩ ⟨m'.domains, listeners'⟩)
    (h : m.domains.start parse binds config = .ok domains)
    (h' : m'.domains.start parse binds config = .ok domains') :
    SameDirect ⟨domains, listeners⟩ ⟨domains', listeners'⟩ := by
  obtain ⟨domain, upstream, hdomain, hupstream, -, hroutes⟩ := DomainListeners.start_eq_ok h
  obtain ⟨domain', upstream', hdomain', hupstream', -, hroutes'⟩ := DomainListeners.start_eq_ok h'
  obtain rfl := Except.ok.inj (hdomain.symm.trans hdomain')
  obtain rfl := Except.ok.inj (hupstream.symm.trans hupstream')
  intro p e
  cases e with
  | listener task => exact hsame p (.listener task)
  | route port d kind route =>
      simp only [Owns, hroutes, hroutes']
      split_ifs with hkey
      · exact Iff.rfl
      · exact hsame p (.route port d kind route)

/-- A direct proxy is started alike beside different routes of clients. -/
theorem direct_startProxies (hm : Undisturbed directs m) (hm' : Undisturbed directs m')
    (hsame : SameDirect m m') (hmem : config ∈ directs) (hclient : config.clientId = "") :
    Undisturbed directs (startProxies parse bindsSucceed "" m [config]).1 ∧
      SameDirect (startProxies parse bindsSucceed "" m [config]).1
        (startProxies parse bindsSucceed "" m' [config]).1 := by
  by_cases hrun : config.proxyId ∈ m.clientListeners ""
  · have hrun' := (hsame.mem_iff _).mp hrun
    simp only [startProxies, ProxyListenerManager.startProxy, if_pos hrun, if_pos hrun', pure,
      Except.pure]
    exact ⟨hm, hsame⟩
  · have hrun' : config.proxyId ∉ m'.clientListeners "" := fun h ↦ hrun ((hsame.mem_iff _).mpr h)
    simp only [startProxies, ProxyListenerManager.startProxy, if_neg hrun, if_neg hrun', pure,
      Except.pure, bind, Except.bind]
    cases hkind : isDomainKind config.proxyType with
    | true =>
        simp only [if_true]
        cases hstart : m.domains.start parse bindsSucceed config with
        | ok domains =>
            obtain ⟨domains', hstart'⟩ :=
              direct_start_ok hm' hm hsame.symm hmem hkind ⟨domains, hstart⟩
            rw [hstart']
            exact ⟨hm.start hstart (fun h ↦ (h hclient).elim) hkind _, hsame.start hstart hstart'⟩
        | error e =>
            cases hstart' : m'.domains.start parse bindsSucceed config with
            | ok domains' =>
                obtain ⟨domains, hok⟩ := direct_start_ok hm hm' hsame hmem hkind ⟨domains', hstart'⟩
                rw [hstart] at hok
                cases hok
            | error e' => exact ⟨hm, hsame⟩
    | false =>
        simp only [Bool.false_eq_true, if_false]
        cases ensure (config.proxyType == "tcp" || config.proxyType == "udp") "不支持的代理类型" with
        | error e => exact ⟨hm, hsame⟩
        | ok u =>
            refine ⟨⟨hm.wellFormed, hm.free⟩, fun p e ↦ ?_⟩
            cases e with
            | route port d kind route => exact hsame p (.route port d kind route)
            | listener task =>
                simp only [preflight, bindsSucceed, Owns, clientListeners_insert, if_true,
                  AList.lookup_insert_eq_ite]
                split_ifs
                · exact Iff.rfl
                · exact hsame p (.listener task)

/-- The call is one of a direct command. -/
def ManagerCall.ForDirect (directs : List ProxyConfig) : ManagerCall → Prop
  | .stopClientProxies clientId | .stopSingleProxy clientId _ => clientId = ""
  | .start clientId proxies => clientId = "" ∧
      ∃ config ∈ directs, proxies = [config] ∧ config.clientId = ""

/-- A direct call does the same beside different routes of clients. -/
theorem ManagerCall.ForDirect.apply (hm : Undisturbed directs m) (hm' : Undisturbed directs m')
    (hsame : SameDirect m m') {call : ManagerCall} (hcall : call.ForDirect directs) :
    Undisturbed directs (call.apply parse m) ∧
      SameDirect (call.apply parse m) (call.apply parse m') := by
  cases call with
  | stopClientProxies clientId =>
      refine ⟨hm.stop clientId none _, fun p e ↦ ?_⟩
      simp only [ManagerCall.apply, owns_stopClientProxies, hsame p e]
  | stopSingleProxy clientId proxyId =>
      refine ⟨hm.stop clientId (some proxyId) _, fun p e ↦ ?_⟩
      simp only [ManagerCall.apply, owns_stopSingleProxy, hsame p e]
  | start clientId proxies =>
      obtain ⟨rfl, config, hmem, rfl, hclient⟩ := hcall
      simp only [ManagerCall.apply, startClientProxiesFromConfigs, List.isEmpty_cons,
        Bool.false_eq_true, if_false]
      refine direct_startProxies ⟨hm.wellFormed, hm.free⟩ ⟨hm'.wellFormed, hm'.free⟩ (fun p e ↦ ?_)
        hmem hclient
      rw [owns_entry, owns_entry]
      exact hsame p e

theorem foldl_forDirect {calls : List ManagerCall} (hm : Undisturbed directs m)
    (hm' : Undisturbed directs m') (hsame : SameDirect m m')
    (hcalls : ∀ call ∈ calls, call.ForDirect directs) :
    SameDirect (calls.foldl (ManagerCall.apply parse) m)
      (calls.foldl (ManagerCall.apply parse) m') := by
  induction calls generalizing m m' with
  | nil => exact hsame
  | cons call calls ih =>
      have hcall := hcalls call List.mem_cons_self
      have hm₁ : Undisturbed directs (call.apply parse m) := (hcall.apply hm hm' hsame).1
      have hm₁' : Undisturbed directs (call.apply parse m') := (hcall.apply hm' hm hsame.symm).1
      exact ih hm₁ hm₁' (hcall.apply hm hm' hsame).2 fun call h ↦
        hcalls call (List.mem_cons_of_mem _ h)

end Directs

/-! ## Runs -/

namespace ControllerCommand

variable {directs : List ProxyConfig}

theorem syncCalls_forDirect {configs : List ProxyConfig} (h : ∀ config ∈ configs, config ∈ directs) :
    ∀ call ∈ syncCalls configs, call.ForDirect directs := by
  induction configs with
  | nil => exact fun call hcall ↦ (List.not_mem_nil hcall).elim
  | cons config configs ih =>
      intro call hcall
      unfold syncCalls at hcall
      cases hcheck : checkDirectConfig config with
      | error e =>
          rw [hcheck] at hcall
          exact (List.not_mem_nil hcall).elim
      | ok u =>
          rw [hcheck] at hcall
          rcases List.mem_cons.mp hcall with rfl | hcall
          · exact ⟨rfl, config, h _ List.mem_cons_self, rfl, clientId_of_checkDirectConfig hcheck⟩
          · exact ih (fun config h' ↦ h config (List.mem_cons_of_mem _ h')) call hcall

theorem calls_forDirect {cmd : ControllerCommand} (hdirect : cmd.direct = true)
    (h : ∀ config ∈ cmd.configs, config ∈ directs) : ∀ call ∈ cmd.calls, call.ForDirect directs := by
  intro call hcall
  cases cmd with
  | syncDirectProxies configs =>
      rcases List.mem_cons.mp hcall with rfl | hcall
      · rfl
      · exact syncCalls_forDirect h call hcall
  | startProxy clientId proxyId config =>
      cases config with
      | none => cases hdirect
      | some config =>
          simp only [calls] at hcall
          cases hcheck : checkDirectConfig config with
          | error e =>
              rw [hcheck] at hcall
              exact (List.not_mem_nil hcall).elim
          | ok u =>
              rw [hcheck] at hcall
              rcases List.mem_cons.mp hcall with rfl | hcall
              · rfl
              · obtain rfl := List.mem_singleton.mp hcall
                exact ⟨rfl, config, h config List.mem_cons_self, rfl, clientId_of_checkDirectConfig hcheck⟩
  | stopProxy clientId proxyId =>
      obtain rfl := List.mem_singleton.mp hcall
      exact String.isEmpty_iff.mp hdirect
  | _ => cases hdirect

/-- The commands that start a client's proxy name the client. -/
def NamesClient : ControllerCommand → Prop
  | startProxy clientId _ none => clientId ≠ ""
  | _ => True

theorem NamesClient.task {cmd : ControllerCommand} (h : cmd.NamesClient) (hdirect : cmd.direct = false) :
    ∀ task ∈ cmd.task, task.clientId ≠ "" := by
  rintro task htask
  cases cmd with
  | startProxy clientId proxyId config =>
      obtain rfl := Option.some.inj htask
      cases config with
      | none => exact h
      | some config => cases hdirect
  | stopProxy clientId proxyId =>
      obtain rfl := Option.some.inj htask
      intro hempty
      have hisEmpty : clientId.isEmpty = true := String.isEmpty_iff.mpr hempty
      rw [direct, hisEmpty] at hdirect
      cases hdirect
  | _ => cases htask

end ControllerCommand

namespace CommandLoop

/-- The answers name clients and peaceful proxies. -/
def Input.Peaceful (directs : List ProxyConfig) : Input → Prop
  | .task _ (.ok allProxies) => ∀ config ∈ allProxies, Node.Peaceful directs config
  | _ => True

/-- The direct calls that are still to be made. -/
def rest (s : CommandLoop) : List ManagerCall :=
  s.executing ++ (s.stream.filter ControllerCommand.direct).flatMap ControllerCommand.calls

variable {parse : UrlParser} {directs : List ProxyConfig} {m : ProxyListenerManager}
  {s t : CommandLoop}

theorem forClient_next {task : ClientTask} (htask : task.clientId ≠ "")
    {answer : Except String (List ProxyConfig)} {i : ℕ} (hanswer : (Input.task i answer).Peaceful directs) :
    (∀ call ∈ (task.next answer).1, call.ForClient directs) ∧
      ∀ task' ∈ (task.next answer).2, task'.clientId ≠ "" := by
  cases task with
  | startProxy clientId proxyId =>
      refine ⟨fun call hcall ↦ ?_, fun task' htask' ↦ ?_⟩
      · obtain rfl := Option.some.inj hcall
        exact htask
      · obtain ⟨-, -, rfl⟩ := Option.map_eq_some_iff.mp htask'
        exact htask
  | getClientProxies clientId proxyId =>
      cases answer with
      | error e => exact ⟨fun _ h ↦ (by cases h), fun _ h ↦ (by cases h)⟩
      | ok allProxies =>
          refine ⟨fun call hcall ↦ ?_, fun _ h ↦ (by cases h)⟩
          obtain rfl := Option.some.inj hcall
          exact ⟨htask, fun config hconfig ↦ hanswer config (List.mem_filter.mp hconfig).1⟩
  | stopProxy clientId proxyId =>
      refine ⟨fun call hcall ↦ ?_, fun _ h ↦ (by cases h)⟩
      obtain rfl := Option.some.inj hcall
      exact htask

/-- To make the calls that are left leads to the direct routes that there are to be. -/
structure Inv (parse : UrlParser) (directs : List ProxyConfig) (final : ProxyListenerManager)
    (s : CommandLoop) : Prop where
  undisturbed : Undisturbed directs s.manager
  calls : ∀ call ∈ s.rest, call.ForDirect directs
  clients : ∀ cmd ∈ s.stream, cmd.NamesClient
  tasks : ∀ task ∈ s.tasks, task.clientId ≠ ""
  same : SameDirect (s.rest.foldl (ManagerCall.apply parse) s.manager) final

theorem rest_receive {s : CommandLoop} {cmd : ControllerCommand} {stream : List ControllerCommand}
    (hstream : s.stream = cmd :: stream) (hexecuting : s.executing = []) :
    s.rest = (if cmd.direct then cmd.calls else []) ++
      (stream.filter ControllerCommand.direct).flatMap ControllerCommand.calls := by
  rw [rest, hstream, hexecuting, List.filter_cons]
  split_ifs <;> simp

theorem Inv.step {final : ProxyListenerManager} (h : Inv parse directs final s) {i : Input}
    (hi : i.Peaceful directs) (hstep : step parse s i = some t) : Inv parse directs final t := by
  cases i with
  | receive =>
      simp only [CommandLoop.step] at hstep
      split at hstep
      · next cmd stream hexecuting hstream =>
          have hrest := rest_receive hstream hexecuting
          have hclients : ∀ cmd ∈ stream, cmd.NamesClient := fun cmd' h' ↦
            h.clients cmd' (hstream ▸ List.mem_cons_of_mem _ h')
          have hcmd : cmd.NamesClient := h.clients cmd (hstream ▸ List.mem_cons_self)
          have hcalls := h.calls
          have hsame := h.same
          rw [hrest] at hcalls hsame
          split_ifs at hstep hcalls hsame with hdirect
          · obtain rfl := Option.some.inj hstep
            exact ⟨h.undisturbed, hcalls, hclients, h.tasks, hsame⟩
          · obtain rfl := Option.some.inj hstep
            refine ⟨h.undisturbed, ?_, hclients, fun task htask ↦ ?_, ?_⟩
            · rwa [rest, hexecuting]
            · rcases List.mem_append.mp htask with htask | htask
              · exact h.tasks task htask
              · exact hcmd.task (Bool.eq_false_iff.mpr hdirect) task (Option.mem_toList.mp htask)
            · rwa [rest, hexecuting]
      · cases hstep
  | execute =>
      simp only [CommandLoop.step] at hstep
      split at hstep
      · cases hstep
      · next call executing hexecuting =>
          obtain rfl := Option.some.inj hstep
          have hcalls := h.calls
          have hsame := h.same
          rw [rest, hexecuting, List.cons_append] at hcalls hsame
          have hcall := hcalls call List.mem_cons_self
          exact ⟨(hcall.apply h.undisturbed h.undisturbed (.refl _)).1,
            fun call' h' ↦ hcalls call' (List.mem_cons_of_mem _ h'), h.clients, h.tasks, hsame⟩
  | task j answer =>
      obtain ⟨task, htask, rfl⟩ := Option.map_eq_some_iff.mp hstep
      obtain ⟨hcall, hnext⟩ := forClient_next (h.tasks task (List.mem_of_getElem? htask)) hi
      have htasks : ∀ task' ∈ s.tasks.eraseIdx j ++ (task.next answer).2.toList,
          task'.clientId ≠ "" := by
        intro task' htask'
        rcases List.mem_append.mp htask' with htask' | htask'
        · exact h.tasks task' (List.eraseIdx_subset htask')
        · exact hnext task' (Option.mem_toList.mp htask')
      cases hmade : (task.next answer).1 with
      | none => exact ⟨h.undisturbed, h.calls, h.clients, htasks, h.same⟩
      | some call =>
          obtain ⟨hm, hsame⟩ := (hcall call hmade).apply h.undisturbed
          -- The call of the client commutes with all the direct ones to come.
          refine ⟨hm, h.calls, h.clients, htasks, ?_⟩
          exact (foldl_forDirect hm h.undisturbed hsame.symm h.calls).trans h.same

/-- The endpoints of the direct proxies. -/
def directRoutes (m : ProxyListenerManager) : Set (ℤ × Endpoint) := {r | Owns m "" r.1 r.2}

theorem SameDirect.directRoutes_eq {m m' : ProxyListenerManager} (h : SameDirect m m') :
    directRoutes m = directRoutes m' := Set.ext fun r ↦ h r.1 r.2

theorem foldl_flatMap_calls (m : ProxyListenerManager) (cmds : List ControllerCommand) :
    (cmds.flatMap ControllerCommand.calls).foldl (ManagerCall.apply parse) m =
      cmds.foldl (ControllerCommand.execute parse) m := by
  rw [List.foldl_flatMap]
  congr 1
  funext m cmd
  exact cmd.foldl_calls m

/-- Once the stream is consumed, whatever the spawned tasks have done by then, the
direct routes are those of the direct commands executed one after another. -/
theorem directRoutes_eq_foldl {stream : List ControllerCommand} {inputs : List Input}
    {earlier : List DomainListeners.Call}
    (hreach : run (DomainListeners.step parse) ∅ earlier = some m.domains)
    (hclients : ∀ cmd ∈ stream, cmd.NamesClient)
    (hfree : ∀ port domain kind route, routeAt m.domains port domain = some (kind, route) →
      route.config.clientId ≠ "" →
        ∀ d ∈ stream.flatMap ControllerCommand.configs, ¬ Blocks port kind domain d)
    (hpeaceful : ∀ i ∈ inputs, i.Peaceful (stream.flatMap ControllerCommand.configs))
    (hrun : run (step parse) ⟨m, stream, [], []⟩ inputs = some s)
    (hconsumed : s.stream = [] ∧ s.executing = []) :
    directRoutes s.manager = directRoutes
      ((stream.filter ControllerCommand.direct).foldl (ControllerCommand.execute parse) m) := by
  have hcalls : ∀ call ∈ (stream.filter ControllerCommand.direct).flatMap ControllerCommand.calls,
      call.ForDirect (stream.flatMap ControllerCommand.configs) := by
    intro call hcall
    obtain ⟨cmd, hcmd, hcall⟩ := List.mem_flatMap.mp hcall
    obtain ⟨hmem, hdirect⟩ := List.mem_filter.mp hcmd
    exact cmd.calls_forDirect hdirect
      (fun config h ↦ List.mem_flatMap.mpr ⟨cmd, hmem, h⟩) call hcall
  have hinit : Inv parse (stream.flatMap ControllerCommand.configs)
      ((stream.filter ControllerCommand.direct).foldl (ControllerCommand.execute parse) m)
      ⟨m, stream, [], []⟩ := by
    refine ⟨⟨.run hreach, hfree⟩, hcalls, hclients, fun task h ↦ (List.not_mem_nil h).elim, ?_⟩
    rw [← foldl_flatMap_calls]
    exact .refl _
  have hend := run_invariant (fun _ _ _ h hi hstep ↦ h.step hi hstep) hinit
    (within_of_forall fun i hi _ ↦ hpeaceful i hi) hrun
  have hsame := hend.same
  rw [rest, hconsumed.1, hconsumed.2] at hsame
  exact SameDirect.directRoutes_eq hsame

/-! ## A snapshot that arrives during the start of a client's proxy -/

def oneUrl : UrlParser := fun _ ↦
  .ok ⟨"http", some "origin.test", some 80, "", none, "/", none, none⟩

/-- A direct proxy on the port of `webConfig`. -/
def directConfig : ProxyConfig :=
  { webConfig "b.example.com" with
    proxyId := 9, clientId := "", upstreamUrl := "http://origin.test/" }

def mixedStream : List ControllerCommand :=
  [.startProxy "1" 7 none, .syncDirectProxies [directConfig]]

def mixedInputs : List Input :=
  [.receive, .task 0 (.error ""), .receive, .execute, .task 0 (.ok [webConfig "a.example.com"]),
    .execute]

theorem directRoutes_eq_foldl_mixedInputs :
    ∃ s, run (step oneUrl) ⟨new, mixedStream, [], []⟩ mixedInputs = some s ∧
      directRoutes s.manager = directRoutes
        ((mixedStream.filter ControllerCommand.direct).foldl (ControllerCommand.execute oneUrl) new) := by
  have hdomains : (normalizePattern "b.example.com").toOption = some "b.example.com" ∧
      (normalizePattern "a.example.com").toOption = some "a.example.com" := by decide +kernel
  have hweb : Node.Peaceful [directConfig] (webConfig "a.example.com") := by
    refine ⟨by decide, fun _ domain hdomain d hd ↦ ?_⟩
    obtain rfl := List.mem_singleton.mp hd
    rintro ⟨-, -, hkind | hsame⟩
    · exact hkind rfl
    · have hb : (normalizePattern "b.example.com").toOption = some domain := by
        rw [show normalizePattern "b.example.com" = .ok domain from hsame]; rfl
      have ha : (normalizePattern "a.example.com").toOption = some domain := by
        rw [show normalizePattern "a.example.com" = .ok domain from hdomain]; rfl
      rw [hdomains.1] at hb
      rw [hdomains.2, ← hb] at ha
      exact absurd ha (by decide)
  have hrun : run (step oneUrl) ⟨new, mixedStream, [], []⟩ mixedInputs = some _ := rfl
  have hreach : run (DomainListeners.step oneUrl) ∅ [] = some new.domains := rfl
  refine ⟨_, hrun, directRoutes_eq_foldl hreach ?_ ?_ ?_ hrun ⟨rfl, rfl⟩⟩
  · intro cmd hcmd
    rcases List.mem_cons.mp hcmd with rfl | hcmd
    · exact (by decide : ("1" : String) ≠ "")
    · obtain rfl := List.mem_singleton.mp hcmd
      trivial
  · intro port domain kind route hroute
    simp [routeAt, new] at hroute
  · intro i hi
    simp only [mixedInputs, List.mem_cons, List.not_mem_nil, or_false] at hi
    rcases hi with rfl | rfl | rfl | rfl | rfl | rfl
    · trivial
    · trivial
    · trivial
    · trivial
    · intro config hconfig
      obtain rfl := List.mem_singleton.mp hconfig
      exact hweb
    · trivial

end CommandLoop

end Oxiproxy.Node
