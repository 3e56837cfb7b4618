import Oxiproxy.Node.ListenerTable

/-!
# What a successful start says of the port

A start of proxies holds the lock of the listener table.  For a TCP or UDP proxy
it binds the public port, releases it again and spawns a task that is to bind it;
for a domain proxy it keeps the socket.  The tasks, and other processes, bind
ports at any time in between.
-/

namespace Oxiproxy.Node

open Transition ProxyListenerManager

abbrev Port := ProxyProtocol × UInt16

/-- Who has a socket on a port: a stranger to the table, a start that tries the
port, a shared listener of domains, or the task of a client's proxy. -/
inductive Holder
  | other
  | preflight
  | shared
  | task (clientId : String) (proxyId : ℤ)
  deriving DecidableEq

/-- A listener task binds its port, and again some time after it has failed. -/
inductive SocketPhase
  | spawned
  | listening
  | failed
  | ended
  deriving DecidableEq

structure TaskSocket where
  port : Port
  phase : SocketPhase
  deriving DecidableEq

/-- How far a start has come with the first of the proxies that are left. -/
inductive StartStage
  | next
  | bound
  | released
  deriving DecidableEq

structure StartCall where
  clientId : String
  started : List ProxyConfig
  left : List ProxyConfig
  stage : StartStage
  deriving DecidableEq

def StartCall.pass (call : StartCall) (config : ProxyConfig) (left : List ProxyConfig) : StartCall :=
  ⟨call.clientId, call.started ++ [config], left, .next⟩

/-- The public port of a proxy. -/
def portOf (config : ProxyConfig) : Port := (.ofString config.proxyType, config.remotePort)

/-- The listeners of a node, the sockets of its tasks, and the ports of its machine. -/
structure NodePorts where
  manager : ProxyListenerManager
  sockets : String × ℤ → Option TaskSocket
  ports : Port → Option Holder
  starting : Option StartCall

namespace NodePorts

def binds (s : NodePorts) : Binds := fun protocol port ↦
  if s.ports (protocol, port) = none then .ok () else .error "Address already in use (os error 98)"

/-- The next step of a start.  It returns success when no proxy is left; a start of
no proxies has returned at once. -/
def advance (parse : UrlParser) (s : NodePorts) (call : StartCall) : NodePorts :=
  match call.stage, call.left with
  | _, [] => { s with starting := none }
  | .next, config :: left =>
      if config.proxyId ∈ s.manager.clientListeners call.clientId then
        { s with starting := some (call.pass config left) }
      else if isDomainKind config.proxyType then
        match s.manager.domains.start parse s.binds config with
        | .error _ => { s with starting := none }
        | .ok domains =>
            { s with
              manager := { s.manager with domains }
              ports := Function.update s.ports (.tcp, config.remotePort) (some .shared)
              starting := some (call.pass config left) }
      else if (config.proxyType == "tcp" || config.proxyType == "udp") &&
          s.ports (portOf config) = none then
        { s with
          ports := Function.update s.ports (portOf config) (some .preflight)
          starting := some { call with stage := .bound } }
      else { s with starting := none }
  | .bound, config :: _ =>
      { s with
        ports := Function.update s.ports (portOf config) none
        starting := some { call with stage := .released } }
  | .released, config :: left =>
      { s with
        manager := { s.manager with
          listeners := s.manager.listeners.insert call.clientId
            ((s.manager.clientListeners call.clientId).insert config.proxyId
              (listenerTask config)) }
        sockets := Function.update s.sockets (call.clientId, config.proxyId)
          (some ⟨portOf config, .spawned⟩)
        starting := some (call.pass config left) }

/-- The listeners that were stopped close their sockets; that of a UDP listener
lingers while a datagram is relayed. -/
def stop (s : NodePorts) (manager : ProxyListenerManager) (stopped : String × ℤ → Bool)
    (lingers : UInt16 → Bool) : NodePorts :=
  { s with
    manager
    sockets := fun key ↦ if stopped key then none else s.sockets key
    ports := fun port ↦
      match s.ports port with
      | some .shared => if manager.domains.lookup port.2 = none then none else some .shared
      | some (.task clientId proxyId) =>
          if stopped (clientId, proxyId) then
            if port.1 = .udp && lingers port.2 then some .other else none
          else some (.task clientId proxyId)
      | holder => holder }

inductive Input
  | start (clientId : String) (proxies : List ProxyConfig)
  | advance
  | stopSingleProxy (clientId : String) (proxyId : ℤ) (lingers : UInt16 → Bool)
  | stopClientProxies (clientId : String) (lingers : UInt16 → Bool)
  /-- A listener task binds its port. -/
  | bind (clientId : String) (proxyId : ℤ)
  /-- A listener task ends, as its client is offline. -/
  | finish (clientId : String) (proxyId : ℤ)
  /-- A stranger binds a port. -/
  | take (port : Port)
  | release (port : Port)

def step (parse : UrlParser) (s : NodePorts) : Input → Option NodePorts
  | .start clientId proxies =>
      if proxies.isEmpty then some s
      else if s.starting.isNone then
        some { s with
          manager := { s.manager with
            listeners := s.manager.listeners.insert clientId (s.manager.clientListeners clientId) }
          starting := some ⟨clientId, [], proxies, .next⟩ }
      else none
  | .advance => s.starting.map (s.advance parse)
  | .stopSingleProxy clientId proxyId lingers =>
      if s.starting.isNone then
        some (s.stop (s.manager.stopSingleProxy clientId proxyId)
          (fun key ↦ key = (clientId, proxyId)) lingers)
      else none
  | .stopClientProxies clientId lingers =>
      if s.starting.isNone then
        some (s.stop (s.manager.stopClientProxies clientId) (fun key ↦ key.1 = clientId) lingers)
      else none
  | .bind clientId proxyId =>
      (s.sockets (clientId, proxyId)).bind fun socket ↦
        if socket.phase = .spawned ∨ socket.phase = .failed then
          if s.ports socket.port = none then
            some { s with
              sockets := Function.update s.sockets (clientId, proxyId)
                (some ⟨socket.port, .listening⟩)
              ports := Function.update s.ports socket.port (some (.task clientId proxyId)) }
          else
            some { s with
              sockets := Function.update s.sockets (clientId, proxyId)
                (some ⟨socket.port, .failed⟩) }
        else none
  | .finish clientId proxyId =>
      (s.sockets (clientId, proxyId)).bind fun socket ↦
        if socket.phase = .failed then
          some { s with
            sockets := Function.update s.sockets (clientId, proxyId) (some ⟨socket.port, .ended⟩) }
        else none
  | .take port =>
      if s.ports port = none then
        some { s with ports := Function.update s.ports port (some .other) }
      else none
  | .release port =>
      if s.ports port = some .other then
        some { s with ports := Function.update s.ports port none }
      else none

/-- The listener of the proxy has its public port: the task of the proxy, or a
shared listener with a route for it. -/
def Serves (s : NodePorts) (clientId : String) (config : ProxyConfig) : Prop :=
  if isDomainKind config.proxyType then
    s.ports (.tcp, config.remotePort) = some .shared ∧
      ∃ domain kind route, routeAt s.manager.domains config.remotePort domain = some (kind, route) ∧
        route.config.clientId = config.clientId ∧ route.config.proxyId = config.proxyId
  else s.ports (portOf config) = some (.task clientId config.proxyId)

/-- When a start returns success, all its proxies are served. -/
def Truthful (s : NodePorts) : Input → Prop
  | .advance => ∀ call, s.starting = some call → call.left = [] →
      ∀ config ∈ call.started, s.Serves call.clientId config
  | _ => True

/-- The task is still to bind the port that the start in progress has tried for it. -/
def Awaits (s : NodePorts) (key : String × ℤ) (port : Port) : Prop :=
  ∃ call, s.starting = some call ∧ ∃ config, key = (call.clientId, config.proxyId) ∧
    port = portOf config ∧
    (config ∈ call.started ∧ s.sockets key = some ⟨port, .spawned⟩ ∨
      call.stage = .released ∧ ∃ left, call.left = config :: left)

/-- The condition on a step.  Nobody else binds a port that a task is still to bind.  A proxy that
is skipped, since it has a listener already, has it on its port.  A start does not
return before the tasks it has spawned have tried to bind their ports. -/
def Careful (s : NodePorts) : Input → Prop
  | .take port => ∀ key, ¬ s.Awaits key port
  | .bind clientId proxyId => ∀ socket ∈ s.sockets (clientId, proxyId),
      ∀ key, s.Awaits key socket.port → key = (clientId, proxyId)
  | .advance => ∀ call, s.starting = some call →
      (call.left = [] → ∀ config ∈ call.started,
        ∀ socket ∈ s.sockets (call.clientId, config.proxyId), socket.phase ≠ .spawned) ∧
      (call.stage = .next → ∀ config left, call.left = config :: left →
        if config.proxyId ∈ s.manager.clientListeners call.clientId then
          isDomainKind config.proxyType = false ∧
            s.sockets (call.clientId, config.proxyId) = some ⟨portOf config, .listening⟩
        else ∀ key, ¬ s.Awaits key (portOf config))
  | _ => True

/-! ## The invariant -/

/-- The task of a started proxy is still to bind its port, which is free. -/
def Pending (s : NodePorts) (clientId : String) (config : ProxyConfig) : Prop :=
  isDomainKind config.proxyType = false ∧
    s.sockets (clientId, config.proxyId) = some ⟨portOf config, .spawned⟩ ∧
    s.ports (portOf config) = none

/-- A listening task and a shared listener hold their ports, and a task is in the table. -/
structure Tables (s : NodePorts) : Prop where
  listening : ∀ {key port}, s.sockets key = some ⟨port, .listening⟩ →
    s.ports port = some (.task key.1 key.2)
  shared : ∀ {port listener}, s.manager.domains.lookup port = some listener →
    s.ports (.tcp, port) = some .shared
  listed : ∀ {key socket}, s.sockets key = some socket →
    key.2 ∈ s.manager.clientListeners key.1

/-- A start in progress has the port of the proxy it is at, and those of the started ones
are held or free for them. -/
structure InProgress (s : NodePorts) (call : StartCall) : Prop where
  started : ∀ config ∈ call.started, s.Serves call.clientId config ∨ s.Pending call.clientId config
  first : ∀ {config left}, call.left = config :: left → call.stage ≠ .next →
    config.proxyId ∉ s.manager.clientListeners call.clientId ∧
      isDomainKind config.proxyType = false ∧
      s.ports (portOf config) = if call.stage = .bound then some .preflight else none

structure Inv (s : NodePorts) : Prop where
  tables : s.Tables
  progress : ∀ call, s.starting = some call → s.InProgress call

/-- No listener of the node has the port. -/
def Loose (s : NodePorts) (port : Port) : Prop :=
  s.ports port ≠ some .shared ∧ ∀ clientId proxyId, s.ports port ≠ some (.task clientId proxyId)

variable {parse : UrlParser} {s t : NodePorts} {call : StartCall} {clientId : String}
  {config : ProxyConfig} {port : Port}

theorem loose_of_none (h : s.ports port = none) : s.Loose port := by
  rw [Loose, h]
  exact ⟨fun h ↦ (by cases h), fun _ _ h ↦ (by cases h)⟩

theorem serves_domain (hkind : isDomainKind config.proxyType = true) :
    s.Serves clientId config ↔ s.ports (.tcp, config.remotePort) = some .shared ∧
      ∃ domain kind route, routeAt s.manager.domains config.remotePort domain = some (kind, route) ∧
        route.config.clientId = config.clientId ∧ route.config.proxyId = config.proxyId := by
  rw [Serves, if_pos hkind]

theorem serves_task (hkind : isDomainKind config.proxyType = false) :
    s.Serves clientId config ↔ s.ports (portOf config) = some (.task clientId config.proxyId) := by
  rw [Serves, if_neg (by rw [hkind]; exact Bool.false_ne_true)]

theorem portOf_domain (hkind : isDomainKind config.proxyType = true) :
    portOf config = (.tcp, config.remotePort) := by
  have htcp : ProxyProtocol.ofString config.proxyType = .tcp := by
    rw [isDomainKind, Bool.or_eq_true, beq_iff_eq, beq_iff_eq] at hkind
    rcases hkind with hkind | hkind <;> rw [hkind] <;> decide +kernel
  rw [portOf, htcp]

/-- A port changes that no listener has. -/
theorem Tables.set (h : s.Tables) (hport : s.Loose port) (holder : Option Holder) :
    Tables { s with ports := Function.update s.ports port holder } := by
  refine ⟨fun {key q} hkey ↦ ?_, fun {q listener} hlistener ↦ ?_, h.listed⟩
  · have hold := h.listening hkey
    have hne : q ≠ port := fun heq ↦ hport.2 _ _ (heq ▸ hold)
    exact (Function.update_of_ne hne _ _).trans hold
  · have hold := h.shared hlistener
    have hne : (ProxyProtocol.tcp, q) ≠ port := fun heq ↦ hport.1 (heq ▸ hold)
    exact (Function.update_of_ne hne _ _).trans hold

/-- A task comes to another phase; when it listens, its port is its own. -/
theorem Tables.setPhase (h : s.Tables) {key : String × ℤ} {socket : TaskSocket}
    (hsocket : s.sockets key = some socket) {phase : SocketPhase}
    (hport : phase = .listening → s.ports socket.port = some (.task key.1 key.2)) :
    Tables { s with sockets := Function.update s.sockets key (some ⟨socket.port, phase⟩) } := by
  refine ⟨fun {key' port} hkey ↦ ?_, h.shared, fun {key' socket'} hkey ↦ ?_⟩
  all_goals
    dsimp only at hkey
    rw [Function.update_apply] at hkey
    split_ifs at hkey with hsame
  · obtain ⟨rfl, rfl⟩ := TaskSocket.mk.inj (Option.some.inj hkey)
    rw [hsame]
    exact hport rfl
  · exact h.listening hkey
  · rw [hsame]
    exact h.listed hsocket
  · exact h.listed hkey

theorem Serves.set (h : s.Serves clientId config) (hport : s.Loose port) (holder : Option Holder) :
    Serves { s with ports := Function.update s.ports port holder } clientId config := by
  cases hkind : isDomainKind config.proxyType with
  | true =>
      rw [serves_domain hkind] at h ⊢
      have hne : (ProxyProtocol.tcp, config.remotePort) ≠ port := fun heq ↦ hport.1 (heq ▸ h.1)
      exact ⟨(Function.update_of_ne hne _ _).trans h.1, h.2⟩
  | false =>
      rw [serves_task hkind] at h ⊢
      have hne : portOf config ≠ port := fun heq ↦ hport.2 _ _ (heq ▸ h)
      exact (Function.update_of_ne hne _ _).trans h

theorem Pending.set (h : s.Pending clientId config) {holder : Option Holder}
    (hport : holder = none ∨ portOf config ≠ port) :
    Pending { s with ports := Function.update s.ports port holder } clientId config := by
  refine ⟨h.1, h.2.1, ?_⟩
  rcases hport with rfl | hne
  · by_cases heq : portOf config = port
    · rw [heq]
      exact Function.update_self ..
    · exact (Function.update_of_ne heq _ _).trans h.2.2
  · exact (Function.update_of_ne hne _ _).trans h.2.2

theorem Pending.awaits (h : s.Pending call.clientId config) (hcall : s.starting = some call)
    (hmem : config ∈ call.started) :
    s.Awaits (call.clientId, config.proxyId) (portOf config) :=
  ⟨call, hcall, config, rfl, rfl, .inl ⟨hmem, h.2.1⟩⟩

theorem InProgress.awaits_first (h : s.InProgress call) (hcall : s.starting = some call)
    {left : List ProxyConfig} (hleft : call.left = config :: left) (hstage : call.stage ≠ .next)
    (hfree : s.ports (portOf config) = none) :
    s.Awaits (call.clientId, config.proxyId) (portOf config) := by
  have hport := (h.first hleft hstage).2.2
  rw [hfree] at hport
  have hreleased : call.stage = .released := by
    cases hcase : call.stage with
    | next => exact (hstage hcase).elim
    | bound =>
        rw [if_pos hcase] at hport
        cases hport
    | released => rfl
  exact ⟨call, hcall, config, rfl, rfl, .inr ⟨hreleased, left, hleft⟩⟩

/-- A port that nobody awaits is bound, with no harm to the started proxies. -/
theorem InProgress.started_set (h : s.InProgress call) (hcall : s.starting = some call)
    (hport : s.Loose port) (hawaits : ∀ key, ¬ s.Awaits key port) (holder : Option Holder) :
    ∀ config ∈ call.started,
      Serves { s with ports := Function.update s.ports port holder } call.clientId config ∨
        Pending { s with ports := Function.update s.ports port holder } call.clientId config := by
  intro config hconfig
  rcases h.started config hconfig with hserves | hpending
  · exact .inl (hserves.set hport holder)
  · refine .inr (hpending.set (.inr fun heq ↦ ?_))
    exact hawaits _ (heq ▸ hpending.awaits hcall hconfig)

/-- Without a start in progress only the tables matter. -/
theorem Tables.inv (h : s.Tables) (hidle : s.starting = none) : Inv s := by
  refine ⟨h, fun call hcall ↦ ?_⟩
  rw [hidle] at hcall
  cases hcall

theorem Tables.stopped (h : s.Tables) : Inv { s with starting := none } :=
  Tables.inv ⟨h.listening, h.shared, h.listed⟩ rfl

/-! ## Steps of a start -/

/-- A domain proxy that starts finds its port free or shared. -/
theorem port_of_start (h : s.Tables) {domains : DomainListeners}
    (hstart : s.manager.domains.start parse s.binds config = .ok domains) :
    s.ports (.tcp, config.remotePort) = none ∨ s.ports (.tcp, config.remotePort) = some .shared := by
  cases hport : s.manager.domains.lookup config.remotePort with
  | some listener => exact .inr (h.shared hport)
  | none =>
      left
      by_contra hbusy
      unfold DomainListeners.start at hstart
      simp only [bind, Except.bind, hport, binds, if_neg hbusy] at hstart
      split at hstart
      · cases hstart
      · split at hstart <;> cases hstart

theorem Serves.start {served : ProxyConfig} (h : s.Serves clientId served) {binds : Binds}
    {domains : DomainListeners} (hstart : s.manager.domains.start parse binds config = .ok domains) :
    Serves { s with manager := { s.manager with domains } } clientId served := by
  cases hkind : isDomainKind served.proxyType with
  | false => rwa [serves_task hkind] at h ⊢
  | true =>
      rw [serves_domain hkind] at h ⊢
      obtain ⟨hport, d, kind, route, hroute, hclient, hproxy⟩ := h
      refine ⟨hport, ?_⟩
      obtain ⟨domain, upstream, -, -, howner, hroutes⟩ := DomainListeners.start_eq_ok hstart
      dsimp only
      by_cases hkey : served.remotePort = config.remotePort ∧ d = domain
      · obtain ⟨hsame, rfl⟩ := hkey
        rw [hsame] at hroute ⊢
        obtain ⟨hc, hp⟩ := howner kind route hroute
        refine ⟨d, _, _, (hroutes _ _).trans (if_pos ⟨rfl, rfl⟩), ?_, ?_⟩
        · exact hc.symm.trans hclient
        · exact hp.symm.trans hproxy
      · exact ⟨d, kind, route, (hroutes _ _).trans ((if_neg hkey).trans hroute), hclient, hproxy⟩

/-- The proxy that a start is at is served, or awaits its port; the start goes on to the next. -/
theorem InProgress.pass {left : List ProxyConfig}
    (hstarted : ∀ c ∈ call.started, t.Serves call.clientId c ∨ t.Pending call.clientId c)
    (hconfig : t.Serves call.clientId config ∨ t.Pending call.clientId config) :
    t.InProgress (call.pass config left) := by
  refine ⟨fun c hc ↦ ?_, fun _ hstage ↦ (hstage rfl).elim⟩
  rcases List.mem_append.mp hc with hc | hc
  · exact hstarted c hc
  · obtain rfl := List.mem_singleton.mp hc
    exact hconfig

theorem Inv.advance_domain (h : Inv s) (hcall : s.starting = some call)
    (hawaits : ∀ key, ¬ s.Awaits key (portOf config))
    (hkind : isDomainKind config.proxyType = true) {domains : DomainListeners}
    (hstart : s.manager.domains.start parse s.binds config = .ok domains) (left : List ProxyConfig) :
    Inv { s with
      manager := { s.manager with domains }
      ports := Function.update s.ports (.tcp, config.remotePort) (some .shared)
      starting := some (call.pass config left) } := by
  have hprogress := h.progress call hcall
  rw [portOf_domain hkind] at hawaits
  -- A shared port stays as it is, a free one is bound.
  have hbound : Tables { s with
        ports := Function.update s.ports (.tcp, config.remotePort) (some .shared) } ∧
      ∀ c ∈ call.started,
        Serves { s with ports := Function.update s.ports (.tcp, config.remotePort) (some .shared) }
            call.clientId c ∨
          Pending { s with ports := Function.update s.ports (.tcp, config.remotePort) (some .shared) }
            call.clientId c := by
    rcases port_of_start h.tables hstart with hfree | hshared
    · exact ⟨h.tables.set (loose_of_none hfree) _,
        hprogress.started_set hcall (loose_of_none hfree) hawaits _⟩
    · have hports : Function.update s.ports (.tcp, config.remotePort) (some .shared) = s.ports := by
        rw [← hshared]
        exact Function.update_eq_self _ _
      rw [hports]
      exact ⟨h.tables, hprogress.started⟩
  obtain ⟨htables, hstarted⟩ := hbound
  have hself : Function.update s.ports (.tcp, config.remotePort) (some .shared)
      (.tcp, config.remotePort) = some .shared := Function.update_self ..
  refine ⟨⟨htables.listening, fun {port listener} hport ↦ ?_, htables.listed⟩, fun call' hcall' ↦ ?_⟩
  · obtain ⟨domain, upstream, -, -, ⟨old, hold, -, -, hdomains⟩ | ⟨-, hdomains⟩⟩ :=
      DomainListeners.start_cases hstart
    all_goals
      dsimp only at hport
      rw [hdomains, AList.lookup_insert_eq_ite] at hport
      split_ifs at hport with hsame
      · rw [hsame]
        exact hself
      · exact htables.shared hport
  · obtain rfl := Option.some.inj hcall'
    refine InProgress.pass (fun c hc ↦ (hstarted c hc).imp (fun hserves ↦ ?_) id) (.inl ?_)
    · exact Serves.start hserves hstart
    · rw [serves_domain hkind]
      obtain ⟨domain, upstream, -, -, -, hroutes⟩ := DomainListeners.start_eq_ok hstart
      exact ⟨hself, domain, _, _, (hroutes _ _).trans (if_pos ⟨rfl, rfl⟩), rfl, rfl⟩

theorem Inv.advance_preflight (h : Inv s) (hcall : s.starting = some call)
    (hawaits : ∀ key, ¬ s.Awaits key (portOf config))
    (hnew : config.proxyId ∉ s.manager.clientListeners call.clientId)
    (hkind : isDomainKind config.proxyType = false) (hfree : s.ports (portOf config) = none)
    {left : List ProxyConfig} (hleft : call.left = config :: left) :
    Inv { s with
      ports := Function.update s.ports (portOf config) (some .preflight)
      starting := some { call with stage := .bound } } := by
  have htables := h.tables.set (loose_of_none hfree) (some .preflight)
  refine ⟨⟨htables.listening, htables.shared, htables.listed⟩, fun call' hcall' ↦ ?_⟩
  obtain rfl := Option.some.inj hcall'
  refine ⟨(h.progress call hcall).started_set hcall (loose_of_none hfree) hawaits _,
    fun {config' left'} hleft' _ ↦ ?_⟩
  obtain ⟨rfl, rfl⟩ := List.cons.inj (hleft.symm.trans hleft')
  exact ⟨hnew, hkind, Function.update_self ..⟩

theorem Inv.advance_release (h : Inv s) (hcall : s.starting = some call)
    (hstage : call.stage = .bound) {left : List ProxyConfig} (hleft : call.left = config :: left) :
    Inv { s with
      ports := Function.update s.ports (portOf config) none
      starting := some { call with stage := .released } } := by
  have hprogress := h.progress call hcall
  obtain ⟨hnew, hkind, hport⟩ := hprogress.first hleft (by rw [hstage]; exact fun h ↦ (by cases h))
  rw [if_pos hstage] at hport
  have hloose : s.Loose (portOf config) := by
    rw [Loose, hport]
    exact ⟨fun h ↦ (by cases h), fun _ _ h ↦ (by cases h)⟩
  have htables := h.tables.set hloose none
  refine ⟨⟨htables.listening, htables.shared, htables.listed⟩, fun call' hcall' ↦ ?_⟩
  obtain rfl := Option.some.inj hcall'
  refine ⟨fun c hc ↦ ?_, fun {config' left'} hleft' _ ↦ ?_⟩
  · exact (hprogress.started c hc).imp (fun hserves ↦ hserves.set hloose none)
      fun hpending ↦ hpending.set (.inl rfl)
  · obtain ⟨rfl, rfl⟩ := List.cons.inj (hleft.symm.trans hleft')
    exact ⟨hnew, hkind, Function.update_self ..⟩

theorem Inv.advance_spawn (h : Inv s) (hcall : s.starting = some call)
    (hstage : call.stage = .released) {left : List ProxyConfig} (hleft : call.left = config :: left) :
    Inv { s with
      manager := { s.manager with
        listeners := s.manager.listeners.insert call.clientId
          ((s.manager.clientListeners call.clientId).insert config.proxyId (listenerTask config)) }
      sockets := Function.update s.sockets (call.clientId, config.proxyId)
        (some ⟨portOf config, .spawned⟩)
      starting := some (call.pass config left) } := by
  have hprogress := h.progress call hcall
  obtain ⟨hnew, hkind, hport⟩ := hprogress.first hleft (by rw [hstage]; exact fun h ↦ (by cases h))
  rw [if_neg (by rw [hstage]; exact fun h ↦ (by cases h))] at hport
  refine ⟨⟨fun {key port} hkey ↦ ?_, h.tables.shared, fun {key socket} hkey ↦ ?_⟩,
    fun call' hcall' ↦ ?_⟩
  · dsimp only at hkey
    rw [Function.update_apply] at hkey
    split_ifs at hkey with hsame
    · cases hkey
    · exact h.tables.listening hkey
  · dsimp only at hkey ⊢
    rw [Function.update_apply] at hkey
    rw [clientListeners_insert]
    split_ifs at hkey with hsame
    · rw [hsame, if_pos rfl]
      exact AList.mem_insert _ |>.mpr (.inl rfl)
    · have hold := h.tables.listed hkey
      split_ifs with hclient
      · exact AList.mem_insert _ |>.mpr (.inr (hclient ▸ hold))
      · exact hold
  · obtain rfl := Option.some.inj hcall'
    refine InProgress.pass (fun c hc ↦ (hprogress.started c hc).imp id fun hpending ↦ ?_)
      (.inr ⟨hkind, Function.update_self .., hport⟩)
    refine ⟨hpending.1, ?_, hpending.2.2⟩
    have hne : (call.clientId, c.proxyId) ≠ (call.clientId, config.proxyId) := by
      intro heq
      have hlisted := h.tables.listed hpending.2.1
      rw [(Prod.mk.inj heq).2] at hlisted
      exact hnew hlisted
    exact (Function.update_of_ne hne _ _).trans hpending.2.1

/-- A proxy that is skipped has a listener on its port. -/
theorem serves_of_listening (h : s.Tables) (hkind : isDomainKind config.proxyType = false)
    (hsocket : s.sockets (clientId, config.proxyId) = some ⟨portOf config, .listening⟩) :
    s.Serves clientId config := by
  rw [serves_task hkind]
  exact h.listening hsocket

theorem Inv.advance (h : Inv s) (hcall : s.starting = some call) (hcareful : s.Careful .advance) :
    Inv (s.advance parse call) := by
  obtain ⟨-, hnext⟩ := hcareful call hcall
  have hprogress := h.progress call hcall
  obtain ⟨clientId, started, left, stage⟩ := call
  unfold NodePorts.advance
  cases left with
  | nil => cases stage <;> exact h.tables.stopped
  | cons config left =>
      cases stage with
      | bound => exact h.advance_release hcall rfl rfl
      | released => exact h.advance_spawn hcall rfl rfl
      | next =>
          have hready := hnext rfl config left rfl
          dsimp only at hready ⊢
          by_cases hlisted : config.proxyId ∈ s.manager.clientListeners clientId
          · rw [if_pos hlisted] at hready ⊢
            refine ⟨⟨h.tables.listening, h.tables.shared, h.tables.listed⟩, fun call' hcall' ↦ ?_⟩
            obtain rfl := Option.some.inj hcall'
            have hserves := serves_of_listening h.tables hready.1 hready.2
            exact InProgress.pass hprogress.started (.inl hserves)
          · rw [if_neg hlisted] at hready ⊢
            cases hkind : isDomainKind config.proxyType with
            | true =>
                simp only [if_true]
                cases hstart : s.manager.domains.start parse s.binds config with
                | error e => exact h.tables.stopped
                | ok domains => exact h.advance_domain hcall hready hkind hstart left
            | false =>
                simp only [Bool.false_eq_true, if_false]
                split_ifs with hfree
                · rw [Bool.and_eq_true, decide_eq_true_eq] at hfree
                  exact h.advance_preflight hcall hready hlisted hkind hfree.2 rfl
                · exact h.tables.stopped

/-! ## Other steps -/

theorem mem_clientListeners_iff {m : ProxyListenerManager} {proxyId : ℤ} :
    proxyId ∈ m.clientListeners clientId ↔ ∃ task, Owns m clientId proxyId (.listener task) := by
  rw [← AList.lookup_isSome, Option.isSome_iff_exists]
  exact Iff.rfl

/-- What is not stopped keeps its port. -/
theorem Tables.stop (h : s.Tables) {manager : ProxyListenerManager} {stopped : String × ℤ → Bool}
    (lingers : UInt16 → Bool)
    (hdomains : ∀ {port listener}, manager.domains.lookup port = some listener →
      ∃ old, s.manager.domains.lookup port = some old)
    (hlisteners : ∀ key, stopped key = false → key.2 ∈ s.manager.clientListeners key.1 →
      key.2 ∈ manager.clientListeners key.1) :
    (s.stop manager stopped lingers).Tables := by
  refine ⟨fun {key port} hkey ↦ ?_, fun {port listener} hport ↦ ?_, fun {key socket} hkey ↦ ?_⟩
  · simp only [NodePorts.stop] at hkey ⊢
    split_ifs at hkey with hstopped
    rw [h.listening hkey]
    exact if_neg hstopped
  · obtain ⟨old, hold⟩ := hdomains hport
    simp only [NodePorts.stop] at hport ⊢
    rw [h.shared hold]
    simp only [hport, reduceCtorEq, if_false]
  · simp only [NodePorts.stop] at hkey ⊢
    split_ifs at hkey with hstopped
    exact hlisteners key (Bool.eq_false_iff.mpr hstopped) (h.listed hkey)

theorem lookup_of_stop {listeners : DomainListeners} {client : String} {proxy : Option ℤ}
    {port : UInt16} {listener : Listener}
    (h : (listeners.stop client proxy).lookup port = some listener) :
    ∃ old, listeners.lookup port = some old := by
  obtain ⟨old, hold, -⟩ := DomainListeners.lookup_stop_eq_some.mp h
  exact ⟨old, hold⟩

/-- A task comes to a phase in which it does not listen.  No start counts on its port. -/
theorem Inv.setPhase (h : Inv s) {key : String × ℤ} {socket : TaskSocket}
    (hsocket : s.sockets key = some socket)
    (hbusy : socket.phase = .spawned → s.ports socket.port ≠ none) {phase : SocketPhase}
    (hphase : phase ≠ .listening) :
    Inv { s with sockets := Function.update s.sockets key (some ⟨socket.port, phase⟩) } := by
  refine ⟨h.tables.setPhase hsocket fun heq ↦ (hphase heq).elim, fun call hcall ↦
    ⟨fun c hc ↦ ?_, (h.progress call hcall).first⟩⟩
  refine ((h.progress call hcall).started c hc).imp id fun hpending ↦ ?_
  have hne : (call.clientId, c.proxyId) ≠ key := by
    rintro rfl
    obtain rfl := Option.some.inj (hsocket.symm.trans hpending.2.1)
    exact hbusy rfl hpending.2.2
  exact ⟨hpending.1, (Function.update_of_ne hne _ _).trans hpending.2.1, hpending.2.2⟩

theorem Inv.bind {proxyId : ℤ} (h : Inv s) (hcareful : s.Careful (.bind clientId proxyId))
    (hstep : step parse s (.bind clientId proxyId) = some t) : Inv t := by
  obtain ⟨socket, hsocket, hstep⟩ := Option.bind_eq_some_iff.mp hstep
  have howner := hcareful socket hsocket
  split_ifs at hstep with hphase hfree
  · obtain rfl := Option.some.inj hstep
    have hloose := loose_of_none hfree
    have htables := h.tables.set hloose (some (.task clientId proxyId))
    refine ⟨htables.setPhase hsocket fun _ ↦ Function.update_self .., fun call hcall ↦
      ⟨fun c hc ↦ ?_, fun {config left} hleft hstage ↦ ?_⟩⟩
    · rcases (h.progress call hcall).started c hc with hserves | hpending
      · exact .inl (hserves.set hloose _)
      · by_cases hkey : (call.clientId, c.proxyId) = (clientId, proxyId)
        · -- The task of this proxy has got its port.
          left
          obtain ⟨rfl, rfl⟩ := Prod.mk.inj hkey
          have hport : socket = ⟨portOf c, .spawned⟩ :=
            Option.some.inj (hsocket.symm.trans hpending.2.1)
          rw [serves_task hpending.1]
          dsimp only
          rw [hport]
          exact Function.update_self ..
        · have hne : portOf c ≠ socket.port := by
            intro heq
            exact hkey (howner _ (heq ▸ hpending.awaits hcall hc))
          obtain ⟨hkind, hspawned, hport⟩ := hpending.set (.inr hne)
          exact .inr ⟨hkind, (Function.update_of_ne hkey _ _).trans hspawned, hport⟩
    · obtain ⟨hnew, hkind, hport⟩ := (h.progress call hcall).first hleft hstage
      have hne : portOf config ≠ socket.port := by
        intro heq
        have hawaits := (h.progress call hcall).awaits_first hcall hleft hstage (heq ▸ hfree)
        obtain ⟨rfl, rfl⟩ := Prod.mk.inj (howner _ (heq ▸ hawaits))
        exact hnew (h.tables.listed hsocket)
      exact ⟨hnew, hkind, (Function.update_of_ne hne _ _).trans hport⟩
  · obtain rfl := Option.some.inj hstep
    exact h.setPhase hsocket (fun _ ↦ hfree) fun h ↦ (by cases h)

theorem Inv.finish {proxyId : ℤ} (h : Inv s)
    (hstep : step parse s (.finish clientId proxyId) = some t) : Inv t := by
  obtain ⟨socket, hsocket, hstep⟩ := Option.bind_eq_some_iff.mp hstep
  split_ifs at hstep with hphase
  obtain rfl := Option.some.inj hstep
  refine h.setPhase hsocket (fun hspawned ↦ ?_) fun h ↦ (by cases h)
  rw [hphase] at hspawned
  cases hspawned

/-- A stranger binds a port that nobody awaits. -/
theorem Inv.take (h : Inv s) (hcareful : s.Careful (.take port))
    (hstep : step parse s (.take port) = some t) : Inv t := by
  simp only [step] at hstep
  split_ifs at hstep with hfree
  obtain rfl := Option.some.inj hstep
  refine ⟨h.tables.set (loose_of_none hfree) _, fun call hcall ↦
    ⟨(h.progress call hcall).started_set hcall (loose_of_none hfree) hcareful _,
      fun {config left} hleft hstage ↦ ?_⟩⟩
  obtain ⟨hnew, hkind, hport⟩ := (h.progress call hcall).first hleft hstage
  have hne : portOf config ≠ port := by
    rintro rfl
    exact hcareful _ ((h.progress call hcall).awaits_first hcall hleft hstage hfree)
  exact ⟨hnew, hkind, (Function.update_of_ne hne _ _).trans hport⟩

theorem Inv.release (h : Inv s) (hstep : step parse s (.release port) = some t) : Inv t := by
  simp only [step] at hstep
  split_ifs at hstep with hother
  obtain rfl := Option.some.inj hstep
  have hloose : s.Loose port := by
    rw [Loose, hother]
    exact ⟨fun h ↦ (by cases h), fun _ _ h ↦ (by cases h)⟩
  refine ⟨h.tables.set hloose _, fun call hcall ↦ ⟨fun c hc ↦ ?_, fun {config left} hleft hstage ↦ ?_⟩⟩
  · exact ((h.progress call hcall).started c hc).imp (fun hserves ↦ hserves.set hloose _)
      fun hpending ↦ hpending.set (.inl rfl)
  · obtain ⟨hnew, hkind, hport⟩ := (h.progress call hcall).first hleft hstage
    have hne : portOf config ≠ port := by
      rintro rfl
      rw [hother] at hport
      split_ifs at hport
      cases hport
    exact ⟨hnew, hkind, (Function.update_of_ne hne _ _).trans hport⟩

theorem Inv.step (h : Inv s) {i : Input} (hcareful : s.Careful i)
    (hstep : step parse s i = some t) : Inv t := by
  cases i with
  | start clientId proxies =>
      simp only [NodePorts.step] at hstep
      split_ifs at hstep with hempty hidle
      · obtain rfl := Option.some.inj hstep
        exact h
      · obtain rfl := Option.some.inj hstep
        refine ⟨⟨h.tables.listening, h.tables.shared, fun {key socket} hkey ↦ ?_⟩,
          fun call hcall ↦ ?_⟩
        · have hlisted := h.tables.listed hkey
          dsimp only
          rw [clientListeners_insert]
          split_ifs with hclient
          · rwa [hclient] at hlisted
          · exact hlisted
        · obtain rfl := Option.some.inj hcall
          exact ⟨fun _ hc ↦ (List.not_mem_nil hc).elim, fun _ hstage ↦ (hstage rfl).elim⟩
  | advance =>
      obtain ⟨call, hcall, rfl⟩ := Option.map_eq_some_iff.mp hstep
      exact h.advance hcall hcareful
  | stopSingleProxy clientId proxyId lingers =>
      simp only [NodePorts.step] at hstep
      split_ifs at hstep with hidle
      obtain rfl := Option.some.inj hstep
      refine Tables.inv (h.tables.stop lingers lookup_of_stop fun key hkey hmem ↦ ?_)
        (Option.isNone_iff_eq_none.mp hidle)
      rw [mem_clientListeners_iff] at hmem ⊢
      obtain ⟨task, howns⟩ := hmem
      refine ⟨task, (owns_stopSingleProxy ..).mpr ⟨howns, fun hsame ↦ ?_⟩⟩
      exact of_decide_eq_false hkey (Prod.ext hsame.1 hsame.2)
  | stopClientProxies clientId lingers =>
      simp only [NodePorts.step] at hstep
      split_ifs at hstep with hidle
      obtain rfl := Option.some.inj hstep
      refine Tables.inv (h.tables.stop lingers lookup_of_stop fun key hkey hmem ↦ ?_)
        (Option.isNone_iff_eq_none.mp hidle)
      rw [mem_clientListeners_iff] at hmem ⊢
      obtain ⟨task, howns⟩ := hmem
      exact ⟨task, (owns_stopClientProxies ..).mpr ⟨howns, of_decide_eq_false hkey⟩⟩
  | bind clientId proxyId => exact h.bind hcareful hstep
  | finish clientId proxyId => exact h.finish hstep
  | take port => exact h.take hcareful hstep
  | release port => exact h.release hstep

/-- A start that waits for the tasks it has spawned is truthful. -/
theorem Inv.truthful (h : Inv s) {i : Input} (hcareful : s.Careful i) : s.Truthful i := by
  cases i with
  | advance =>
      intro call hcall hleft config hconfig
      refine ((h.progress call hcall).started config hconfig).resolve_right fun hpending ↦ ?_
      exact ((hcareful call hcall).1 hleft config hconfig _ hpending.2.1) rfl
  | _ => trivial

/-- A node without listeners on a machine some of whose ports are taken. -/
def fresh (taken : Port → Bool) : NodePorts where
  manager := .new
  sockets := fun _ ↦ none
  ports := fun port ↦ if taken port then some .other else none
  starting := none

theorem inv_fresh (taken : Port → Bool) : Inv (fresh taken) := by
  refine Tables.inv ⟨fun h ↦ ?_, fun h ↦ ?_, fun h ↦ ?_⟩ rfl <;> cases h

/-- In every run whose steps are all careful, a start that returns success has the
ports of its proxies bound by their listeners. -/
theorem truthful_of_careful (parse : UrlParser) (taken : Port → Bool) (inputs : List Input)
    (h : Within (step parse) Careful (fresh taken) inputs) :
    Within (step parse) Truthful (fresh taken) inputs :=
  Within.of_invariant (fun _ _ _ hinv hcareful hstep ↦ hinv.step hcareful hstep)
    (fun _ _ hinv hcareful ↦ hinv.truthful hcareful) (inv_fresh taken) h

/-- A TCP proxy of client 1. -/
def tcpConfig : ProxyConfig := { webConfig "" with proxyType := "tcp" }

/-- The start tries the port, releases it and spawns the task, which binds the port
before the start returns. -/
def tcpInputs : List Input :=
  [.start "1" [tcpConfig], .advance, .advance, .advance, .bind "1" 7, .advance]

theorem step_bind {clientId : String} {proxyId : ℤ} {port : Port} {s : NodePorts}
    (hsocket : s.sockets (clientId, proxyId) = some ⟨port, .spawned⟩) (hport : s.ports port = none) :
    s.step noUrls (.bind clientId proxyId) = some { s with
      sockets := Function.update s.sockets (clientId, proxyId) (some ⟨port, .listening⟩)
      ports := Function.update s.ports port (some (.task clientId proxyId)) } := by
  simp [step, hsocket, hport]

theorem truthful_of_careful_tcpInputs :
    Within (step noUrls) Truthful (fresh fun _ ↦ false) tcpInputs ∧
      ((run (step noUrls) (fresh fun _ ↦ false) tcpInputs).any fun s ↦
        s.starting = none ∧ s.ports (portOf tcpConfig) = some (.task "1" 7)) = true := by
  refine ⟨truthful_of_careful noUrls _ tcpInputs ?_, by decide +kernel⟩
  refine .cons trivial rfl (.cons ?_ rfl (.cons ?_ rfl (.cons ?_ rfl
    (.cons ?_ (step_bind rfl (Function.update_self ..)) (.cons ?_ rfl trivial)))))
  · intro call hcall
    obtain rfl := Option.some.inj hcall
    refine ⟨fun h ↦ (by cases h), fun _ config left hleft ↦ ?_⟩
    obtain rfl := (List.cons.inj hleft).1
    rw [if_neg (by decide)]
    rintro key ⟨call, hcall, config, -, -, ⟨hmem, -⟩ | ⟨hstage, -⟩⟩ <;>
      obtain rfl := Option.some.inj hcall
    · cases hmem
    · cases hstage
  · intro call hcall
    obtain rfl := Option.some.inj hcall
    exact ⟨fun h ↦ (by cases h), fun h ↦ (by cases h)⟩
  · intro call hcall
    obtain rfl := Option.some.inj hcall
    exact ⟨fun h ↦ (by cases h), fun h ↦ (by cases h)⟩
  · rintro socket - key ⟨call, hcall, config, hkey, -, ⟨hmem, -⟩ | ⟨hstage, -⟩⟩ <;>
      obtain rfl := Option.some.inj hcall
    · rw [hkey, List.mem_singleton.mp hmem]
      rfl
    · cases hstage
  · intro call hcall
    obtain rfl := Option.some.inj hcall
    refine ⟨fun _ config hmem socket hsocket ↦ ?_, fun _ config left hleft ↦ (by cases hleft)⟩
    obtain rfl := List.mem_singleton.mp hmem
    obtain rfl := Option.some.inj hsocket
    decide

/-- Another process takes the port between its release and the bind of the task. -/
def racingInputs : List Input :=
  [.start "1" [tcpConfig], .advance, .advance, .take (portOf tcpConfig), .advance]

/-- The start then returns success all the same. -/
theorem not_truthful_racingInputs :
    ∃ s, run (step noUrls) (fresh fun _ ↦ false) racingInputs = some s ∧
      s.starting = some ⟨"1", [tcpConfig], [], .next⟩ ∧
      s.ports (portOf tcpConfig) = some .other ∧ ¬ s.Truthful .advance := by
  have hsome : ((run (step noUrls) (fresh fun _ ↦ false) racingInputs).any fun s ↦
      s.starting = some ⟨"1", [tcpConfig], [], .next⟩ ∧
        s.ports (portOf tcpConfig) = some .other) = true := by decide +kernel
  obtain ⟨s, hrun, hs⟩ := (Option.any_eq_true _ _).mp hsome
  obtain ⟨hstarting, hport⟩ := of_decide_eq_true hs
  refine ⟨s, hrun, hstarting, hport, fun h ↦ ?_⟩
  have hserves := h _ hstarting rfl tcpConfig List.mem_cons_self
  rw [serves_task (by decide +kernel), hport] at hserves
  cases hserves

end NodePorts

end Oxiproxy.Node
