import Oxiproxy.Common.Protocol
import Oxiproxy.Common.Upstream
import Oxiproxy.Foundation.HashMap

/-!
# The node's proxy listeners

A node serves TCP and UDP proxies from one table, keyed by client and proxy,
and HTTP(S) proxies from another, keyed by port and domain.  Starting a
client's proxies consults the first table to skip what already runs and leaves
the second to the domain listeners.
-/

namespace Oxiproxy.Node

inductive ProxyProtocol
  | tcp
  | udp
  deriving DecidableEq, Repr

def ProxyProtocol.ofString (s : String) : ProxyProtocol :=
  if s.toLower = "udp" then .udp else .tcp

def ProxyProtocol.asUpper : ProxyProtocol → String
  | .tcp => "TCP"
  | .udp => "UDP"

/-- The outcome of an attempt to bind a local port. -/
abbrev Binds := ProxyProtocol → UInt16 → Except String Unit

structure Route where
  config : ProxyConfig
  upstream : Option Url
  deriving DecidableEq, Repr

/-- The route belongs to the client and, when one is given, to that proxy. -/
def Route.belongsTo (client : String) (proxy : Option Int) (route : Route) : Bool :=
  route.config.clientId == client && proxy.all (· == route.config.proxyId)

/-- One shared port: its kind and the routes it serves, by domain. -/
structure Listener where
  kind : String
  routes : AList fun _ : String ↦ Route
  deriving DecidableEq

abbrev DomainListeners := AList fun _ : UInt16 ↦ Listener

/-- A running TCP or UDP listener, as its closure captured it. -/
structure ListenerTask where
  proxyName : String
  protocol : ProxyProtocol
  listenAddr : String
  targetAddr : String
  deriving DecidableEq, Repr

/-- Whether a kind is served by the domain listeners. -/
def isDomainKind (kind : String) : Bool := kind == "http" || kind == "https"

/-- The upstream of a route; exactly the direct proxies have one. -/
def routeUpstream (parse : UrlParser) (config : ProxyConfig) : Except String (Option Url) :=
  if config.upstreamUrl.isEmpty then do
    ensure (!config.clientId.isEmpty) "隧道代理缺少 Client"
    return none
  else do
    ensure config.clientId.isEmpty "公网直连代理不能绑定 Client"
    return some (← parseUpstream parse config.proxyType config.upstreamUrl)

namespace DomainListeners

/-- A port that is already shared takes one more route. -/
def addRoute (listener : Listener) (route : Route) : Except String Listener := do
  ensure (listener.kind == route.config.proxyType) "共享端口的协议必须一致"
  ensure ((listener.routes.lookup route.config.domain).all fun old ↦
      old.config.proxyId == route.config.proxyId && old.config.clientId == route.config.clientId)
    "域名已被其他代理使用"
  return { listener with routes := listener.routes.insert route.config.domain route }

def start (parse : UrlParser) (binds : Binds) (listeners : DomainListeners)
    (config : ProxyConfig) : Except String DomainListeners := do
  let domain ← normalizePattern config.domain
  let config := { config with domain }
  let upstream ← routeUpstream parse config
  match listeners.lookup config.remotePort with
  | some listener =>
      let listener ← addRoute listener ⟨config, upstream⟩
      return listeners.insert config.remotePort listener
  | none =>
      binds .tcp config.remotePort
      return listeners.insert config.remotePort
        ⟨config.proxyType, (∅ : AList fun _ : String ↦ Route).insert domain ⟨config, upstream⟩⟩

/-- Drop the routes of a client, or of one of its proxies, and every port left
without routes. -/
def stop (listeners : DomainListeners) (client : String) (proxy : Option Int) :
    DomainListeners :=
  listeners.filterMapVal fun _ listener ↦
    let routes := listener.routes.retain fun _ route ↦ !route.belongsTo client proxy
    if routes.entries.isEmpty then none else some { listener with routes }

end DomainListeners

structure ProxyListenerManager where
  domains : DomainListeners
  listeners : AList fun _ : String ↦ AList fun _ : Int ↦ ListenerTask
  deriving DecidableEq

namespace ProxyListenerManager

def new : ProxyListenerManager := ⟨∅, ∅⟩

/-- The TCP and UDP listeners of a client. -/
def clientListeners (m : ProxyListenerManager) (clientId : String) :
    AList fun _ : Int ↦ ListenerTask :=
  (m.listeners.lookup clientId).getD ∅

def listenAddr (config : ProxyConfig) : String :=
  "0.0.0.0:" ++ toString config.remotePort.toNat

def targetAddr (config : ProxyConfig) : String :=
  config.localIp ++ ":" ++ toString config.localPort.toNat

/-- The listener spawned for a TCP or UDP proxy. -/
def listenerTask (config : ProxyConfig) : ListenerTask where
  proxyName := config.name
  protocol := .ofString config.proxyType
  listenAddr := listenAddr config
  targetAddr := targetAddr config

/-- The preflight bind of a TCP or UDP proxy. -/
def preflight (binds : Binds) (config : ProxyConfig) : Except String Unit :=
  let protocol := ProxyProtocol.ofString config.proxyType
  match binds protocol config.remotePort with
  | .ok () => .ok ()
  | .error e =>
      .error ("代理「" ++ config.name ++ "」无法监听 " ++ protocol.asUpper ++ " 端口 " ++
        toString config.remotePort.toNat ++ "：" ++ e)

/-- One iteration of the start loop.  A proxy that already has a TCP or UDP
listener is skipped whatever its configuration says now. -/
def startProxy (parse : UrlParser) (binds : Binds) (clientId : String)
    (m : ProxyListenerManager) (config : ProxyConfig) : Except String ProxyListenerManager := do
  if config.proxyId ∈ m.clientListeners clientId then
    return m
  if isDomainKind config.proxyType then
    let domains ← DomainListeners.start parse binds m.domains config
    return { m with domains }
  ensure (config.proxyType == "tcp" || config.proxyType == "udp") "不支持的代理类型"
  preflight binds config
  return { m with
    listeners := m.listeners.insert clientId
      ((m.clientListeners clientId).insert config.proxyId (listenerTask config)) }

/-- The start loop: the first failure ends it and keeps what was started. -/
def startProxies (parse : UrlParser) (binds : Binds) (clientId : String) :
    ProxyListenerManager → List ProxyConfig → ProxyListenerManager × Except String Unit
  | m, [] => (m, .ok ())
  | m, config :: configs =>
      match startProxy parse binds clientId m config with
      | .ok m => startProxies parse binds clientId m configs
      | .error e => (m, .error e)

def startClientProxiesFromConfigs (parse : UrlParser) (binds : Binds)
    (m : ProxyListenerManager) (clientId : String) (proxies : List ProxyConfig) :
    ProxyListenerManager × Except String Unit :=
  if proxies.isEmpty then (m, .ok ())
  else
    startProxies parse binds clientId
      { m with listeners := m.listeners.insert clientId (m.clientListeners clientId) } proxies

def stopClientProxies (m : ProxyListenerManager) (clientId : String) : ProxyListenerManager where
  domains := m.domains.stop clientId none
  listeners := m.listeners.erase clientId

def stopSingleProxy (m : ProxyListenerManager) (clientId : String) (proxyId : Int) :
    ProxyListenerManager where
  domains := m.domains.stop clientId (some proxyId)
  listeners :=
    match m.listeners.lookup clientId with
    | some tasks => m.listeners.insert clientId (tasks.erase proxyId)
    | none => m.listeners

end ProxyListenerManager

end Oxiproxy.Node
