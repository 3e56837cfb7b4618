import Oxiproxy.Common.Rust
import Oxiproxy.Node.OneRoute

/-!
# Commands executed by a node

Starting and stopping single proxies, and replacing all direct proxies by a
snapshot.  The configuration of a client's proxy is asked for when it is started;
that of a direct proxy comes with the command.
-/

namespace Oxiproxy.Node

open ProxyListenerManager

variable (parse : UrlParser) (binds : Binds)

/-- The proxy is stopped before its configuration is asked for. -/
def startProxy (getClientProxies : ℤ → Except String (List ProxyConfig)) (m : ProxyListenerManager)
    (clientId : String) (proxyId : ℤ) : ProxyListenerManager × Except String Unit :=
  let m := m.stopSingleProxy clientId proxyId
  match parseI64 clientId with
  | none => (m, .error ("无效的 client_id: " ++ clientId))
  | some clientIdNum =>
      match getClientProxies clientIdNum with
      | .error e => (m, .error e)
      | .ok allProxies =>
          let targetProxies := allProxies.filter fun p ↦ p.proxyId == proxyId && p.enabled
          if targetProxies.isEmpty then
            (m, .error ("未找到代理配置: client_id=" ++ clientId ++ ", proxy_id=" ++
              toString proxyId))
          else m.startClientProxiesFromConfigs parse binds clientId targetProxies

def checkDirectConfig (config : ProxyConfig) : Except String Unit :=
  ensure (config.clientId.isEmpty && !config.upstreamUrl.isEmpty && config.enabled)
    "无效的公网直连配置"

theorem clientId_of_checkDirectConfig {config : ProxyConfig} (h : checkDirectConfig config = .ok ()) :
    config.clientId = "" := by
  rw [checkDirectConfig, ensure_eq_ok, Bool.and_eq_true, Bool.and_eq_true] at h
  exact String.isEmpty_iff.mp h.1.1

def startDirectProxy (m : ProxyListenerManager) (config : ProxyConfig) :
    ProxyListenerManager × Except String Unit :=
  match checkDirectConfig config with
  | .error e => (m, .error e)
  | .ok () =>
      (m.stopSingleProxy "" config.proxyId).startClientProxiesFromConfigs parse binds "" [config]

/-- The loop over the snapshot: a proxy that does not start is logged, an invalid
configuration ends the loop. -/
def syncEach : ProxyListenerManager → List ProxyConfig → ProxyListenerManager × Except String Unit
  | m, [] => (m, .ok ())
  | m, config :: configs =>
      match checkDirectConfig config with
      | .error e => (m, .error e)
      | .ok () =>
          syncEach (m.startClientProxiesFromConfigs parse binds "" [config]).1 configs

def syncDirectProxies (m : ProxyListenerManager) (configs : List ProxyConfig) :
    ProxyListenerManager × Except String Unit :=
  syncEach parse binds (m.stopClientProxies "") configs

variable {parse binds} {m m' : ProxyListenerManager} {config : ProxyConfig} {clientId : String}

/-- A proxy without endpoints that is started gets the one its configuration
describes. -/
theorem owns_startOne
    (h : m.startClientProxiesFromConfigs parse binds clientId [config] = (m', .ok ()))
    (hclient : config.clientId = clientId) (hnone : ∀ e, ¬ Owns m clientId config.proxyId e) :
    ∃ e, Describes parse config e ∧ ∀ c p e', Owns m' c p e' ↔
      if c = clientId ∧ p = config.proxyId then e' = e else Owns m c p e' := by
  simp only [startClientProxiesFromConfigs, List.isEmpty_cons, Bool.false_eq_true, if_false,
    startProxies] at h
  split at h
  · rename_i m₁ hstart
    obtain rfl : m₁ = m' := (Prod.mk.inj h).1
    have hnone' : ∀ e, ¬ Owns ⟨m.domains, m.listeners.insert clientId (m.clientListeners clientId)⟩
        clientId config.proxyId e := by
      intro e he
      exact hnone e ((owns_entry m clientId _ _ e).mp he)
    obtain ⟨e, hdesc, hself⟩ := owns_startProxy_self hstart hclient
      (fun e _ he ↦ (hnone' e he).elim) (fun e he ↦ (hnone' e (hclient ▸ he)).elim)
    refine ⟨e, hdesc, fun c p e' ↦ ?_⟩
    by_cases hkey : c = clientId ∧ p = config.proxyId
    · obtain ⟨rfl, rfl⟩ := hkey
      rw [if_pos ⟨rfl, rfl⟩]
      exact hself e'
    · rw [if_neg hkey, owns_startProxy_of_ne hstart hclient hkey, owns_entry]
  · cases (Prod.mk.inj h).2

end Oxiproxy.Node
