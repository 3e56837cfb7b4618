import Oxiproxy.Node.DirectCommands

/-!
# The direct routes that messages ask for

A snapshot decides about the routes of all direct proxies, a start or a stop about
those of one.  A message that is executed leaves the proxies it decides about with
the routes it asks for, and all other direct proxies as they are.
-/

namespace Oxiproxy.Node

open ProxyListenerManager

/-- The configuration without the name, which only occurs in log lines. -/
def nameless (config : ProxyConfig) : ProxyConfig := { config with name := "" }

/-- The node has no direct route for the proxy, or exactly the one that is asked for. -/
def Runs (parse : UrlParser) (m : ProxyListenerManager) (id : ℤ) : Option ProxyConfig → Prop
  | none => ∀ e, ¬ Owns m "" id e
  | some config =>
      ∃ name e, Describes parse { config with name } e ∧ ∀ e', Owns m "" id e' ↔ e' = e

/-- All proxies of a snapshot are started, one after the other. -/
def StartsAll (parse : UrlParser) : ProxyListenerManager → List ProxyConfig → Prop
  | _, [] => True
  | m, config :: configs =>
      checkDirectConfig config = .ok () ∧
        (m.startClientProxiesFromConfigs parse bindsSucceed "" [config]).2 = .ok () ∧
          StartsAll parse (m.startClientProxiesFromConfigs parse bindsSucceed "" [config]).1 configs

instance StartsAll.decidable (parse : UrlParser) :
    ∀ m configs, Decidable (StartsAll parse m configs)
  | _, [] => .isTrue trivial
  | m, config :: configs =>
      have := StartsAll.decidable parse
        (m.startClientProxiesFromConfigs parse bindsSucceed "" [config]).1 configs
      inferInstanceAs (Decidable (_ ∧ _ ∧ _))

namespace ControllerCommand

/-- The proxies that a message names. -/
def proxyIds : ControllerCommand → List ℤ
  | syncDirectProxies configs => configs.map (·.proxyId)
  | startProxy _ _ (some config) => [config.proxyId]
  | stopProxy _ proxyId => [proxyId]
  | _ => []

def isStop : ControllerCommand → Bool
  | stopProxy _ _ => true
  | _ => false

/-- The message decides about the proxy; a start that is refused does not. -/
def about : ControllerCommand → ℤ → Bool
  | syncDirectProxies _, _ => true
  | startProxy _ _ (some config), id =>
      config.proxyId == id && decide (checkDirectConfig config = .ok ())
  | stopProxy _ proxyId, id => proxyId == id
  | _, _ => false

/-- The route that a message asks for. -/
def told : ControllerCommand → ℤ → Option ProxyConfig
  | syncDirectProxies configs, id => (configs.find? (·.proxyId == id)).map nameless
  | startProxy _ _ (some config), id => if config.proxyId = id then some (nameless config) else none
  | _, _ => none

/-- Every route that the message asks for is installed. -/
def Accepted (parse : UrlParser) (m : ProxyListenerManager) : ControllerCommand → Prop
  | syncDirectProxies configs => StartsAll parse (m.stopClientProxies "") configs
  | startProxy _ _ (some config) =>
      checkDirectConfig config = .ok () → (startDirectProxy parse bindsSucceed m config).2 = .ok ()
  | _ => True

instance Accepted.decidable (parse : UrlParser) (m : ProxyListenerManager) :
    ∀ cmd, Decidable (Accepted parse m cmd)
  | syncDirectProxies configs =>
      inferInstanceAs (Decidable (StartsAll parse (m.stopClientProxies "") configs))
  | startProxy _ _ (some config) =>
      inferInstanceAs (Decidable (checkDirectConfig config = .ok () →
        (startDirectProxy parse bindsSucceed m config).2 = .ok ()))
  | startProxy _ _ none | stopProxy _ _ | getStatus | getClientLogs | getNodeLogs | updateProtocol
    | updateSpeedLimit | softwareUpdate | updateCertificate | restart => .isTrue trivial

/-- The node answers the message with a success; a snapshot is not answered. -/
def acknowledged (parse : UrlParser) (m : ProxyListenerManager) : ControllerCommand → Bool
  | startProxy _ _ (some config) =>
      decide ((startDirectProxy parse bindsSucceed m config).2 = .ok ())
  | stopProxy _ _ => true
  | _ => false

end ControllerCommand

/-- The call concerns a client's proxies. -/
def ManagerCall.ofClient : ManagerCall → Bool
  | stopClientProxies clientId => clientId != ""
  | stopSingleProxy clientId _ => clientId != ""
  | start clientId proxies => clientId != "" && proxies.all (·.clientId == clientId)

section Routes

variable {parse : UrlParser} {m m' : ProxyListenerManager} {id : ℤ} {config : ProxyConfig}

theorem runs_some_of_describes {e : Endpoint} (hdesc : Describes parse config e)
    (howns : ∀ e', Owns m "" id e' ↔ e' = e) : Runs parse m id (some (nameless config)) :=
  ⟨config.name, e, hdesc, howns⟩

theorem Runs.congr {route : Option ProxyConfig} (h : Runs parse m id route)
    (howns : ∀ e, Owns m' "" id e ↔ Owns m "" id e) : Runs parse m' id route := by
  cases route with
  | none => exact fun e he ↦ h e ((howns e).mp he)
  | some config =>
      obtain ⟨name, e, hdesc, hself⟩ := h
      exact ⟨name, e, hdesc, fun e' ↦ (howns e').trans (hself e')⟩

theorem find?_eq_none_of_not_mem {configs : List ProxyConfig}
    (h : id ∉ configs.map (·.proxyId)) : configs.find? (·.proxyId == id) = none := by
  rw [List.find?_eq_none]
  intro config hmem heq
  exact h (List.mem_map.mpr ⟨config, hmem, by simpa using heq⟩)

/-- A snapshot whose proxies all start: every proxy gets the route of its
configuration, a proxy that is not in the snapshot keeps what it has. -/
theorem owns_snapshot {configs : List ProxyConfig} (hstarts : StartsAll parse m configs)
    (hnodup : (configs.map (·.proxyId)).Nodup)
    (hnone : ∀ config ∈ configs, ∀ e, ¬ Owns m "" config.proxyId e) (id : ℤ) :
    match configs.find? (·.proxyId == id) with
    | some config => ∃ e, Describes parse config e ∧
        ∀ e', Owns (syncEach parse bindsSucceed m configs).1 "" id e' ↔ e' = e
    | none => ∀ e, Owns (syncEach parse bindsSucceed m configs).1 "" id e ↔ Owns m "" id e := by
  induction configs generalizing m with
  | nil => exact fun e ↦ Iff.rfl
  | cons config configs ih =>
      obtain ⟨hcheck, hstart, hrest⟩ := hstarts
      obtain ⟨hnew, hnodup⟩ := List.nodup_cons.mp hnodup
      obtain ⟨e, hdesc, howns⟩ := owns_startOne (Prod.ext rfl hstart)
        (clientId_of_checkDirectConfig hcheck) (hnone config List.mem_cons_self)
      have hnone' : ∀ c ∈ configs, ∀ e, ¬ Owns
          (m.startClientProxiesFromConfigs parse bindsSucceed "" [config]).1 "" c.proxyId e := by
        intro c hc e' he'
        have hne : c.proxyId ≠ config.proxyId :=
          fun heq ↦ hnew (List.mem_map.mpr ⟨c, hc, heq⟩)
        rw [howns, if_neg fun h ↦ hne h.2] at he'
        exact hnone c (List.mem_cons_of_mem _ hc) e' he'
      have hih := ih hrest hnodup hnone'
      simp only [syncEach, hcheck]
      by_cases hid : config.proxyId = id
      · -- the route of the first one stays, since the others have other ids
        subst hid
        rw [find?_eq_none_of_not_mem hnew] at hih
        rw [List.find?_cons_of_pos (by simp)]
        refine ⟨e, hdesc, fun e' ↦ (hih e').trans ?_⟩
        rw [howns, if_pos ⟨rfl, rfl⟩]
      · rw [List.find?_cons_of_neg (by simpa using hid)]
        cases hfind : configs.find? (·.proxyId == id) with
        | some c =>
            rw [hfind] at hih
            exact hih
        | none =>
            rw [hfind] at hih
            intro e'
            rw [hih, howns, if_neg fun h ↦ hid h.2.symm]

theorem owns_startProxies_of_client {binds : Binds} {clientId : String} {proxies : List ProxyConfig}
    (hclient : "" ≠ clientId) (hproxies : ∀ config ∈ proxies, config.clientId = clientId)
    (e : Endpoint) :
    Owns (startProxies parse binds clientId m proxies).1 "" id e ↔ Owns m "" id e := by
  induction proxies generalizing m with
  | nil => exact Iff.rfl
  | cons config proxies ih =>
      rw [startProxies]
      cases hstart : ProxyListenerManager.startProxy parse binds clientId m config with
      | error error => exact Iff.rfl
      | ok m₁ =>
          have hrest := ih (m := m₁) fun c hc ↦ hproxies c (List.mem_cons_of_mem _ hc)
          exact hrest.trans (owns_startProxy_of_ne hstart (hproxies config List.mem_cons_self)
            (fun h ↦ hclient h.1) e)

/-- The direct routes do not notice what is done for a client. -/
theorem ManagerCall.owns_apply_of_ofClient {call : ManagerCall} (h : call.ofClient = true)
    (id : ℤ) (e : Endpoint) : Owns (call.apply parse m) "" id e ↔ Owns m "" id e := by
  cases call with
  | stopClientProxies clientId =>
      have hne : clientId ≠ "" := bne_iff_ne.mp h
      exact (owns_stopClientProxies m clientId "" id e).trans (and_iff_left hne.symm)
  | stopSingleProxy clientId proxyId =>
      have hne : clientId ≠ "" := bne_iff_ne.mp h
      exact (owns_stopSingleProxy m clientId "" proxyId id e).trans
        (and_iff_left fun h ↦ hne h.1.symm)
  | start clientId proxies =>
      obtain ⟨hne, hproxies⟩ : clientId ≠ "" ∧ ∀ config ∈ proxies, config.clientId = clientId := by
        simpa [ofClient] using h
      unfold apply startClientProxiesFromConfigs
      dsimp only
      split_ifs
      · exact Iff.rfl
      · rw [owns_startProxies_of_client hne.symm hproxies, owns_entry]

namespace ControllerCommand

variable {cmd : ControllerCommand}

/-- An executed message leaves the proxies it is about with the routes it asks for. -/
theorem runs_execute (hdirect : cmd.direct = true) (hnodup : cmd.proxyIds.Nodup)
    (haccepted : cmd.Accepted parse m) (habout : cmd.about id = true) :
    Runs parse (cmd.execute parse m) id (cmd.told id) := by
  cases cmd with
  | syncDirectProxies configs =>
      have hnone : ∀ c ∈ configs, ∀ e, ¬ Owns (m.stopClientProxies "") "" c.proxyId e :=
        fun c _ e he ↦ ((owns_stopClientProxies m "" "" c.proxyId e).mp he).2 rfl
      have hsync := owns_snapshot haccepted hnodup hnone id
      simp only [told]
      cases hfind : configs.find? (·.proxyId == id) with
      | none =>
          rw [hfind] at hsync
          intro e he
          exact ((owns_stopClientProxies m "" "" id e).mp ((hsync e).mp he)).2 rfl
      | some config =>
          rw [hfind] at hsync
          obtain ⟨e, hdesc, howns⟩ := hsync
          exact runs_some_of_describes hdesc howns
  | startProxy clientId proxyId config =>
      cases config with
      | none => cases hdirect
      | some config =>
          obtain ⟨hid, hcheck⟩ : config.proxyId = id ∧ checkDirectConfig config = .ok () := by
            simpa [about] using habout
          subst hid
          have hstart := haccepted hcheck
          simp only [execute, startDirectProxy, hcheck] at hstart ⊢
          obtain ⟨e, hdesc, howns⟩ := owns_startOne (Prod.ext rfl hstart)
            (clientId_of_checkDirectConfig hcheck) fun e he ↦
              ((owns_stopSingleProxy m "" "" config.proxyId config.proxyId e).mp he).2 ⟨rfl, rfl⟩
          rw [told, if_pos rfl]
          refine runs_some_of_describes hdesc fun e' ↦ ?_
          rw [howns, if_pos ⟨rfl, rfl⟩]
  | stopProxy clientId proxyId =>
      obtain rfl : clientId = "" := String.isEmpty_iff.mp hdirect
      obtain rfl : proxyId = id := by simpa [about] using habout
      exact fun e he ↦ ((owns_stopSingleProxy m "" "" proxyId proxyId e).mp he).2 ⟨rfl, rfl⟩
  | _ => cases hdirect

/-- The other direct proxies keep their routes. -/
theorem owns_execute_of_not (hdirect : cmd.direct = true) (haccepted : cmd.Accepted parse m)
    (habout : cmd.about id = false) (e : Endpoint) :
    Owns (cmd.execute parse m) "" id e ↔ Owns m "" id e := by
  cases cmd with
  | syncDirectProxies configs => cases habout
  | startProxy clientId proxyId config =>
      cases config with
      | none => exact Iff.rfl
      | some config =>
          simp only [execute, startDirectProxy]
          cases hcheck : checkDirectConfig config with
          | error error => rfl
          | ok u =>
              have hid : ¬ id = config.proxyId := by
                intro hid
                simp [about, hid, hcheck] at habout
              have hstart := haccepted hcheck
              simp only [startDirectProxy, hcheck] at hstart
              obtain ⟨e₀, -, howns⟩ := owns_startOne (Prod.ext rfl hstart)
                (clientId_of_checkDirectConfig hcheck) fun e he ↦
                  ((owns_stopSingleProxy m "" "" config.proxyId config.proxyId e).mp he).2
                    ⟨rfl, rfl⟩
              rw [howns, if_neg fun h ↦ hid h.2, owns_stopSingleProxy]
              exact and_iff_left fun h ↦ hid h.2
  | stopProxy clientId proxyId =>
      have hid : ¬ id = proxyId := by
        rintro rfl
        simp [about] at habout
      exact (owns_stopSingleProxy m clientId "" proxyId id e).trans (and_iff_left fun h ↦ hid h.2)
  | _ => cases hdirect

end ControllerCommand

end Routes

end Oxiproxy.Node
