import Oxiproxy.Node.OneRoute

/-!
# The table of shared ports

What starts and stops do to the ports themselves: a port is in the table for
as long as it has routes, and all of them are of its kind and bound to it.
-/

namespace Oxiproxy.Node

open Transition

namespace DomainListeners

variable {parse : UrlParser} {binds : Binds} {listeners listeners' : DomainListeners}
  {config : ProxyConfig}

theorem lookup_stop (listeners : DomainListeners) (client : String) (proxy : Option Int)
    (port : UInt16) :
    (listeners.stop client proxy).lookup port = (listeners.lookup port).bind fun listener ↦
      let routes := listener.routes.retain fun _ route ↦ !route.belongsTo client proxy
      if routes.entries.isEmpty then none else some { listener with routes } :=
  AList.lookup_filterMapVal ..

/-! ## The invariant of a port -/

/-- A port has a route, and all its routes are of its kind, bound to it and
kept under the normal form of their domain. -/
structure Shares (port : UInt16) (listener : Listener) : Prop where
  nonempty : ∃ domain route, listener.routes.lookup domain = some route
  kind : ∀ {domain route}, listener.routes.lookup domain = some route →
    route.config.proxyType = listener.kind
  port : ∀ {domain route}, listener.routes.lookup domain = some route →
    route.config.remotePort = port
  domain : ∀ {domain route}, listener.routes.lookup domain = some route →
    normalizePattern route.config.domain = .ok domain

theorem Shares.insert {listener : Listener} {domain : String} {route : Route} {port : UInt16}
    (hkind : route.config.proxyType = listener.kind) (hport : route.config.remotePort = port)
    (hdomain : normalizePattern route.config.domain = .ok domain)
    (h : ∀ d r, listener.routes.lookup d = some r →
      r.config.proxyType = listener.kind ∧ r.config.remotePort = port ∧
        normalizePattern r.config.domain = .ok d) :
    Shares port { listener with routes := listener.routes.insert domain route } := by
  have hroute : ∀ d r, (listener.routes.insert domain route).lookup d = some r →
      r.config.proxyType = listener.kind ∧ r.config.remotePort = port ∧
        normalizePattern r.config.domain = .ok d := by
    intro d r hr
    rw [AList.lookup_insert_eq_ite] at hr
    by_cases hd : d = domain
    · rw [if_pos hd] at hr
      obtain rfl := Option.some.inj hr
      exact ⟨hkind, hport, hd ▸ hdomain⟩
    · rw [if_neg hd] at hr
      exact h d r hr
  exact ⟨⟨domain, route, AList.lookup_insert _⟩, fun hr ↦ (hroute _ _ hr).1,
    fun hr ↦ (hroute _ _ hr).2.1, fun hr ↦ (hroute _ _ hr).2.2⟩

/-- Every port of the table. -/
def WellFormed (listeners : DomainListeners) : Prop :=
  ∀ port listener, listeners.lookup port = some listener → Shares port listener

theorem wellFormed_empty : WellFormed ∅ := by
  intro port listener h
  cases h

theorem WellFormed.start (hwf : WellFormed listeners)
    (h : listeners.start parse binds config = .ok listeners') : WellFormed listeners' := by
  obtain ⟨domain, upstream, hdomain, -, hcases⟩ := start_cases h
  have hidem := normalizePattern_idempotent hdomain
  intro port listener hport
  rcases hcases with ⟨old, hold, hkind, -, rfl⟩ | ⟨-, rfl⟩ <;>
    rw [AList.lookup_insert_eq_ite] at hport
  · by_cases hsame : port = config.remotePort
    · rw [if_pos hsame] at hport
      obtain rfl := Option.some.inj hport
      have hshares := hwf _ old hold
      refine Shares.insert hkind.symm hsame.symm hidem fun d r hr ↦ ?_
      exact ⟨hshares.kind hr, (hshares.port hr).trans hsame.symm, hshares.domain hr⟩
    · rw [if_neg hsame] at hport
      exact hwf port listener hport
  · by_cases hsame : port = config.remotePort
    · rw [if_pos hsame] at hport
      obtain rfl := Option.some.inj hport
      have hnew : Shares port
          ⟨config.proxyType, (∅ : AList fun _ : String ↦ Route).insert domain
            ⟨{ config with domain }, upstream⟩⟩ :=
        @Shares.insert ⟨config.proxyType, ∅⟩ _ _ _ rfl hsame.symm hidem fun d r hr ↦ by cases hr
      exact hnew
    · rw [if_neg hsame] at hport
      exact hwf port listener hport

/-- What is left of a port that is not closed. -/
theorem lookup_stop_eq_some {client : String} {proxy : Option Int} {port : UInt16}
    {listener' : Listener} :
    (listeners.stop client proxy).lookup port = some listener' ↔
      ∃ listener, listeners.lookup port = some listener ∧ listener'.kind = listener.kind ∧
        listener'.routes = (listener.routes.retain fun _ route ↦ !route.belongsTo client proxy) ∧
        listener'.routes.entries ≠ [] := by
  rw [lookup_stop, Option.bind_eq_some_iff]
  constructor
  · rintro ⟨listener, hport, h⟩
    dsimp only at h
    split_ifs at h with hempty
    obtain rfl := Option.some.inj h
    exact ⟨listener, hport, rfl, rfl, fun hnil ↦ hempty (List.isEmpty_iff.mpr hnil)⟩
  · rintro ⟨listener, hport, hkind, hroutes, hne⟩
    refine ⟨listener, hport, ?_⟩
    obtain ⟨kind, routes⟩ := listener'
    obtain rfl : kind = listener.kind := hkind
    obtain rfl : routes = _ := hroutes
    exact if_neg fun hempty ↦ hne (List.isEmpty_iff.mp hempty)

theorem exists_lookup_of_entries_ne {routes : AList fun _ : String ↦ Route}
    (h : routes.entries ≠ []) : ∃ domain route, routes.lookup domain = some route := by
  obtain ⟨⟨domain, route⟩, entries, hentries⟩ := List.exists_cons_of_ne_nil h
  refine ⟨domain, route, ?_⟩
  unfold AList.lookup
  rw [hentries, List.dlookup_cons_eq]

theorem WellFormed.stop (hwf : WellFormed listeners) (client : String) (proxy : Option Int) :
    WellFormed (listeners.stop client proxy) := by
  intro port listener' hport
  obtain ⟨listener, hlistener, hkind, hroutes, hne⟩ := lookup_stop_eq_some.mp hport
  have hshares := hwf port listener hlistener
  have hold : ∀ {domain route}, listener'.routes.lookup domain = some route →
      listener.routes.lookup domain = some route := by
    intro domain route hroute
    rw [hroutes] at hroute
    exact (AList.lookup_retain_eq_some.mp hroute).1
  refine ⟨exists_lookup_of_entries_ne hne, fun hroute ↦ ?_, fun hroute ↦ hshares.port (hold hroute),
    fun hroute ↦ hshares.domain (hold hroute)⟩
  rw [hkind]
  exact hshares.kind (hold hroute)

/-! ## Calls -/

/-- A call of the component, with what the operating system says to a bind. -/
inductive Call
  | start (binds : Binds) (config : ProxyConfig)
  | stop (client : String) (proxy : Option Int)

/-- The table after a call, and what the call returns. -/
def call (parse : UrlParser) (listeners : DomainListeners) :
    Call → DomainListeners × Except String Unit
  | .start binds config =>
      match listeners.start parse binds config with
      | .ok listeners => (listeners, .ok ())
      | .error e => (listeners, .error e)
  | .stop client proxy => (listeners.stop client proxy, .ok ())

theorem call_start_ok (h : listeners.start parse binds config = .ok listeners') :
    listeners.call parse (.start binds config) = (listeners', .ok ()) := by
  simp only [call, h]

theorem call_start_error {e : String} (h : listeners.start parse binds config = .error e) :
    listeners.call parse (.start binds config) = (listeners, .error e) := by
  simp only [call, h]

def step (parse : UrlParser) (listeners : DomainListeners) (c : Call) : Option DomainListeners :=
  some (listeners.call parse c).1

theorem WellFormed.call (hwf : WellFormed listeners) (c : Call) :
    WellFormed (listeners.call parse c).1 := by
  cases c with
  | stop client proxy => exact hwf.stop client proxy
  | start binds config =>
      cases hstart : listeners.start parse binds config with
      | error e => rwa [call_start_error hstart]
      | ok listeners' =>
          rw [call_start_ok hstart]
          exact hwf.start hstart

/-- Only the entry of one port and domain is written; an entry that was there
had the same owner. -/
def StartsOne (listeners : DomainListeners) (config : ProxyConfig)
    (listeners' : DomainListeners) : Prop :=
  ∃ domain upstream, normalizePattern config.domain = .ok domain ∧
    routeAt listeners' config.remotePort domain =
      some (config.proxyType, ⟨{ config with domain }, upstream⟩) ∧
    (∀ kind old, routeAt listeners config.remotePort domain = some (kind, old) →
      old.config.clientId = config.clientId ∧ old.config.proxyId = config.proxyId) ∧
    (∀ port, port ≠ config.remotePort → listeners'.lookup port = listeners.lookup port) ∧
    ∀ port d, ¬ (port = config.remotePort ∧ d = domain) →
      routeAt listeners' port d = routeAt listeners port d

theorem startsOne (h : listeners.start parse binds config = .ok listeners') :
    StartsOne listeners config listeners' := by
  obtain ⟨domain, upstream, hdomain, -, howner, hroutes⟩ := start_eq_ok h
  refine ⟨domain, upstream, hdomain, ?_, howner, fun port hport ↦ ?_, fun port d hne ↦ ?_⟩
  · rw [hroutes, if_pos ⟨rfl, rfl⟩]
  · obtain ⟨-, -, -, -, ⟨-, -, -, -, rfl⟩ | ⟨-, rfl⟩⟩ := start_cases h <;>
      exact AList.lookup_insert_ne hport
  · rw [hroutes, if_neg hne]

/-- Exactly the routes of the client, or of its one proxy, are gone, and with
them the ports that have no others. -/
def StopsOwn (listeners : DomainListeners) (client : String) (proxy : Option Int)
    (listeners' : DomainListeners) : Prop :=
  (∀ port, listeners.lookup port = none → listeners'.lookup port = none) ∧
    ∀ port listener, listeners.lookup port = some listener →
      (listeners'.lookup port = none ↔ ∀ domain route,
        listener.routes.lookup domain = some route → route.belongsTo client proxy = true) ∧
      ∀ listener', listeners'.lookup port = some listener' →
        listener'.kind = listener.kind ∧ ∀ domain route,
          listener'.routes.lookup domain = some route ↔
            listener.routes.lookup domain = some route ∧ route.belongsTo client proxy = false

theorem stopsOwn (listeners : DomainListeners) (client : String) (proxy : Option Int) :
    StopsOwn listeners client proxy (listeners.stop client proxy) := by
  have hretain {listener : Listener} {domain : String} {route : Route} :
      (listener.routes.retain fun _ route ↦ !route.belongsTo client proxy).lookup domain =
        some route ↔
      listener.routes.lookup domain = some route ∧ route.belongsTo client proxy = false := by
    rw [AList.lookup_retain_eq_some, Bool.not_eq_true']
  refine ⟨fun port hport ↦ by rw [lookup_stop, hport]; rfl, fun port listener hport ↦ ⟨?_, ?_⟩⟩
  · constructor
    · intro hnone domain route hroute
      by_contra hother
      have hkept := hretain.mpr ⟨hroute, Bool.not_eq_true _ ▸ hother⟩
      rw [lookup_stop, hport, Option.bind_some] at hnone
      dsimp only at hnone
      split_ifs at hnone with hempty
      rw [AList.lookup, List.isEmpty_iff.mp hempty] at hkept
      cases hkept
    · intro hall
      rw [Option.eq_none_iff_forall_ne_some]
      intro listener' hport'
      obtain ⟨old, hold, -, hroutes, hne⟩ := lookup_stop_eq_some.mp hport'
      obtain rfl := Option.some.inj (hport.symm.trans hold)
      obtain ⟨domain, route, hroute⟩ := exists_lookup_of_entries_ne hne
      rw [hroutes] at hroute
      obtain ⟨hroute, hother⟩ := hretain.mp hroute
      rw [hall domain route hroute] at hother
      cases hother
  · intro listener' hport'
    obtain ⟨old, hold, hkind, hroutes, -⟩ := lookup_stop_eq_some.mp hport'
    obtain rfl := Option.some.inj (hport.symm.trans hold)
    refine ⟨hkind, fun domain route ↦ ?_⟩
    rw [hroutes, hretain]

theorem WellFormed.run {calls : List Call} (hrun : run (step parse) ∅ calls = some listeners) :
    WellFormed listeners := by
  have hstep : ∀ s c t, WellFormed s → step parse s c = some t → WellFormed t := by
    intro s c t hs hstep
    obtain rfl := Option.some.inj hstep
    exact hs.call c
  exact run_invariant_of_step hstep wellFormed_empty hrun

/-- Whatever calls have been made and however they ended, every port of the
table is shared by routes of its own, a failed start has changed nothing, and
starts and stops change what they are called for. -/
theorem wellFormed_of_run {calls : List Call} (hrun : run (step parse) ∅ calls = some listeners) :
    WellFormed listeners ∧
      (∀ c e, (listeners.call parse c).2 = .error e → (listeners.call parse c).1 = listeners) ∧
      (∀ binds config, (listeners.call parse (.start binds config)).2 = .ok () →
        StartsOne listeners config (listeners.call parse (.start binds config)).1) ∧
      ∀ client proxy,
        StopsOwn listeners client proxy (listeners.call parse (.stop client proxy)).1 := by
  refine ⟨WellFormed.run hrun, fun c e herror ↦ ?_, fun binds config hok ↦ ?_,
    fun client proxy ↦ stopsOwn listeners client proxy⟩
  · cases c with
    | stop client proxy => cases herror
    | start binds config =>
        cases hstart : listeners.start parse binds config with
        | error e => rw [call_start_error hstart]
        | ok listeners' =>
            rw [call_start_ok hstart] at herror
            cases herror
  · cases hstart : listeners.start parse binds config with
    | error e =>
        rw [call_start_error hstart] at hok
        cases hok
    | ok listeners' =>
        rw [call_start_ok hstart]
        exact startsOne hstart

open ProxyListenerManager in
/-- One client's route is started and another client stopped. -/
def webCalls : List Call :=
  [.start bindsSucceed (webConfig "a.example.com"), .stop "2" none]

open ProxyListenerManager in
theorem wellFormed_of_run_webCalls :
    ∃ listeners, run (step noUrls) ∅ webCalls = some listeners ∧ WellFormed listeners := by
  have hrun : run (step noUrls) ∅ webCalls = some _ := rfl
  exact ⟨_, hrun, (wellFormed_of_run hrun).1⟩

end DomainListeners

end Oxiproxy.Node
