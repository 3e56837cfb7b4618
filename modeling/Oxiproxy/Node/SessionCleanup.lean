import Oxiproxy.Node.Sessions

/-!
# Cleanup of sessions

Which listeners run once the sessions of a client come to rest.  A removal
names the connection it removes, but the stop that follows names only the
client, so the outcome depends on what happened in between.  The invariant says
who is still going to start or stop the listeners while they disagree with the
stored connections.
-/

namespace Oxiproxy.Node

open Transition ProxyListenerManager

variable {parse : UrlParser} {batch : Batch} {s t : ClientState} {i : ℕ} {x x' : Session}

@[simp] theorem Session.cleanup_setCleanup (x : Session) (c : Cleanup) (site other : Site) :
    (x.setCleanup c site).cleanup other = if other = site then c else x.cleanup other := by
  cases site <;> cases other <;> rfl

@[simp] theorem Session.phase_setCleanup (x : Session) (c : Cleanup) (site : Site) :
    (x.setCleanup c site).phase = x.phase := by
  cases site <;> rfl

@[simp] theorem Session.isOpen_setCleanup (x : Session) (c : Cleanup) (site : Site) :
    (x.setCleanup c site).isOpen = x.isOpen := by
  cases site <;> rfl

@[simp] theorem Session.transport_setCleanup (x : Session) (c : Cleanup) (site : Site) :
    (x.setCleanup c site).transport = x.transport := by
  cases site <;> rfl

namespace ClientState

/-! ## Pending steps after a change of one session -/

theorem StartPending.setSession (h : s.StartPending) (hx : s.sessions[i]? = some x)
    (hphase : x.phase ≠ .started → x'.phase ≠ .started) : (s.setSession i x').StartPending := by
  obtain ⟨j, y, hy, hp⟩ := h
  by_cases hj : j = i
  · subst hj
    obtain rfl := Option.some.inj (hx.symm.trans hy)
    exact ⟨j, x', by simp [getElem?_setSession hx], hphase hp⟩
  · exact ⟨j, y, by simp [getElem?_setSession hx, hj, hy], hp⟩

theorem StorePending.setSession (h : s.StorePending) (hx : s.sessions[i]? = some x)
    (hphase : x.phase = .authenticated → x'.phase = .authenticated) :
    (s.setSession i x').StorePending := by
  obtain ⟨j, y, hy, hp⟩ := h
  by_cases hj : j = i
  · subst hj
    obtain rfl := Option.some.inj (hx.symm.trans hy)
    exact ⟨j, x', by simp [getElem?_setSession hx], hphase hp⟩
  · exact ⟨j, y, by simp [getElem?_setSession hx, hj, hy], hp⟩

theorem StopPending.setSession (h : s.StopPending) (hx : s.sessions[i]? = some x)
    (hcleanup : ∀ site, x.cleanup site = .removed → x'.cleanup site = .removed) :
    (s.setSession i x').StopPending := by
  obtain ⟨j, y, site, hy, hp⟩ := h
  by_cases hj : j = i
  · subst hj
    obtain rfl := Option.some.inj (hx.symm.trans hy)
    exact ⟨j, x', site, by simp [getElem?_setSession hx], hcleanup site hp⟩
  · exact ⟨j, y, site, by simp [getElem?_setSession hx, hj, hy], hp⟩

/-- A connection that is live after a change of one session was live before. -/
theorem Live.of_setSession (h : (s.setSession i x').Live) (hx : s.sessions[i]? = some x)
    (hopen : x'.isOpen = true → x.isOpen = true)
    (hphase : x'.phase = .started → x.phase = .started) : s.Live := by
  obtain ⟨u, j, y, hstored, hy, ho, hp⟩ := h
  rw [getElem?_setSession hx] at hy
  rw [stored_setSession] at hstored
  split_ifs at hy with hj
  · obtain rfl := Option.some.inj hy
    exact ⟨u, j, x, hstored, hj ▸ hx, hopen ho, hphase hp⟩
  · exact ⟨u, j, y, hstored, hy, ho, hp⟩

/-! ## The invariant -/

/-- Nothing cleans up before the setup is complete, and what a session has
fetched are the client's enabled proxies. -/
structure SessionOk (batch : Batch) (x : Session) : Prop where
  watching : x.phase ≠ .started → ∀ site, x.cleanup site = .watching
  fetched : ∀ proxies, x.phase = .fetched proxies → proxies = batch.proxies

/-- The connection of transport `u` is stored and nothing cleaned up after it. -/
structure StoredOk (u : Transport) (x : Session) : Prop where
  transport : x.transport = u
  stored : x.phase ≠ .authenticated
  watching : ∀ site, x.cleanup site = .watching

/-- Who will still act while listeners and stored connections disagree. -/
structure Inv (batch : Batch) (s : ClientState) : Prop where
  /-- With a live connection the proxies run, unless a start is to come. -/
  live_running : s.Live → s.StartPending ∨
    ∀ config ∈ batch.proxies, ∃ e, Owns s.manager batch.clientId config.proxyId e
  /-- Listeners run only for a stored connection, or before a stop or a store. -/
  running_stored : ∀ p e, Owns s.manager batch.clientId p e →
    (∃ u i, s.stored u = some i) ∨ s.StopPending ∨ s.StorePending
  stored_ok : ∀ u i, s.stored u = some i → ∃ x, s.sessions[i]? = some x ∧ StoredOk u x
  session_ok : ∀ (i : ℕ) (x : Session), s.sessions[i]? = some x → SessionOk batch x

/-- A step runs into neither race: no stop is taken for a client with a live
connection and no start to come, and no start for a client with no stored
connection, no stop to come and no connection about to be stored. -/
def NoRace (s : ClientState) : SessionStep → Prop
  | .stopProxies _ _ => s.Live → s.StartPending
  | .startProxies _ _ =>
      (∃ u i, s.stored u = some i) ∨ s.StopPending ∨ s.StorePending
  | _ => True

theorem Inv.init (batch : Batch) : Inv batch init where
  live_running := by
    rintro ⟨u, i, x, -, hx, -⟩
    simp [ClientState.init] at hx
  running_stored := fun p e he ↦ (not_owns_new _ p e he).elim
  stored_ok := by
    intro u i hu
    cases u <;> simp [ClientState.init, stored] at hu
  session_ok := by simp [ClientState.init]

/-- At rest the invariant says that listeners and stored connections agree. -/
theorem Inv.listenersMatch (h : Inv batch s) (hquiet : s.Quiescent) : ListenersMatch batch s := by
  obtain ⟨hstart, hstop, hnoticed⟩ := hquiet
  refine ⟨?_, ?_⟩
  · rintro ⟨u, i, x, hu, hx, hopen⟩
    have hphase : x.phase = .started := by
      by_contra hne
      exact hstart ⟨i, x, hx, hne⟩
    exact (h.live_running ⟨u, i, x, hu, hx, hopen, hphase⟩).resolve_left hstart
  · intro hnone p e he
    rcases h.running_stored p e he with ⟨u, i, hu⟩ | hpending | ⟨i, x, hx, hp⟩
    · obtain ⟨x, hx, hok⟩ := h.stored_ok u i hu
      have hclosed : x.isOpen = false := by
        by_contra hopen
        exact hnone ⟨u, i, x, hu, hx, Bool.eq_true_of_not_eq_false hopen⟩
      cases (hok.watching .acceptLoop).symm.trans (hnoticed i x hx hclosed)
    · exact hstop hpending
    · exact hstart ⟨i, x, hx, by simp [hp]⟩

/-! ## Steps -/

theorem Inv.session_ok_setSession (h : Inv batch s) (hx : s.sessions[i]? = some x)
    (hok : SessionOk batch x') (j : ℕ) (y : Session)
    (hy : (s.setSession i x').sessions[j]? = some y) : SessionOk batch y := by
  rw [getElem?_setSession hx] at hy
  split_ifs at hy with hj
  · exact Option.some.inj hy ▸ hok
  · exact h.session_ok j y hy

theorem Inv.stored_ok_setSession (h : Inv batch s) (hx : s.sessions[i]? = some x) {u : Transport}
    {j : ℕ} (hu : s.stored u = some j)
    (hok : s.stored u = some i → StoredOk u x → StoredOk u x') :
    ∃ y, (s.setSession i x').sessions[j]? = some y ∧ StoredOk u y := by
  obtain ⟨y, hy, hst⟩ := h.stored_ok u j hu
  rw [getElem?_setSession hx]
  by_cases hj : j = i
  · subst hj
    obtain rfl := Option.some.inj (hx.symm.trans hy)
    exact ⟨x', if_pos rfl, hok hu hst⟩
  · exact ⟨y, (if_neg hj).trans hy, hst⟩

/-- A change of one session that is neither the start of its proxies nor part
of a cleanup. -/
theorem Inv.setSession (h : Inv batch s) (hx : s.sessions[i]? = some x)
    (hok : SessionOk batch x')
    (hstored : ∀ u, s.stored u = some i → StoredOk u x → StoredOk u x')
    (hopen : x'.isOpen = true → x.isOpen = true)
    (hstarted : x'.phase = .started ↔ x.phase = .started)
    (hauth : x.phase = .authenticated → x'.phase = .authenticated)
    (hcleanup : ∀ site, x.cleanup site = .removed → x'.cleanup site = .removed) :
    Inv batch (s.setSession i x') where
  live_running := by
    intro hlive
    rcases h.live_running (hlive.of_setSession hx hopen hstarted.mp) with hpending | hall
    · exact .inl (hpending.setSession hx fun hne heq ↦ hne (hstarted.mp heq))
    · exact .inr hall
  running_stored := by
    intro p e he
    rcases h.running_stored p e he with hst | hstop | hstore
    · exact .inl (by simpa using hst)
    · exact .inr (.inl (hstop.setSession hx hcleanup))
    · exact .inr (.inr (hstore.setSession hx hauth))
  stored_ok := fun u j hu ↦ h.stored_ok_setSession hx (by simpa using hu) (hstored u)
  session_ok := h.session_ok_setSession hx hok

theorem Inv.connect (h : Inv batch s) {transport : Transport}
    (hstep : sessionStep parse batch s (.connect transport) = some t) : Inv batch t := by
  cases hstep
  have hnew : (s.sessions ++ [⟨transport, true, .authenticated, .watching, .watching⟩])[
      s.sessions.length]? = some ⟨transport, true, .authenticated, .watching, .watching⟩ :=
    List.getElem?_concat_length
  refine ⟨fun _ ↦ .inl ⟨_, _, hnew, by simp⟩, fun p e _ ↦ .inr (.inr ⟨_, _, hnew, rfl⟩), ?_, ?_⟩
  · intro u i hu
    obtain ⟨x, hx, hrest⟩ := h.stored_ok u i hu
    have hlt := (List.getElem?_eq_some_iff.mp hx).1
    exact ⟨x, (List.getElem?_append_left hlt).trans hx, hrest⟩
  · intro i x hx
    rcases lt_or_ge i s.sessions.length with hlt | hge
    · rw [List.getElem?_append_left hlt] at hx
      exact h.session_ok i x hx
    · rw [List.getElem?_append_right hge, List.getElem?_singleton] at hx
      split_ifs at hx
      obtain rfl := Option.some.inj hx
      exact ⟨fun _ site ↦ by cases site <;> rfl, by simp⟩

theorem Inv.storeConnection (h : Inv batch s)
    (hstep : sessionStep parse batch s (.storeConnection i) = some t) : Inv batch t := by
  simp only [sessionStep] at hstep
  split at hstep
  · rename_i x hx
    split_ifs at hstep with hphase
    obtain rfl := Option.some.inj hstep
    have hi : (s.setSession i { x with phase := .stored }).sessions[i]? =
        some { x with phase := .stored } := by
      simp [getElem?_setSession hx]
    have hwatch := (h.session_ok i x hx).watching (by simp [hphase])
    refine ⟨fun _ ↦ .inl ⟨i, _, by simpa using hi, by simp⟩,
      fun p e _ ↦ .inl ⟨x.transport, i, by simp⟩, ?_, ?_⟩
    · intro u j hu
      rw [stored_setStored, stored_setSession] at hu
      rw [sessions_setStored]
      split_ifs at hu with hut
      · obtain rfl := Option.some.inj hu
        exact ⟨_, hi, hut.symm, by simp, hwatch⟩
      · exact h.stored_ok_setSession hx hu fun _ hst ↦ (hst.stored hphase).elim
    · intro j y hy
      rw [sessions_setStored] at hy
      have hok : SessionOk batch { x with phase := .stored } :=
        ⟨fun _ ↦ hwatch, fun _ hp ↦ by cases hp⟩
      exact h.session_ok_setSession hx hok j y hy
  · cases hstep

theorem Inv.fetchProxies (h : Inv batch s)
    (hstep : sessionStep parse batch s (.fetchProxies i) = some t) : Inv batch t := by
  simp only [sessionStep] at hstep
  split at hstep
  · rename_i x hx
    split_ifs at hstep with hphase
    obtain rfl := Option.some.inj hstep
    have hwatch := (h.session_ok i x hx).watching (by simp [hphase])
    refine h.setSession hx ⟨fun _ ↦ hwatch, ?_⟩ (fun u _ hst ↦ ⟨hst.1, by simp, hst.3⟩) id
      (by simp [hphase]) (by simp [hphase]) fun _ hr ↦ hr
    intro proxies hp
    exact (Phase.fetched.inj hp).symm
  · cases hstep

theorem Inv.closeConnection (h : Inv batch s)
    (hstep : sessionStep parse batch s (.closeConnection i) = some t) : Inv batch t := by
  simp only [sessionStep] at hstep
  split at hstep
  · rename_i x hx
    split_ifs at hstep
    obtain rfl := Option.some.inj hstep
    have hok := h.session_ok i x hx
    exact h.setSession hx ⟨hok.1, hok.2⟩ (fun u _ hst ↦ ⟨hst.1, hst.2, hst.3⟩) (by simp) Iff.rfl id
      fun _ hr ↦ hr
  · cases hstep

theorem Inv.startProxies (h : Inv batch s) {binds : Binds}
    (hrace : NoRace s (.startProxies i binds))
    (hstep : sessionStep parse batch s (.startProxies i binds) = some t) : Inv batch t := by
  simp only [sessionStep] at hstep
  split at hstep
  · rename_i x hx
    split at hstep
    · rename_i proxies hphase
      obtain rfl := (h.session_ok i x hx).fetched proxies hphase
      split at hstep
      · rename_i manager hstart
        obtain rfl := Option.some.inj hstep
        refine ⟨fun _ ↦ .inr (exists_owns_startClientProxies hstart), fun p e _ ↦ ?_, ?_, ?_⟩
        · rcases hrace with hst | hstop | hstore
          · exact .inl (by simpa using hst)
          · exact .inr (.inl (hstop.setSession hx fun site hr ↦ hr))
          · exact .inr (.inr (hstore.setSession hx (by simp [hphase])))
        · intro u j hu
          rw [stored_setManager, stored_setSession] at hu
          refine h.stored_ok_setSession hx hu fun _ hst ↦ ⟨hst.transport, ?_, hst.watching⟩
          exact fun hp ↦ Phase.noConfusion hp
        · intro j y hy
          have hok : SessionOk batch { x with phase := .started } :=
            ⟨fun hne ↦ (hne rfl).elim, fun _ hp ↦ by cases hp⟩
          exact h.session_ok_setSession hx hok j y hy
      · cases hstep
    · cases hstep
  · cases hstep

/-- Cleaning up changes neither the setup nor the connection of a session. -/
theorem SessionOk.setCleanup (hphase : x.phase = .started) (c : Cleanup) (site : Site) :
    SessionOk batch (x.setCleanup c site) :=
  ⟨fun hne ↦ (hne (by simpa using hphase)).elim, fun _ hp ↦ by simp [hphase] at hp⟩

theorem Inv.removeConnection (h : Inv batch s) {site : Site}
    (hstep : sessionStep parse batch s (.removeConnection i site) = some t) : Inv batch t := by
  simp only [sessionStep] at hstep
  split at hstep
  · rename_i x hx
    split_ifs at hstep with hguard hstored
    · obtain ⟨hphase, hclosed, hwatch⟩ := hguard
      obtain rfl := Option.some.inj hstep
      have hi : (s.setSession i (x.setCleanup .removed site)).sessions[i]? =
          some (x.setCleanup .removed site) := by
        simp [getElem?_setSession hx]
      refine ⟨?_, fun p e _ ↦ .inr (.inl ⟨i, _, site, by simpa using hi, by simp⟩), ?_, ?_⟩
      · rintro ⟨u, j, y, hu, hy, hopen, hp⟩
        rw [stored_setStored, stored_setSession] at hu
        split_ifs at hu
        rw [sessions_setStored] at hy
        have hlive : s.Live :=
          Live.of_setSession ⟨u, j, y, by simpa using hu, hy, hopen, hp⟩ hx (by simp) (by simp)
        rcases h.live_running hlive with hpending | hall
        · refine .inl ?_
          have hpending' : (s.setSession i (x.setCleanup .removed site)).StartPending :=
            hpending.setSession hx (by simp)
          obtain ⟨j, y, hy, hp⟩ := hpending'
          exact ⟨j, y, by simpa using hy, hp⟩
        · exact .inr (by simpa using hall)
      · intro u j hu
        rw [stored_setStored, stored_setSession] at hu
        split_ifs at hu with hut
        rw [sessions_setStored]
        exact h.stored_ok_setSession hx hu fun _ hst ↦ (hut hst.transport.symm).elim
      · intro j y hy
        rw [sessions_setStored] at hy
        exact h.session_ok_setSession hx (SessionOk.setCleanup hphase .removed site) j y hy
    · obtain ⟨hphase, hclosed, hwatch⟩ := hguard
      obtain rfl := Option.some.inj hstep
      refine h.setSession hx (SessionOk.setCleanup hphase .finished site)
        (fun u hu hst ↦ (hstored (hst.transport ▸ hu)).elim) (by simp) (by simp) (by simp) ?_
      intro other hr
      rw [Session.cleanup_setCleanup, if_neg]
      · exact hr
      · rintro rfl
        simp [hwatch] at hr
  · cases hstep

theorem Inv.stopProxies (h : Inv batch s) {site : Site}
    (hrace : NoRace s (.stopProxies i site))
    (hstep : sessionStep parse batch s (.stopProxies i site) = some t) : Inv batch t := by
  simp only [sessionStep] at hstep
  split at hstep
  · rename_i x hx
    split_ifs at hstep with hremoved
    obtain rfl := Option.some.inj hstep
    have hphase : x.phase = .started := by
      by_contra hne
      simp [(h.session_ok i x hx).watching hne site] at hremoved
    refine ⟨?_, ?_, ?_, ?_⟩
    · rintro ⟨u, j, y, hu, hy, hopen, hp⟩
      rw [stored_setManager] at hu
      have hlive : s.Live :=
        Live.of_setSession ⟨u, j, y, hu, hy, hopen, hp⟩ hx (by simp) (by simp)
      exact .inl ((hrace hlive).setSession hx (by simp))
    · intro p e he
      exact (((owns_stopClientProxies ..).mp he).2 rfl).elim
    · intro u j hu
      rw [stored_setManager, stored_setSession] at hu
      refine h.stored_ok_setSession hx hu fun _ hst ↦ ?_
      simp [hst.watching site] at hremoved
    · exact h.session_ok_setSession hx (SessionOk.setCleanup hphase .finished site)
  · cases hstep

/-- Every step that runs into neither race keeps the invariant. -/
theorem Inv.step (h : Inv batch s) {l : SessionStep} (hrace : NoRace s l)
    (hstep : sessionStep parse batch s l = some t) : Inv batch t := by
  cases l with
  | connect transport => exact h.connect hstep
  | storeConnection i => exact h.storeConnection hstep
  | fetchProxies i => exact h.fetchProxies hstep
  | startProxies i binds => exact h.startProxies hrace hstep
  | closeConnection i => exact h.closeConnection hstep
  | removeConnection i site => exact h.removeConnection hstep
  | stopProxies i site => exact h.stopProxies hrace hstep

/-- In every interleaving whose steps run into neither race, whenever no session
step is pending the client's proxies run if a connection is stored and open,
and none runs if there is no such connection. -/
theorem listenersMatch_of_run {steps : List SessionStep}
    (hrun : run (sessionStep parse batch) init steps = some s)
    (hok : Within (sessionStep parse batch) NoRace init steps) (hquiet : s.Quiescent) :
    ListenersMatch batch s := by
  have hinv : Inv batch s :=
    run_invariant (fun _ _ _ h hrace hstep ↦ h.step hrace hstep) (.init batch) hok hrun
  exact hinv.listenersMatch hquiet

theorem quiescent_iff (s : ClientState) :
    s.Quiescent ↔ ∀ x ∈ s.sessions, x.phase = .started ∧ x.acceptLoop ≠ .removed ∧
      x.healthCheck ≠ .removed ∧ (x.isOpen = false → x.acceptLoop = .finished) := by
  constructor
  · rintro ⟨hstart, hstop, hnoticed⟩ x hx
    obtain ⟨i, hi⟩ := List.getElem?_of_mem hx
    refine ⟨?_, fun hr ↦ hstop ⟨i, x, .acceptLoop, hi, hr⟩,
      fun hr ↦ hstop ⟨i, x, .healthCheck, hi, hr⟩, hnoticed i x hi⟩
    by_contra hne
    exact hstart ⟨i, x, hi, hne⟩
  · intro h
    refine ⟨?_, ?_, ?_⟩
    · rintro ⟨i, x, hi, hne⟩
      exact hne (h x (List.mem_of_getElem? hi)).1
    · rintro ⟨i, x, site, hi, hr⟩
      obtain ⟨-, haccept, hhealth, -⟩ := h x (List.mem_of_getElem? hi)
      cases site with
      | acceptLoop => exact haccept hr
      | healthCheck => exact hhealth hr
    · intro i x hi
      exact (h x (List.mem_of_getElem? hi)).2.2.2

/-- A TCP proxy of client 1. -/
def sshConfig : ProxyConfig where
  proxyId := 3
  clientId := "1"
  name := "ssh"
  proxyType := "tcp"
  domain := ""
  upstreamUrl := ""
  userId := some 1
  localIp := "127.0.0.1"
  localPort := 22
  remotePort := 2222
  enabled := true

def sshBatch : Batch where
  clientId := "1"
  proxies := [sshConfig]
  owned := by simp [sshConfig]
  nodup := List.nodup_singleton _

/-- The complete setup of session `i`. -/
def setup (transport : Transport) (i : ℕ) : List SessionStep :=
  [.connect transport, .storeConnection i, .fetchProxies i, .startProxies i bindsSucceed]

/-- The node's listeners after one setup of the client's session. -/
def sshManager : ProxyListenerManager :=
  (new.startClientProxiesFromConfigs noUrls bindsSucceed "1" [sshConfig]).1

/-- The connection of session `i` closes; its accept loop cleans up, and then its
health check finds nothing to do. -/
def cleanUp (i : ℕ) : List SessionStep :=
  [.closeConnection i, .removeConnection i .acceptLoop, .stopProxies i .acceptLoop,
    .removeConnection i .healthCheck]

/-- A client that comes back over the tunnel after its QUIC connection has closed. -/
theorem listenersMatch_sshBatch :
    ∃ s, run (sessionStep noUrls sshBatch) init
        (setup .quic 0 ++ cleanUp 0 ++ setup .tunnel 1) = some s ∧
      s.sessions = [⟨.quic, false, .started, .finished, .finished⟩,
        ⟨.tunnel, true, .started, .watching, .watching⟩] ∧
      s.StoredOpen ∧ ListenersMatch sshBatch s := by
  have hok : Within (sessionStep noUrls sshBatch) NoRace init
      (setup .quic 0 ++ cleanUp 0 ++ setup .tunnel 1) := by
    refine .cons trivial rfl (.cons trivial rfl (.cons trivial rfl (.cons (.inl ⟨.quic, 0, rfl⟩) rfl
      (.cons trivial rfl (.cons trivial rfl (.cons ?_ rfl (.cons trivial rfl (.cons trivial rfl
        (.cons trivial rfl (.cons trivial rfl (.cons (.inl ⟨.tunnel, 1, rfl⟩) rfl trivial)))))))))))
    rintro ⟨u, i, x, hu, -⟩
    cases u <;> cases hu
  refine ⟨_, rfl, rfl, ⟨.tunnel, 1, _, rfl, rfl, rfl⟩, listenersMatch_of_run rfl hok ?_⟩
  rw [quiescent_iff]
  decide

/-- A client connected over QUIC and over a tunnel loses its listeners when the
QUIC connection closes, while the tunnel stays stored and open. -/
theorem not_listenersMatch_quic_close :
    ∃ s, run (sessionStep noUrls sshBatch) init
        (setup .quic 0 ++ setup .tunnel 1 ++
          [.closeConnection 0, .removeConnection 0 .acceptLoop, .stopProxies 0 .acceptLoop,
            .removeConnection 0 .healthCheck]) = some s ∧
      s.Quiescent ∧ ¬ ListenersMatch sshBatch s := by
  refine ⟨⟨none, some 1, [⟨.quic, false, .started, .finished, .finished⟩,
    ⟨.tunnel, true, .started, .watching, .watching⟩], sshManager.stopClientProxies "1"⟩,
    rfl, ?_, ?_⟩
  · simp [quiescent_iff]
  · rintro ⟨hrunning, -⟩
    obtain ⟨e, he⟩ := hrunning ⟨.tunnel, 1, _, rfl, rfl, rfl⟩ sshConfig List.mem_cons_self
    exact ((owns_stopClientProxies ..).mp he).2 rfl

end ClientState

end Oxiproxy.Node
