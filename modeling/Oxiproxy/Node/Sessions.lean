import Oxiproxy.Node.OneRoute

/-!
# Sessions of one client on a node

A client may hold connections over QUIC and over a KCP or TCP tunnel, each
served by its own session and recorded in the map of its transport.  A session
stores its connection, fetches the client's proxies and starts them; its accept
loop and its health check each remove the connection when they see it closed
and then stop the client's listeners.  Removal and stop are separate steps.
-/

namespace Oxiproxy.Node

open Transition ProxyListenerManager

inductive Transport
  | quic
  | tunnel
  deriving DecidableEq, Repr

/-- How far a session's setup has come. -/
inductive Phase
  | authenticated
  | stored
  | fetched (proxies : List ProxyConfig)
  | started
  deriving DecidableEq, Repr

/-- A place that cleans up after a closed connection: it watches, has removed
the connection and has yet to stop the listeners, or is finished. -/
inductive Cleanup
  | watching
  | removed
  | finished
  deriving DecidableEq, Repr

/-- The two places of a session that clean up. -/
inductive Site
  | acceptLoop
  | healthCheck
  deriving DecidableEq, Repr

structure Session where
  transport : Transport
  isOpen : Bool
  phase : Phase
  acceptLoop : Cleanup
  healthCheck : Cleanup
  deriving DecidableEq, Repr

def Session.cleanup (x : Session) : Site → Cleanup
  | .acceptLoop => x.acceptLoop
  | .healthCheck => x.healthCheck

def Session.setCleanup (x : Session) (c : Cleanup) : Site → Session
  | .acceptLoop => { x with acceptLoop := c }
  | .healthCheck => { x with healthCheck := c }

/-- The state a node keeps for one client.  Connections are named by the
position of their session. -/
structure ClientState where
  quicConnection : Option ℕ
  tunnelConnection : Option ℕ
  sessions : List Session
  manager : ProxyListenerManager
  deriving DecidableEq

namespace ClientState

def init : ClientState := ⟨none, none, [], .new⟩

/-- The connection stored for the client in the map of a transport. -/
def stored (s : ClientState) : Transport → Option ℕ
  | .quic => s.quicConnection
  | .tunnel => s.tunnelConnection

def setStored (s : ClientState) (conn : Option ℕ) : Transport → ClientState
  | .quic => { s with quicConnection := conn }
  | .tunnel => { s with tunnelConnection := conn }

def setSession (s : ClientState) (i : ℕ) (x : Session) : ClientState :=
  { s with sessions := s.sessions.set i x }

def setManager (s : ClientState) (manager : ProxyListenerManager) : ClientState :=
  { s with manager }

@[simp] theorem stored_setStored (s : ClientState) (conn : Option ℕ) (t u : Transport) :
    (s.setStored conn t).stored u = if u = t then conn else s.stored u := by
  cases t <;> cases u <;> rfl

@[simp] theorem sessions_setStored (s : ClientState) (conn : Option ℕ) (t : Transport) :
    (s.setStored conn t).sessions = s.sessions := by
  cases t <;> rfl

@[simp] theorem manager_setStored (s : ClientState) (conn : Option ℕ) (t : Transport) :
    (s.setStored conn t).manager = s.manager := by
  cases t <;> rfl

@[simp] theorem stored_setSession (s : ClientState) (i : ℕ) (x : Session) (t : Transport) :
    (s.setSession i x).stored t = s.stored t := by
  cases t <;> rfl

@[simp] theorem manager_setSession (s : ClientState) (i : ℕ) (x : Session) :
    (s.setSession i x).manager = s.manager := rfl

@[simp] theorem stored_setManager (s : ClientState) (m : ProxyListenerManager) (t : Transport) :
    (s.setManager m).stored t = s.stored t := by
  cases t <;> rfl

@[simp] theorem sessions_setManager (s : ClientState) (m : ProxyListenerManager) :
    (s.setManager m).sessions = s.sessions := rfl

@[simp] theorem manager_setManager (s : ClientState) (m : ProxyListenerManager) :
    (s.setManager m).manager = m := rfl

theorem getElem?_setSession {s : ClientState} {i : ℕ} {x old : Session}
    (hold : s.sessions[i]? = some old) (j : ℕ) :
    (s.setSession i x).sessions[j]? = if j = i then some x else s.sessions[j]? := by
  have hlt := (List.getElem?_eq_some_iff.mp hold).1
  by_cases hj : j = i
  · subst hj
    simp [setSession, hlt]
  · simp [setSession, hj, Ne.symm hj]

end ClientState

/-- One atomic step of some session of the client. -/
inductive SessionStep
  | connect (transport : Transport)
  | storeConnection (i : ℕ)
  | fetchProxies (i : ℕ)
  | startProxies (i : ℕ) (binds : Binds)
  | closeConnection (i : ℕ)
  | removeConnection (i : ℕ) (site : Site)
  | stopProxies (i : ℕ) (site : Site)

/-- The steps of the client's sessions.  `batch` are its enabled proxies;
fetching them succeeds and starting them is only taken when it succeeds. -/
def sessionStep (parse : UrlParser) (batch : Batch) (s : ClientState) :
    SessionStep → Option ClientState
  | .connect transport =>
      some { s with
        sessions := s.sessions ++
          [⟨transport, true, .authenticated, .watching, .watching⟩] }
  | .storeConnection i =>
      match s.sessions[i]? with
      | some x =>
          if x.phase = .authenticated then
            some ((s.setSession i { x with phase := .stored }).setStored (some i) x.transport)
          else none
      | none => none
  | .fetchProxies i =>
      match s.sessions[i]? with
      | some x =>
          if x.phase = .stored then
            some (s.setSession i { x with phase := .fetched batch.proxies })
          else none
      | none => none
  | .startProxies i binds =>
      match s.sessions[i]? with
      | some x =>
          match x.phase with
          | .fetched proxies =>
              match s.manager.startClientProxiesFromConfigs parse binds batch.clientId proxies with
              | (manager, .ok ()) =>
                  some ((s.setSession i { x with phase := .started }).setManager manager)
              | (_, .error _) => none
          | _ => none
      | none => none
  | .closeConnection i =>
      match s.sessions[i]? with
      | some x => if x.isOpen then some (s.setSession i { x with isOpen := false }) else none
      | none => none
  | .removeConnection i site =>
      match s.sessions[i]? with
      | some x =>
          if x.phase = .started ∧ x.isOpen = false ∧ x.cleanup site = .watching then
            if s.stored x.transport = some i then
              some ((s.setSession i (x.setCleanup .removed site)).setStored none x.transport)
            else some (s.setSession i (x.setCleanup .finished site))
          else none
      | none => none
  | .stopProxies i site =>
      match s.sessions[i]? with
      | some x =>
          if x.cleanup site = .removed then
            some ((s.setSession i (x.setCleanup .finished site)).setManager
              (s.manager.stopClientProxies batch.clientId))
          else none
      | none => none

namespace ClientState

/-- Some session has yet to start the client's proxies. -/
def StartPending (s : ClientState) : Prop :=
  ∃ (i : ℕ) (x : Session), s.sessions[i]? = some x ∧ x.phase ≠ .started

/-- Some session has yet to store its connection. -/
def StorePending (s : ClientState) : Prop :=
  ∃ (i : ℕ) (x : Session), s.sessions[i]? = some x ∧ x.phase = .authenticated

/-- Some cleanup has removed a connection and has yet to stop the listeners. -/
def StopPending (s : ClientState) : Prop :=
  ∃ (i : ℕ) (x : Session) (site : Site), s.sessions[i]? = some x ∧ x.cleanup site = .removed

/-- A stored connection that is open. -/
def StoredOpen (s : ClientState) : Prop :=
  ∃ (t : Transport) (i : ℕ) (x : Session), s.stored t = some i ∧ s.sessions[i]? = some x ∧
    x.isOpen = true

/-- A stored open connection whose session has started the proxies. -/
def Live (s : ClientState) : Prop :=
  ∃ (t : Transport) (i : ℕ) (x : Session), s.stored t = some i ∧ s.sessions[i]? = some x ∧
    x.isOpen = true ∧ x.phase = .started

/-- No session has a step to take: every setup is complete, no stop is pending
and every closed connection was noticed by its accept loop. -/
def Quiescent (s : ClientState) : Prop :=
  ¬ s.StartPending ∧ ¬ s.StopPending ∧
    ∀ (i : ℕ) (x : Session), s.sessions[i]? = some x → x.isOpen = false →
      x.acceptLoop = .finished

/-- The enabled proxies run when a connection is stored and open, and none of
them runs when there is no such connection. -/
def ListenersMatch (batch : Batch) (s : ClientState) : Prop :=
  (s.StoredOpen → ∀ config ∈ batch.proxies,
      ∃ e, Owns s.manager batch.clientId config.proxyId e) ∧
    (¬ s.StoredOpen → ∀ p e, ¬ Owns s.manager batch.clientId p e)

end ClientState

end Oxiproxy.Node
