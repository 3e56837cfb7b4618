import Oxiproxy.Common.Protocol
import Oxiproxy.Common.Rust
import Oxiproxy.Foundation.Runs

/-!
# The tunnel listener of a node

A node listens for its clients under one protocol and one port, which the
controller names when the node connects.  A change of the protocol restarts the
listener; a change of the port alone is only remembered.
-/

namespace Oxiproxy.Node

open Transition

/-- A running listener for tunnels. -/
structure Tunnel where
  protocol : TunnelProtocol
  port : UInt16
  kcpConfig : Option KcpConfig
  deriving DecidableEq

/-- Any other text stands for QUIC. -/
def tunnelProtocol (protocol : String) : TunnelProtocol :=
  if protocol = "kcp" then .kcp else if protocol = "tcp" then .tcp else .quic

structure TunnelManager where
  bindPort : UInt16
  currentProtocol : String
  /-- The listener tasks that run, by the number of their start. -/
  tasks : List (ℕ × Tunnel)
  starts : ℕ
  /-- The task that `stop` cancels. -/
  listenerHandle : Option ℕ
  deriving DecidableEq

namespace TunnelManager

def new (bindPort : UInt16) : TunnelManager := ⟨bindPort, "", [], 0, none⟩

def stop (m : TunnelManager) : TunnelManager :=
  { m with
    tasks := m.tasks.filter fun task ↦ some task.1 ≠ m.listenerHandle
    listenerHandle := none }

def start (m : TunnelManager) (protocol : String) (kcpConfig : Option KcpConfig) : TunnelManager :=
  let m := m.stop
  { m with
    currentProtocol := protocol
    tasks := m.tasks ++ [(m.starts, ⟨tunnelProtocol protocol, m.bindPort, kcpConfig⟩)]
    starts := m.starts + 1
    listenerHandle := some m.starts }

/-- The new port counts from the next start. -/
def updatePort (m : TunnelManager) (newPort : UInt16) : TunnelManager :=
  { m with bindPort := newPort }

def switchProtocol (m : TunnelManager) (newProtocol : String) : TunnelManager :=
  if m.currentProtocol = newProtocol then m else m.stop.start newProtocol none

end TunnelManager

/-- What a node reads from the response to its registration. -/
structure NodeRegisterResponse where
  tunnelProtocol : String
  tunnelPort : ℤ
  deriving DecidableEq

/-- The protocol to use; the node's own one if the response has none. -/
def NodeRegisterResponse.authoritativeProtocol (resp : NodeRegisterResponse)
    (configured : String) : String :=
  if resp.tunnelProtocol.isEmpty then configured else resp.tunnelProtocol

inductive TunnelInput
  | reconnect (resp : NodeRegisterResponse)
  | updateProtocol (tunnelProtocol : String)
  deriving DecidableEq

/-- The manager, with the protocol and the port received last. -/
structure TunnelState where
  manager : TunnelManager
  protocol : String
  port : UInt16
  deriving DecidableEq

namespace TunnelState

/-- After the first connection of the node. -/
def connected (configured : String) (resp : NodeRegisterResponse) : TunnelState :=
  let protocol := resp.authoritativeProtocol configured
  let port := asU16 resp.tunnelPort
  ⟨(TunnelManager.new port).start protocol none, protocol, port⟩

def step (configured : String) (s : TunnelState) : TunnelInput → Option TunnelState
  | .reconnect resp =>
      let protocol := resp.authoritativeProtocol configured
      let port := asU16 resp.tunnelPort
      some {
        manager :=
          if protocol.isEmpty then s.manager
          else (s.manager.updatePort port).switchProtocol protocol
        protocol := protocol
        port := port }
  | .updateProtocol protocol =>
      some { s with manager := s.manager.switchProtocol protocol, protocol := protocol }

/-- One listener runs, under the protocol and the port received last. -/
def Converged (s : TunnelState) : Prop :=
  ∃ id kcpConfig, s.manager.tasks = [(id, ⟨tunnelProtocol s.protocol, s.port, kcpConfig⟩)]

/-- A response with another port has a protocol that is not the current one. -/
def Noticed (configured : String) (s : TunnelState) : TunnelInput → Prop
  | .reconnect resp =>
      let protocol := resp.authoritativeProtocol configured
      (protocol.isEmpty = false ∧ s.manager.currentProtocol ≠ protocol) ∨
        (asU16 resp.tunnelPort = s.manager.bindPort ∧
          tunnelProtocol protocol = tunnelProtocol s.manager.currentProtocol)
  | .updateProtocol _ => True

/-- The listener is the one that was started last, with what was received last. -/
structure Settled (s : TunnelState) : Prop where
  listener : ∃ id, s.manager.listenerHandle = some id ∧ s.manager.tasks =
    [(id, ⟨tunnelProtocol s.manager.currentProtocol, s.manager.bindPort, none⟩)]
  protocol : tunnelProtocol s.protocol = tunnelProtocol s.manager.currentProtocol
  port : s.port = s.manager.bindPort

section Steps

variable {configured protocol : String} {port : UInt16} {m : TunnelManager} {s t : TunnelState}
  {input : TunnelInput}

theorem Settled.converged (hs : s.Settled) : s.Converged := by
  obtain ⟨id, -, htasks⟩ := hs.listener
  exact ⟨id, none, by rw [htasks, hs.protocol, hs.port]⟩

/-- Starting replaces the listener of the handle. -/
theorem settled_start (hm : m.stop.tasks = []) (hport : port = m.bindPort) :
    Settled ⟨m.start protocol none, protocol, port⟩ := by
  refine ⟨⟨m.starts, rfl, ?_⟩, rfl, hport⟩
  have hstart : (m.start protocol none).tasks =
      m.stop.tasks ++ [(m.starts, ⟨tunnelProtocol protocol, m.bindPort, none⟩)] := rfl
  rw [hstart, hm]
  rfl

theorem Settled.stop_tasks (hs : s.Settled) : s.manager.stop.tasks = [] := by
  obtain ⟨id, hhandle, htasks⟩ := hs.listener
  simp [TunnelManager.stop, hhandle, htasks]

theorem Settled.stop_stop_tasks (hs : s.Settled) (port : UInt16) :
    (s.manager.updatePort port).stop.stop.tasks = [] := by
  have hstop : (s.manager.updatePort port).stop.tasks = s.manager.stop.tasks := rfl
  unfold TunnelManager.stop
  change (List.filter _ (s.manager.updatePort port).stop.tasks) = []
  rw [hstop, hs.stop_tasks]
  rfl

/-- Switching settles the manager unless it is skipped. -/
theorem Settled.switchProtocol (hs : s.Settled)
    (hkeep : s.manager.currentProtocol = protocol → port = s.manager.bindPort) :
    Settled ⟨(s.manager.updatePort port).switchProtocol protocol, protocol, port⟩ := by
  unfold TunnelManager.switchProtocol
  split_ifs with hsame
  · have hsame : s.manager.currentProtocol = protocol := hsame
    have hport := hkeep hsame
    have hupdate : s.manager.updatePort port = s.manager := by
      rw [hport]
      rfl
    rw [hupdate]
    exact ⟨hs.listener, by rw [hsame], hport⟩
  · exact settled_start (hs.stop_stop_tasks port) rfl

theorem settled_connected (configured : String) (resp : NodeRegisterResponse) :
    (connected configured resp).Settled :=
  settled_start rfl rfl

theorem Settled.step (hs : s.Settled) (hok : Noticed configured s input)
    (hstep : step configured s input = some t) : t.Settled := by
  cases input with
  | reconnect resp =>
      obtain rfl := Option.some.inj hstep
      generalize hprotocol : resp.authoritativeProtocol configured = protocol
      generalize hport : asU16 resp.tunnelPort = port
      simp only [Noticed, hprotocol, hport] at hok
      cases hempty : protocol.isEmpty with
      | true =>
          rcases hok with ⟨hne, -⟩ | ⟨hsame, hkind⟩
          · rw [hempty] at hne
            cases hne
          · exact ⟨hs.listener, hkind, hsame⟩
      | false =>
          refine hs.switchProtocol fun hcurrent ↦ ?_
          rcases hok with ⟨-, hne⟩ | ⟨hsame, -⟩
          · exact (hne hcurrent).elim
          · exact hsame
  | updateProtocol protocol =>
      obtain rfl := Option.some.inj hstep
      have hport : s.manager.updatePort s.port = s.manager := by
        rw [hs.port]
        rfl
      have hswitch : Settled ⟨(s.manager.updatePort s.port).switchProtocol protocol, protocol, s.port⟩ :=
        hs.switchProtocol fun _ ↦ hs.port
      rwa [hport] at hswitch

/-- A response that is not noticed leaves a listener that it does not describe. -/
theorem Settled.noticed_of_converged (hs : s.Settled) (hstep : TunnelState.step configured s input = some t)
    (ht : t.Converged) : Noticed configured s input := by
  cases input with
  | updateProtocol protocol => trivial
  | reconnect resp =>
      obtain rfl := Option.some.inj hstep
      obtain ⟨id, -, htasks⟩ := hs.listener
      obtain ⟨id', kcpConfig, htasks'⟩ := ht
      generalize hprotocol : resp.authoritativeProtocol configured = protocol at htasks'
      generalize hport : asU16 resp.tunnelPort = port at htasks'
      simp only [Noticed, hprotocol, hport]
      by_cases hnoticed : protocol.isEmpty = false ∧ s.manager.currentProtocol ≠ protocol
      · exact .inl hnoticed
      · have hsame : (if protocol.isEmpty then s.manager
            else (s.manager.updatePort port).switchProtocol protocol).tasks = s.manager.tasks := by
          split_ifs with hempty
          · rfl
          · have hcurrent : s.manager.currentProtocol = protocol := by
              by_contra hne
              exact hnoticed ⟨Bool.eq_false_of_not_eq_true hempty, hne⟩
            have hupdate : (s.manager.updatePort port).currentProtocol = protocol := hcurrent
            rw [TunnelManager.switchProtocol, if_pos hupdate]
            rfl
        simp only [hsame, htasks, List.cons.injEq, Prod.mk.injEq, Tunnel.mk.injEq] at htasks'
        obtain ⟨⟨-, hkind, hbind, -⟩, -⟩ := htasks'
        exact .inr ⟨hbind.symm, hkind.symm⟩

end Steps

/-- As long as every response with another port also has another protocol, one
listener runs as received last, and that remains so after the next input exactly
if the input is one of these. -/
theorem tunnel_converges (configured : String) (first : NodeRegisterResponse)
    (inputs : List TunnelInput) (s : TunnelState)
    (hrun : run (step configured) (connected configured first) inputs = some s)
    (hok : Within (step configured) (Noticed configured) (connected configured first) inputs) :
    s.Converged ∧ ∀ input t, step configured s input = some t →
      (t.Converged ↔ Noticed configured s input) := by
  have hstep : ∀ (s : TunnelState) (input : TunnelInput) (t : TunnelState), s.Settled →
      Noticed configured s input → step configured s input = some t → t.Settled :=
    fun _ _ _ hs hok hstep ↦ hs.step hok hstep
  have hs : s.Settled := run_invariant hstep (settled_connected configured first) hok hrun
  refine ⟨hs.converged, fun input t ht ↦ ⟨hs.noticed_of_converged ht, fun hok ↦ ?_⟩⟩
  exact (hs.step hok ht).converged

theorem tunnel_converges_kcp :
    ∃ s, run (step "quic") (connected "quic" ⟨"quic", 7000⟩)
        [.reconnect ⟨"kcp", 7001⟩, .updateProtocol "tcp"] = some s ∧ s.Converged := by
  refine ⟨_, rfl, (tunnel_converges "quic" ⟨"quic", 7000⟩
    [.reconnect ⟨"kcp", 7001⟩, .updateProtocol "tcp"] _ rfl ?_).1⟩
  exact .cons (.inl ⟨by decide, by decide⟩) rfl (.cons trivial rfl (within_nil _))

/-- A new port under the old protocol. -/
theorem not_converged_port_change :
    ∃ s, run (step "quic") (connected "quic" ⟨"quic", 7000⟩) [.reconnect ⟨"quic", 7001⟩] = some s ∧
      ¬ s.Converged := by
  refine ⟨⟨⟨7001, "quic", [(0, ⟨.quic, 7000, none⟩)], 1, some 0⟩, "quic", 7001⟩,
    by decide +kernel, ?_⟩
  rintro ⟨id, kcpConfig, htasks⟩
  simp at htasks

end TunnelState

end Oxiproxy.Node
