import Oxiproxy.Common.Net
import Oxiproxy.Common.Protocol
import Oxiproxy.Foundation.HashMap
import Oxiproxy.Foundation.Runs

/-!
# The client's connection manager

The manager keeps one connection task per server node.  `reconcile` compares
a new list of server groups with the recorded connections and keeps, restarts
or stops each of them.  A spawned task captures the address, protocol, KCP
settings and fingerprints it was started with for the rest of its life.
-/

namespace Oxiproxy.Client

open Net

/-- A spawned connection task: what its closure captured, and its life cycle. -/
structure ConnectionTask where
  nodeId : Int
  serverAddr : SocketAddr
  token : String
  protocol : TunnelProtocol
  kcpConfig : Option KcpConfig
  certFingerprints : List String
  cancelled : Bool
  finished : Bool
  deriving DecidableEq, Repr

/-- A task runs until its token is cancelled or its handle is finished. -/
def ConnectionTask.isRunning (t : ConnectionTask) : Bool := !t.cancelled && !t.finished

/-- The recorded state of one connection.  The cancel token and the join handle
both refer to the spawned task, given by its position among all tasks. -/
structure ServerConnection where
  nodeId : Int
  proxyIds : Finset Int
  certFingerprints : List String
  task : ℕ
  deriving DecidableEq

structure ConnectionManager where
  connections : AList fun _ : Int ↦ ServerConnection
  token : String
  /-- All tasks ever spawned, oldest first. -/
  tasks : List ConnectionTask
  deriving DecidableEq

namespace ConnectionManager

def new (token : String) : ConnectionManager := ⟨∅, token, []⟩

/-- `CancellationToken::cancel` on the token of a task. -/
def cancel (m : ConnectionManager) (task : ℕ) : ConnectionManager :=
  { m with tasks := m.tasks.modify task fun t ↦ { t with cancelled := true } }

/-- `JoinHandle::is_finished` on the handle of a task. -/
def isFinished (m : ConnectionManager) (task : ℕ) : Bool := m.tasks[task]?.any (·.finished)

/-- Remove the connection of a node, if there is one, and cancel its task. -/
def disconnect (m : ConnectionManager) (nodeId : Int) : ConnectionManager :=
  match m.connections.lookup nodeId with
  | some conn => { m with connections := m.connections.erase nodeId }.cancel conn.task
  | none => m

def serverAddrStr (group : ServerProxyGroup) : String :=
  group.serverAddr ++ ":" ++ toString group.serverPort.toNat

/-- Spawn the connection task of a group and record it. -/
def connect (m : ConnectionManager) (group : ServerProxyGroup) (proxyIds : Finset Int) :
    ConnectionManager :=
  match SocketAddr.parse (serverAddrStr group) with
  | none => m
  | some serverAddr =>
      let task : ConnectionTask :=
        { nodeId := group.nodeId
          serverAddr := serverAddr
          token := m.token
          protocol := group.protocol
          kcpConfig := group.kcp
          certFingerprints := group.certFingerprints
          cancelled := false
          finished := false }
      let conn : ServerConnection :=
        { nodeId := group.nodeId
          proxyIds := proxyIds
          certFingerprints := group.certFingerprints
          task := m.tasks.length }
      { m with
        connections := m.connections.insert group.nodeId conn
        tasks := m.tasks ++ [task] }

/-- The set of proxy ids of a group. -/
def newProxyIds (group : ServerProxyGroup) : Finset Int :=
  (group.proxies.map (·.proxyId)).toFinset

/-- A group is reconnected when its node has no connection, when the task has
ended, or when the fingerprints differ. -/
def needsReconnect (m : ConnectionManager) (group : ServerProxyGroup) : Bool :=
  match m.connections.lookup group.nodeId with
  | some conn => m.isFinished conn.task || conn.certFingerprints != group.certFingerprints
  | none => true

/-- One iteration of the second loop of `reconcile`. -/
def reconcileGroup (m : ConnectionManager) (group : ServerProxyGroup) : ConnectionManager :=
  if m.needsReconnect group then
    (m.disconnect group.nodeId).connect group (newProxyIds group)
  else
    match m.connections.lookup group.nodeId with
    | some conn =>
        { m with
          connections := m.connections.insert group.nodeId
            { conn with
              proxyIds := newProxyIds group
              certFingerprints := group.certFingerprints } }
    | none => m

/-- The first loop of `reconcile`: drop the nodes that are no longer listed. -/
def disconnectUnlisted (m : ConnectionManager) (serverGroups : List ServerProxyGroup) :
    ConnectionManager :=
  let newNodeIds := serverGroups.map (·.nodeId)
  (m.connections.keys.filter (· ∉ newNodeIds)).foldl disconnect m

def reconcile (m : ConnectionManager) (serverGroups : List ServerProxyGroup) :
    ConnectionManager :=
  serverGroups.foldl reconcileGroup (m.disconnectUnlisted serverGroups)

/-- What happens to a manager: it reconciles, or one of its tasks ends. -/
inductive Event
  | reconcile (serverGroups : List ServerProxyGroup)
  | taskFinished (task : ℕ)

def step (m : ConnectionManager) : Event → Option ConnectionManager
  | .reconcile serverGroups => some (m.reconcile serverGroups)
  | .taskFinished task =>
      some { m with tasks := m.tasks.modify task fun t ↦ { t with finished := true } }

/-! ## Well-formed managers -/

/-- The connection of a node together with the task it refers to. -/
def slot (m : ConnectionManager) (nodeId : Int) : Option (ServerConnection × ConnectionTask) :=
  (m.connections.lookup nodeId).bind fun conn ↦ m.tasks[conn.task]?.map (conn, ·)

/-- Task number `i` is `t`, and it is running. -/
def Runs (m : ConnectionManager) (i : ℕ) (t : ConnectionTask) : Prop :=
  m.tasks[i]? = some t ∧ t.isRunning = true

/-- Recorded connections refer to uncancelled tasks of their own node, started
with the recorded fingerprints, and no task runs unrecorded. -/
structure WellFormed (m : ConnectionManager) : Prop where
  task_of_conn : ∀ n conn, m.connections.lookup n = some conn →
    ∃ t, m.tasks[conn.task]? = some t ∧ t.nodeId = n ∧ t.cancelled = false ∧
      t.certFingerprints = conn.certFingerprints
  conn_of_running : ∀ i t, m.Runs i t →
    ∃ conn, m.connections.lookup t.nodeId = some conn ∧ conn.task = i

theorem slot_eq_some {m : ConnectionManager} {n : Int} {conn : ServerConnection}
    {t : ConnectionTask} :
    m.slot n = some (conn, t) ↔
      m.connections.lookup n = some conn ∧ m.tasks[conn.task]? = some t := by
  simp only [slot, Option.bind_eq_some_iff, Option.map_eq_some_iff, Prod.mk.injEq]
  constructor
  · rintro ⟨c, hc, t', ht, rfl, rfl⟩
    exact ⟨hc, ht⟩
  · rintro ⟨hc, ht⟩
    exact ⟨conn, hc, t, ht, rfl, rfl⟩

namespace WellFormed

variable {m : ConnectionManager} {n k : Int} {conn : ServerConnection} {t : ConnectionTask}

theorem new (token : String) : (ConnectionManager.new token).WellFormed where
  task_of_conn := by simp [ConnectionManager.new]
  conn_of_running := by simp [ConnectionManager.new, Runs]

theorem exists_slot (h : m.WellFormed) (hc : m.connections.lookup n = some conn) :
    ∃ t, m.slot n = some (conn, t) := by
  obtain ⟨t, ht, -⟩ := h.task_of_conn n conn hc
  exact ⟨t, slot_eq_some.mpr ⟨hc, ht⟩⟩

theorem slot_task (h : m.WellFormed) (hs : m.slot n = some (conn, t)) :
    t.nodeId = n ∧ t.cancelled = false ∧ t.certFingerprints = conn.certFingerprints := by
  obtain ⟨hc, ht⟩ := slot_eq_some.mp hs
  obtain ⟨t', ht', hrest⟩ := h.task_of_conn n conn hc
  obtain rfl : t = t' := Option.some.inj (ht.symm.trans ht')
  exact hrest

theorem slot_eq_none_iff (h : m.WellFormed) :
    m.slot n = none ↔ m.connections.lookup n = none := by
  constructor
  · intro hs
    by_contra hne
    obtain ⟨conn, hc⟩ := Option.ne_none_iff_exists'.mp hne
    obtain ⟨t, ht⟩ := h.exists_slot hc
    simp [hs] at ht
  · intro hc
    simp [slot, hc]

/-- Two nodes never share a task. -/
theorem task_injective (h : m.WellFormed) {conn' : ServerConnection}
    (hc : m.connections.lookup n = some conn) (hc' : m.connections.lookup k = some conn')
    (htask : conn.task = conn'.task) : n = k := by
  obtain ⟨t, ht, hn, -⟩ := h.task_of_conn n conn hc
  obtain ⟨t', ht', hk, -⟩ := h.task_of_conn k conn' hc'
  rw [htask] at ht
  obtain rfl : t = t' := Option.some.inj (ht.symm.trans ht')
  exact hn.symm.trans hk

/-- A running task is the task of its node's slot. -/
theorem runs_iff (h : m.WellFormed) {i : ℕ} :
    m.Runs i t ↔ ∃ conn, m.slot t.nodeId = some (conn, t) ∧ conn.task = i ∧
      t.isRunning = true := by
  constructor
  · intro hr
    obtain ⟨conn, hc, hi⟩ := h.conn_of_running i t hr
    exact ⟨conn, slot_eq_some.mpr ⟨hc, hi ▸ hr.1⟩, hi, hr.2⟩
  · rintro ⟨conn, hs, rfl, hr⟩
    exact ⟨(slot_eq_some.mp hs).2, hr⟩

end WellFormed

end ConnectionManager

end Oxiproxy.Client
