import Oxiproxy.Client.Reconcile
import Oxiproxy.Controller.ClientNotifications

/-!
# The control plane of one client

The controller places lists in the queue of the client's session; the client
takes them out in order, converts them and reconciles its connections with each.
A new session starts with an empty queue, while the connections stay.  A
connection task returns only when it is cancelled.
-/

namespace Oxiproxy.Client

open Net Transition Controller

/-! ## The conversion of a list -/

/-- The protocol of a node as the client reads it. -/
def tunnelProtocol (name : String) : TunnelProtocol :=
  if name = "kcp" then .kcp else if name = "tcp" then .tcp else .quic

def convertServerGroup (g : GrpcServerProxyGroup) : ServerProxyGroup where
  nodeId := g.nodeId
  serverAddr := g.serverAddr
  serverPort := g.serverPort.toUInt16
  protocol := tunnelProtocol g.protocol
  kcp := g.kcp
  proxies := g.proxies
  certFingerprints := g.certFingerprints

def convertServerGroups (groups : List GrpcServerProxyGroup) : List ServerProxyGroup :=
  groups.map convertServerGroup

/-! ## The two programs together -/

structure ControlPlane where
  push : ClientPush
  /-- How many lists of the current queue the client has taken. -/
  delivered : ℕ
  manager : ConnectionManager

inductive ControlInput
  | controller (i : PushInput)
  | deliver

namespace ControlPlane

variable (src : ListSources) (clientId : ℤ)

def step (s : ControlPlane) : ControlInput → Option ControlPlane
  | .controller i =>
      (s.push.step src clientId i).map fun push ↦
        { s with
          push
          delivered := match i with
            | .connect => 0
            | _ => s.delivered }
  | .deliver =>
      s.push.queue[s.delivered]?.map fun update ↦
        { s with
          delivered := s.delivered + 1
          manager := s.manager.reconcile (convertServerGroups update.serverGroups) }

def start (db : Db) (token : String) : ControlPlane := ⟨.start db, 0, .new token⟩

/-- No list is placed in the queue after one that has seen more changes. -/
def InOrder (s : ControlPlane) : ControlInput → Prop
  | .controller i => s.push.InOrder i
  | .deliver => True

instance (s : ControlPlane) : (i : ControlInput) → Decidable (s.InOrder i)
  | .controller i => inferInstanceAs (Decidable (s.push.InOrder i))
  | .deliver => .isTrue trivial

end ControlPlane

/-! ## What the client is to run -/

/-- The address a client parses for a node. -/
def nodeAddress (n : Node) : String :=
  n.tunnelAddr ++ ":" ++ toString ((n.tunnelPort % 2 ^ 32).toNat.toUInt16).toNat

/-- A task that was started with the settings of the node. -/
structure RunsFor (src : ListSources) (n : Node) (t : ConnectionTask) : Prop where
  nodeId : t.nodeId = n.id
  serverAddr : SocketAddr.parse (nodeAddress n) = some t.serverAddr
  protocol : t.protocol = tunnelProtocol n.tunnelProtocol
  kcpConfig : t.kcpConfig = n.kcpConfig.bind src.parseKcpConfig

/-- The client has an enabled proxy on the node. -/
def Wanted (db : Db) (clientId : ℤ) (n : Node) : Prop :=
  ∃ p ∈ db.enabledOf clientId, p.nodeId = some n.id

/-- One task runs for each node with enabled proxies of the client, with the
settings of the node, and it is recorded under these proxies; no other task runs. -/
structure Converged (src : ListSources) (db : Db) (clientId : ℤ) (m : ConnectionManager) :
    Prop where
  serves : ∀ n ∈ db.nodes.rows, Wanted db clientId n → ∃ i t conn,
    m.Runs i t ∧ RunsFor src n t ∧ t.certFingerprints = (src.fingerprint n.id).toList ∧
      (∀ j u, m.Runs j u → u.nodeId = n.id → j = i) ∧
      m.connections.lookup n.id = some conn ∧ conn.task = i ∧
      ∀ k, k ∈ conn.proxyIds ↔ ∃ p ∈ db.enabledOf clientId, p.nodeId = some n.id ∧ p.id = k
  only : ∀ i t, m.Runs i t → ∃ n ∈ db.nodes.rows, n.id = t.nodeId ∧ Wanted db clientId n

/-! ## The list of a database -/

section List

variable {src : ListSources} {db : Db} {clientId : ℤ}

theorem nodeProxyMap_concat (proxies : List Proxy) (p : Proxy) :
    nodeProxyMap (proxies ++ [p]) = match p.nodeId with
      | some nid => (nodeProxyMap proxies).insert nid
          ((((nodeProxyMap proxies).lookup nid).getD []) ++ [p.info])
      | none => nodeProxyMap proxies := by
  rw [nodeProxyMap, List.foldl_append]
  rfl

/-- The entry of a node holds its proxies, in their order. -/
theorem lookup_nodeProxyMap (proxies : List Proxy) (k : ℤ) :
    (nodeProxyMap proxies).lookup k =
      if ∃ p ∈ proxies, p.nodeId = some k then
        some ((proxies.filter fun p ↦ p.nodeId = some k).map Proxy.info)
      else none := by
  induction proxies using List.reverseRecOn with
  | nil => rfl
  | append_singleton proxies p ih =>
      rw [nodeProxyMap_concat]
      cases hnode : p.nodeId with
      | none => simp [hnode, ih]
      | some nid =>
          by_cases hk : k = nid
          · subst hk
            by_cases hmore : ∃ q ∈ proxies, q.nodeId = some k
            · simp [hnode, hmore, ih]
            · have hnil : proxies.filter (fun q ↦ q.nodeId = some k) = [] := by
                rw [List.filter_eq_nil_iff]
                intro q hq hqn
                exact hmore ⟨q, hq, of_decide_eq_true hqn⟩
              simp [hnode, hmore, hnil, ih]
          · have hk' : nid ≠ k := fun h ↦ hk h.symm
            simp [hnode, hk', AList.lookup_insert_ne hk, ih]

/-- Taking the entries out one by one gives each node its own entry. -/
theorem serverGroups_eq (src : ListSources) {nodes : List Node} (hnodup : (nodes.map (·.id)).Nodup)
    (m : AList fun _ : ℤ ↦ List ProxyInfo) :
    serverGroups src nodes m = nodes.filterMap fun n ↦
      (m.lookup n.id).map fun proxies ↦ n.group src proxies (src.fingerprint n.id) := by
  induction nodes generalizing m with
  | nil => rfl
  | cons n nodes ih =>
      rw [List.map_cons, List.nodup_cons] at hnodup
      cases hlookup : m.lookup n.id with
      | none => simp [serverGroups, hlookup, ih hnodup.2]
      | some proxies =>
          rw [serverGroups, hlookup]
          simp only [ih hnodup.2, List.filterMap_cons, hlookup, Option.map_some]
          congr 1
          refine List.filterMap_congr fun n' hn' ↦ ?_
          have hne : n'.id ≠ n.id := fun h ↦ hnodup.1 (h ▸ List.mem_map_of_mem hn')
          rw [AList.lookup_erase_ne hne]

theorem nodup_nodesIn (db : Db) (m : AList fun _ : ℤ ↦ List ProxyInfo) :
    ((db.nodesIn m).map (·.id)).Nodup :=
  db.nodes.nodup.sublist (List.filter_sublist.map Node.id)

/-- The groups of the list of a database: one for each node with proxies. -/
theorem mem_serverGroups {g : GrpcServerProxyGroup} :
    g ∈ serverGroups src (db.nodesIn (nodeProxyMap (db.enabledOf clientId)))
        (nodeProxyMap (db.enabledOf clientId)) ↔
      ∃ n ∈ db.nodes.rows, Wanted db clientId n ∧
        g = n.group src (((db.enabledOf clientId).filter fun p ↦ p.nodeId = some n.id).map Proxy.info)
          (src.fingerprint n.id) := by
  rw [serverGroups_eq src (nodup_nodesIn db _), List.mem_filterMap]
  simp only [Db.nodesIn, List.mem_filter, decide_eq_true_eq, ← AList.mem_keys,
    ← AList.lookup_isSome, lookup_nodeProxyMap]
  constructor
  · rintro ⟨n, ⟨hn, -⟩, hgroup⟩
    split_ifs at hgroup with hwanted
    · exact ⟨n, hn, hwanted, (Option.some.inj hgroup).symm⟩
    · cases hgroup
  · rintro ⟨n, hn, hwanted, rfl⟩
    have hwanted' : ∃ p ∈ db.enabledOf clientId, p.nodeId = some n.id := hwanted
    exact ⟨n, ⟨hn, by simp [hwanted']⟩, by simp [hwanted']⟩

end List

/-! ## The lists that are placed -/

section Listing

variable (src : ListSources) (rows : List Node)

/-- The groups belong to different nodes of the database, with their settings. -/
structure Listing (groups : List GrpcServerProxyGroup) : Prop where
  of_node : ∀ g ∈ groups, ∃ n ∈ rows, ∃ proxies fingerprint,
    g = n.group src proxies fingerprint
  nodup : (groups.map (·.nodeId)).Nodup

/-- What a task has collected, or is going to send, is a listing. -/
def Collects : PushStage → Prop
  | .findClient | .findProxies _ | .findNodes _ _ | .done => True
  | .fingerprints _ nodes _ groups =>
      (∀ n ∈ nodes, n ∈ rows) ∧ Listing src rows groups ∧
        (groups.map (·.nodeId) ++ nodes.map (·.id)).Nodup
  | .send update => Listing src rows update.serverGroups

variable {src rows} {db : Db} {clientId : ℤ} {stage stage' : PushStage} {ok : Bool}

theorem Listing.nil : Listing src rows [] := ⟨by simp, by simp⟩

theorem Collects.next (hstage : Collects src db.nodes.rows stage)
    (hnext : stage.next src clientId db ok = some stage') : Collects src db.nodes.rows stage' := by
  cases stage with
  | findClient =>
      simp only [PushStage.next] at hnext
      split at hnext <;> cases hnext <;> trivial
  | findProxies client =>
      simp only [PushStage.next] at hnext
      split_ifs at hnext <;> cases hnext <;> trivial
  | findNodes client m =>
      simp only [PushStage.next] at hnext
      split_ifs at hnext <;> obtain rfl := Option.some.inj hnext
      · exact ⟨by simp, .nil, by simp⟩
      · exact ⟨fun n hn ↦ (List.mem_filter.mp hn).1, .nil, by simpa using nodup_nodesIn db m⟩
      · trivial
  | fingerprints client nodes m groups =>
      obtain ⟨hnodes, hgroups, hnodup⟩ := hstage
      cases nodes with
      | nil =>
          cases hnext
          exact hgroups
      | cons n nodes =>
          have hrest : ∀ n' ∈ nodes, n' ∈ db.nodes.rows :=
            fun n' hn' ↦ hnodes n' (List.mem_cons_of_mem _ hn')
          rw [List.map_cons, List.append_cons] at hnodup
          simp only [PushStage.next] at hnext
          split at hnext <;> cases hnext
          · rename_i proxies hlookup
            refine ⟨hrest, ⟨?_, ?_⟩, ?_⟩
            · intro g hg
              rcases List.mem_append.mp hg with hg | hg
              · exact hgroups.of_node g hg
              · rw [List.mem_singleton.mp hg]
                exact ⟨n, hnodes n List.mem_cons_self, proxies, _, rfl⟩
            · rw [List.map_append]
              exact (List.nodup_append.mp hnodup).1
            · rw [List.map_append]
              exact hnodup
          · exact ⟨hrest, hgroups, hnodup.sublist (by simp)⟩
  | send update =>
      cases hnext
      trivial
  | done => cases hnext

/-- A task places only what it has collected. -/
theorem Collects.sent (hstage : Collects src rows stage) {update : ProxyListUpdate}
    (hupdate : update ∈ stage.sent ok) : Listing src rows update.serverGroups := by
  cases stage with
  | send update' =>
      cases ok with
      | false => simp [PushStage.sent] at hupdate
      | true =>
          obtain rfl : update = update' := by simpa [PushStage.sent] using hupdate
          exact hstage
  | _ => simp [PushStage.sent] at hupdate

variable (src rows) in
/-- Every list in the queue, and every list a task is going to place, is a
listing of the same nodes. -/
structure Lists (s : ClientPush) : Prop where
  nodes_eq : s.db.nodes.rows = rows
  queue : ∀ update ∈ s.queue, Listing src rows update.serverGroups
  tasks : ∀ task ∈ s.tasks, Collects src rows task.stage

variable {s t : ClientPush} {i : PushInput}

theorem Lists.step (hs : Lists src rows s) (hstep : s.step src clientId i = some t) :
    Lists src rows t := by
  have hnew (target : PushTarget) : ∀ task ∈ s.tasks ++ [⟨target, .findClient, ⊥⟩],
      Collects src rows task.stage := by
    intro task htask
    rcases List.mem_append.mp htask with htask | htask
    · exact hs.tasks task htask
    · rw [List.mem_singleton.mp htask]
      trivial
  cases i with
  | change proxies =>
      cases hstep
      exact ⟨hs.nodes_eq, hs.queue, hnew .registered⟩
  | connect =>
      cases hstep
      exact ⟨hs.nodes_eq, by simp, hnew (.session s.sessions)⟩
  | disconnect =>
      cases hstep
      exact ⟨hs.nodes_eq, hs.queue, hs.tasks⟩
  | task k ok =>
      obtain ⟨task, stage, htask, hnext, sent, hsent, rfl⟩ := ClientPush.step_task hstep
      have hcollects : Collects src rows task.stage := hs.tasks task (List.mem_of_getElem? htask)
      refine ⟨hs.nodes_eq, ?_, ?_⟩
      · intro update hupdate
        rcases List.mem_append.mp hupdate with hupdate | hupdate
        · exact hs.queue update hupdate
        · rw [hsent] at hupdate
          split_ifs at hupdate
          · exact hcollects.sent hupdate
          · cases hupdate
      · intro task' htask'
        rcases List.mem_or_eq_of_mem_set htask' with htask' | rfl
        · exact hs.tasks task' htask'
        · rw [← hs.nodes_eq] at hcollects ⊢
          exact hcollects.next hnext

/-- Without a new session the queue only grows. -/
theorem queue_prefix (hi : i ≠ .connect) (hstep : s.step src clientId i = some t) :
    s.queue <+: t.queue := by
  cases i with
  | connect => exact (hi rfl).elim
  | task k ok =>
      obtain ⟨task, stage, -, -, sent, -, rfl⟩ := ClientPush.step_task hstep
      exact List.prefix_append _ _
  | _ =>
      cases hstep
      exact List.prefix_refl _

end Listing

/-! ## Reconciling with a listing -/

section Reconcile

variable {src : ListSources} {rows : List Node} {n : Node} {t : ConnectionTask}
  {m : ConnectionManager} {groups : List GrpcServerProxyGroup} {proxies : List ProxyInfo}
  {fingerprint : Option String}

theorem RunsFor.of_usesGroup (hnode : t.nodeId = n.id)
    (huses : ConnectionManager.UsesGroup t
      (convertServerGroup (n.group src proxies fingerprint))) : RunsFor src n t :=
  ⟨hnode, huses.serverAddr, huses.protocol, huses.kcpConfig⟩

theorem RunsFor.usesGroup (ht : RunsFor src n t)
    (hfingerprint : t.certFingerprints = fingerprint.toList) :
    ConnectionManager.UsesGroup t (convertServerGroup (n.group src proxies fingerprint)) :=
  ⟨ht.serverAddr, ht.protocol, ht.kcpConfig, hfingerprint⟩

variable (src rows) in
/-- Every running task was started with the settings of a node. -/
def KnownTasks (m : ConnectionManager) : Prop :=
  ∀ t ∈ m.tasks, t.isRunning = true → ∃ n ∈ rows, RunsFor src n t

theorem map_nodeId_convertServerGroups (groups : List GrpcServerProxyGroup) :
    (convertServerGroups groups).map (·.nodeId) = groups.map (·.nodeId) := by
  rw [convertServerGroups, List.map_map]
  rfl

theorem Listing.parse (hlist : Listing src rows groups)
    (hparse : ∀ n ∈ rows, (SocketAddr.parse (nodeAddress n)).isSome = true) :
    ∀ g ∈ convertServerGroups groups,
      (SocketAddr.parse (ConnectionManager.serverAddrStr g)).isSome = true := by
  intro g hg
  obtain ⟨g', hg', rfl⟩ := List.mem_map.mp hg
  obtain ⟨n, hn, proxies, fingerprint, rfl⟩ := hlist.of_node g' hg'
  exact hparse n hn

/-- After reconciling with a listing, the task of a listed node captured what the
list says: it was started from the list, or before with the settings of its node. -/
theorem usesGroup_of_reconcile (hm : m.WellFormed) (hrows : (rows.map (·.id)).Nodup)
    (hparse : ∀ n ∈ rows, (SocketAddr.parse (nodeAddress n)).isSome = true)
    (hlist : Listing src rows groups) (hknown : KnownTasks src rows m)
    {g : GrpcServerProxyGroup} (hg : g ∈ groups) {conn : ServerConnection}
    (hslot : (m.reconcile (convertServerGroups groups)).slot g.nodeId = some (conn, t)) :
    ConnectionManager.UsesGroup t (convertServerGroup g) ∧ ∃ n ∈ rows, RunsFor src n t := by
  obtain ⟨n, hn, proxies, fingerprint, rfl⟩ := hlist.of_node g hg
  have hnodup : ((convertServerGroups groups).map (·.nodeId)).Nodup := by
    rw [map_nodeId_convertServerGroups]
    exact hlist.nodup
  obtain ⟨conn', t', hserves, hfresh, hkept⟩ := ConnectionManager.reconcile_serves hm hnodup
    (hlist.parse hparse) _ (List.mem_map_of_mem hg)
  obtain ⟨rfl, rfl⟩ := Prod.mk.inj (Option.some.inj (hslot.symm.trans hserves.slot_eq))
  obtain ⟨hnode, -, hfps⟩ := (hm.reconcile _).slot_task hslot
  cases hreconnect : m.needsReconnect
      (convertServerGroup (n.group src proxies fingerprint)) with
  | true => exact ⟨hfresh hreconnect, n, hn, .of_usesGroup hnode (hfresh hreconnect)⟩
  | false =>
      obtain ⟨old, hold⟩ := hkept hreconnect
      have hmem : t ∈ m.tasks := List.mem_of_getElem? (ConnectionManager.slot_eq_some.mp hold).2
      obtain ⟨n', hn', ht⟩ := hknown t hmem hserves.isRunning
      obtain rfl : n' = n :=
        List.inj_on_of_nodup_map hrows hn' hn (ht.nodeId.symm.trans hnode)
      exact ⟨ht.usesGroup (hfps.trans hserves.certFingerprints), n', hn', ht⟩

theorem reconciled_of_listing (hm : m.WellFormed) (hrows : (rows.map (·.id)).Nodup)
    (hparse : ∀ n ∈ rows, (SocketAddr.parse (nodeAddress n)).isSome = true)
    (hlist : Listing src rows groups) (hknown : KnownTasks src rows m) :
    (m.reconcile (convertServerGroups groups)).Reconciled (convertServerGroups groups) := by
  have hnodup : ((convertServerGroups groups).map (·.nodeId)).Nodup := by
    rw [map_nodeId_convertServerGroups]
    exact hlist.nodup
  rw [ConnectionManager.reconciled_reconcile_iff hm hnodup (hlist.parse hparse)]
  intro g hg conn t hslot
  obtain ⟨g', hg', rfl⟩ := List.mem_map.mp hg
  exact (usesGroup_of_reconcile hm hrows hparse hlist hknown hg' hslot).1

theorem KnownTasks.reconcile (hm : m.WellFormed) (hrows : (rows.map (·.id)).Nodup)
    (hparse : ∀ n ∈ rows, (SocketAddr.parse (nodeAddress n)).isSome = true)
    (hlist : Listing src rows groups) (hknown : KnownTasks src rows m) :
    KnownTasks src rows (m.reconcile (convertServerGroups groups)) := by
  intro t ht hrunning
  have hw := hm.reconcile (convertServerGroups groups)
  obtain ⟨i, hi⟩ := List.getElem?_of_mem ht
  obtain ⟨conn, hconn, htask⟩ := hw.conn_of_running i t ⟨hi, hrunning⟩
  have hslot : (m.reconcile (convertServerGroups groups)).slot t.nodeId = some (conn, t) :=
    ConnectionManager.slot_eq_some.mpr ⟨hconn, htask.symm ▸ hi⟩
  by_cases hlisted : t.nodeId ∈ (convertServerGroups groups).map (·.nodeId)
  · rw [map_nodeId_convertServerGroups] at hlisted
    obtain ⟨g, hg, hnode⟩ := List.mem_map.mp hlisted
    rw [← hnode] at hslot
    exact (usesGroup_of_reconcile hm hrows hparse hlist hknown hg hslot).2
  · rw [ConnectionManager.slot_reconcile_of_unlisted hm hlisted] at hslot
    cases hslot

end Reconcile

/-! ## Runs of the two programs -/

namespace ControlPlane

/-- The client runs what the last list it has taken says. -/
structure InStep (src : ListSources) (rows : List Node) (s : ControlPlane) : Prop where
  lists : Lists src rows s.push
  wellFormed : s.manager.WellFormed
  known : KnownTasks src rows s.manager
  reconciled : 0 < s.delivered → ∃ update, s.push.queue[s.delivered - 1]? = some update ∧
    s.manager.Reconciled (convertServerGroups update.serverGroups)

variable {src : ListSources} {rows : List Node} {clientId : ℤ} {s t : ControlPlane}

theorem InStep.step (hrows : (rows.map (·.id)).Nodup)
    (hparse : ∀ n ∈ rows, (SocketAddr.parse (nodeAddress n)).isSome = true)
    {i : ControlInput} (hs : s.InStep src rows) (hstep : s.step src clientId i = some t) :
    t.InStep src rows := by
  cases i with
  | controller i =>
      obtain ⟨push, hpush, rfl⟩ := Option.map_eq_some_iff.mp hstep
      refine ⟨hs.lists.step hpush, hs.wellFormed, hs.known, ?_⟩
      by_cases hi : i = .connect
      · subst hi
        intro hdelivered
        exact (Nat.lt_irrefl 0 hdelivered).elim
      · simp only
        intro hdelivered
        obtain ⟨update, hupdate, hreconciled⟩ := hs.reconciled hdelivered
        obtain ⟨rest, hrest⟩ := queue_prefix hi hpush
        have hlt : s.delivered - 1 < s.push.queue.length :=
          (List.getElem?_eq_some_iff.mp hupdate).1
        refine ⟨update, ?_, hreconciled⟩
        rw [← hrest, List.getElem?_append_left hlt]
        exact hupdate
  | deliver =>
      obtain ⟨update, hupdate, rfl⟩ := Option.map_eq_some_iff.mp hstep
      have hlist := hs.lists.queue update (List.mem_of_getElem? hupdate)
      exact ⟨hs.lists, hs.wellFormed.reconcile _,
        hs.known.reconcile hs.wellFormed hrows hparse hlist,
        fun _ ↦ ⟨update, hupdate,
          reconciled_of_listing hs.wellFormed hrows hparse hlist hs.known⟩⟩

/-- The list of a database, run by the client, is what the database asks for. -/
theorem converged_of_reconciled {db : Db} {m : ConnectionManager}
    (hm : m.Reconciled (convertServerGroups (serverGroups src
      (db.nodesIn (nodeProxyMap (db.enabledOf clientId))) (nodeProxyMap (db.enabledOf clientId))))) :
    Converged src db clientId m where
  serves := by
    intro n hn hwanted
    obtain ⟨i, t, conn, hruns, hnode, huses, hunique, hconn, htask, hids⟩ :=
      hm.listed _ (List.mem_map_of_mem (mem_serverGroups.mpr ⟨n, hn, hwanted, rfl⟩))
    refine ⟨i, t, conn, hruns, .of_usesGroup hnode huses, huses.certFingerprints, hunique, hconn,
      htask, fun k ↦ ?_⟩
    rw [hids]
    simp [ConnectionManager.newProxyIds, convertServerGroup, Node.group, Proxy.info, and_assoc]
  only := by
    intro i t hruns
    have hlisted := hm.unlisted i t hruns
    rw [map_nodeId_convertServerGroups] at hlisted
    obtain ⟨g, hg, hnode⟩ := List.mem_map.mp hlisted
    obtain ⟨n, hn, hwanted, rfl⟩ := mem_serverGroups.mp hg
    exact ⟨n, hn, hnode, hwanted⟩

/-- What holds of the lists of the controller. -/
theorem sound_step {i : ControlInput} (hs : s.push.Sound src clientId) (horder : s.InOrder i)
    (hstep : s.step src clientId i = some t) : t.push.Sound src clientId := by
  cases i with
  | controller i =>
      obtain ⟨push, hpush, rfl⟩ := Option.map_eq_some_iff.mp hstep
      exact hs.step horder hpush
  | deliver =>
      obtain ⟨update, -, rfl⟩ := Option.map_eq_some_iff.mp hstep
      exact hs

/-- In a run that places no list after one that has seen more changes, a client that
has taken all the lists of its session, one of which has seen all changes, runs one
task for each node with enabled proxies of the client in the database, and no
others. -/
theorem control_plane_converges (src : ListSources) (clientId : ℤ) (db : Db) (token : String)
    (inputs : List ControlInput) (s : ControlPlane)
    (hclient : (db.clients.find clientId).isSome = true)
    (hparse : ∀ n ∈ db.nodes.rows, (SocketAddr.parse (nodeAddress n)).isSome = true)
    (horder : Within (step src clientId) InOrder (start db token) inputs)
    (hrun : run (step src clientId) (start db token) inputs = some s)
    (hinformed : s.push.Informed) (hall : s.delivered = s.push.queue.length) :
    Converged src s.push.db clientId s.manager := by
  have hstart : (start db token).InStep src db.nodes.rows :=
    ⟨⟨rfl, by simp [start, ClientPush.start], by simp [start, ClientPush.start]⟩, .new token,
      by simp [KnownTasks, start, ConnectionManager.new], by simp [start]⟩
  have hinStep := run_invariant_of_step
    (fun _ _ _ h hstep ↦ InStep.step db.nodes.nodup hparse h hstep) hstart hrun
  have hsound : s.push.Sound src clientId :=
    run_invariant
      (fun _ _ _ h horder hstep ↦ sound_step h horder hstep) (ClientPush.sound_start hclient)
      horder hrun
  have hlast := hsound.queue hinformed
  obtain ⟨client, hclient'⟩ := Option.isSome_iff_exists.mp hsound.client
  rw [buildProxyListUpdate, hclient', Option.map_some] at hlast
  have hne : s.push.queue ≠ [] := by
    intro hnil
    rw [hnil] at hlast
    cases hlast
  have hpos : 0 < s.delivered := hall ▸ List.length_pos_iff.mpr hne
  obtain ⟨update, hupdate, hreconciled⟩ := hinStep.reconciled hpos
  rw [hall, ← List.getLast?_eq_getElem?, hlast] at hupdate
  obtain rfl := Option.some.inj hupdate
  exact converged_of_reconciled hreconciled

/-! ## A proxy created while the client is connected -/

def meshNode (id : ℤ) (tunnelAddr : String) : Node :=
  { (default : Node) with id, tunnelAddr, tunnelPort := 7000, tunnelProtocol := "tcp" }

/-- Client 1 and two nodes. -/
def meshDb : Db :=
  { ClientPush.pushDb with
    nodes := ⟨[meshNode 5 "10.0.0.1", meshNode 6 "10.0.0.2"], by simp [key, meshNode]⟩ }

/-- A session takes its first list; a proxy on node 5 is created, and the new
list is taken too. -/
def connectAndCreate : List ControlInput :=
  (PushInput.connect :: ClientPush.runTask 0 5).map .controller ++ [.deliver] ++
    (PushInput.change ClientPush.oneProxy :: ClientPush.runTask 1 6).map .controller ++ [.deliver]

theorem control_plane_converges_created :
    ∃ s ∈ run (step ClientPush.plainSources 1) (start meshDb "token") connectAndCreate,
      Converged ClientPush.plainSources s.push.db 1 s.manager := by
  obtain ⟨s, hs, hinformed, hall⟩ :
      ∃ s ∈ run (step ClientPush.plainSources 1) (start meshDb "token") connectAndCreate,
        s.push.Informed ∧ s.delivered = s.push.queue.length := by
    decide +kernel
  exact ⟨s, hs, control_plane_converges ClientPush.plainSources 1 meshDb "token" connectAndCreate s
    (by decide) (by decide +kernel) (by decide +kernel) hs hinformed hall⟩

end ControlPlane

end Oxiproxy.Client
