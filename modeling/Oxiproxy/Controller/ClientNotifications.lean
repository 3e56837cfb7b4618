import Oxiproxy.Controller.Entity
import Oxiproxy.Foundation.HashMap
import Oxiproxy.Foundation.Runs

/-!
# Pushing proxy lists to a client

Every change to the proxies of a client starts a task that reads the database,
builds the list of the client's proxies and sends it on the stream registered
for the client; a new session starts such a task for its own stream.  The tasks
run side by side, and only the sending is under the lock of the registry.
-/

namespace Oxiproxy.Controller

open Transition

/-- A group of the message to the client. -/
structure GrpcServerProxyGroup where
  nodeId : ℤ
  serverAddr : String
  serverPort : ℕ
  protocol : String
  kcp : Option KcpConfig
  proxies : List ProxyInfo
  certFingerprints : List String
  deriving DecidableEq

structure ProxyListUpdate where
  clientId : ℤ
  clientName : String
  serverGroups : List GrpcServerProxyGroup
  deriving DecidableEq

/-- What a list is built from besides the tables. -/
structure ListSources where
  /-- `serde_json::from_str` at the type of KCP settings. -/
  parseKcpConfig : String → Option KcpConfig
  /-- The fingerprint of the certificate of a node. -/
  fingerprint : ℤ → Option String

def Proxy.info (p : Proxy) : ProxyInfo where
  proxyId := p.id
  name := p.name
  proxyType := p.proxyType
  localIp := p.localIp
  localPort := p.localPort.toNat
  remotePort := p.remotePort.toNat
  enabled := p.enabled

/-- The enabled proxies of a client. -/
def Db.enabledOf (db : Db) (clientId : ℤ) : List Proxy :=
  db.proxies.rows.filter fun p ↦ p.clientId = some (toString clientId) ∧ p.enabled = true

/-- The proxies of each node; those without a node are left out. -/
def nodeProxyMap (proxies : List Proxy) : AList fun _ : ℤ ↦ List ProxyInfo :=
  proxies.foldl (fun m p ↦ match p.nodeId with
    | some nid => m.insert nid (((m.lookup nid).getD []) ++ [p.info])
    | none => m) ∅

def Db.nodesIn (db : Db) (m : AList fun _ : ℤ ↦ List ProxyInfo) : List Node :=
  db.nodes.rows.filter fun n ↦ n.id ∈ m.keys

def Node.group (src : ListSources) (n : Node) (proxies : List ProxyInfo)
    (fingerprint : Option String) : GrpcServerProxyGroup where
  nodeId := n.id
  serverAddr := n.tunnelAddr
  serverPort := (n.tunnelPort % 2 ^ 32).toNat
  protocol := n.tunnelProtocol
  kcp := n.kcpConfig.bind src.parseKcpConfig
  proxies
  certFingerprints := fingerprint.toList

/-- The groups of the nodes that have proxies, each taken out of the map. -/
def serverGroups (src : ListSources) :
    List Node → (AList fun _ : ℤ ↦ List ProxyInfo) → List GrpcServerProxyGroup
  | [], _ => []
  | n :: nodes, m =>
      match m.lookup n.id with
      | some proxies =>
          n.group src proxies (src.fingerprint n.id) :: serverGroups src nodes (m.erase n.id)
      | none => serverGroups src nodes m

/-- `build_proxy_list_update` on a database that does not change meanwhile. -/
def buildProxyListUpdate (src : ListSources) (db : Db) (clientId : ℤ) : Option ProxyListUpdate :=
  (db.clients.find clientId).map fun client ↦
    let m := nodeProxyMap (db.enabledOf clientId)
    ⟨client.id, client.name, serverGroups src (db.nodesIn m) m⟩

/-- The calls of `build_proxy_list_update` one by one, and the sending. -/
inductive PushStage
  | findClient
  | findProxies (client : Client)
  | findNodes (client : Client) (m : AList fun _ : ℤ ↦ List ProxyInfo)
  | fingerprints (client : Client) (nodes : List Node) (m : AList fun _ : ℤ ↦ List ProxyInfo)
      (groups : List GrpcServerProxyGroup)
  | send (update : ProxyListUpdate)
  | done

/-- Where a list is sent: to the stream that is registered, or to that of a session. -/
inductive PushTarget
  | registered
  | session (id : ℕ)
  deriving DecidableEq

structure PushTask where
  target : PushTarget
  stage : PushStage
  /-- How many changes the proxies had seen when the task read them: none before it
  has, and none any more after a call that failed. -/
  seen : WithBot ℕ

/-- One client: the database, the session whose stream is registered with the
lists placed in its queue, and the tasks. -/
structure ClientPush where
  db : Db
  changes : ℕ
  sessions : ℕ
  current : Option ℕ
  queue : List ProxyListUpdate
  /-- The most changes that a list in the queue has seen. -/
  newest : WithBot ℕ
  tasks : List PushTask

inductive PushInput
  | change (proxies : Table Proxy)
  | connect
  | disconnect
  | task (k : ℕ) (ok : Bool)

/-- The next stage of a task; a call that fails before the list is built ends it. -/
def PushStage.next (src : ListSources) (clientId : ℤ) (db : Db) (ok : Bool) :
    PushStage → Option PushStage
  | .findClient =>
      match if ok then db.clients.find clientId else none with
      | some client => some (.findProxies client)
      | none => some .done
  | .findProxies client =>
      if ok then some (.findNodes client (nodeProxyMap (db.enabledOf clientId))) else some .done
  | .findNodes client m =>
      if m.keys = [] then some (.fingerprints client [] m [])
      else if ok then some (.fingerprints client (db.nodesIn m) m [])
      else some .done
  | .fingerprints client [] _ groups => some (.send ⟨client.id, client.name, groups⟩)
  | .fingerprints client (n :: nodes) m groups =>
      match m.lookup n.id with
      | some proxies =>
          let fingerprint := if ok then src.fingerprint n.id else none
          some (.fingerprints client nodes (m.erase n.id) (groups ++ [n.group src proxies fingerprint]))
      | none => some (.fingerprints client nodes m groups)
  | .send _ => some .done
  | .done => none

/-- The changes that a task has seen after its next stage. -/
def PushStage.seenNext (changes : ℕ) (seen : WithBot ℕ) (ok : Bool) : PushStage → WithBot ℕ
  | .findProxies _ => if ok then changes else ⊥
  | _ => if ok then seen else ⊥

/-- The list a task sends in this step. -/
def PushStage.sent (ok : Bool) : PushStage → List ProxyListUpdate
  | .send update => if ok then [update] else []
  | _ => []

/-- What is sent to the target is placed in the queue of the current session. -/
def PushTarget.Reaches (current : Option ℕ) : PushTarget → Prop
  | .registered => current.isSome = true
  | .session id => current = some id

instance (current : Option ℕ) (target : PushTarget) : Decidable (target.Reaches current) := by
  cases target <;> unfold PushTarget.Reaches <;> infer_instance

namespace ClientPush

variable (src : ListSources) (clientId : ℤ)

def step (s : ClientPush) : PushInput → Option ClientPush
  | .change proxies =>
      some { s with
        db := { s.db with proxies }
        changes := s.changes + 1
        tasks := s.tasks ++ [⟨.registered, .findClient, ⊥⟩] }
  | .connect =>
      some { s with
        sessions := s.sessions + 1
        current := some s.sessions
        queue := []
        newest := ⊥
        tasks := s.tasks ++ [⟨.session s.sessions, .findClient, ⊥⟩] }
  | .disconnect => some { s with current := none }
  | .task k ok =>
      match s.tasks[k]? with
      | none => none
      | some task =>
          (task.stage.next src clientId s.db ok).map fun stage ↦
            let sent := if task.target.Reaches s.current then task.stage.sent ok else []
            { s with
              queue := s.queue ++ sent
              newest := if sent = [] then s.newest else max s.newest task.seen
              tasks := s.tasks.set k
                { task with stage, seen := task.stage.seenNext s.changes task.seen ok } }

def start (db : Db) : ClientPush := ⟨db, 0, 0, none, [], ⊥, []⟩

/-- All tasks have finished. -/
def Settled (s : ClientPush) : Prop := ∀ task ∈ s.tasks, task.stage = .done

end ClientPush

/-! ## The list a task is going to send -/

/-- The list a task will have built if its calls succeed and the database stays
as it is. -/
def PushStage.prospect (src : ListSources) (clientId : ℤ) (db : Db) : PushStage → Option ProxyListUpdate
  | .findClient => buildProxyListUpdate src db clientId
  | .findProxies client =>
      let m := nodeProxyMap (db.enabledOf clientId)
      some ⟨client.id, client.name, serverGroups src (db.nodesIn m) m⟩
  | .findNodes client m => some ⟨client.id, client.name, serverGroups src (db.nodesIn m) m⟩
  | .fingerprints client nodes m groups =>
      some ⟨client.id, client.name, groups ++ serverGroups src nodes m⟩
  | .send update => some update
  | .done => none

section Coverage

variable {src : ListSources} {clientId : ℤ} {db : Db}

/-- A call that succeeds leaves the list a task is going to send as it was. -/
theorem PushStage.prospect_next {stage stage' : PushStage} {u : ProxyListUpdate}
    (hnext : stage.next src clientId db true = some stage') (hsent : stage.sent true = [])
    (hu : stage.prospect src clientId db = some u) : stage'.prospect src clientId db = some u := by
  cases stage with
  | findClient =>
      obtain ⟨client, hclient, rfl⟩ := Option.map_eq_some_iff.mp hu
      simp only [next, hclient, if_true] at hnext
      cases hnext
      rfl
  | findProxies client =>
      cases hnext
      exact hu
  | findNodes client m =>
      simp only [next, if_true] at hnext
      split_ifs at hnext with hkeys <;> cases hnext
      · have hnone : db.nodesIn m = [] := by simp [Db.nodesIn, hkeys]
        simpa [prospect, hnone] using hu
      · exact hu
  | fingerprints client nodes m groups =>
      cases nodes with
      | nil =>
          cases hnext
          simpa [prospect, serverGroups] using hu
      | cons n nodes =>
          simp only [next, if_true] at hnext
          split at hnext <;> cases hnext
          · rename_i proxies hlookup
            simpa [prospect, serverGroups, hlookup] using hu
          · rename_i hlookup
            simpa [prospect, serverGroups, hlookup] using hu
  | send update => cases hsent
  | done => cases hnext

/-- A task that has seen all changes is going to send the list of the database. -/
structure PushTask.Sound (src : ListSources) (clientId : ℤ) (db : Db) (changes : ℕ)
    (task : PushTask) : Prop where
  client : ∀ client, task.stage = .findProxies client → db.clients.find clientId = some client
  seen_le : task.seen ≤ changes
  prospect : task.seen = changes → task.stage ≠ .done →
    task.stage.prospect src clientId db = buildProxyListUpdate src db clientId

theorem PushTask.sound_new (target : PushTarget) (changes : ℕ) :
    PushTask.Sound src clientId db changes ⟨target, .findClient, ⊥⟩ :=
  ⟨fun _ h ↦ (by cases h), bot_le, fun _ _ ↦ rfl⟩

theorem PushTask.Sound.change {changes : ℕ} {task : PushTask}
    (h : task.Sound src clientId db changes) (proxies : Table Proxy) :
    task.Sound src clientId { db with proxies } (changes + 1) := by
  have hlt : task.seen < ((changes + 1 : ℕ) : WithBot ℕ) :=
    h.seen_le.trans_lt (by exact_mod_cast changes.lt_succ_self)
  exact ⟨h.client, hlt.le, fun heq ↦ absurd heq hlt.ne⟩

theorem PushTask.Sound.next {changes : ℕ} {task : PushTask} {ok : Bool} {stage : PushStage}
    (h : task.Sound src clientId db changes) (hclient : (db.clients.find clientId).isSome = true)
    (hnext : task.stage.next src clientId db ok = some stage) :
    PushTask.Sound src clientId db changes
      ⟨task.target, stage, task.stage.seenNext changes task.seen ok⟩ := by
  have hread : ∀ client, stage = .findProxies client → db.clients.find clientId = some client := by
    rintro client rfl
    cases hpos : task.stage with
    | findClient =>
        rw [hpos] at hnext
        simp only [PushStage.next] at hnext
        split at hnext <;> cases hnext
        rename_i hfind
        split_ifs at hfind
        exact hfind
    | findProxies | findNodes =>
        rw [hpos] at hnext
        simp only [PushStage.next] at hnext
        split_ifs at hnext <;> cases hnext
    | fingerprints client nodes m groups =>
        rw [hpos] at hnext
        cases nodes with
        | nil => cases hnext
        | cons n nodes =>
            simp only [PushStage.next] at hnext
            split at hnext <;> cases hnext
    | send | done =>
        rw [hpos] at hnext
        cases hnext
  cases ok with
  | false =>
      have hseen : task.stage.seenNext changes task.seen false = ⊥ := by
        cases task.stage <;> rfl
      exact ⟨hread, hseen ▸ bot_le, fun heq ↦ absurd (hseen.symm.trans heq) WithBot.bot_ne_coe⟩
  | true =>
      obtain ⟨client, hfind⟩ := Option.isSome_iff_exists.mp hclient
      have hbuild : buildProxyListUpdate src db clientId = some ⟨client.id, client.name,
          serverGroups src (db.nodesIn (nodeProxyMap (db.enabledOf clientId)))
            (nodeProxyMap (db.enabledOf clientId))⟩ := by
        rw [buildProxyListUpdate, hfind, Option.map_some]
      by_cases hproxies : ∃ client, task.stage = .findProxies client
      · obtain ⟨client', hpos⟩ := hproxies
        obtain rfl : client' = client := Option.some.inj ((h.client _ hpos).symm.trans hfind)
        rw [hpos] at hnext ⊢
        cases hnext
        exact ⟨fun _ heq ↦ (by cases heq), le_rfl, fun _ _ ↦ hbuild.symm⟩
      · have hseen : task.stage.seenNext changes task.seen true = task.seen := by
          cases hpos : task.stage with
          | findProxies client' => exact absurd ⟨client', hpos⟩ hproxies
          | findClient | findNodes | fingerprints | send | done => rfl
        rw [hseen]
        refine ⟨hread, h.seen_le, fun heq hdone ↦ ?_⟩
        have hpos : task.stage ≠ .done := by
          intro hpos
          rw [hpos] at hnext
          cases hnext
        have hsent : task.stage.sent true = [] := by
          cases hpos : task.stage with
          | send update =>
              rw [hpos] at hnext
              exact absurd (Option.some.inj hnext).symm hdone
          | findClient | findProxies | findNodes | fingerprints | done => rfl
        rw [hbuild]
        exact PushStage.prospect_next hnext hsent ((h.prospect heq hpos).trans hbuild)

end Coverage

namespace ClientPush

/-- No list is placed in the queue of the current session after one that has seen
more changes. -/
def InOrder (s : ClientPush) : PushInput → Prop
  | .task k ok => ∀ task ∈ s.tasks[k]?, task.target.Reaches s.current →
      task.stage.sent ok ≠ [] → s.newest ≤ task.seen
  | _ => True

instance (s : ClientPush) : ∀ i, Decidable (s.InOrder i)
  | .task k ok => inferInstanceAs (Decidable (∀ task ∈ s.tasks[k]?, task.target.Reaches s.current →
      task.stage.sent ok ≠ [] → s.newest ≤ task.seen))
  | .change _ | .connect | .disconnect => .isTrue trivial

/-- Some list in the queue of the current session has seen all changes. -/
def Informed (s : ClientPush) : Prop := s.newest = s.changes

instance (s : ClientPush) : Decidable s.Informed :=
  inferInstanceAs (Decidable (s.newest = s.changes))

/-- If some list in the queue has seen all changes, the last one is that of the
database. -/
structure Sound (src : ListSources) (clientId : ℤ) (s : ClientPush) : Prop where
  client : (s.db.clients.find clientId).isSome = true
  newest_le : s.newest ≤ s.changes
  queue : s.newest = s.changes → s.queue.getLast? = buildProxyListUpdate src s.db clientId
  tasks : ∀ task ∈ s.tasks, task.Sound src clientId s.db s.changes

variable {src : ListSources} {clientId : ℤ} {s t : ClientPush} {i : PushInput}

theorem step_task {k : ℕ} {ok : Bool} (h : s.step src clientId (.task k ok) = some t) :
    ∃ task stage, s.tasks[k]? = some task ∧ task.stage.next src clientId s.db ok = some stage ∧
      ∃ sent, sent = (if task.target.Reaches s.current then task.stage.sent ok else []) ∧
        t = { s with
          queue := s.queue ++ sent
          newest := if sent = [] then s.newest else max s.newest task.seen
          tasks := s.tasks.set k ⟨task.target, stage, task.stage.seenNext s.changes task.seen ok⟩ } := by
  simp only [ClientPush.step] at h
  split at h
  · cases h
  · rename_i task htask
    obtain ⟨stage, hnext, rfl⟩ := Option.map_eq_some_iff.mp h
    exact ⟨task, stage, htask, hnext, _, rfl, rfl⟩

/-- A task sends nothing, or the one list that it has built. -/
theorem sent_cases (stage : PushStage) (ok : Bool) :
    stage.sent ok = [] ∨ ∃ u, stage = .send u ∧ stage.sent ok = [u] := by
  cases stage with
  | send u => cases ok <;> simp [PushStage.sent]
  | findClient | findProxies | findNodes | fingerprints | done => exact .inl rfl

theorem sound_start {db : Db} (hclient : (db.clients.find clientId).isSome = true) :
    (start db).Sound src clientId :=
  ⟨hclient, bot_le, fun heq ↦ absurd heq WithBot.bot_ne_coe, fun _ h ↦ absurd h List.not_mem_nil⟩

theorem Sound.step (h : s.Sound src clientId) (horder : s.InOrder i)
    (hstep : s.step src clientId i = some t) : t.Sound src clientId := by
  cases i with
  | change proxies =>
      cases hstep
      have hlt : s.newest < ((s.changes + 1 : ℕ) : WithBot ℕ) :=
        h.newest_le.trans_lt (by exact_mod_cast s.changes.lt_succ_self)
      refine ⟨h.client, hlt.le, fun heq ↦ absurd heq hlt.ne, fun task htask ↦ ?_⟩
      rcases List.mem_append.mp htask with htask | htask
      · exact (h.tasks task htask).change proxies
      · rw [List.mem_singleton.mp htask]
        exact PushTask.sound_new _ _
  | connect =>
      cases hstep
      refine ⟨h.client, bot_le, fun heq ↦ absurd heq WithBot.bot_ne_coe, fun task htask ↦ ?_⟩
      rcases List.mem_append.mp htask with htask | htask
      · exact h.tasks task htask
      · rw [List.mem_singleton.mp htask]
        exact PushTask.sound_new _ _
  | disconnect =>
      cases hstep
      exact ⟨h.client, h.newest_le, h.queue, h.tasks⟩
  | task k ok =>
      obtain ⟨task, stage, htask, hnext, sent, hsent, rfl⟩ := step_task hstep
      have hsound := h.tasks task (List.mem_of_getElem? htask)
      have htasks : ∀ task' ∈ s.tasks.set k ⟨task.target, stage,
          task.stage.seenNext s.changes task.seen ok⟩, task'.Sound src clientId s.db s.changes := by
        intro task' htask'
        rcases List.mem_or_eq_of_mem_set htask' with htask' | rfl
        · exact h.tasks task' htask'
        · exact hsound.next h.client hnext
      by_cases hempty : sent = []
      · simp only [hempty, if_true, List.append_nil]
        exact ⟨h.client, h.newest_le, h.queue, htasks⟩
      · -- the list that is placed has seen as many changes as any before it
        simp only [hempty, if_false]
        have hreaches : task.target.Reaches s.current := by
          by_contra hreaches
          rw [if_neg hreaches] at hsent
          exact hempty hsent
        rw [if_pos hreaches] at hsent
        obtain hnone | ⟨u, hstage, hu⟩ := sent_cases task.stage ok
        · exact absurd (hsent.trans hnone) hempty
        have hle := horder task htask hreaches (hsent ▸ hempty)
        rw [max_eq_right hle]
        refine ⟨h.client, hsound.seen_le, fun heq ↦ ?_, htasks⟩
        have hprospect := hsound.prospect heq (by rw [hstage]; exact fun hdone ↦ by cases hdone)
        rw [hstage] at hprospect
        dsimp only
        rw [hsent, hu, List.getLast?_concat]
        exact hprospect

/-- When no list is placed after one that has seen more changes, and some list in
the queue of the current session has seen all of them, the last list in the queue
is that of the database. -/
theorem client_list_fresh (src : ListSources) (clientId : ℤ) (db : Db) (inputs : List PushInput)
    (t : ClientPush) (hclient : (db.clients.find clientId).isSome = true)
    (horder : Within (ClientPush.step src clientId) InOrder (start db) inputs)
    (hrun : run (ClientPush.step src clientId) (start db) inputs = some t)
    (hinformed : t.Informed) : t.queue.getLast? = buildProxyListUpdate src t.db clientId := by
  have hsound : t.Sound src clientId :=
    run_invariant (fun _ _ _ h horder hstep ↦ Sound.step h horder hstep) (sound_start hclient)
      horder hrun
  exact hsound.queue hinformed

/-! ## Runs without failures -/

/-- The task has yet to read the proxies, or has seen all changes, and is going to
send its list to the current session. -/
def Attends (s : ClientPush) (task : PushTask) : Prop :=
  task.target.Reaches s.current ∧ task.stage ≠ .done ∧
    (task.stage = .findClient ∨ (∃ client, task.stage = .findProxies client) ∨
      task.seen = s.changes)

/-- The session has been sent a list that has seen all changes, or is going to be. -/
structure Attended (clientId : ℤ) (s : ClientPush) : Prop where
  client : (s.db.clients.find clientId).isSome = true
  newest_le : s.newest ≤ s.changes
  seen_le : ∀ task ∈ s.tasks, task.seen ≤ s.changes
  attended : s.current.isSome = true → s.Informed ∨ ∃ task ∈ s.tasks, s.Attends task

/-- No call fails. -/
def Succeeds : PushInput → Prop
  | .task _ ok => ok = true
  | _ => True

instance : DecidablePred Succeeds
  | .task _ ok => inferInstanceAs (Decidable (ok = true))
  | .change _ | .connect | .disconnect => .isTrue trivial

/-- A task whose calls succeed goes on to its list, and then sends it. -/
theorem Attends.next {task : PushTask} {stage : PushStage} (h : s.Attends task)
    (hclient : (s.db.clients.find clientId).isSome = true)
    (hnext : task.stage.next src clientId s.db true = some stage) :
    (∃ u, task.stage = .send u ∧ task.seen = s.changes) ∨
      s.Attends ⟨task.target, stage, task.stage.seenNext s.changes task.seen true⟩ := by
  obtain ⟨hreaches, hdone, hreads⟩ := h
  cases hpos : task.stage with
  | findClient =>
      obtain ⟨client, hfind⟩ := Option.isSome_iff_exists.mp hclient
      rw [hpos] at hnext
      simp only [PushStage.next, if_true, hfind] at hnext
      cases hnext
      exact .inr ⟨hreaches, fun h ↦ (by cases h), .inr (.inl ⟨client, rfl⟩)⟩
  | findProxies client =>
      rw [hpos] at hnext
      cases hnext
      exact .inr ⟨hreaches, fun h ↦ (by cases h), .inr (.inr rfl)⟩
  | findNodes client m =>
      have hseen : task.seen = s.changes := by simpa [hpos] using hreads
      rw [hpos] at hnext
      simp only [PushStage.next, if_true] at hnext
      split_ifs at hnext <;> cases hnext <;>
        exact .inr ⟨hreaches, fun h ↦ (by cases h), .inr (.inr hseen)⟩
  | fingerprints client nodes m groups =>
      have hseen : task.seen = s.changes := by simpa [hpos] using hreads
      rw [hpos] at hnext
      cases nodes with
      | nil =>
          cases hnext
          exact .inr ⟨hreaches, fun h ↦ (by cases h), .inr (.inr hseen)⟩
      | cons n nodes =>
          simp only [PushStage.next] at hnext
          split at hnext <;> cases hnext <;>
            exact .inr ⟨hreaches, fun h ↦ (by cases h), .inr (.inr hseen)⟩
  | send u => exact .inl ⟨u, rfl, by simpa [hpos] using hreads⟩
  | done => exact absurd hpos hdone

theorem Attended.step (h : s.Attended clientId) (hok : Succeeds i)
    (hstep : s.step src clientId i = some t) : t.Attended clientId := by
  have hle (n : WithBot ℕ) (hn : n ≤ s.changes) : n ≤ ((s.changes + 1 : ℕ) : WithBot ℕ) :=
    hn.trans (by exact_mod_cast s.changes.le_succ)
  cases i with
  | change proxies =>
      cases hstep
      refine ⟨h.client, hle _ h.newest_le, fun task htask ↦ ?_, fun hcurrent ↦ .inr ?_⟩
      · rcases List.mem_append.mp htask with htask | htask
        · exact hle _ (h.seen_le task htask)
        · rw [List.mem_singleton.mp htask]
          exact bot_le
      · exact ⟨_, List.mem_append_right _ (List.mem_singleton_self _), hcurrent,
          fun h ↦ (by cases h), .inl rfl⟩
  | connect =>
      cases hstep
      refine ⟨h.client, bot_le, fun task htask ↦ ?_, fun _ ↦ .inr ?_⟩
      · rcases List.mem_append.mp htask with htask | htask
        · exact h.seen_le task htask
        · rw [List.mem_singleton.mp htask]
          exact bot_le
      · exact ⟨_, List.mem_append_right _ (List.mem_singleton_self _), rfl,
          fun h ↦ (by cases h), .inl rfl⟩
  | disconnect =>
      cases hstep
      exact ⟨h.client, h.newest_le, h.seen_le, fun hcurrent ↦ by cases hcurrent⟩
  | task k ok =>
      obtain rfl : ok = true := hok
      obtain ⟨task, stage, htask, hnext, sent, hsent, rfl⟩ := step_task hstep
      have hseen := h.seen_le task (List.mem_of_getElem? htask)
      have hlt := (List.getElem?_eq_some_iff.mp htask).1
      refine ⟨h.client, ?_, fun task' htask' ↦ ?_, fun hcurrent ↦ ?_⟩
      · dsimp only
        split_ifs
        · exact h.newest_le
        · exact max_le h.newest_le hseen
      · rcases List.mem_or_eq_of_mem_set htask' with htask' | rfl
        · exact h.seen_le task' htask'
        · cases task.stage with
          | findProxies client => exact le_rfl
          | findClient | findNodes | fingerprints | send | done => exact hseen
      · rcases h.attended hcurrent with hinformed | ⟨task', hmem, hattends⟩
        · -- no list can have seen more
          left
          unfold Informed at hinformed ⊢
          dsimp only
          rw [hinformed, max_eq_left hseen, ite_self]
        · obtain ⟨j, hj⟩ := List.getElem?_of_mem hmem
          by_cases hjk : j = k
          · subst hjk
            obtain rfl : task = task' := Option.some.inj (htask.symm.trans hj)
            rcases hattends.next h.client hnext with ⟨u, hstage, hall⟩ | hattends'
            · left
              rw [if_pos hattends.1, hstage] at hsent
              unfold Informed
              dsimp only
              rw [hsent, if_neg (by simp [PushStage.sent]), hall, max_eq_right h.newest_le]
            · exact .inr ⟨_, List.mem_set hlt _, hattends'⟩
          · have hset : (s.tasks.set k ⟨task.target, stage,
                task.stage.seenNext s.changes task.seen true⟩)[j]? = some task' := by
              rw [List.getElem?_set_ne (Ne.symm hjk)]
              exact hj
            exact .inr ⟨task', List.mem_of_getElem? hset, hattends⟩

/-- When no call fails and all tasks have finished, the current session has been
sent a list that has seen all changes. -/
theorem informed_of_succeeds (src : ListSources) (clientId : ℤ) (db : Db) (inputs : List PushInput)
    (t : ClientPush) (hclient : (db.clients.find clientId).isSome = true)
    (hok : ∀ i ∈ inputs, Succeeds i)
    (hrun : run (ClientPush.step src clientId) (start db) inputs = some t) (hsettled : t.Settled)
    (hcurrent : t.current.isSome = true) : t.Informed := by
  have hstart : (start db).Attended clientId :=
    ⟨hclient, bot_le, fun _ h ↦ absurd h List.not_mem_nil, fun h ↦ by cases h⟩
  have hattended : t.Attended clientId :=
    run_invariant (fun _ _ _ h hok hstep ↦ Attended.step h hok hstep) hstart
      (within_of_forall fun i hi _ ↦ hok i hi) hrun
  rcases hattended.attended hcurrent with hinformed | ⟨task, hmem, -, hdone, -⟩
  · exact hinformed
  · exact absurd (hsettled task hmem) hdone

instance (stage : PushStage) : Decidable (stage = .done) :=
  match stage with
  | .done => .isTrue rfl
  | .findClient | .findProxies _ | .findNodes _ _ | .fingerprints _ _ _ _ | .send _ => .isFalse nofun

instance (s : ClientPush) : Decidable s.Settled :=
  inferInstanceAs (Decidable (∀ task ∈ s.tasks, task.stage = .done))

/-! ## An outdated list sent last -/

/-- No settings and no certificates. -/
def plainSources : ListSources := ⟨fun _ ↦ none, fun _ ↦ none⟩

/-- Client 1 and node 5. -/
def pushDb : Db where
  users := .empty
  clients := ⟨[{ (default : Client) with id := 1 }], by simp⟩
  nodes := ⟨[{ (default : Node) with id := 5 }], by simp⟩
  proxies := .empty
  trafficDaily := .empty
  userSubscriptions := .empty

/-- Proxy 7 of client 1 on node 5. -/
def oneProxy : Table Proxy :=
  ⟨[{ (default : Proxy) with id := 7, clientId := some "1", enabled := true, nodeId := some 5 }],
    by simp⟩

def runTask (k steps : ℕ) : List PushInput := List.replicate steps (.task k true)

/-- A proxy is created and then deleted; the task of the creation reads before the
deletion and takes its last step `late` or in time. -/
def createAndDelete (late : Bool) : List PushInput :=
  [.change oneProxy] ++ runTask 1 5 ++
    if late then [.change .empty] ++ runTask 2 5 ++ runTask 1 1
    else runTask 1 1 ++ [.change .empty] ++ runTask 2 5

/-- The list with the deleted proxy is the last one placed in the queue. -/
theorem not_fresh_list_sent_late :
    ∃ t ∈ run (ClientPush.step plainSources 1) (start pushDb)
        ([.connect] ++ runTask 0 5 ++ createAndDelete true),
      t.Settled ∧ t.current.isSome = true ∧
        t.queue.getLast? ≠ buildProxyListUpdate plainSources t.db 1 := by
  decide +kernel

/-- The first call of the session's own task fails, the later ones do not. -/
theorem client_list_fresh_in_time :
    ∃ t ∈ run (ClientPush.step plainSources 1) (start pushDb)
        ([.connect, .task 0 false] ++ createAndDelete false),
      t.Settled ∧ t.queue.getLast? = buildProxyListUpdate plainSources t.db 1 := by
  obtain ⟨t, ht, hsettled, hinformed⟩ : ∃ t ∈ run (ClientPush.step plainSources 1) (start pushDb)
      ([.connect, .task 0 false] ++ createAndDelete false), t.Settled ∧ t.Informed := by
    decide +kernel
  exact ⟨t, ht, hsettled, client_list_fresh plainSources 1 pushDb _ t (by decide)
    (by decide +kernel) ht hinformed⟩

end ClientPush

end Oxiproxy.Controller
