import Oxiproxy.Controller.Rollback
import Oxiproxy.Controller.ServedProxies
import Oxiproxy.Foundation.NumberedLog
import Oxiproxy.Node.DirectRoutes

/-!
# The direct proxies of a node

Every registration of a node reads its enabled direct proxies and sends them as a
snapshot; the handlers that create, change and delete such a proxy send a command
for it to the session that is registered then.  A message is read from the database
first and placed in a queue later, and the node drains the queues of its old and
new sessions side by side.
-/

namespace Oxiproxy.Controller

open Transition NumberedLog
open Oxiproxy.Node (ControllerCommand)

/-! ## The handlers -/

section Handlers

variable (parse : UrlParser) (render : Url → String) (env : HandlerEnv) (auth : AuthUser)

def createProxyProcedure (d : Deployment) (req : CreateProxyRequest) :
    Procedure (Except ApiError Proxy) :=
  match createProxyChecks parse render env d auth req with
  | .error e => .done (.error e)
  | .ok row =>
      .call (.insert row) fun
        | .error e => .done (.error ⟨500, "Failed to create proxy: " ++ e⟩)
        | .ok proxy =>
            .call (.start (proxy.clientId.getD "") proxy.id) fun
              | .ok () => .done (.ok proxy)
              | .error e =>
                  .call (.delete proxy.id) fun _ ↦ .done (.error ⟨409, "启动代理监听器失败: " ++ e⟩)

def deleteProxyProcedure (d : Deployment) (id : ℤ) : Procedure (Except ApiError Unit) :=
  match deleteProxyChecks env d auth id with
  | .error e => .done (.error e)
  | .ok proxy =>
      .call (.stop (proxy.clientId.getD "") id) fun _ ↦
        .call (.delete id) fun
          | .ok () => .done (.ok ())
          | .error e => .done (.error ⟨500, "Failed to delete proxy: " ++ e⟩)

theorem run_createProxy (d : Deployment) (req : CreateProxyRequest) :
    (createProxyProcedure parse render env auth d req).run parse env d =
      createProxy parse render env auth d req := by
  unfold createProxyProcedure createProxy
  cases createProxyChecks parse render env d auth req with
  | error e => rfl
  | ok row =>
      simp only [Procedure.run, HandlerCall.execute]
      rcases d.insertProxy env row with ⟨d₁, _ | proxy⟩
      · rfl
      · simp only [Procedure.run, HandlerCall.execute]
        rcases d₁.startProxy parse env (proxy.clientId.getD "") proxy.id with ⟨d₂, _ | _⟩ <;> rfl

theorem run_deleteProxy (d : Deployment) (id : ℤ) :
    (deleteProxyProcedure env auth d id).run parse env d = deleteProxy env auth d id := by
  unfold deleteProxyProcedure deleteProxy
  cases deleteProxyChecks env d auth id with
  | error e => rfl
  | ok proxy =>
      simp only [Procedure.run, HandlerCall.execute]
      rcases (d.stopProxy env (proxy.clientId.getD "") id).1.deleteProxy env id with ⟨d₁, _ | _⟩ <;>
        rfl

end Handlers

/-! ## Rows and messages -/

/-- The row of an enabled direct proxy of the node. -/
def Db.direct (db : Db) (nodeId id : ℤ) : Option Proxy :=
  (db.served nodeId id).filter (·.clientId.isNone)

def Db.directRoute (db : Db) (nodeId id : ℤ) : Option ProxyConfig :=
  (db.direct nodeId id).map fun p ↦ Node.nameless p.config

/-- The rows that `send_direct_snapshot` finds. -/
def Db.directProxies (db : Db) (nodeId : ℤ) : List Proxy :=
  db.proxies.rows.filter fun p ↦ p.nodeId == some nodeId && p.clientId.isNone && p.enabled

def Db.snapshot (db : Db) (nodeId : ℤ) : Node.ControllerCommand :=
  .syncDirectProxies ((db.directProxies nodeId).map Proxy.config)

/-! ## The machine -/

/-- The stream of a session, with the numbers of the messages on their way. -/
structure NodeStream where
  queue : List ℕ
  isOpen : Bool

/-- A registration reads the snapshot and sends it to the stream registered then. -/
inductive Registration
  | query
  | send (n : ℕ)
  | done
  deriving DecidableEq

/-- Where a handler is in a command: to read the row, to look up the stream of the
node, to send message `n` to the stream of session `k`, to wait for the answer. -/
inductive CommandStage
  | ready
  | lookup (n : ℕ)
  | send (n k : ℕ)
  | wait (n : ℕ)
  deriving DecidableEq

structure Handler where
  {α : Type}
  rest : Procedure α
  stage : CommandStage

def Handler.finished (h : Handler) : Bool :=
  match h.rest, h.stage with
  | .done _, .ready => true
  | _, _ => false

theorem Handler.ready_of_finished {h : Handler} (hfinished : h.finished = true) :
    h.stage = .ready := by
  unfold finished at hfinished
  split at hfinished
  · next hstage => exact hstage
  · cases hfinished

/-- What a handler meets in a step. -/
structure CallOutcome where
  env : HandlerEnv
  /-- The error of a query for a row. -/
  failed : Option String
  answer : Except String Unit

inductive ProxyChange
  | create (req : CreateProxyRequest)
  | update (id : ℤ) (req : UpdateProxyRequest)
  | delete (id : ℤ)

structure ChangeRequest where
  env : HandlerEnv
  auth : AuthUser
  userNodes : List (ℤ × ℤ)
  change : ProxyChange

/-- One node and the database. -/
structure DirectSync where
  db : Db
  /-- The messages read from the database, in this order. -/
  log : List ControllerCommand
  /-- The proxies that have changed since a start or a snapshot was read about them. -/
  changed : List ℤ
  /-- The proxies about which a stop was the last message read. -/
  stopped : List ℤ
  sessions : List NodeStream
  current : Option ℕ
  registrations : List Registration
  handlers : List Handler
  manager : Node.ProxyListenerManager
  /-- The messages that the process of the node has executed. -/
  executed : List ℕ
  /-- The messages that it has answered with a success. -/
  answers : List ℕ

/-- Besides registrations and handlers: whatever else writes to the database, the
end of a stream of which only some messages arrive, what the commands for a
client's proxies do to the listeners, a new process of the node. -/
inductive SyncInput
  | database (db : Db)
  | register
  | registration (j : ℕ) (ok : Bool)
  | unregister (k : ℕ)
  | close (k arriving : ℕ)
  | request (r : ChangeRequest)
  | call (j : ℕ) (o : CallOutcome)
  | execute (k : ℕ)
  | client (call : Node.ManagerCall)
  | restart

/-- A deployment for the calls that only concern the database. -/
def Db.alone (db : Db) (userNodes : List (ℤ × ℤ)) : Deployment :=
  ⟨db, userNodes, fun _ ↦ none, [], []⟩

def ChangeRequest.handler (parse : UrlParser) (render : Url → String) (db : Db)
    (r : ChangeRequest) : Handler :=
  match r.change with
  | .create req =>
      ⟨createProxyProcedure parse render r.env r.auth (db.alone r.userNodes) req, .ready⟩
  | .update id req =>
      ⟨updateProxyProcedure parse render r.env r.auth (db.alone r.userNodes) id req, .ready⟩
  | .delete id => ⟨deleteProxyProcedure r.env r.auth (db.alone r.userNodes) id, .ready⟩

namespace DirectSync

variable (parse : UrlParser) (render : Url → String) (nodeId : ℤ)

/-- The proxies whose route differs in another database. -/
def changedIds (db db' : Db) : List ℤ :=
  ((db.proxies.rows ++ db'.proxies.rows).map (·.id)).filter fun id ↦
    decide (db.directRoute nodeId id ≠ db'.directRoute nodeId id)

def setDb (s : DirectSync) (db : Db) : DirectSync :=
  { s with db, changed := s.changed ++ changedIds nodeId s.db db }

/-- A message is read from the database. -/
def read (s : DirectSync) (cmd : ControllerCommand) : DirectSync :=
  { s with
    log := s.log ++ [cmd]
    changed := if cmd.isStop then s.changed else s.changed.filter (!cmd.about ·)
    stopped := if cmd.isStop then s.stopped ++ cmd.proxyIds else s.stopped.filter (!cmd.about ·) }

/-- Place a message in the queue of a session whose stream is open. -/
def post (s : DirectSync) (n k : ℕ) : Option DirectSync :=
  (s.sessions[k]?).bind fun stream ↦
    if stream.isOpen then
      some { s with sessions := s.sessions.set k { stream with queue := stream.queue ++ [n] } }
    else none

/-- The next step of a registration: `send_direct_snapshot`. -/
def registerStep (s : DirectSync) (ok : Bool) : Registration → Option (DirectSync × Registration)
  | .query =>
      if ok then some (s.read (s.db.snapshot nodeId), .send s.log.length) else some (s, .done)
  | .send n => some ((s.current.bind (s.post n)).getD s, .done)
  | .done => none

/-- The next step of `start_proxy` or `stop_proxy`; a command for another node or
for a client's proxy does not concern the direct routes. -/
def commandStep {α : Type} (s : DirectSync) (o : CallOutcome) (c : HandlerCall Unit)
    (next : Except String Unit → Procedure α) (clientId : String) (id : ℤ)
    (message : Proxy → ControllerCommand) : CommandStage → Option (DirectSync × Handler)
  | .ready =>
      match o.failed with
      | some e => some (s, ⟨next (.error e), .ready⟩)
      | none =>
          match (s.db.alone []).proxyOnNode clientId id with
          | .error e => some (s, ⟨next (.error e), .ready⟩)
          | .ok (proxy, node) =>
              if node = nodeId ∧ proxy.clientId = none then
                some (s.read (message proxy), ⟨.call c next, .lookup s.log.length⟩)
              else some (s, ⟨next o.answer, .ready⟩)
  | .lookup n =>
      match s.current with
      | none => some (s, ⟨next (.error ("节点 #" ++ toString nodeId ++ " 未连接")), .ready⟩)
      | some k => some (s, ⟨.call c next, .send n k⟩)
  | .send n k =>
      match s.post n k with
      | none => some (s, ⟨next (.error ("发送命令到节点 #" ++ toString nodeId ++ " 失败")), .ready⟩)
      | some s => some (s, ⟨.call c next, .wait n⟩)
  | .wait n =>
      if o.answer = .ok () ∧ n ∉ s.answers then none else some (s, ⟨next o.answer, .ready⟩)

/-- The next step of a handler. -/
def callStep (s : DirectSync) (o : CallOutcome) (h : Handler) : Option (DirectSync × Handler) :=
  match h.rest with
  | .done _ => none
  | .call c next =>
      match c, next with
      | .start clientId id, next =>
          s.commandStep nodeId o (.start clientId id) next clientId id
            (fun proxy ↦ .startProxy clientId id (some proxy.config)) h.stage
      | .stop clientId id, next =>
          s.commandStep nodeId o (.stop clientId id) next clientId id
            (fun _ ↦ .stopProxy clientId id) h.stage
      | c, next =>
          if h.stage = .ready then
            let (d, result) := c.execute parse o.env (s.db.alone [])
            some (s.setDb nodeId d.db, ⟨next result, .ready⟩)
          else none

/-- The node executes the next message of a session, under the lock of the direct
proxies. -/
def executeStep (s : DirectSync) (k : ℕ) : Option DirectSync :=
  match s.sessions[k]? with
  | some ⟨n :: queue, isOpen⟩ =>
      (s.log[n]?).map fun cmd ↦
        { s with
          sessions := s.sessions.set k ⟨queue, isOpen⟩
          manager := cmd.execute parse s.manager
          executed := s.executed ++ [n]
          answers := if cmd.acknowledged parse s.manager then s.answers ++ [n] else s.answers }
  | _ => none

def step (s : DirectSync) : SyncInput → Option DirectSync
  | .database db => some (s.setDb nodeId db)
  | .register =>
      some { s with
        sessions := s.sessions ++ [⟨[], true⟩]
        current := some s.sessions.length
        registrations := s.registrations ++ [.query] }
  | .registration j ok =>
      (s.registrations[j]?).bind fun r ↦
        (s.registerStep nodeId ok r).map fun (s, r) ↦
          { s with registrations := s.registrations.set j r }
  | .unregister k => some { s with current := if s.current = some k then none else s.current }
  | .close k arriving =>
      (s.sessions[k]?).map fun stream ↦
        { s with sessions := s.sessions.set k ⟨stream.queue.take arriving, false⟩ }
  | .request r => some { s with handlers := s.handlers ++ [r.handler parse render s.db] }
  | .call j o =>
      (s.handlers[j]?).bind fun h ↦
        (s.callStep parse nodeId o h).map fun (s, h) ↦ { s with handlers := s.handlers.set j h }
  | .execute k => s.executeStep parse k
  | .client call =>
      if call.ofClient then some { s with manager := call.apply parse s.manager } else none
  | .restart =>
      some { s with
        sessions := s.sessions.map fun _ ↦ ⟨[], false⟩
        manager := .new
        executed := [] }

def start (db : Db) : DirectSync := ⟨db, [], [], [], [], none, [], [], .new, [], []⟩

/-! ## What messages read -/

section Reads

variable {parse render nodeId} {db db' : Db} {id : ℤ} {p : Proxy}

theorem direct_eq_some :
    db.direct nodeId id = some p ↔
      db.proxies.find id = some p ∧ p.enabled = true ∧ p.nodeId = some nodeId ∧
        p.clientId = none := by
  rw [Db.direct, Option.filter_eq_some_iff, served_eq_some, Option.isNone_iff_eq_none]
  tauto

theorem directRoute_congr (h : db'.proxies.find id = db.proxies.find id) :
    db'.directRoute nodeId id = db.directRoute nodeId id := by
  rw [Db.directRoute, Db.directRoute, Db.direct, Db.direct, served_congr h]

/-- What a message says agrees with the database from which it is read. -/
structure Reads (nodeId : ℤ) (db : Db) (cmd : ControllerCommand) : Prop where
  direct : cmd.direct = true
  nodup : cmd.proxyIds.Nodup
  told : ∀ id, cmd.about id = true →
    cmd.told id = if cmd.isStop then none else db.directRoute nodeId id

theorem reads_snapshot (db : Db) : Reads nodeId db (db.snapshot nodeId) := by
  have hids : ((db.directProxies nodeId).map Proxy.config).map (·.proxyId) =
      (db.directProxies nodeId).map key := List.map_map
  refine ⟨rfl, ?_, fun id _ ↦ ?_⟩
  · rw [Db.snapshot, ControllerCommand.proxyIds, hids]
    exact (db.proxies.filter _).nodup
  · have hfind : (db.directProxies nodeId).find? (fun q ↦ q.id == id) = db.direct nodeId id := by
      refine (Table.find_filter db.proxies _ id).trans ?_
      rw [Db.direct, Db.served, Option.filter_filter]
      refine congrArg (Option.filter · _) (funext fun q ↦ ?_)
      cases q.enabled <;> simp
    rw [Db.snapshot, ControllerCommand.told, List.find?_map, Option.map_map]
    exact congrArg (Option.map _) hfind

theorem reads_start {clientId : String} {node : ℤ} (userNodes : List (ℤ × ℤ))
    (h : (db.alone userNodes).proxyOnNode clientId id = .ok (p, node)) (hnode : node = nodeId)
    (hdirect : p.clientId = none) :
    Reads nodeId db (.startProxy clientId id (some p.config)) := by
  obtain ⟨hfind, -, hassigned⟩ := proxyOnNode_eq_ok.mp h
  obtain rfl : p.id = id := Table.key_of_find hfind
  refine ⟨rfl, List.nodup_singleton _, fun j hj ↦ ?_⟩
  obtain ⟨hid, hcheck⟩ : p.id = j ∧ Node.checkDirectConfig p.config = .ok () := by
    rw [ControllerCommand.about, Bool.and_eq_true, beq_iff_eq, decide_eq_true_eq] at hj
    exact hj
  subst hid
  have henabled : p.enabled = true := by
    rw [Node.checkDirectConfig, ensure_eq_ok, Bool.and_eq_true] at hcheck
    exact hcheck.2
  have hrow : db.direct nodeId p.id = some p :=
    direct_eq_some.mpr ⟨hfind, henabled, hnode ▸ hassigned, hdirect⟩
  rw [Db.directRoute, hrow]
  exact if_pos rfl

theorem reads_stop {clientId : String} (hclient : clientId = "") :
    Reads nodeId db (.stopProxy clientId id) :=
  ⟨hclient ▸ rfl, List.nodup_singleton _, fun _ _ ↦ rfl⟩

end Reads

/-! ## What steps do -/

/-- The stream that is registered. -/
def stream (s : DirectSync) : Option NodeStream := s.current.bind (s.sessions[·]?)

/-- The registered stream is open. -/
def Online (s : DirectSync) : Prop := ∃ stream ∈ s.stream, stream.isOpen = true

/-- What a handler does in one step: it writes, it goes on without a command, or it
takes a command a step further. -/
inductive CallEffect (nodeId : ℤ) (s : DirectSync) :
    CommandStage → DirectSync → CommandStage → Prop
  | write (db : Db) : CallEffect nodeId s .ready (s.setDb nodeId db) .ready
  | skip : CallEffect nodeId s .ready s .ready
  | read {cmd : ControllerCommand} (h : Reads nodeId s.db cmd) :
      CallEffect nodeId s .ready (s.read cmd) (.lookup s.log.length)
  | offline {n : ℕ} (h : s.current = none) : CallEffect nodeId s (.lookup n) s .ready
  | lookup {n k : ℕ} (h : s.current = some k) : CallEffect nodeId s (.lookup n) s (.send n k)
  | sent {n k : ℕ} {s' : DirectSync} (h : s.post n k = some s') :
      CallEffect nodeId s (.send n k) s' (.wait n)
  | unsent {n k : ℕ} (h : s.post n k = none) : CallEffect nodeId s (.send n k) s .ready
  | answered {n : ℕ} : CallEffect nodeId s (.wait n) s .ready

section Effects

variable {parse render nodeId} {s s' t : DirectSync} {o : CallOutcome} {h h' : Handler}

theorem commandStep_effect {α : Type} {c : HandlerCall Unit}
    {next : Except String Unit → Procedure α} {clientId : String} {id : ℤ}
    {message : Proxy → ControllerCommand} {stage : CommandStage}
    (hmessage : ∀ p, (s.db.alone []).proxyOnNode clientId id = .ok (p, nodeId) →
      p.clientId = none → Reads nodeId s.db (message p))
    (hstep : s.commandStep nodeId o c next clientId id message stage = some (s', h')) :
    CallEffect nodeId s stage s' h'.stage := by
  cases stage with
  | ready =>
      simp only [commandStep] at hstep
      split at hstep
      · cases hstep
        exact .skip
      · split at hstep
        · cases hstep
          exact .skip
        · next proxy node hrow =>
            split_ifs at hstep with hhere
            · cases hstep
              obtain ⟨rfl, hdirect⟩ := hhere
              exact .read (hmessage proxy hrow hdirect)
            · cases hstep
              exact .skip
  | lookup n =>
      simp only [commandStep] at hstep
      split at hstep <;> cases hstep
      · next hnone => exact .offline hnone
      · next k hk => exact .lookup hk
  | send n k =>
      simp only [commandStep] at hstep
      split at hstep <;> cases hstep
      · next hnone => exact .unsent hnone
      · next hpost => exact .sent hpost
  | wait n =>
      simp only [commandStep] at hstep
      split_ifs at hstep
      cases hstep
      exact .answered

theorem callStep_effect (hstep : s.callStep parse nodeId o h = some (s', h')) :
    CallEffect nodeId s h.stage s' h'.stage := by
  obtain ⟨rest, stage⟩ := h
  cases rest with
  | done a => cases hstep
  | call c next =>
      cases c with
      | start clientId id =>
          exact commandStep_effect (fun p hp hdirect ↦ reads_start [] hp rfl hdirect) hstep
      | stop clientId id =>
          refine commandStep_effect (fun p hp hdirect ↦ reads_stop ?_) hstep
          have hclient := (proxyOnNode_eq_ok.mp hp).2.1
          rw [hdirect] at hclient
          exact hclient.symm
      | insert | update | delete =>
          simp only [callStep] at hstep
          split_ifs at hstep with hready
          cases hstep
          obtain rfl : stage = .ready := hready
          exact .write _

end Effects

end DirectSync

end Oxiproxy.Controller
