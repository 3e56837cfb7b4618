import Oxiproxy.Controller.Access
import Oxiproxy.Controller.RouteTrigger
import Oxiproxy.Node.LocalProxyControl

/-!
# Writes to the proxy table and commands to the nodes

The controller changes the rows of proxies in its database and tells the nodes to
start and stop them.  A write can be refused, by a constraint or because the
database fails; a command reaches only a node that is connected.
-/

namespace Oxiproxy.Controller

/-! ## The database -/

/-- Remove proxies, with the traffic rows that refer to them. -/
def Db.deleteProxies (db : Db) (gone : Proxy → Bool) : Db where
  users := db.users
  clients := db.clients
  nodes := db.nodes
  proxies := db.proxies.filter (!gone ·)
  trafficDaily := db.trafficDaily.filter fun daily ↦ !(db.proxies.find daily.proxyId).any gone
  userSubscriptions := db.userSubscriptions

/-- The client id of a row, as the foreign key compares it. -/
def Proxy.parsedClientId (p : Proxy) : Option ℤ := p.clientId.bind parseI64

def Db.deleteClient (db : Db) (id : ℤ) : Db :=
  let db := db.deleteProxies (·.parsedClientId == some id)
  { db with
    clients := db.clients.erase id
    trafficDaily := db.trafficDaily.filter (·.clientId != some id) }

def Db.deleteUser (db : Db) (id : ℤ) : Db :=
  let db := db.deleteProxies (·.userId == some id)
  { db with
    users := db.users.erase id
    userSubscriptions := db.userSubscriptions.filter (·.userId != id) }

/-- The `CHECK` of the proxy table: a row is bound to a client or direct. -/
def Proxy.wellFormed (p : Proxy) : Bool :=
  (p.upstreamUrl.isEmpty && p.clientId.isSome) ||
    (!p.upstreamUrl.isEmpty && p.clientId.isNone && p.userId.isSome && p.nodeId.isSome &&
      (p.proxyType == "http" || p.proxyType == "https") && p.groupId.isNone)

def checkConstraints (db : Db) (p : Proxy) : Except String Unit := do
  ensure p.wellFormed "CHECK constraint failed"
  ensure (p.clientId.isNone || p.parsedClientId.any fun id ↦ (db.clients.find id).isSome)
    "FOREIGN KEY constraint failed"
  ensure (p.userId.all fun id ↦ (db.users.find id).isSome) "FOREIGN KEY constraint failed"

/-- Where a proxy belongs: no handler changes it. -/
def Proxy.place (p : Proxy) : ℤ × Option String × Option ℤ × Option ℤ × Option String :=
  (p.id, p.clientId, p.userId, p.nodeId, p.groupId)

/-- What an active model sets in a row. -/
structure ActiveProxy where
  set : Proxy → Proxy
  setsRoute : Bool
  place_set : ∀ p, (set p).place = p.place
  routeColumns_set : setsRoute = false → ∀ p, (set p).routeColumns = p.routeColumns

theorem ActiveProxy.key_set (active : ActiveProxy) (p : Proxy) : key (active.set p) = key p :=
  congrArg Prod.fst (active.place_set p)

def ActiveProxy.update (active : ActiveProxy) (id : ℤ) : ProxyUpdate where
  filter p := p.id == id
  set := active.set
  setsRoute := active.setsRoute
  routeColumns_set := active.routeColumns_set

/-! ## Handlers at work -/

inductive ProxyWrite
  | insert (row : Proxy)
  | update (row : Proxy)
  | delete (id : ℤ)
  | deleteClient (id : ℤ)
  | deleteUser (id : ℤ)

/-- What becomes of a command that is sent to a connected node.  One that is not
answered may have been executed all the same. -/
inductive Delivery
  | undelivered
  | unanswered (executed : Option Node.Binds) (error : String)
  | answered (binds : Node.Binds)

/-- What a handler meets while it runs. -/
structure HandlerEnv where
  now : NaiveDateTime
  newUuid : String
  /-- The ids given to inserted rows; they start at one. -/
  newId : ℕ → ℤ
  newId_pos : ∀ n, 0 < newId n
  queries : QueryErrors
  writes : ProxyWrite → Option String
  delivery : ℕ → Delivery
  /-- The error of a node that fails to ask for the proxies of a client. -/
  fetch : ℕ → Option String

structure Deployment where
  db : Db
  userNodes : List (ℤ × ℤ)
  /-- The nodes that are connected. -/
  nodes : ℤ → Option Node.ProxyListenerManager
  /-- The commands sent, with the node and whether they succeeded. -/
  commands : List (ℤ × Bool)
  /-- The rows that were written: an inserted row, or a row before its change. -/
  written : List Proxy

def getClientProxiesFiltered (db : Db) (nodeId clientId : ℤ) : List ProxyConfig :=
  (db.proxies.rows.filter fun p ↦
    p.clientId == some (toString clientId) && p.enabled && p.nodeId == some nodeId).map Proxy.config

namespace Deployment

variable (parse : UrlParser) (env : HandlerEnv)

/-! ## Writes -/

def insertProxy (d : Deployment) (row : Proxy) : Deployment × Except String Proxy :=
  let row := { row with id := env.newId d.written.length }
  match env.writes (.insert row) with
  | some e => (d, .error e)
  | none =>
      match checkConstraints d.db row >>= fun () ↦
          (ProxyStatement.insert row (some (-1))).execute d.db.proxies with
      | .error e => (d, .error e)
      | .ok proxies =>
          ({ d with db := { d.db with proxies }, written := d.written ++ [row] }, .ok row)

def updateProxy (d : Deployment) (id : ℤ) (active : ActiveProxy) :
    Deployment × Except String Proxy :=
  match d.db.proxies.find id with
  | none => (d, .error "None of the records are updated")
  | some row =>
      match env.writes (.update (active.set row)) with
      | some e => (d, .error e)
      | none =>
          match checkConstraints d.db (active.set row) >>= fun () ↦
              (ProxyStatement.update (active.update id)).execute d.db.proxies with
          | .error e => (d, .error e)
          | .ok proxies =>
              ({ d with db := { d.db with proxies }, written := d.written ++ [row] },
                .ok (active.set row))

def deleteProxy (d : Deployment) (id : ℤ) : Deployment × Except String Unit :=
  match env.writes (.delete id) with
  | some e => (d, .error e)
  | none =>
      ({ d with
          db := d.db.deleteProxies (·.id == id)
          written := d.written ++ (d.db.proxies.find id).toList },
        .ok ())

/-! ## Commands -/

/-- The proxy and its node. -/
def proxyOnNode (d : Deployment) (clientId : String) (proxyId : ℤ) :
    Except String (Proxy × ℤ) :=
  match d.db.proxies.find proxyId with
  | none => .error ("代理 #" ++ toString proxyId ++ " 不存在")
  | some proxy => do
      ensure (proxy.clientId.getD "" == clientId) "代理与 Client 不匹配"
      match proxy.nodeId with
      | none => .error "代理未关联节点"
      | some nodeId => return (proxy, nodeId)

/-- Send a command to a node; it changes the listeners of the node and answers
with a success or an error. -/
def sendCommandAndWait (d : Deployment) (nodeId : ℤ)
    (execute : Node.Binds → Node.ProxyListenerManager →
      Node.ProxyListenerManager × Except String Unit) :
    Deployment × Except String (Except String Unit) :=
  let sent (m : Node.ProxyListenerManager) (success : Bool) : Deployment :=
    { d with
      nodes := Function.update d.nodes nodeId (some m)
      commands := d.commands ++ [(nodeId, success)] }
  match d.nodes nodeId with
  | none => (d, .error ("节点 #" ++ toString nodeId ++ " 未连接"))
  | some m =>
      match env.delivery d.commands.length with
      | .undelivered => (sent m false, .error ("发送命令到节点 #" ++ toString nodeId ++ " 失败"))
      | .unanswered none e => (sent m false, .error e)
      | .unanswered (some binds) e => (sent (execute binds m).1 false, .error e)
      | .answered binds =>
          let (m, result) := execute binds m
          (sent m result.toBool, .ok result)

/-- A direct proxy is started with its configuration, that of a client's proxy is
fetched by the node. -/
def startCommand (db : Db) (fetch : Option String) (proxy : Proxy) (nodeId : ℤ) (clientId : String)
    (binds : Node.Binds) (m : Node.ProxyListenerManager) :
    Node.ProxyListenerManager × Except String Unit :=
  match proxy.clientId with
  | none => Node.startDirectProxy parse binds m proxy.config
  | some _ =>
      Node.startProxy parse binds
        (fun clientIdNum ↦ fetch.elim (.ok (getClientProxiesFiltered db nodeId clientIdNum)) .error)
        m clientId proxy.id

def startProxy (d : Deployment) (clientId : String) (proxyId : ℤ) :
    Deployment × Except String Unit :=
  match d.proxyOnNode clientId proxyId with
  | .error e => (d, .error e)
  | .ok (proxy, nodeId) =>
      match d.sendCommandAndWait env nodeId
          (startCommand parse d.db (env.fetch d.commands.length) proxy nodeId clientId) with
      | (d, .error e) => (d, .error e)
      | (d, .ok (.ok ())) => (d, .ok ())
      | (d, .ok (.error e)) => (d, .error ("启动代理失败: " ++ e))

def stopProxy (d : Deployment) (clientId : String) (proxyId : ℤ) :
    Deployment × Except String Unit :=
  match d.proxyOnNode clientId proxyId with
  | .error e => (d, .error e)
  | .ok (_, nodeId) =>
      match d.sendCommandAndWait env nodeId fun _ m ↦ (m.stopSingleProxy clientId proxyId, .ok ()) with
      | (d, .error e) => (d, .error e)
      | (d, .ok (.ok ())) => (d, .ok ())
      | (d, .ok (.error e)) => (d, .error ("停止代理失败: " ++ e))

/-! ## What writes and commands do -/

section Cases

variable {parse : UrlParser} {env : HandlerEnv} {d d' : Deployment}

theorem insertProxy_cases {row : Proxy} {result : Except String Proxy}
    (h : d.insertProxy env row = (d', result)) :
    (∃ e, result = .error e ∧ d' = d) ∨
      ∃ proxy, proxy = { row with id := env.newId d.written.length } ∧ result = .ok proxy ∧
        checkConstraints d.db proxy = .ok () ∧ routeTrigger d.db.proxies (-1) proxy = false ∧
        ∃ hfresh : key proxy ∉ d.db.proxies.rows.map key,
          d' = { d with
            db := { d.db with proxies := d.db.proxies.insert proxy hfresh }
            written := d.written ++ [proxy] } := by
  simp only [insertProxy, ProxyStatement.execute, Option.getD_some] at h
  generalize hproxy : ({ row with id := env.newId d.written.length } : Proxy) = proxy at h
  split at h
  · cases h
    exact .inl ⟨_, rfl, rfl⟩
  · split at h
    · cases h
      exact .inl ⟨_, rfl, rfl⟩
    · rename_i proxies hproxies
      cases h
      obtain ⟨u, hconstraints, hexecute⟩ := bind_eq_ok.mp hproxies
      split_ifs at hexecute with htrigger hfresh
      cases hexecute
      exact .inr ⟨_, rfl, rfl, hconstraints, Bool.eq_false_of_not_eq_true htrigger, hfresh, rfl⟩

theorem updateProxy_cases {id : ℤ} {active : ActiveProxy} {result : Except String Proxy}
    (h : d.updateProxy env id active = (d', result)) :
    (∃ e, result = .error e ∧ d' = d) ∨
      ∃ row, d.db.proxies.find id = some row ∧ result = .ok (active.set row) ∧
        (active.setsRoute && routeTrigger d.db.proxies id (active.set row)) = false ∧
        d' = { d with
          db := { d.db with
            proxies := d.db.proxies.modify id active.set active.key_set }
          written := d.written ++ [row] } := by
  unfold updateProxy at h
  split at h
  · cases h
    exact .inl ⟨_, rfl, rfl⟩
  · rename_i row hrow
    split at h
    · cases h
      exact .inl ⟨_, rfl, rfl⟩
    · split at h
      · cases h
        exact .inl ⟨_, rfl, rfl⟩
      · rename_i proxies hproxies
        cases h
        obtain ⟨u, -, hexecute⟩ := bind_eq_ok.mp hproxies
        have hfilter : (d.db.proxies.rows.filter fun p ↦ p.id == id) = [row] := by
          have hkey := Table.rows_filter_key d.db.proxies id
          rw [hrow] at hkey
          exact hkey
        have hids : (active.update id).ids d.db.proxies = [id] := by
          rw [ProxyUpdate.ids, ActiveProxy.update, hfilter]
          exact congrArg (fun k ↦ [k]) (Table.key_of_find hrow)
        rw [ProxyStatement.execute, hids, updateRows, hrow] at hexecute
        simp only [updateRows] at hexecute
        split_ifs at hexecute with htrigger hid
        cases hexecute
        have hsame : (active.set row).id = id := (active.key_set row).trans (Table.key_of_find hrow)
        have htrigger := Bool.eq_false_of_not_eq_true htrigger
        change (active.setsRoute && routeTrigger d.db.proxies (active.set row).id (active.set row)) =
          false at htrigger
        rw [hsame] at htrigger
        refine .inr ⟨row, hrow, rfl, htrigger, ?_⟩
        rw [← Table.replace_eq_modify hrow active.set active.key_set hid]
        rfl

theorem deleteProxy_cases {id : ℤ} {result : Except String Unit}
    (h : d.deleteProxy env id = (d', result)) :
    (∃ e, env.writes (.delete id) = some e ∧ result = .error e ∧ d' = d) ∨
      result = .ok () ∧ d' = { d with
        db := d.db.deleteProxies (·.id == id)
        written := d.written ++ (d.db.proxies.find id).toList } := by
  unfold deleteProxy at h
  split at h
  · rename_i e he
    cases h
    exact .inl ⟨e, he, rfl, rfl⟩
  · cases h
    exact .inr ⟨rfl, rfl⟩

/-- Everything but the listeners of the nodes and the record of commands. -/
structure SameData (d d' : Deployment) : Prop where
  db : d'.db = d.db
  userNodes : d'.userNodes = d.userNodes
  written : d'.written = d.written

theorem SameData.rfl : SameData d d := ⟨Eq.refl _, Eq.refl _, Eq.refl _⟩

theorem sendCommandAndWait_sameData {nodeId : ℤ} {execute} {result}
    (h : d.sendCommandAndWait env nodeId execute = (d', result)) : SameData d d' := by
  simp only [sendCommandAndWait] at h
  split at h
  · cases h
    exact .rfl
  · split at h <;> cases h <;> exact ⟨rfl, rfl, rfl⟩

theorem startProxy_sameData {clientId : String} {proxyId : ℤ} {result : Except String Unit}
    (h : d.startProxy parse env clientId proxyId = (d', result)) : SameData d d' := by
  unfold startProxy at h
  split at h
  · cases h
    exact .rfl
  · split at h <;> rename_i hsend <;> cases h <;> exact sendCommandAndWait_sameData hsend

theorem stopProxy_sameData {clientId : String} {proxyId : ℤ} {result : Except String Unit}
    (h : d.stopProxy env clientId proxyId = (d', result)) : SameData d d' := by
  unfold stopProxy at h
  split at h
  · cases h
    exact .rfl
  · split at h <;> rename_i hsend <;> cases h <;> exact sendCommandAndWait_sameData hsend

end Cases

end Deployment

end Oxiproxy.Controller
