import Oxiproxy.Controller.PortLimiter
import Oxiproxy.Controller.ProxyCommands

/-!
# Requests that change proxies

The handlers that create, change and delete proxies, alone and in groups, and
those that delete clients and users.  Each first checks the request and then
writes rows and sends commands, going on after some errors and rolling back
after others.  The notifications of clients at their ends are left out.
-/

namespace Oxiproxy.Controller

structure CreateProxyRequest where
  clientId : Option String
  upstreamUrl : String
  name : String
  proxyType : String
  domain : String
  localIp : String
  localPort : UInt16
  remotePort : UInt16
  nodeId : Option ℤ

structure UpdateProxyRequest where
  name : Option String
  proxyType : Option String
  domain : Option String
  upstreamUrl : Option String
  localIp : Option String
  localPort : Option UInt16
  remotePort : Option UInt16
  enabled : Option Bool

structure BatchCreateProxyRequest where
  clientId : String
  name : String
  proxyType : String
  localIp : String
  localPorts : List UInt16
  remotePorts : List UInt16
  nodeId : Option ℤ

structure UpdateGroupRequest where
  name : Option String
  proxyType : Option String
  localIp : Option String
  localPort : Option UInt16

structure AddPortsToGroupRequest where
  localPorts : List UInt16
  remotePorts : List UInt16

/-! ## Checks -/

def badRequest {α : Type} : Except String α → Except ApiError α
  | .ok a => .ok a
  | .error e => .error ⟨400, e⟩

section Checks

variable (parse : UrlParser) (render : Url → String) (env : HandlerEnv) (d : Deployment)
  (auth : AuthUser)

def checkUserLimit (userId : ℤ) (port : UInt16) (label : String) : Except ApiError Unit := do
  env.queries.check (.userLimit port) label
  let verdict := validateUserPortLimit d.db userId port
  require verdict.1 403 verdict.2

def checkNodeLimit (nodeId : ℤ) (port : UInt16) (exclude : ℤ) (label : String) :
    Except ApiError Unit := do
  env.queries.check (.nodeLimit port) label
  match validateNodeProxyLimitExcluding d.db nodeId port exclude with
  | .ok () => return ()
  | .error refusal => .error ⟨403, refusal.message⟩

def checkRoute (nodeId : Option ℤ) (port : UInt16) (kind domain : String) (exclude : ℤ) :
    Except ApiError Unit := do
  env.queries.check (.route port) ""
  match d.db.proxies.rows.find? fun other ↦
      other.remotePort == port && other.enabled && other.id != exclude && other.nodeId == nodeId &&
        routesConflict kind domain other.proxyType other.domain with
  | none => return ()
  | some other =>
      .error ⟨409, "端口 " ++ toString port ++ " 的协议或域名与代理「" ++ other.name ++ "」冲突"⟩

/-- A dedicated node must be assigned to the user; `owned` is checked before. -/
def checkNodeAccess (nodeId : ℤ) (owned : Except ApiError Unit) : Except ApiError Unit := do
  env.queries.check .node "查询节点失败: "
  let node ← okOr 404 "节点不存在" (d.db.nodes.find nodeId)
  onlyIf (node.nodeType == "dedicated" && !auth.isAdmin) do
    owned
    env.queries.check .userNode "检查节点权限失败: "
    require (d.userNodes.contains (auth.id, nodeId)) 403 "此独享节点未分配给您，无法使用"

/-- The upstream of a request for a direct proxy. -/
def createUpstream (req : CreateProxyRequest) : Except ApiError String :=
  if req.upstreamUrl.isEmpty then .ok ""
  else do
    require (!(req.clientId.any (!·.isEmpty) || req.nodeId.isNone)) 400
      "公网直连需选择节点，且不能绑定 Client"
    let url ← badRequest (parseUpstream parse req.proxyType req.upstreamUrl)
    return render url

/-- The client of any other request. -/
def createClient (req : CreateProxyRequest) : Except ApiError (Option Client) :=
  if !req.upstreamUrl.isEmpty then .ok none
  else do
    let clientId ← okOr 400 "请选择有效的 Client 或填写公网直连目标" (parseI64 (req.clientId.getD ""))
    env.queries.check .client ""
    let client ← okOr 404 "客户端不存在" (d.db.clients.find clientId)
    return some client

/-- The row to be inserted, when the request may create it. -/
def createProxyChecks (req : CreateProxyRequest) : Except ApiError Proxy := do
  let direct := !req.upstreamUrl.isEmpty
  let upstreamUrl ← createUpstream parse render req
  let client ← createClient env d req
  onlyIf (!auth.isAdmin) do
    require (client.all (·.userId == some auth.id)) 403 "无权访问此客户端"
    checkUserLimit env d auth.id req.remotePort ""
  ifSome req.nodeId (checkNodeAccess env d auth · (.ok ()))
  ifSome req.nodeId (checkNodeLimit env d · req.remotePort 0 "验证节点限制失败: ")
  let domain ← badRequest (validateRoute req.proxyType req.domain)
  require (!(req.remotePort == 0 || (!direct && req.localPort == 0))) 400 "端口不能为 0"
  checkRoute env d req.nodeId req.remotePort req.proxyType domain 0
  return {
    id := 0
    clientId := if direct then none else req.clientId
    userId := if direct then some auth.id else none
    upstreamUrl := upstreamUrl
    name := req.name
    proxyType := req.proxyType
    domain := domain
    localIp := req.localIp
    localPort := req.localPort
    remotePort := req.remotePort
    enabled := true
    nodeId := req.nodeId
    groupId := none
    totalBytesSent := 0
    totalBytesReceived := 0
    createdAt := env.now
    updatedAt := env.now }

/-- The checks that only direct proxies undergo. -/
def checkDirectUpdate (proxy : Proxy) (req : UpdateProxyRequest) (newPort : UInt16) :
    Except ApiError Unit := do
  onlyIf (!auth.isAdmin && newPort != proxy.remotePort) do
    env.queries.check (.userLimit newPort) ""
    let user ← okOr 500 "用户不存在" (d.db.users.find auth.id)
    require ((user.allowedPortRange.filter (!·.isEmpty)).all fun range ↦
      (parsePortRanges range).toOption.any (isPortInRanges newPort)) 403 "节点端口不在用户允许的范围内"
  onlyIf (!proxy.enabled && req.enabled == some true)
    (checkNodeLimit env d (proxy.nodeId.getD 0) newPort proxy.id "")

/-- A proxy that may be updated, with its new upstream and domain. -/
structure UpdatePlan where
  original : Proxy
  upstreamUrl : String
  domain : String

def updateUpstream (proxy : Proxy) (newKind rawUpstream : String) : Except ApiError String :=
  if proxy.clientId.isNone then do
    let url ← badRequest (parseUpstream parse newKind rawUpstream)
    return render url
  else do
    require rawUpstream.isEmpty 400 "请新建公网直连代理，不能将 Client 代理直接转换"
    return ""

def updateProxyChecks (id : ℤ) (req : UpdateProxyRequest) : Except ApiError UpdatePlan := do
  env.queries.check .proxy "Failed to get proxy: "
  let proxy ← okOr 404 "Proxy not found" (d.db.proxies.find id)
  verifyProxyOwnership env.queries d.db auth proxy
  let newKind := req.proxyType.getD proxy.proxyType
  let domain ← badRequest (validateRoute newKind (req.domain.getD proxy.domain))
  require (!(proxy.groupId.isSome && (newKind == "http" || newKind == "https"))) 400
    "域名代理请单独创建，不支持代理组"
  let upstreamUrl ← updateUpstream parse render proxy newKind
    (req.upstreamUrl.getD proxy.upstreamUrl)
  let newPort := req.remotePort.getD proxy.remotePort
  require (!(newPort == 0 || (proxy.clientId.isSome && req.localPort.getD proxy.localPort == 0))) 400
    "端口不能为 0"
  onlyIf proxy.clientId.isNone (checkDirectUpdate env d auth proxy req newPort)
  onlyIf (req.enabled.getD proxy.enabled)
    (checkRoute env d proxy.nodeId newPort newKind domain proxy.id)
  onlyIf (newPort != proxy.remotePort)
    (ifSome proxy.nodeId (checkNodeLimit env d · newPort proxy.id "验证节点限制失败: "))
  return ⟨proxy, upstreamUrl, domain⟩

def deleteProxyChecks (id : ℤ) : Except ApiError Proxy := do
  env.queries.check .proxy "Failed to get proxy: "
  let proxy ← okOr 404 "Proxy not found" (d.db.proxies.find id)
  verifyProxyOwnership env.queries d.db auth proxy
  return proxy

def checkPortLists (localPorts remotePorts : List UInt16) : Except ApiError Unit := do
  require (!remotePorts.isEmpty) 400 "远程端口列表不能为空"
  require (localPorts.length == 1 || localPorts.length == remotePorts.length) 400
    ("本地端口数量（" ++ toString localPorts.length ++ "）必须为 1 或与远程端口数量（" ++
      toString remotePorts.length ++ "）一致")

/-- The client that several ports are created for. -/
def portsClient (clientId : String) : Except ApiError Client := do
  let parsedClientId ← okOr 400 ("无效的客户端 ID: " ++ clientId) (parseI64 clientId)
  env.queries.check .client "查询客户端失败: "
  okOr 404 "客户端不存在" (d.db.clients.find parsedClientId)

/-- The limit of the client's user, checked for one port after the other. -/
def checkUserLimits (client : Client) (remotePorts : List UInt16) : Except ApiError Unit :=
  if auth.isAdmin then .ok ()
  else
    match client.userId with
    | none => .ok ()
    | some userId => remotePorts.forM fun port ↦ checkUserLimit env d userId port "验证端口限制失败: "

def checkPortFree (nodeId : Option ℤ) (port : UInt16) : Except ApiError Unit := do
  env.queries.check (.route port) "检查端口占用失败: "
  match d.db.proxies.rows.find? fun other ↦
      other.remotePort == port && other.enabled && other.nodeId == nodeId with
  | none => return ()
  | some existing =>
      .error ⟨409, "远程端口 " ++ toString port ++ " 已被代理「" ++ existing.name ++ "」占用"⟩

def checkPorts (nodeId : Option ℤ) (remotePorts : List UInt16) : Except ApiError Unit :=
  remotePorts.forM fun port ↦ do
    ifSome nodeId (checkNodeLimit env d · port 0 "验证节点限制失败: ")
    checkPortFree env d nodeId port

def batchCreateChecks (req : BatchCreateProxyRequest) : Except ApiError Unit := do
  require (req.proxyType == "tcp" || req.proxyType == "udp") 400
    "批量代理仅支持 TCP/UDP；域名代理请单独创建"
  checkPortLists req.localPorts req.remotePorts
  let client ← portsClient env d req.clientId
  checkUserLimits env d auth client req.remotePorts
  ifSome req.nodeId (checkNodeAccess env d auth ·
    (require (client.userId == some auth.id) 403 "无权访问此客户端"))
  checkPorts env d req.nodeId req.remotePorts

def addPortsChecks (groupId : String) (req : AddPortsToGroupRequest) : Except ApiError Proxy := do
  checkPortLists req.localPorts req.remotePorts
  let (template, _) ← verifyProxyGroupOwnership env.queries d.db auth groupId
  let client ← portsClient env d (template.clientId.getD "")
  checkUserLimits env d auth client req.remotePorts
  checkPorts env d template.nodeId req.remotePorts
  return template

end Checks

/-! ## Rows -/

def localPortAt (localPorts : List UInt16) (i : ℕ) : UInt16 :=
  localPorts.getD (if localPorts.length = 1 then 0 else i) 0

/-- A row for one of several ports of a client. -/
def portRow (env : HandlerEnv) (clientId proxyType localIp : String) (nodeId : Option ℤ)
    (groupId : Option String) (name : String) (localPort remotePort : UInt16) : Proxy where
  id := 0
  clientId := some clientId
  userId := none
  upstreamUrl := ""
  name := name
  proxyType := proxyType
  domain := ""
  localIp := localIp
  localPort := localPort
  remotePort := remotePort
  enabled := true
  nodeId := nodeId
  groupId := groupId
  totalBytesSent := 0
  totalBytesReceived := 0
  createdAt := env.now
  updatedAt := env.now

def batchRows (env : HandlerEnv) (req : BatchCreateProxyRequest) : List Proxy :=
  let one := req.remotePorts.length = 1
  req.remotePorts.zipIdx.map fun (remotePort, i) ↦
    portRow env req.clientId req.proxyType req.localIp req.nodeId
      (if one then none else some env.newUuid)
      (if one then req.name else req.name ++ "-" ++ toString remotePort)
      (localPortAt req.localPorts i) remotePort

/-- The name without a port at its end. -/
def baseName (name : String) : String :=
  match name.toList.reverse.span (· != '-') with
  | (suffix, _ :: base) => if suffix.all Char.isDigit then String.ofList base.reverse else name
  | (_, []) => name

def addedRows (env : HandlerEnv) (groupId : String) (template : Proxy)
    (req : AddPortsToGroupRequest) : List Proxy :=
  req.remotePorts.zipIdx.map fun (remotePort, i) ↦
    portRow env (template.clientId.getD "") template.proxyType template.localIp template.nodeId
      (some groupId) (baseName template.name ++ "-" ++ toString remotePort)
      (localPortAt req.localPorts i) remotePort

/-- The update of one proxy. -/
def UpdatePlan.active (plan : UpdatePlan) (req : UpdateProxyRequest) (now : NaiveDateTime) :
    ActiveProxy where
  set p := { p with
    upstreamUrl := plan.upstreamUrl
    domain := plan.domain
    name := req.name.getD p.name
    proxyType := req.proxyType.getD p.proxyType
    localIp := req.localIp.getD p.localIp
    localPort := req.localPort.getD p.localPort
    remotePort := req.remotePort.getD p.remotePort
    enabled := req.enabled.getD p.enabled
    updatedAt := now }
  setsRoute := true
  place_set _ := rfl
  routeColumns_set := nofun

def UpdatePlan.configChanged (plan : UpdatePlan) (req : UpdateProxyRequest) : Bool :=
  plan.domain != plan.original.domain || plan.upstreamUrl != plan.original.upstreamUrl ||
    req.proxyType.any (· != plan.original.proxyType) || req.localIp.any (· != plan.original.localIp) ||
    req.localPort.any (· != plan.original.localPort) ||
    req.remotePort.any (· != plan.original.remotePort)

/-- The configuration a proxy had before, with its counters left alone. -/
def restore (original : Proxy) (now : NaiveDateTime) : ActiveProxy where
  set p := { p with
    name := original.name
    proxyType := original.proxyType
    domain := original.domain
    upstreamUrl := original.upstreamUrl
    localIp := original.localIp
    localPort := original.localPort
    remotePort := original.remotePort
    enabled := original.enabled
    updatedAt := now }
  setsRoute := true
  place_set _ := rfl
  routeColumns_set := nofun

def setEnabled (enabled : Bool) (now : NaiveDateTime) : ActiveProxy where
  set p := { p with enabled := enabled, updatedAt := now }
  setsRoute := true
  place_set _ := rfl
  routeColumns_set := nofun

namespace UpdateGroupRequest

def changes (req : UpdateGroupRequest) : Bool :=
  req.name.isSome || req.proxyType.isSome || req.localIp.isSome || req.localPort.isSome

def configChanged (req : UpdateGroupRequest) (p : Proxy) : Bool :=
  req.proxyType.any (· != p.proxyType) || req.localIp.any (· != p.localIp) ||
    req.localPort.any (· != p.localPort)

/-- The update of one proxy of a group; names keep the port at their end. -/
def active (req : UpdateGroupRequest) (single : Bool) (now : NaiveDateTime) : ActiveProxy where
  set p := { p with
    name := req.name.elim p.name fun name ↦
      if single then name else name ++ "-" ++ toString p.remotePort
    proxyType := req.proxyType.getD p.proxyType
    localIp := req.localIp.getD p.localIp
    localPort := req.localPort.getD p.localPort
    updatedAt := now }
  setsRoute := req.proxyType.isSome
  place_set _ := rfl
  routeColumns_set h p := by
    have hkind : req.proxyType = none := by simpa using h
    simp only [hkind, Option.getD_none]
    rfl

end UpdateGroupRequest

/-! ## Handlers -/

section Handlers

variable (parse : UrlParser) (render : Url → String) (env : HandlerEnv) (auth : AuthUser)

def createProxy (d : Deployment) (req : CreateProxyRequest) : Deployment × Except ApiError Proxy :=
  match createProxyChecks parse render env d auth req with
  | .error e => (d, .error e)
  | .ok row =>
      match d.insertProxy env row with
      | (d, .error e) => (d, .error ⟨500, "Failed to create proxy: " ++ e⟩)
      | (d, .ok proxy) =>
          match d.startProxy parse env (proxy.clientId.getD "") proxy.id with
          | (d, .ok ()) => (d, .ok proxy)
          | (d, .error e) =>
              ((d.deleteProxy env proxy.id).1, .error ⟨409, "启动代理监听器失败: " ++ e⟩)

/-- Put the old configuration back and, if it was enabled, start it again. -/
def revertUpdate (d : Deployment) (clientId : String) (original : Proxy) : Deployment :=
  match d.updateProxy env original.id (restore original env.now) with
  | (d, .error _) => d
  | (d, .ok _) =>
      if original.enabled then (d.startProxy parse env clientId original.id).1 else d

def restartUpdated (d : Deployment) (clientId : String) (original updated : Proxy) :
    Deployment × Except ApiError Proxy :=
  let d := (d.stopProxy env clientId updated.id).1
  if updated.enabled then
    match d.startProxy parse env clientId updated.id with
    | (d, .ok ()) => (d, .ok updated)
    | (d, .error e) =>
        (revertUpdate parse env d clientId original, .error ⟨409, "启动代理监听器失败: " ++ e⟩)
  else (d, .ok updated)

def updateProxy (d : Deployment) (id : ℤ) (req : UpdateProxyRequest) :
    Deployment × Except ApiError Proxy :=
  match updateProxyChecks parse render env d auth id req with
  | .error e => (d, .error e)
  | .ok plan =>
      match d.updateProxy env id (plan.active req env.now) with
      | (d, .error e) => (d, .error ⟨500, "Failed to update proxy: " ++ e⟩)
      | (d, .ok updated) =>
          let enabledChanged := req.enabled.any (plan.original.enabled != ·)
          if enabledChanged || (plan.configChanged req && updated.enabled) then
            restartUpdated parse env d (plan.original.clientId.getD "") plan.original updated
          else (d, .ok updated)

/-- A listener that does not stop does not keep its proxy. -/
def deleteProxy (d : Deployment) (id : ℤ) : Deployment × Except ApiError Unit :=
  match deleteProxyChecks env d auth id with
  | .error e => (d, .error e)
  | .ok proxy =>
      match ((d.stopProxy env (proxy.clientId.getD "") id).1).deleteProxy env id with
      | (d, .ok ()) => (d, .ok ())
      | (d, .error e) => (d, .error ⟨500, "Failed to delete proxy: " ++ e⟩)

/-- Stop and delete proxies, whatever fails. -/
def deleteEach (clientId : String) : Deployment → List Proxy → Deployment
  | d, [] => d
  | d, p :: ps =>
      deleteEach clientId ((d.stopProxy env clientId p.id).1.deleteProxy env p.id).1 ps

/-- Insert and start one row after the other; the first error removes all that
were created. -/
def createEach (clientId startError : String) :
    Deployment → List Proxy → List Proxy → Deployment × Except ApiError (List Proxy)
  | d, created, [] => (d, .ok created)
  | d, created, row :: rows =>
      match d.insertProxy env row with
      | (d, .error e) => (deleteEach env clientId d created, .error ⟨500, "创建代理失败: " ++ e⟩)
      | (d, .ok proxy) =>
          match d.startProxy parse env clientId proxy.id with
          | (d, .ok ()) => createEach clientId startError d (created ++ [proxy]) rows
          | (d, .error e) =>
              (((deleteEach env clientId d created).deleteProxy env proxy.id).1,
                .error ⟨409, "端口 " ++ toString row.remotePort ++ startError ++ e⟩)

def batchCreateProxies (d : Deployment) (req : BatchCreateProxyRequest) :
    Deployment × Except ApiError (List Proxy) :=
  match batchCreateChecks env d auth req with
  | .error e => (d, .error e)
  | .ok () => createEach parse env req.clientId " 启动代理监听器失败: " d [] (batchRows env req)

def addPortsToProxyGroup (d : Deployment) (groupId : String) (req : AddPortsToGroupRequest) :
    Deployment × Except ApiError (List Proxy) :=
  match addPortsChecks env d auth groupId req with
  | .error e => (d, .error e)
  | .ok template =>
      createEach parse env (template.clientId.getD "") " 启动监听器失败: " d []
        (addedRows env groupId template req)

def toggleEach (clientId : String) (enabled : Bool) : Deployment → List Proxy → Deployment
  | d, [] => d
  | d, p :: ps =>
      if p.enabled == enabled then toggleEach clientId enabled d ps
      else
        match d.updateProxy env p.id (setEnabled enabled env.now) with
        | (d, .error _) => toggleEach clientId enabled d ps
        | (d, .ok _) =>
            if enabled then toggleEach clientId enabled (d.startProxy parse env clientId p.id).1 ps
            else toggleEach clientId enabled (d.stopProxy env clientId p.id).1 ps

def toggleProxyGroup (d : Deployment) (groupId : String) (enabled : Bool) :
    Deployment × Except ApiError Unit :=
  match verifyProxyGroupOwnership env.queries d.db auth groupId with
  | .error e => (d, .error e)
  | .ok (first, rest) =>
      (toggleEach parse env (first.clientId.getD "") enabled d (first :: rest), .ok ())

def deleteProxyGroup (d : Deployment) (groupId : String) : Deployment × Except ApiError Unit :=
  match verifyProxyGroupOwnership env.queries d.db auth groupId with
  | .error e => (d, .error e)
  | .ok (first, rest) => (deleteEach env (first.clientId.getD "") d (first :: rest), .ok ())

def updateEach (req : UpdateGroupRequest) (single : Bool) : Deployment → List Proxy → Deployment
  | d, [] => d
  | d, p :: ps =>
      updateEach req single
        (if req.changes then (d.updateProxy env p.id (req.active single env.now)).1 else d) ps

/-- Restart the listeners of the proxies that are enabled. -/
def restartEach (clientId : String) : Deployment → List Proxy → Deployment
  | d, [] => d
  | d, p :: ps =>
      restartEach clientId
        (if p.enabled then ((d.stopProxy env clientId p.id).1.startProxy parse env clientId p.id).1
        else d) ps

def updateProxyGroup (d : Deployment) (groupId : String) (req : UpdateGroupRequest) :
    Deployment × Except ApiError Unit :=
  match require (req.proxyType.all fun kind ↦ kind == "tcp" || kind == "udp") 400
      "代理组仅支持 TCP/UDP" >>= fun () ↦
        verifyProxyGroupOwnership env.queries d.db auth groupId with
  | .error e => (d, .error e)
  | .ok (first, rest) =>
      let proxies := first :: rest
      let d := updateEach env req rest.isEmpty d proxies
      if proxies.any req.configChanged then
        (restartEach parse env (first.clientId.getD "") d proxies, .ok ())
      else (d, .ok ())

def deleteClient (d : Deployment) (id : ℤ) : Deployment × Except ApiError Unit :=
  match verifyClientOwnership env.queries d.db auth id with
  | .error e => (d, .error e)
  | .ok _ =>
      match env.writes (.deleteClient id) with
      | some e => (d, .error ⟨500, "Failed to delete client: " ++ e⟩)
      | none => ({ d with db := d.db.deleteClient id }, .ok ())

def stopEach (clientId : String) : Deployment → List Proxy → Deployment
  | d, [] => d
  | d, p :: ps => stopEach clientId (d.stopProxy env clientId p.id).1 ps

def deleteUserChecks (d : Deployment) (id : ℤ) : Except ApiError (List Proxy) := do
  require auth.isAdmin 403 "需要管理员权限"
  env.queries.check .directProxies ""
  return d.db.proxies.rows.filter fun p ↦ p.clientId.isNone && p.userId == some id

/-- The listeners of direct proxies are stopped; those of clients are not
affected by the deletion of a user. -/
def deleteUser (d : Deployment) (id : ℤ) : Deployment × Except ApiError Unit :=
  match deleteUserChecks env auth d id with
  | .error e => (d, .error e)
  | .ok directProxies =>
      let d := stopEach env "" d directProxies
      match env.writes (.deleteUser id) with
      | some e => (d, .error ⟨500, "Failed to delete user: " ++ e⟩)
      | none =>
          ({ d with
              db := d.db.deleteUser id
              userNodes := d.userNodes.filter (·.1 != id) },
            .ok ())

end Handlers

/-! ## Requests -/

inductive ProxyRequest
  | create (req : CreateProxyRequest)
  | batchCreate (req : BatchCreateProxyRequest)
  | update (id : ℤ) (req : UpdateProxyRequest)
  | delete (id : ℤ)
  | toggleGroup (groupId : String) (enabled : Bool)
  | deleteGroup (groupId : String)
  | updateGroup (groupId : String) (req : UpdateGroupRequest)
  | addPorts (groupId : String) (req : AddPortsToGroupRequest)

inductive Request
  | proxy (request : ProxyRequest)
  | deleteClient (id : ℤ)
  | deleteUser (id : ℤ)

/-- The answer to a request without a user. -/
def Request.unauthenticated : Request → String
  | .proxy (.create _) | .proxy (.batchCreate _) | .proxy (.addPorts _ _) => "未认证"
  | _ => "Not authenticated"

/-- Leave the data of a response out. -/
def answer {α : Type} (response : Deployment × Except ApiError α) :
    Deployment × Except ApiError Unit :=
  (response.1, response.2.map fun _ ↦ ())

def handleProxy (parse : UrlParser) (render : Url → String) (env : HandlerEnv) (auth : AuthUser)
    (d : Deployment) : ProxyRequest → Deployment × Except ApiError Unit
  | .create req => answer (createProxy parse render env auth d req)
  | .batchCreate req => answer (batchCreateProxies parse env auth d req)
  | .update id req => answer (updateProxy parse render env auth d id req)
  | .delete id => deleteProxy env auth d id
  | .toggleGroup groupId enabled => toggleProxyGroup parse env auth d groupId enabled
  | .deleteGroup groupId => deleteProxyGroup env auth d groupId
  | .updateGroup groupId req => updateProxyGroup parse env auth d groupId req
  | .addPorts groupId req => answer (addPortsToProxyGroup parse env auth d groupId req)

/-- Handle a request; its commands and writes are recorded afresh. -/
def handle (parse : UrlParser) (render : Url → String) (env : HandlerEnv)
    (auth : Option AuthUser) (d : Deployment) (request : Request) :
    Deployment × Except ApiError Unit :=
  let d := { d with commands := [], written := [] }
  match auth with
  | none => (d, .error ⟨401, request.unauthenticated⟩)
  | some auth =>
      match request with
      | .proxy request => handleProxy parse render env auth d request
      | .deleteClient id => deleteClient env auth d id
      | .deleteUser id => deleteUser env auth d id

end Oxiproxy.Controller
