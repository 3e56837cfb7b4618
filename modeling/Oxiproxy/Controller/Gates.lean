import Oxiproxy.Controller.PortLimiter
import Oxiproxy.Controller.TrafficLimiter

/-!
# Admission gates

The places that admit a client, hand it a configuration or let a node take a
proxy, and that refuse on account of traffic.  They read the exceeded flag of a
row; the periods of its counters play no part.
-/

namespace Oxiproxy.Controller

structure ValidateTokenResponse where
  clientId : ℤ
  clientName : String
  allowed : Bool
  rejectReason : Option String
  deriving DecidableEq, Repr

structure TrafficLimitResponse where
  exceeded : Bool
  reason : Option String
  deriving DecidableEq, Repr

/-- The answer to the first message of a client stream. -/
inductive ClientStreamReply
  | authResponse (success : Bool) (errorMessage : Option String) (clientId : ℤ)
      (clientName : String)
  | error (code message : String)
  deriving DecidableEq, Repr

structure ClientConnectConfig where
  serverAddr : String
  serverPort : UInt16
  protocol : TunnelProtocol
  kcp : Option KcpConfig
  clientId : ℤ
  clientName : String
  deriving DecidableEq, Repr

/-- An HTTP error of the connect-config endpoint. -/
structure ConnectError where
  status : ℕ
  error : String
  message : String
  deriving DecidableEq, Repr

def findClientByToken (db : Db) (token : String) : Option Client :=
  db.clients.rows.find? fun c ↦ c.token = token

def trafficExceededReason (user : User) : String :=
  "用户 " ++ user.username ++ " (#" ++ toString user.id ++ ") 流量已超限"

/-- The owner of a client, when the link is set and the row exists. -/
def clientOwner (db : Db) (client : Client) : Option User := client.userId.bind db.users.find

def validateToken (db : Db) (token : String) : ValidateTokenResponse :=
  match findClientByToken db token with
  | none => ⟨0, "", false, some "无效的 token"⟩
  | some client =>
      match clientOwner db client with
      | some user =>
          if user.isTrafficExceeded then
            ⟨client.id, client.name, false, some (trafficExceededReason user)⟩
          else ⟨client.id, client.name, true, none⟩
      | none => ⟨client.id, client.name, true, none⟩

def checkTrafficLimit (db : Db) (clientId : ℤ) : TrafficLimitResponse :=
  match db.clients.find clientId with
  | none => ⟨false, none⟩
  | some client =>
      match clientOwner db client with
      | some user =>
          if user.isTrafficExceeded then ⟨true, some (trafficExceededReason user)⟩
          else ⟨false, none⟩
      | none => ⟨false, none⟩

/-- Authentication of a client's control stream. -/
def authenticateClient (db : Db) (token : String) : ClientStreamReply :=
  match findClientByToken db token with
  | none => .authResponse false (some "无效的 token") 0 ""
  | some client =>
      if client.isTrafficExceeded then
        .error "traffic_exceeded" ("客户端 '" ++ client.name ++ "' 流量已超限")
      else .authResponse true none client.id client.name

def tunnelProtocol : String → TunnelProtocol
  | "kcp" => .kcp
  | "tcp" => .tcp
  | _ => .quic

/-- The node of the client's first enabled proxy that has one. -/
def firstProxyNode (db : Db) (client : Client) : Option ℤ :=
  (db.proxies.rows.filter fun p ↦
    p.clientId = some (toString client.id) ∧ p.enabled = true).findSome? (·.nodeId)

/-- The connect-config endpoint.  `parseKcp` reads a node's KCP settings. -/
def getClientConnectConfig (parseKcp : String → Option KcpConfig) (db : Db) (token : String) :
    Except ConnectError ClientConnectConfig :=
  match findClientByToken db token with
  | none => .error ⟨401, "invalid_token", "无效的 token"⟩
  | some client =>
      if client.isTrafficExceeded then
        .error ⟨403, "traffic_exceeded", "客户端 '" ++ client.name ++ "' 流量已超限"⟩
      else
        match firstProxyNode db client with
        | none =>
            .error ⟨400, "no_node_assigned",
              "客户端 '" ++ client.name ++ "' (ID: " ++ toString client.id ++
                ") 的代理未分配节点，请在管理面板中为代理分配节点"⟩
        | some nodeId =>
            match db.nodes.find nodeId with
            | none =>
                .error ⟨404, "node_not_found",
                  "分配的节点 (ID: " ++ toString nodeId ++ ") 不存在"⟩
            | some node =>
                .ok
                  { serverAddr := node.tunnelAddr
                    serverPort := asU16 node.tunnelPort
                    protocol := tunnelProtocol node.tunnelProtocol
                    kcp := node.kcpConfig.bind parseKcp
                    clientId := client.id
                    clientName := client.name }

/-! ## Reopening in a new period -/

/-- A gate that does not refuse on account of traffic, and whose verdict is that
of resetting the counters and then comparing them with the quota. -/
def Reopens (refuses : Prop) (quota : Option ℚ) (totalAfterReset : ℤ) : Prop :=
  ¬ refuses ∧ (refuses ↔ quotaExhausted quota totalAfterReset = true)

/-- The flag is clear and the quota, if any, allows at least one byte. -/
def OpenRow (isTrafficExceeded : Bool) (quota : Option ℚ) : Prop :=
  isTrafficExceeded = false ∧ ∀ gb ∈ quota, 0 < gbToBytes gb

/-- A gate that refuses exactly when the flag is set reopens exactly for open
rows. -/
theorem reopens_iff_openRow {refuses : Prop} {flag : Bool} (quota : Option ℚ)
    (hgate : refuses ↔ flag = true) : Reopens refuses quota 0 ↔ OpenRow flag quota := by
  unfold Reopens OpenRow
  rw [hgate, Bool.not_eq_true, ← quotaExhausted_zero_eq_false_iff]
  cases flag <;> simp

section Refusals

variable {db : Db} {client : Client} {user : User} {node : Node} {token : String}

theorem validateToken_refuses_iff (hclient : findClientByToken db token = some client)
    (huser : clientOwner db client = some user) :
    (validateToken db token).allowed = false ↔ user.isTrafficExceeded = true := by
  unfold validateToken
  cases hflag : user.isTrafficExceeded <;> simp [hclient, huser, hflag]

theorem checkTrafficLimit_refuses_iff (hclient : db.clients.find client.id = some client)
    (huser : clientOwner db client = some user) :
    (checkTrafficLimit db client.id).exceeded = true ↔ user.isTrafficExceeded = true := by
  unfold checkTrafficLimit
  cases hflag : user.isTrafficExceeded <;> simp [hclient, huser, hflag]

/-- The stream is refused with the code for traffic. -/
def ClientStreamReply.isTrafficRefusal : ClientStreamReply → Bool
  | .error code _ => code == "traffic_exceeded"
  | .authResponse .. => false

theorem authenticateClient_refuses_iff (hclient : findClientByToken db token = some client) :
    (authenticateClient db token).isTrafficRefusal = true ↔ client.isTrafficExceeded = true := by
  unfold authenticateClient
  cases hflag : client.isTrafficExceeded <;>
    simp [hclient, hflag, ClientStreamReply.isTrafficRefusal]

/-- The endpoint answers with the error for traffic. -/
def isTrafficError : Except ConnectError ClientConnectConfig → Bool
  | .error e => e.error == "traffic_exceeded"
  | .ok _ => false

theorem getClientConnectConfig_refuses_iff {parseKcp : String → Option KcpConfig}
    (hclient : findClientByToken db token = some client) :
    isTrafficError (getClientConnectConfig parseKcp db token) = true ↔
      client.isTrafficExceeded = true := by
  unfold getClientConnectConfig
  cases hflag : client.isTrafficExceeded with
  | true => simp [hclient, hflag, isTrafficError]
  | false =>
      simp only [hclient, hflag, Bool.false_eq_true, if_false, iff_false]
      cases firstProxyNode db client with
      | none => simp [isTrafficError]
      | some nodeId =>
          cases hnode : db.nodes.find nodeId <;> simp [hnode, isTrafficError]

theorem checkNodePortRange_ne_trafficExceeded (node : Node) (remotePort : UInt16) :
    checkNodePortRange node remotePort ≠ .error .trafficExceeded := by
  unfold checkNodePortRange
  cases node.allowedPortRange with
  | none => simp
  | some allowed =>
      by_cases hempty : allowed.isEmpty
      · simp [hempty]
      · cases hranges : parsePortRanges allowed with
        | error e => simp [hempty, hranges]
        | ok ranges =>
            by_cases hport : isPortInRanges remotePort ranges <;> simp [hempty, hranges, hport]

theorem checkNodeProxyCount_ne_trafficExceeded (db : Db) (node : Node) (exclude : ℤ) :
    checkNodeProxyCount db node exclude ≠ .error .trafficExceeded := by
  unfold checkNodeProxyCount
  cases node.maxProxyCount with
  | none => simp
  | some maxCount =>
      by_cases hcount : asU64 maxCount ≤ nodeProxyCount db node.id exclude <;> simp [hcount]

theorem validateNodeProxyLimitExcluding_refuses_iff (hnode : db.nodes.find node.id = some node)
    (remotePort : UInt16) (exclude : ℤ) :
    validateNodeProxyLimitExcluding db node.id remotePort exclude = .error .trafficExceeded ↔
      node.isTrafficExceeded = true := by
  unfold validateNodeProxyLimitExcluding
  cases hflag : node.isTrafficExceeded with
  | true => simp [hnode, hflag]
  | false =>
      have hrange := checkNodePortRange_ne_trafficExceeded node remotePort
      have hcount := checkNodeProxyCount_ne_trafficExceeded db node exclude
      simp only [hnode, hflag, Bool.false_eq_true, if_false, iff_false, bind, Except.bind]
      cases hres : checkNodePortRange node remotePort with
      | error e => simpa [hres] using hrange
      | ok u => exact hcount

end Refusals

def User.totalUsed (user : User) : ℤ := user.totalBytesSent + user.totalBytesReceived

def Client.totalUsed (client : Client) : ℤ := client.totalBytesSent + client.totalBytesReceived

def Node.totalUsed (node : Node) : ℤ := node.totalBytesSent + node.totalBytesReceived

/-- Whenever a reset is due, each gate reopens exactly when the row it reads has
a clear flag and a quota of at least one byte. -/
theorem gates_reopen_iff (db : Db) (now : NaiveDateTime) :
    (∀ token client user, findClientByToken db token = some client →
      clientOwner db client = some user → shouldResetTraffic now user = true →
      (Reopens ((validateToken db token).allowed = false) user.trafficQuotaGb
          (resetUserTraffic now user).totalUsed ↔
        OpenRow user.isTrafficExceeded user.trafficQuotaGb)) ∧
    (∀ client user, db.clients.find client.id = some client →
      clientOwner db client = some user → shouldResetTraffic now user = true →
      (Reopens ((checkTrafficLimit db client.id).exceeded = true) user.trafficQuotaGb
          (resetUserTraffic now user).totalUsed ↔
        OpenRow user.isTrafficExceeded user.trafficQuotaGb)) ∧
    (∀ token client, findClientByToken db token = some client →
      shouldResetClientTraffic now client = true →
      (Reopens ((authenticateClient db token).isTrafficRefusal = true) client.trafficQuotaGb
          (resetClientTraffic now client).totalUsed ↔
        OpenRow client.isTrafficExceeded client.trafficQuotaGb)) ∧
    (∀ parseKcp token client, findClientByToken db token = some client →
      shouldResetClientTraffic now client = true →
      (Reopens (isTrafficError (getClientConnectConfig parseKcp db token) = true)
          client.trafficQuotaGb (resetClientTraffic now client).totalUsed ↔
        OpenRow client.isTrafficExceeded client.trafficQuotaGb)) ∧
    (∀ (node : Node) remotePort exclude, db.nodes.find node.id = some node →
      shouldResetNodeTraffic now node = true →
      (Reopens (validateNodeProxyLimitExcluding db node.id remotePort exclude =
            .error .trafficExceeded) node.trafficQuotaGb (resetNodeTraffic now node).totalUsed ↔
        OpenRow node.isTrafficExceeded node.trafficQuotaGb)) := by
  have huserTotal : ∀ user, (resetUserTraffic now user).totalUsed = 0 := fun _ ↦ rfl
  have hclientTotal : ∀ client, (resetClientTraffic now client).totalUsed = 0 := fun _ ↦ rfl
  have hnodeTotal : ∀ node, (resetNodeTraffic now node).totalUsed = 0 := fun _ ↦ rfl
  refine ⟨?_, ?_, ?_, ?_, ?_⟩
  · intro token client user hclient huser _
    rw [huserTotal]
    exact reopens_iff_openRow _ (validateToken_refuses_iff hclient huser)
  · intro client user hclient huser _
    rw [huserTotal]
    exact reopens_iff_openRow _ (checkTrafficLimit_refuses_iff hclient huser)
  · intro token client hclient _
    rw [hclientTotal]
    exact reopens_iff_openRow _ (authenticateClient_refuses_iff hclient)
  · intro parseKcp token client hclient _
    rw [hclientTotal]
    exact reopens_iff_openRow _ (getClientConnectConfig_refuses_iff hclient)
  · intro node remotePort exclude hnode _
    rw [hnodeTotal]
    exact reopens_iff_openRow _
      (validateNodeProxyLimitExcluding_refuses_iff hnode remotePort exclude)

section Example

def lastOfMarch : NaiveDateTime := ⟨.lastOfMarch, 0, NaiveDateTime.midnight_valid⟩

def firstOfApril : NaiveDateTime := ⟨.firstOfApril, 0, NaiveDateTime.midnight_valid⟩

/-- A user with a monthly quota of one gigabyte, all of it used in March. -/
def marchUser (exceeded : Bool) : User :=
  { id := 1, username := "ann", passwordHash := "", isAdmin := false,
    totalBytesSent := 2 ^ 30, totalBytesReceived := 0, trafficResetCycle := "monthly",
    lastResetAt := some lastOfMarch, isTrafficExceeded := exceeded, trafficQuotaGb := some 1,
    maxPortCount := none, allowedPortRange := none, maxNodeCount := none, maxClientCount := none,
    createdAt := lastOfMarch, updatedAt := lastOfMarch }

def marchClient (exceeded : Bool) : Client :=
  { id := 2, name := "box", token := "secret", isOnline := false, publicIp := none,
    region := none, totalBytesSent := 2 ^ 30, totalBytesReceived := 0,
    trafficResetCycle := "monthly", lastResetAt := some lastOfMarch,
    isTrafficExceeded := exceeded, trafficQuotaGb := some 1, userId := some 1, version := none,
    lastOnlineAt := none, createdAt := lastOfMarch, updatedAt := lastOfMarch }

def marchNode (exceeded : Bool) : Node :=
  { id := 3, name := "edge", url := "", secret := "", isOnline := true, region := none,
    publicIp := none, description := none, tunnelAddr := "10.0.0.1", tunnelPort := 7000,
    tunnelProtocol := "quic", kcpConfig := none, nodeType := "shared", maxProxyCount := none,
    allowedPortRange := none, trafficQuotaGb := some 1, trafficResetCycle := "monthly",
    totalBytesSent := 2 ^ 30, totalBytesReceived := 0, lastResetAt := some lastOfMarch,
    isTrafficExceeded := exceeded, speedLimit := none, version := none, lastOnlineAt := none,
    createdAt := lastOfMarch, updatedAt := lastOfMarch }

def marchDb (exceeded : Bool) : Db where
  users := ⟨[marchUser exceeded], List.nodup_singleton _⟩
  clients := ⟨[marchClient exceeded], List.nodup_singleton _⟩
  nodes := ⟨[marchNode exceeded], List.nodup_singleton _⟩
  proxies := .empty
  trafficDaily := .empty
  userSubscriptions := .empty

theorem gates_reopen_marchDb :
    (Reopens ((validateToken (marchDb false) "secret").allowed = false) (some 1) 0 ↔
      OpenRow false (some 1)) ∧
    (Reopens ((checkTrafficLimit (marchDb false) 2).exceeded = true) (some 1) 0 ↔
      OpenRow false (some 1)) ∧
    (Reopens ((authenticateClient (marchDb false) "secret").isTrafficRefusal = true) (some 1) 0 ↔
      OpenRow false (some 1)) ∧
    (Reopens (isTrafficError (getClientConnectConfig (fun _ ↦ none) (marchDb false) "secret") =
      true) (some 1) 0 ↔ OpenRow false (some 1)) ∧
    (Reopens (validateNodeProxyLimitExcluding (marchDb false) 3 80 0 = .error .trafficExceeded)
      (some 1) 0 ↔ OpenRow false (some 1)) := by
  obtain ⟨htoken, hlimit, hstream, hconnect, hnode⟩ :=
    gates_reopen_iff (marchDb false) firstOfApril
  exact ⟨htoken "secret" (marchClient false) (marchUser false) rfl rfl (by decide),
    hlimit (marchClient false) (marchUser false) rfl rfl (by decide),
    hstream "secret" (marchClient false) rfl (by decide),
    hconnect _ "secret" (marchClient false) rfl (by decide),
    hnode (marchNode false) 80 0 rfl (by decide)⟩

/-- A user flagged in March is still refused in April. -/
theorem not_reopens_flagged_user :
    findClientByToken (marchDb true) "secret" = some (marchClient true) ∧
      clientOwner (marchDb true) (marchClient true) = some (marchUser true) ∧
      shouldResetTraffic firstOfApril (marchUser true) = true ∧
      (validateToken (marchDb true) "secret").allowed = false ∧
      ¬ Reopens ((validateToken (marchDb true) "secret").allowed = false)
        (marchUser true).trafficQuotaGb (resetUserTraffic firstOfApril (marchUser true)).totalUsed := by
  have hrefuses : (validateToken (marchDb true) "secret").allowed = false := rfl
  exact ⟨rfl, rfl, by decide, hrefuses, fun h ↦ h.1 hrefuses⟩

end Example

end Oxiproxy.Controller
