import Oxiproxy.Common.Rust
import Oxiproxy.Controller.Entity

/-!
# Limits on ports and proxies

The checks made before a user opens a port and before a node takes a proxy.
-/

namespace Oxiproxy.Controller

structure PortRange where
  start : UInt16
  stop : UInt16
  deriving DecidableEq, Repr

def PortRange.contains (range : PortRange) (port : UInt16) : Bool :=
  range.start ≤ port && port ≤ range.stop

def parsePort (s : String) (message : String) : Except String UInt16 :=
  match parseUnsigned 65536 s with
  | some n => .ok (UInt16.ofNat n)
  | none => .error message

/-- One part of a port range: a single port, or two ports around a dash. -/
def parsePortRange (part : String) : Except String PortRange :=
  match (splitOn '-' part.toList).map String.ofList with
  | [port] => do
      let port ← parsePort port ("无效的端口号: " ++ port)
      return ⟨port, port⟩
  | [first, last] => do
      let start ← parsePort (trim first) ("无效的起始端口: " ++ first)
      let stop ← parsePort (trim last) ("无效的结束端口: " ++ last)
      if stop < start then
        .error ("起始端口不能大于结束端口: " ++ toString start ++ "-" ++ toString stop)
      else .ok ⟨start, stop⟩
  | _ => .error ("无效的端口范围格式: " ++ part)

def parsePortRanges (rangeStr : String) : Except String (List PortRange) := do
  let parts := ((splitOn ',' rangeStr.toList).map fun part ↦ trim (String.ofList part)).filter
    fun part ↦ !part.isEmpty
  let ranges ← parts.mapM parsePortRange
  if ranges.isEmpty then .error "端口范围不能为空" else .ok ranges

def isPortInRanges (port : UInt16) (ranges : List PortRange) : Bool :=
  ranges.any (·.contains port)

/-- The number of proxies of a user's clients and of its direct proxies.  The ids
are compared as texts, so a row whose `client_id` is not the plain number of a
client (`05`, `+5`) counts for nobody, although its client is found by it. -/
def getUserPortCount (db : Db) (userId : ℤ) : ℕ :=
  let clientIds := (db.clients.rows.filter (·.userId = some userId)).map (toString ·.id)
  (db.proxies.rows.filter fun p ↦
    match p.clientId with
    | some clientId => clientIds.contains clientId
    | none => p.userId = some userId).length

/-- A check and, when it fails, its message. -/
abbrev Verdict := Bool × String

def validateUserPortLimit (db : Db) (userId : ℤ) (remotePort : UInt16) : Verdict :=
  match db.users.find userId with
  | none => (false, "用户不存在")
  | some user =>
      let range : Except String Unit :=
        match user.allowedPortRange with
        | none => .ok ()
        | some allowed =>
            match parsePortRanges allowed with
            | .error e => .error ("端口范围配置错误: " ++ e)
            | .ok ranges =>
                if isPortInRanges remotePort ranges then .ok ()
                else .error ("端口 " ++ toString remotePort ++ " 不在允许的范围内: " ++ allowed)
      match range with
      | .error e => (false, e)
      | .ok () =>
          match user.maxPortCount with
          | none => (true, "")
          | some maxCount =>
              let proxyCount := getUserPortCount db userId
              if asU64 maxCount ≤ proxyCount then
                (false, "端口数量已达上限: " ++ toString proxyCount ++ " / " ++ toString maxCount ++
                  " (最大 " ++ toString maxCount ++ ")")
              else (true, "")

/-- Why a node takes no further proxy. -/
inductive NodeRefusal
  | notFound
  | trafficExceeded
  | invalidRange (e : String)
  | portOutOfRange (remotePort : UInt16) (allowed : String)
  | proxyCount (count : ℕ) (maxCount : ℤ)
  deriving DecidableEq, Repr

def NodeRefusal.message : NodeRefusal → String
  | .notFound => "节点不存在"
  | .trafficExceeded => "该节点流量已超限，无法创建新代理"
  | .invalidRange e => "节点端口范围配置错误: " ++ e
  | .portOutOfRange remotePort allowed =>
      "端口 " ++ toString remotePort ++ " 不在节点允许的范围内: " ++ allowed
  | .proxyCount count maxCount =>
      "该节点代理数量已达上限: " ++ toString count ++ " / " ++ toString maxCount

def checkNodePortRange (node : Node) (remotePort : UInt16) : Except NodeRefusal Unit :=
  match node.allowedPortRange with
  | none => .ok ()
  | some allowed =>
      if allowed.isEmpty then .ok ()
      else
        match parsePortRanges allowed with
        | .error e => .error (.invalidRange e)
        | .ok ranges =>
            if isPortInRanges remotePort ranges then .ok ()
            else .error (.portOutOfRange remotePort allowed)

/-- The enabled proxies of a node, without one excluded id. -/
def nodeProxyCount (db : Db) (nodeId exclude : ℤ) : ℕ :=
  (db.proxies.rows.filter fun p ↦
    p.nodeId = some nodeId ∧ p.enabled = true ∧ p.id ≠ exclude).length

def checkNodeProxyCount (db : Db) (node : Node) (exclude : ℤ) : Except NodeRefusal Unit :=
  match node.maxProxyCount with
  | none => .ok ()
  | some maxCount =>
      let count := nodeProxyCount db node.id exclude
      if asU64 maxCount ≤ count then .error (.proxyCount count maxCount) else .ok ()

/-- `validate_node_proxy_limit` excludes the id zero, which no row has. -/
def validateNodeProxyLimitExcluding (db : Db) (nodeId : ℤ) (remotePort : UInt16)
    (exclude : ℤ) : Except NodeRefusal Unit :=
  match db.nodes.find nodeId with
  | none => .error .notFound
  | some node =>
      if node.isTrafficExceeded then .error .trafficExceeded
      else do
        checkNodePortRange node remotePort
        checkNodeProxyCount db node exclude

/-- The port is inside the range, or there is none. -/
def PortAllowed (range : Option String) (port : UInt16) : Prop :=
  ∀ allowed, range = some allowed → allowed.isEmpty = false →
    (parsePortRanges allowed).toOption.any (isPortInRanges port) = true

theorem validateUserPortLimit_ok {db : Db} {userId : ℤ} {port : UInt16}
    (h : (validateUserPortLimit db userId port).1 = true) :
    ∃ user, db.users.find userId = some user ∧ PortAllowed user.allowedPortRange port ∧
      ∀ maxCount, user.maxPortCount = some maxCount →
        getUserPortCount db userId < asU64 maxCount := by
  simp only [validateUserPortLimit] at h
  split at h
  · cases h
  · rename_i user huser
    refine ⟨user, huser, ?_⟩
    split at h
    · cases h
    · rename_i u hrange
      constructor
      · intro allowed hallowed _
        rw [hallowed] at hrange
        dsimp only at hrange
        split at hrange
        · cases hrange
        · rename_i ranges hparse
          split_ifs at hrange with hin
          rw [hparse]
          exact hin
      · intro maxCount hmax
        rw [hmax] at h
        dsimp only at h
        split_ifs at h with hfull
        exact lt_of_not_ge hfull

theorem validateNodeProxyLimitExcluding_ok {db : Db} {nodeId exclude : ℤ} {port : UInt16}
    (h : validateNodeProxyLimitExcluding db nodeId port exclude = .ok ()) :
    ∃ node, db.nodes.find nodeId = some node ∧ PortAllowed node.allowedPortRange port ∧
      ∀ maxCount, node.maxProxyCount = some maxCount →
        nodeProxyCount db nodeId exclude < asU64 maxCount := by
  unfold validateNodeProxyLimitExcluding at h
  split at h
  · cases h
  · rename_i node hnode
    have hid : node.id = nodeId := Table.key_of_find hnode
    split_ifs at h with hexceeded
    refine ⟨node, hnode, ?_⟩
    cases hrange : checkNodePortRange node port with
    | error e => simp [hrange, bind, Except.bind] at h
    | ok u =>
        have hcount : checkNodeProxyCount db node exclude = .ok () := by
          simpa [hrange, bind, Except.bind] using h
        constructor
        · intro allowed hallowed hempty
          unfold checkNodePortRange at hrange
          simp only [hallowed, hempty, Bool.false_eq_true, if_false] at hrange
          split at hrange
          · cases hrange
          · rename_i ranges hparse
            split_ifs at hrange with hin
            rw [hparse]
            exact hin
        · intro maxCount hmax
          simp only [checkNodeProxyCount, hmax] at hcount
          split_ifs at hcount with hfull
          rw [← hid]
          exact lt_of_not_ge hfull

example : (parsePortRanges "1000-9999, 20000").toOption =
    some [⟨1000, 9999⟩, ⟨20000, 20000⟩] := by
  decide +kernel

end Oxiproxy.Controller
