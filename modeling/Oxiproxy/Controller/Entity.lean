import Oxiproxy.Common.Calendar
import Oxiproxy.Common.Protocol
import Oxiproxy.Foundation.Table

/-!
# The controller's database

The rows of the controller's tables, column by column, and the database made of
them.  Quotas in gigabytes are exact rationals.
-/

namespace Oxiproxy.Controller

structure User where
  id : ℤ
  username : String
  passwordHash : String
  isAdmin : Bool
  totalBytesSent : ℤ
  totalBytesReceived : ℤ
  trafficResetCycle : String
  lastResetAt : Option NaiveDateTime
  isTrafficExceeded : Bool
  trafficQuotaGb : Option ℚ
  maxPortCount : Option ℤ
  allowedPortRange : Option String
  maxNodeCount : Option ℤ
  maxClientCount : Option ℤ
  createdAt : NaiveDateTime
  updatedAt : NaiveDateTime
  deriving DecidableEq, Inhabited

structure Client where
  id : ℤ
  name : String
  token : String
  isOnline : Bool
  publicIp : Option String
  region : Option String
  totalBytesSent : ℤ
  totalBytesReceived : ℤ
  trafficResetCycle : String
  lastResetAt : Option NaiveDateTime
  isTrafficExceeded : Bool
  trafficQuotaGb : Option ℚ
  userId : Option ℤ
  version : Option String
  lastOnlineAt : Option NaiveDateTime
  createdAt : NaiveDateTime
  updatedAt : NaiveDateTime
  deriving DecidableEq, Inhabited

structure Node where
  id : ℤ
  name : String
  url : String
  secret : String
  isOnline : Bool
  region : Option String
  publicIp : Option String
  description : Option String
  tunnelAddr : String
  tunnelPort : ℤ
  tunnelProtocol : String
  kcpConfig : Option String
  nodeType : String
  maxProxyCount : Option ℤ
  allowedPortRange : Option String
  trafficQuotaGb : Option ℚ
  trafficResetCycle : String
  totalBytesSent : ℤ
  totalBytesReceived : ℤ
  lastResetAt : Option NaiveDateTime
  isTrafficExceeded : Bool
  speedLimit : Option ℤ
  version : Option String
  lastOnlineAt : Option NaiveDateTime
  createdAt : NaiveDateTime
  updatedAt : NaiveDateTime
  deriving DecidableEq, Inhabited

structure Proxy where
  id : ℤ
  clientId : Option String
  userId : Option ℤ
  upstreamUrl : String
  name : String
  proxyType : String
  domain : String
  localIp : String
  localPort : UInt16
  remotePort : UInt16
  enabled : Bool
  nodeId : Option ℤ
  groupId : Option String
  totalBytesSent : ℤ
  totalBytesReceived : ℤ
  createdAt : NaiveDateTime
  updatedAt : NaiveDateTime
  deriving DecidableEq, Inhabited

/-- The traffic of one proxy on one day; the date is stored as text. -/
structure TrafficDaily where
  proxyId : ℤ
  clientId : Option ℤ
  bytesSent : ℤ
  bytesReceived : ℤ
  date : String
  createdAt : NaiveDateTime
  updatedAt : NaiveDateTime
  deriving DecidableEq, Inhabited

structure UserSubscription where
  id : ℤ
  userId : ℤ
  subscriptionId : ℤ
  startDate : NaiveDateTime
  endDate : NaiveDateTime
  trafficQuotaGb : ℚ
  trafficUsedGb : ℚ
  isActive : Bool
  maxPortCountSnapshot : Option ℤ
  maxNodeCountSnapshot : Option ℤ
  maxClientCountSnapshot : Option ℤ
  quotaMerged : Bool
  createdAt : NaiveDateTime
  updatedAt : NaiveDateTime
  deriving DecidableEq, Inhabited

instance : Keyed ℤ User := ⟨User.id⟩

instance : Keyed ℤ Client := ⟨Client.id⟩

instance : Keyed ℤ Node := ⟨Node.id⟩

instance : Keyed ℤ Proxy := ⟨Proxy.id⟩

/-- Daily rows are unique by proxy and date. -/
instance : Keyed (ℤ × String) TrafficDaily := ⟨fun d ↦ (d.proxyId, d.date)⟩

instance : Keyed ℤ UserSubscription := ⟨UserSubscription.id⟩

def twoUsers : Table User :=
  ⟨[{ (default : User) with id := 1 }, { (default : User) with id := 2 }], by decide⟩

structure Db where
  users : Table User
  clients : Table Client
  nodes : Table Node
  proxies : Table Proxy
  trafficDaily : Table TrafficDaily
  userSubscriptions : Table UserSubscription

/-- The configuration a node receives for a proxy. -/
def Proxy.config (p : Proxy) : ProxyConfig where
  proxyId := p.id
  clientId := p.clientId.getD ""
  name := p.name
  proxyType := p.proxyType
  domain := p.domain
  upstreamUrl := p.upstreamUrl
  userId := p.userId
  localIp := p.localIp
  localPort := p.localPort
  remotePort := p.remotePort
  enabled := p.enabled

end Oxiproxy.Controller
