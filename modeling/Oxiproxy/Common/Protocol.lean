import Mathlib

/-!
# Messages shared by controller, node and client

The records exchanged between the three programs: the proxy configurations a
node receives and the per-server groups a client receives.
-/

namespace Oxiproxy

inductive TunnelProtocol
  | quic
  | kcp
  | tcp
  deriving DecidableEq, Repr

structure KcpConfig where
  nodelay : Bool
  interval : UInt32
  resend : UInt32
  nc : Bool
  deriving DecidableEq, Repr

structure ProxyInfo where
  proxyId : Int
  name : String
  proxyType : String
  localIp : String
  localPort : Int
  remotePort : Int
  enabled : Bool
  deriving DecidableEq, Repr

/-- One server and the proxies a client has to run on it. -/
structure ServerProxyGroup where
  nodeId : Int
  serverAddr : String
  serverPort : UInt16
  protocol : TunnelProtocol
  kcp : Option KcpConfig
  proxies : List ProxyInfo
  certFingerprints : List String
  deriving DecidableEq, Repr

/-- The configuration of one proxy, as a node receives it. -/
structure ProxyConfig where
  proxyId : Int
  clientId : String
  name : String
  proxyType : String
  domain : String
  upstreamUrl : String
  userId : Option Int
  localIp : String
  localPort : UInt16
  remotePort : UInt16
  enabled : Bool
  deriving DecidableEq, Repr

end Oxiproxy
