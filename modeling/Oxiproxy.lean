import Oxiproxy.Foundation.Runs
import Oxiproxy.Foundation.HashMap
import Oxiproxy.Client.ConnectionManager
import Oxiproxy.Client.Reconcile
import Oxiproxy.Common.Domain
import Oxiproxy.Common.Upstream
import Oxiproxy.Node.Listeners
import Oxiproxy.Node.OneRoute
import Oxiproxy.Node.SessionCleanup
import Oxiproxy.Common.Calendar
import Oxiproxy.Controller.Entity
import Oxiproxy.Controller.FanOut
import Oxiproxy.Controller.Gates
import Oxiproxy.Controller.PeriodAccounting
import Oxiproxy.Controller.Subscriptions
import Oxiproxy.Controller.TrafficReports
import Oxiproxy.Controller.ClientNotifications
import Oxiproxy.Controller.QuotaAccounting
import Oxiproxy.Controller.RouteAcceptance
import Oxiproxy.Controller.SessionRegistry
import Oxiproxy.Controller.AggregationLoops
import Oxiproxy.Node.SpeedLimiter
import Oxiproxy.Controller.ProxyOwnership
import Oxiproxy.Controller.PortRanges
import Oxiproxy.Node.TunnelManager
import Oxiproxy.Common.PendingTimeouts
import Oxiproxy.Controller.NodeCommands
import Oxiproxy.Node.ControllerRequests
import Oxiproxy.Node.CertificateCells
import Oxiproxy.Tunnel.UdpDatagrams
import Oxiproxy.Tunnel.UdpCompletion
import Oxiproxy.Node.RelayAccounting
import Oxiproxy.Controller.TenantViews
import Oxiproxy.Controller.ProxyLimits
import Oxiproxy.Common.NormalForms
import Oxiproxy.Common.RouteLookup
import Oxiproxy.Controller.ExceededFlag
import Oxiproxy.Controller.QuotaAllocation
import Oxiproxy.Controller.SpeedLimitSync
import Oxiproxy.Node.DirectCommands
import Oxiproxy.Node.StartAcknowledgement
import Oxiproxy.Tunnel.YamuxDriver
import Oxiproxy.Controller.Rollback
import Oxiproxy.Node.BulkStart
import Oxiproxy.Node.HttpHeaders
import Oxiproxy.Node.HttpRequest
import Oxiproxy.Node.HttpForwarding
import Oxiproxy.Node.TlsSniff
import Oxiproxy.Tunnel.Preface
import Oxiproxy.Node.TokenBucket
import Oxiproxy.Node.LiftedLimit
import Oxiproxy.Common.Heartbeat
import Oxiproxy.Controller.ListenerAgreement
import Oxiproxy.Common.Float
import Oxiproxy.Controller.ConfigManager
import Oxiproxy.Common.LogViewer
import Oxiproxy.Common.Update
import Oxiproxy.Common.Systemd
import Oxiproxy.Controller.PortRangeLanguage
import Oxiproxy.Controller.DirectProxyMigration
import Oxiproxy.Client.ControlPlane
import Oxiproxy.Common.SelfRestart
import Oxiproxy.Foundation.Base64
import Oxiproxy.Tunnel.CertVerification
import Oxiproxy.Controller.CertificateManager
import Oxiproxy.Client.PinnedCertificates
import Oxiproxy.Foundation.CheckThenAct
import Oxiproxy.Controller.CountLimits
import Oxiproxy.Foundation.NumberedLog
import Oxiproxy.Node.DirectRoutes
import Oxiproxy.Controller.DirectConvergence
