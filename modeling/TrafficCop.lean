import TrafficCop.Router.Offsets
import TrafficCop.Proxy.Forward
import TrafficCop.Server.Reload
import TrafficCop.Cluster.Election
import TrafficCop.Proxy.HealthSync
import TrafficCop.Store.Leader
import TrafficCop.Store.SlidingWindow
import TrafficCop.Cluster.Membership
import TrafficCop.Store.NodeStatus
import TrafficCop.Store.ConfigVersion
import TrafficCop.Cluster.Drain
import TrafficCop.Store.HealthEvents
import TrafficCop.Tls.Manager
import TrafficCop.Config.Watcher
import TrafficCop.Middleware.IpFilter
import TrafficCop.Balancer.Flaps
import TrafficCop.Middleware.Md5Standard
import TrafficCop.Middleware.JwtSignature
import TrafficCop.Middleware.BasicAuth
import TrafficCop.Middleware.DigestParams
import TrafficCop.Middleware.Cors
import TrafficCop.Middleware.GrpcWebOrigins
import TrafficCop.Balancer.Shares
import TrafficCop.Balancer.Idle
import TrafficCop.Health.CircuitBreaker
import TrafficCop.Store.CircuitCounters
import TrafficCop.Health.PassiveRecovery
import TrafficCop.Health.Distributed
import TrafficCop.Server.HealthTasks
import TrafficCop.Middleware.Compress
import TrafficCop.Balancer.LeastRatio
import TrafficCop.Balancer.Proportional
import TrafficCop.Middleware.RateLimitSync
import TrafficCop.Stream.SniPeek
import TrafficCop.Stream.RuleSafety
import TrafficCop.Stream.SniCase
import TrafficCop.Proxy.GrpcMessage
import TrafficCop.Router.FormQuery
import TrafficCop.Balancer.StickyAge
import TrafficCop.Stream.Affinity
import TrafficCop.Stream.UdpMiddlewares
import TrafficCop.Stream.UdpActivity
import TrafficCop.Proxy.WebSocketStatus
import TrafficCop.Proxy.RequestHost
import TrafficCop.Cluster.ActiveNodes
import TrafficCop.Tls.Saving
import TrafficCop.Tls.Challenges
import TrafficCop.Cluster.Provider
import TrafficCop.Tls.Csr
import TrafficCop.Telemetry.Propagation
import TrafficCop.Store.ValkeyUrl
import TrafficCop.Balancer.StickyDelete
import TrafficCop.Middleware.AccessLog
import TrafficCop.Proxy.Handler
import TrafficCop.Server.Connections
import TrafficCop.Middleware.Chain
