import TrafficCop.Rust.Core
import TrafficCop.Http.Uri

/-!
# Configuration types

The part of `config/types.rs` that the modelled functions read. A `HashMap` keeps the order in which
Rust iterates it, so a configuration here comes *together with* one iteration order of each of its
maps; statements that must not depend on the order quantify over `Reordered` maps.
-/

namespace TrafficCop

open Rust

/-! ## Services -/

structure ParsedBackendUri where
  scheme : Http.Scheme
  authority : Http.Authority
  deriving Repr, DecidableEq

structure Server where
  url : Text
  weight : UInt32 := 1
  parsedUri : Option ParsedBackendUri := none
  urlArc : Option Text := none
  deriving Repr, DecidableEq

structure LoadBalancerService where
  servers : List Server
  deriving Repr, DecidableEq

structure WeightedServiceRef where
  name : Text
  weight : UInt32 := 1
  deriving Repr, DecidableEq

structure WeightedService where
  services : List WeightedServiceRef
  deriving Repr, DecidableEq

structure MirrorRef where
  name : Text
  percent : UInt32 := 100
  deriving Repr, DecidableEq

structure MirroringService where
  service : Text
  mirrors : List MirrorRef := []
  deriving Repr, DecidableEq

structure FailoverService where
  service : Text
  fallback : Text
  deriving Repr, DecidableEq

/-- `struct Service`: "exactly one of these should be set", which nothing enforces. -/
structure Service where
  loadBalancer : Option LoadBalancerService := none
  weighted : Option WeightedService := none
  mirroring : Option MirroringService := none
  failover : Option FailoverService := none
  deriving Repr, DecidableEq

/-! ## Routers -/

structure RouterConfig where
  entryPoints : List Text := []
  rule : Text
  service : Text
  middlewares : List Text := []
  priority : Int := 0
  deriving Repr, DecidableEq

/-! ## Middlewares -/

structure RateLimitConfig where
  average : UInt64
  burst : UInt64 := 0
  /-- Nanoseconds; `default_rate_period` is one second. -/
  period : Nat := 1000000000
  deriving Repr, DecidableEq

structure IpStrategy where
  depth : UInt32 := 0
  excludedIps : List Text := []
  deriving Repr, DecidableEq

structure IpAllowListConfig where
  sourceRange : List Text
  ipStrategy : Option IpStrategy := none
  rejectStatusCode : Option UInt16 := none
  deriving Repr, DecidableEq

structure IpDenyListConfig where
  sourceRange : List Text
  deriving Repr, DecidableEq

structure HeadersConfig where
  accessControlAllowCredentials : Bool := false
  accessControlAllowHeaders : List Text := []
  accessControlAllowMethods : List Text := []
  accessControlAllowOriginList : List Text := []
  accessControlAllowOriginListRegex : List Text := []
  accessControlExposeHeaders : List Text := []
  accessControlMaxAge : Option Int := none
  addVaryHeader : Bool := false
  deriving Repr, DecidableEq

structure BasicAuthConfig where
  users : List Text
  realm : Option Text := none
  deriving Repr, DecidableEq

structure RedirectSchemeConfig where
  scheme : Text
  port : Option Text := none
  permanent : Bool := false
  deriving Repr, DecidableEq

structure StripPrefixConfig where
  prefixes : List Text
  forceSlash : Bool := false
  deriving Repr, DecidableEq

structure StripPrefixRegexConfig where
  regex : List Text
  deriving Repr, DecidableEq

structure AddPrefixConfig where
  pre : Text
  deriving Repr, DecidableEq

structure ReplacePathConfig where
  path : Text
  deriving Repr, DecidableEq

structure ReplacePathRegexConfig where
  regex : Text
  replacement : Text
  deriving Repr, DecidableEq

structure CompressConfig where
  minResponseBodyBytes : UInt64 := 1024
  deriving Repr, DecidableEq

/-- A payload for each kind that the registry can instantiate. Of the other kinds only the presence
is looked at, for a log line, so they are flags. -/
structure MiddlewareConfig where
  rateLimit : Option RateLimitConfig := none
  ipAllowList : Option IpAllowListConfig := none
  ipWhiteList : Option IpAllowListConfig := none
  ipDenyList : Option IpDenyListConfig := none
  headers : Option HeadersConfig := none
  basicAuth : Option BasicAuthConfig := none
  compress : Option CompressConfig := none
  redirectScheme : Option RedirectSchemeConfig := none
  stripPrefix : Option StripPrefixConfig := none
  stripPrefixRegex : Option StripPrefixRegexConfig := none
  addPrefix : Option AddPrefixConfig := none
  replacePath : Option ReplacePathConfig := none
  replacePathRegex : Option ReplacePathRegexConfig := none
  -- presence only
  digestAuth : Bool := false
  forwardAuth : Bool := false
  retry : Bool := false
  circuitBreaker : Bool := false
  redirectRegex : Bool := false
  chain : Bool := false
  buffering : Bool := false
  inFlightReq : Bool := false
  passTlsClientCert : Bool := false
  contentType : Bool := false
  grpcWeb : Bool := false
  jwt : Bool := false
  errors : Bool := false
  deriving Repr, DecidableEq

/-- The old name is the fallback. -/
def MiddlewareConfig.getIpAllowList (config : MiddlewareConfig) : Option IpAllowListConfig :=
  config.ipAllowList.or config.ipWhiteList

/-! ## The root -/

structure HttpConfig where
  routers : HashMap Text RouterConfig := .empty
  services : HashMap Text Service := .empty
  middlewares : HashMap Text MiddlewareConfig := .empty

structure StreamServer where
  address : Text
  weight : UInt32 := 1
  deriving Repr, DecidableEq

/-- `struct TcpService` and `struct UdpService`, which have the same variants. -/
structure StreamService where
  loadBalancer : Option (List StreamServer) := none
  weighted : Option (List WeightedServiceRef) := none
  deriving Repr, DecidableEq

structure StreamRouter where
  entryPoints : List Text := []
  rule : Text
  service : Text
  middlewares : List Text := []
  priority : Int := 0
  deriving Repr, DecidableEq

/-- `struct TcpConfig` and `struct UdpConfig`; of a middleware only its name matters. -/
structure StreamConfig where
  routers : HashMap Text StreamRouter := .empty
  services : HashMap Text StreamService := .empty
  middlewares : HashMap Text Unit := .empty

structure EntryPoint where
  address : Text
  deriving Repr, DecidableEq

structure Config where
  entryPoints : HashMap Text EntryPoint := .empty
  http : Option HttpConfig := none
  tcp : Option StreamConfig := none
  udp : Option StreamConfig := none

namespace Config

variable (config : Config)

-- The accessors of `config/mod.rs`: an absent section is an empty map.
def routers : HashMap Text RouterConfig := (config.http.map (·.routers)).getD .empty
def services : HashMap Text Service := (config.http.map (·.services)).getD .empty
def middlewares : HashMap Text MiddlewareConfig := (config.http.map (·.middlewares)).getD .empty
def tcpRouters : HashMap Text StreamRouter := (config.tcp.map (·.routers)).getD .empty
def tcpServices : HashMap Text StreamService := (config.tcp.map (·.services)).getD .empty
def tcpMiddlewares : HashMap Text Unit := (config.tcp.map (·.middlewares)).getD .empty
def udpRouters : HashMap Text StreamRouter := (config.udp.map (·.routers)).getD .empty
def udpServices : HashMap Text StreamService := (config.udp.map (·.services)).getD .empty
def udpMiddlewares : HashMap Text Unit := (config.udp.map (·.middlewares)).getD .empty

end Config

end TrafficCop
