import TrafficCop.Config.Validate
import TrafficCop.Stream.UdpListeners

/-!
# The middlewares of UDP routes

A UDP route has the names of its middlewares, and a configuration has what they are
(`UdpMiddlewareConfig` of `config/types.rs`). `from_config` copies the names into the route, and
nothing reads them there: `handle_datagram` takes the service of the route and no more.
-/

namespace TrafficCop

open Rust Transition

/-- `struct UdpMiddlewareConfig`, with the ranges of the two lists. -/
structure UdpMiddlewareConfig where
  ipAllowList : Option (List Text) := none
  ipDenyList : Option (List Text) := none
  deriving Repr, DecidableEq

section

variable {Net Ip : Type} [IpCrate Net Ip]

variable (Net) in
/-- A network that does not parse has no address. -/
def inRanges (ranges : List Text) (ip : Ip) : Bool :=
  ranges.any fun range =>
    (IpCrate.parse Ip range : Option Net).any fun net => IpCrate.contains net ip

variable (Net) in
/-- Clients that are not on an allow list, or are on a deny list. -/
def UdpMiddlewareConfig.excludes (middleware : UdpMiddlewareConfig) (ip : Ip) : Bool :=
  middleware.ipAllowList.any (fun ranges => !inRanges Net ranges ip) ||
    middleware.ipDenyList.any fun ranges => inRanges Net ranges ip

namespace UdpProxy

/-- The client's route has a middleware that excludes the client. A name refers to what
`Config::validate` accepts for it: what is configured under the name, or under the part of it
before an `@`. -/
def Excluded (proxy : UdpProxy Net Ip) (middlewares : HashMap Text UdpMiddlewareConfig)
    (client : SocketAddr Ip) : Prop :=
  ∃ route, proxy.router.matchDatagram proxy.entrypoint (some client.ip) = some route ∧
    ∃ name ∈ route.middlewares, ∃ middleware,
      (middlewares.get name).or (middlewares.get (cleanName name)) = some middleware ∧
        middleware.excludes Net client.ip = true

variable [DecidableEq Ip]

/-- **When the lists of the middlewares are enforced**: exactly if no client that a list excludes
has a backend in the first place. -/
theorem udp_lists_enforced_iff (proxy : UdpProxy Net Ip)
    (servers : Text → Option (List UdpBackendServer))
    (middlewares : HashMap Text UdpMiddlewareConfig) :
    (∀ as t, Run proxy.step (fun _ _ => True) (start Ip servers) as t →
      ∀ f ∈ t.forwards, ¬proxy.Excluded middlewares f.client) ↔
      ∀ client, proxy.Excluded middlewares client → proxy.backendOf servers client = none := by
  constructor
  · intro h client hexcluded
    by_contra hsome
    obtain ⟨backend, hbackend⟩ := Option.ne_none_iff_exists'.mp hsome
    obtain ⟨as, w, _, _, hrun, -, -, -, -, -, -, -, f, hf, rfl⟩ := exists_outlasted hbackend
    exact h as w.plain (run_plain hrun) f hf hexcluded
  · intro h as t hrun f hf hexcluded
    have hbackend := (sound_of_any_run hrun).forwards f hf
    rw [h _ hexcluded] at hbackend
    cases hbackend

end UdpProxy

end

namespace UdpProxy

/-- A proxy with a route for all clients, which names a deny list with its provider. -/
def guardedProxy : UdpProxy Text Text :=
  { oneServerProxy with
    router := ⟨fun _ => none, fun _ => some ⟨['r'], ['s'], ["deny@file"], .catchAll, 0⟩⟩ }

def denying : HashMap Text UdpMiddlewareConfig :=
  .singleton "deny" { ipDenyList := some [['c']] }

/-- **A client that the list of its route denies is served**, with its first datagram and on its
session. -/
theorem udp_lists_ignored :
    guardedProxy.Excluded denying someClient ∧
      (([.datagram someClient [1], .proceed 0 .done, .proceed 0 .done, .proceed 0 .done,
          .datagram someClient [2], .proceed 1 .done, .proceed 1 .done] :
          List (Action Text)).foldlM guardedProxy.step (start Text oneServer)).map State.forwards =
        some [⟨someClient, [1], 1, theBackend⟩, ⟨someClient, [2], 1, theBackend⟩] := by
  refine ⟨⟨⟨['r'], ['s'], ["deny@file"], .catchAll, 0⟩, rfl, "deny@file",
    List.mem_singleton_self _, { ipDenyList := some [['c']] }, rfl, rfl⟩, by decide +kernel⟩

end UdpProxy

end TrafficCop
