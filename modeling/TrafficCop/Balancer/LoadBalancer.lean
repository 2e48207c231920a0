import TrafficCop.Balancer.RoundRobin
import TrafficCop.Balancer.Weighted

/-!
# Load balancers

`LoadBalancer` of `balancer/mod.rs`, which passes its calls on to a strategy.
-/

namespace TrafficCop

open Rust

/-- `Box<dyn Balancer>`, of the two strategies a configuration leads to. -/
inductive LoadBalancer where
  | roundRobin (b : RoundRobinBalancer)
  | weighted (b : WeightedBalancer)

namespace LoadBalancer

/-- `windows(2).all(|w| w[0].weight == w[1].weight)`. -/
def allEqualWeights : List Server → Bool
  | a :: b :: rest => a.weight == b.weight && allEqualWeights (b :: rest)
  | _ => true

/-- The strategy is chosen from the weights. -/
def fromLoadBalancer (lb : LoadBalancerService) : LoadBalancer :=
  let hasWeights := lb.servers.any fun s => 1 < s.weight
  if hasWeights && !allEqualWeights lb.servers then .weighted (.new lb.servers)
  else .roundRobin (.new lb.servers)

def nextServer : LoadBalancer → Option Server × LoadBalancer
  | .roundRobin b => (b.nextServer.1, .roundRobin b.nextServer.2)
  | .weighted b => (b.nextServer.1, .weighted b.nextServer.2)

def markHealthy (index : Nat) : LoadBalancer → LoadBalancer
  | .roundRobin b => .roundRobin (b.markHealthy index)
  | .weighted b => .weighted (b.markHealthy index)

def markUnhealthy (index : Nat) : LoadBalancer → LoadBalancer
  | .roundRobin b => .roundRobin (b.markUnhealthy index)
  | .weighted b => .weighted (b.markUnhealthy index)

def findServerIndex (url : Text) : LoadBalancer → Option Nat
  | .roundRobin b => b.findServerIndex url
  | .weighted b => b.findServerIndex url

def servers : LoadBalancer → List Server
  | .roundRobin b => b.servers
  | .weighted b => b.configs

inductive Call where
  | nextServer
  | markHealthy (index : Nat)
  | markUnhealthy (index : Nat)
  deriving Repr, DecidableEq

variable (b : LoadBalancer)

def step : Call → LoadBalancer
  | .nextServer => b.nextServer.2
  | .markHealthy index => b.markHealthy index
  | .markUnhealthy index => b.markUnhealthy index

/-- Any sequence of selections and health marks. -/
def run (calls : List Call) : LoadBalancer := calls.foldl step b

lemma servers_fromLoadBalancer (lb : LoadBalancerService) :
    (fromLoadBalancer lb).servers = lb.servers := by
  unfold fromLoadBalancer
  dsimp only
  split <;> simp [servers]

lemma servers_step (call : Call) : (b.step call).servers = b.servers := by
  cases b <;> cases call <;>
    simp [step, nextServer, markHealthy, markUnhealthy, servers]

lemma servers_run (calls : List Call) : (b.run calls).servers = b.servers := by
  induction calls generalizing b with
  | nil => rfl
  | cons call calls ih => exact (ih (b.step call)).trans (servers_step b call)

lemma nextServer_mem {b : LoadBalancer} (h : b.servers ≠ []) :
    ∃ server ∈ b.servers, b.nextServer.1 = some server := by
  cases b with
  | roundRobin b => exact RoundRobinBalancer.nextServer_mem h
  | weighted b => exact WeightedBalancer.nextServer_mem h

lemma nextServer_run {lb : LoadBalancerService} (h : lb.servers ≠ []) (calls : List Call) :
    ∃ server ∈ lb.servers, ((fromLoadBalancer lb).run calls).nextServer.1 = some server := by
  have hservers : ((fromLoadBalancer lb).run calls).servers = lb.servers := by
    rw [servers_run, servers_fromLoadBalancer]
  rw [← hservers] at h ⊢
  exact nextServer_mem h

end LoadBalancer

end TrafficCop
