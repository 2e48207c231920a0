import TrafficCop.Balancer.LeastConn
import TrafficCop.Balancer.Random
import TrafficCop.Balancer.RoundRobin
import TrafficCop.Balancer.Weighted

/-!
# The four strategies

The implementations of the trait `Balancer` of `balancer/mod.rs`, as `LoadBalancer::with_strategy`
chooses between them, and what they have in common: servers, a health flag for each, and calls that
select or mark.

The trait says of `next_server`: "Select the next healthy server".
-/

namespace TrafficCop

open Rust

/-- The trait object, by its implementations. -/
inductive Balancer where
  | roundRobin (b : RoundRobinBalancer)
  | weighted (b : WeightedBalancer)
  | leastConn (b : LeastConnBalancer)
  | random (b : RandomBalancer)

namespace Balancer

/-- Any other text stands for round robin. -/
def withStrategy (servers : List Server) (strategy : Text) : Balancer :=
  if strategy ∈ ["round_robin".toList, "roundRobin".toList] then .roundRobin (.new servers)
  else if strategy = "weighted" then .weighted (.new servers)
  else if strategy ∈ ["least_conn".toList, "leastConn".toList] then .leastConn (.new servers)
  else if strategy = "random" then .random (.new servers)
  else .roundRobin (.new servers)

/-- The word is for the random strategy. -/
def nextServer (word : UInt32) : Balancer → Option Server × Balancer
  | .roundRobin b => (b.nextServer.1, .roundRobin b.nextServer.2)
  | .weighted b => (b.nextServer.1, .weighted b.nextServer.2)
  | .leastConn b => (b.nextServer, .leastConn b)
  | .random b => (b.nextServer word, .random b)

def markHealthy (index : Nat) : Balancer → Balancer
  | .roundRobin b => .roundRobin (b.markHealthy index)
  | .weighted b => .weighted (b.markHealthy index)
  | .leastConn b => .leastConn (b.markHealthy index)
  | .random b => .random (b.markHealthy index)

def markUnhealthy (index : Nat) : Balancer → Balancer
  | .roundRobin b => .roundRobin (b.markUnhealthy index)
  | .weighted b => .weighted (b.markUnhealthy index)
  | .leastConn b => .leastConn (b.markUnhealthy index)
  | .random b => .random (b.markUnhealthy index)

/-- Only one strategy counts connections; the others ignore this here. -/
def acquire (index : Nat) : Balancer → Balancer
  | .leastConn b => .leastConn (b.acquire index)
  | b => b

def release (index : Nat) : Balancer → Balancer
  | .leastConn b => .leastConn (b.release index)
  | b => b

/-! ## What the strategies have in common -/

def servers : Balancer → List Server
  | .roundRobin b => b.servers
  | .weighted b => b.configs
  | .leastConn b => b.servers.map (·.config)
  | .random b => b.servers.map (·.config)

/-- The health flags, one for each server. -/
def flags : Balancer → List Bool
  | .roundRobin b => b.healthy
  | .weighted b => b.servers.map (·.healthy)
  | .leastConn b => b.servers.map (·.healthy)
  | .random b => b.servers.map (·.healthy)

def isHealthy (b : Balancer) (index : Nat) : Bool := b.flags[index]?.getD false

def nextIndex (word : UInt32) : Balancer → Option Nat
  | .roundRobin b => if b.servers.isEmpty then none else some b.nextIndex
  | .weighted b => b.nextIndex
  | .leastConn b => b.nextIndex
  | .random b => b.nextIndex word

lemma nextServer_fst (word : UInt32) (b : Balancer) :
    (b.nextServer word).1 = (b.nextIndex word).bind fun index => b.servers[index]? := by
  cases b with
  | roundRobin b =>
    by_cases hempty : b.servers.isEmpty
    · simp [nextServer, nextIndex, RoundRobinBalancer.nextServer, hempty]
    · simp [nextServer, nextIndex, RoundRobinBalancer.nextServer, hempty, servers]
  | weighted b => exact b.nextServer_fst
  | leastConn b => simp [nextServer, nextIndex, servers, LeastConnBalancer.nextServer]
  | random b => simp [nextServer, nextIndex, servers, RandomBalancer.nextServer]

/-! ## Runs -/

inductive Call where
  | nextServer (word : UInt32)
  | markHealthy (index : Nat)
  | markUnhealthy (index : Nat)
  | acquire (index : Nat)
  | release (index : Nat)
  deriving Repr, DecidableEq

def step (b : Balancer) : Call → Balancer
  | .nextServer word => (b.nextServer word).2
  | .markHealthy index => b.markHealthy index
  | .markUnhealthy index => b.markUnhealthy index
  | .acquire index => b.acquire index
  | .release index => b.release index

def run (b : Balancer) (calls : List Call) : Balancer := calls.foldl step b

/-- What every state keeps: the servers, and the totals of the weighted strategy. -/
def Keeps (servers : List Server) (b : Balancer) : Prop :=
  b.servers = servers ∧
    match b with
    | .weighted b => b.Consistent
    | _ => True

lemma keeps_withStrategy (servers : List Server) (strategy : Text) :
    Keeps servers (withStrategy servers strategy) := by
  unfold withStrategy
  split
  · exact ⟨rfl, trivial⟩
  split
  · exact ⟨WeightedBalancer.configs_new servers, WeightedBalancer.consistent_new servers⟩
  split
  · exact ⟨by simp [Balancer.servers, LeastConnBalancer.new, Function.comp_def], trivial⟩
  split
  · exact ⟨by simp [Balancer.servers, RandomBalancer.new, Function.comp_def], trivial⟩
  · exact ⟨rfl, trivial⟩

variable {servers : List Server} {b : Balancer}

lemma Keeps.step (h : Keeps servers b) (call : Call) : Keeps servers (b.step call) := by
  obtain ⟨hservers, hextra⟩ := h
  refine ⟨Eq.trans ?_ hservers, ?_⟩
  -- marks and connection counts change a server in place, beside its configuration
  · cases b with
    | roundRobin b =>
      cases call <;>
        simp [Balancer.step, nextServer, markHealthy, markUnhealthy, acquire, release,
          Balancer.servers]
    | weighted b =>
      cases call <;>
        simp [Balancer.step, nextServer, markHealthy, markUnhealthy, acquire, release,
          Balancer.servers]
    | leastConn b =>
      cases call with
      | nextServer => rfl
      | markHealthy | markUnhealthy | acquire | release => exact map_modify_eq fun s => rfl
    | random b =>
      cases call with
      | markHealthy | markUnhealthy => exact map_modify_eq fun s => rfl
      | nextServer | acquire | release => rfl
  · cases b with
    | weighted b =>
      cases call with
      | nextServer => exact hextra.nextServer
      | markHealthy index => exact hextra.markHealthy index
      | markUnhealthy index => exact hextra.markUnhealthy index
      | acquire | release => exact hextra
    | roundRobin | leastConn | random => cases call <;> trivial

lemma Keeps.run (h : Keeps servers b) (calls : List Call) : Keeps servers (b.run calls) := by
  induction calls generalizing b with
  | nil => exact h
  | cons call calls ih => exact ih (h.step call)

/-! ## Healthy servers -/

/-- What a strategy needs to come upon a healthy server. -/
def SeesHealthy : Balancer → Prop
  | .roundRobin b => ∃ i < b.servers.length,
      b.isHealthy ((b.counter.toNat + i) % 2 ^ 64 % b.servers.length) = true
  | .weighted b => (∃ s, b.servers[0]? = some s ∧ s.healthy = true) ∨
      ∃ s ∈ b.servers, s.healthy = true ∧ s.config.weight ≠ 0
  | .leastConn _ => True
  | .random b => (∃ s, b.servers[0]? = some s ∧ s.healthy = true) ∨
      b.totalWeight ≠ 0 ∧ b.healthyWeight ≠ 0

lemma Keeps.nextIndex_iff (h : Keeps servers b)
    (hne : servers ≠ []) (hsome : ∃ index, b.isHealthy index = true) (word : UInt32) :
    (∃ index, b.nextIndex word = some index ∧ b.isHealthy index) ↔ b.SeesHealthy := by
  obtain ⟨hservers, hextra⟩ := h
  rw [← hservers] at hne
  cases b with
  | roundRobin b =>
    have hnonempty : b.servers ≠ [] := hne
    have hindex : nextIndex word (.roundRobin b) = some b.nextIndex :=
      if_neg (by simpa using hnonempty)
    rw [hindex]
    simp only [Option.some.injEq, exists_eq_left', SeesHealthy, ← b.slot_eq]
    exact RoundRobinBalancer.isHealthy_nextIndex_iff hnonempty
  | weighted b =>
    have hnonempty : b.servers ≠ [] := fun hnil => hne (by simp [Balancer.servers,
      WeightedBalancer.configs, hnil])
    simp only [isHealthy, flags, getElem?_flag_iff, SeesHealthy]
    rw [← hextra.nextIndex_healthy_iff hnonempty]
    simp only [nextIndex, exists_and_left]
  | leastConn b =>
    obtain ⟨index, hindex⟩ := hsome
    obtain ⟨s, hs, hhealthy⟩ := (getElem?_flag_iff _ _ _).mp hindex
    obtain ⟨k, t, hk, ht, ht'⟩ :=
      LeastConnBalancer.exists_nextIndex (List.mem_of_getElem? hs) hhealthy
    exact iff_of_true ⟨k, hk, (getElem?_flag_iff _ _ _).mpr ⟨t, ht, ht'⟩⟩ trivial
  | random b =>
    have hnonempty : b.servers ≠ [] := fun hnil => hne (by simp [Balancer.servers, hnil])
    simp only [isHealthy, flags, getElem?_flag_iff, SeesHealthy]
    rw [← RandomBalancer.nextIndex_healthy_iff hnonempty word]
    simp only [nextIndex, exists_and_left]

/-- **Which states make a strategy select a healthy server**, of all states behind calls that
leave a server marked healthy. -/
theorem nextServer_healthy_iff (strategy : Text) {servers : List Server} (hne : servers ≠ [])
    (calls : List Call) (word : UInt32)
    (hsome : ∃ index, ((withStrategy servers strategy).run calls).isHealthy index = true) :
    (∃ index, ((withStrategy servers strategy).run calls).isHealthy index = true ∧
      ((withStrategy servers strategy).run calls).nextIndex word = some index ∧
      (((withStrategy servers strategy).run calls).nextServer word).1 = servers[index]?) ↔
      ((withStrategy servers strategy).run calls).SeesHealthy := by
  have hkeeps := (keeps_withStrategy servers strategy).run calls
  generalize (withStrategy servers strategy).run calls = b at hkeeps hsome ⊢
  rw [← hkeeps.nextIndex_iff hne hsome word]
  constructor
  · rintro ⟨index, hhealthy, hindex, -⟩
    exact ⟨index, hindex, hhealthy⟩
  · rintro ⟨index, hindex, hhealthy⟩
    refine ⟨index, hhealthy, hindex, ?_⟩
    rw [nextServer_fst, hindex, Option.bind_some, hkeeps.1]

def pair (weight : UInt32) : List Server :=
  [{ url := "http://10.0.0.1", weight := 5 }, { url := "http://10.0.0.2", weight := weight }]

theorem nextServer_healthy_pair :
    ((withStrategy (pair 3) "random".toList).run [.markUnhealthy 0]).SeesHealthy ∧
      ∃ index, ((withStrategy (pair 3) "random".toList).run [.markUnhealthy 0]).isHealthy
          index = true ∧
        ((withStrategy (pair 3) "random".toList).run [.markUnhealthy 0]).nextIndex 7 =
          some index ∧
        (((withStrategy (pair 3) "random".toList).run [.markUnhealthy 0]).nextServer 7).1 =
          (pair 3)[index]? := by
  have hsees : ((withStrategy (pair 3) "random").run [.markUnhealthy 0]).SeesHealthy :=
    .inr (by decide)
  refine ⟨hsees, (nextServer_healthy_iff "random" (by simp [pair]) [.markUnhealthy 0] 7
    ⟨1, by decide⟩).mpr hsees⟩

/-- The weighted strategy answers with the unhealthy first server although the second one is
healthy, because that has no weight. -/
theorem weighted_selects_unhealthy :
    ((withStrategy (pair 0) "weighted").run [.markUnhealthy 0]).isHealthy 1 = true ∧
      ((withStrategy (pair 0) "weighted").run [.markUnhealthy 0]).nextIndex 0 = some 0 ∧
      (((withStrategy (pair 0) "weighted").run [.markUnhealthy 0]).nextServer 0).1 =
        (pair 0)[0]? ∧
      ((withStrategy (pair 0) "weighted".toList).run [.markUnhealthy 0]).isHealthy 0 =
        false := by
  decide

end Balancer

end TrafficCop
