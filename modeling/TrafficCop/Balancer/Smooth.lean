import TrafficCop.Balancer.Weighted
import TrafficCop.Lib.SmoothRoundRobin

/-!
# The weighted balancer hands out exact shares

As long as all servers are healthy, a selection of `WeightedBalancer` is a round of smooth weighted
round robin, with the current weights as the balances.
-/

namespace TrafficCop

open Rust SmoothRoundRobin List

def serverWeights (servers : List Server) : List Nat := servers.map fun s => s.weight.toNat

namespace WeightedBalancer

def currentWeight (b : WeightedBalancer) (i : Nat) : Int :=
  (b.servers[i]?.map (·.currentWeight)).getD 0

lemma currentWeight_eq {b : WeightedBalancer} {i : Nat} {s : WeightedServer}
    (hs : b.servers[i]? = some s) : b.currentWeight i = s.currentWeight := by
  rw [currentWeight, hs]
  rfl

/-- The first healthy server with the highest raised weight is selected and pays the total, the
others keep what they are raised to. -/
lemma Consistent.nextServer_selects {b : WeightedBalancer} (h : b.Consistent)
    (htotal : b.cachedTotalWeight ≠ 0) :
    ∃ i s, b.nextIndex = some i ∧ b.servers[i]? = some s ∧ s.healthy ∧
      (∀ j t, b.servers[j]? = some t → t.healthy →
        t.gain ≤ s.gain ∧ (j < i → t.gain < s.gain)) ∧
      ∀ j t, b.servers[j]? = some t → b.nextServer.2.currentWeight j =
        t.raised.currentWeight - if j = i then b.cachedTotalWeight else 0 := by
  obtain ⟨t, ht, ht', -⟩ := h.total_ne_zero_iff.mp htotal
  obtain ⟨i, s, hbest, hs, hhealthy, hmax⟩ := exists_raise ht ht'
  obtain ⟨hindex, hservers⟩ := nextServer_of_raise htotal hbest
  refine ⟨i, s, hindex, hs, hhealthy, hmax, fun j t ht => ?_⟩
  rw [currentWeight, hservers, getElem?_modify, getElem?_map, ht]
  by_cases hij : j = i
  · simp [hij]
  · simp [hij, Ne.symm hij]

/-- A balancer for the given servers, all of them healthy. -/
structure AllHealthy (servers : List Server) (b : WeightedBalancer) : Prop where
  configs : b.configs = servers
  healthy : ∀ s ∈ b.servers, s.healthy = true
  consistent : b.Consistent

lemma allHealthy_new (servers : List Server) : AllHealthy servers (new servers) where
  configs := configs_new servers
  healthy := by simp [new]
  consistent := consistent_new servers

namespace AllHealthy

variable {servers : List Server} {b : WeightedBalancer}

lemma length_eq (h : AllHealthy servers b) :
    b.servers.length = (serverWeights servers).length := by
  rw [← h.configs, serverWeights, length_map, WeightedBalancer.configs, length_map]

lemma nextServer (h : AllHealthy servers b) : AllHealthy servers b.nextServer.2 where
  configs := (configs_nextServer b).trans h.configs
  healthy := by
    have hflags := b.map_nextServer (f := (·.healthy)) fun _ _ => rfl
    intro s hs
    have hmem : s.healthy ∈ b.servers.map (·.healthy) := by
      rw [← hflags]
      exact mem_map_of_mem hs
    obtain ⟨t, ht, heq⟩ := mem_map.mp hmem
    rw [← heq]
    exact h.healthy t ht
  consistent := h.consistent.nextServer

lemma map_effectiveWeight (h : AllHealthy servers b) :
    b.servers.map (fun s => s.effectiveWeight.toNat) = serverWeights servers := by
  rw [← h.configs, serverWeights, WeightedBalancer.configs, map_map]
  refine map_congr_left fun s hs => ?_
  rw [h.consistent.effective s hs]
  rfl

lemma cachedTotalWeight_eq (h : AllHealthy servers b) :
    b.cachedTotalWeight = listTotal (serverWeights servers) := by
  rw [h.consistent.cached, filter_eq_self.mpr h.healthy, sumWeights, ← h.map_effectiveWeight]
  exact foldl_intCast _ _

lemma gain_eq (h : AllHealthy servers b) {i : Nat} {s : WeightedServer}
    (hs : b.servers[i]? = some s) :
    s.gain = b.currentWeight i + ((serverWeights servers).getD i 0 : Nat) := by
  rw [← h.map_effectiveWeight, getD_eq_getElem?_getD, getElem?_map, hs, currentWeight, hs]
  rfl

lemma nextServer_round (h : AllHealthy servers b) (hpos : 0 < listTotal (serverWeights servers)) :
    ∃ i < (serverWeights servers).length, b.nextIndex = some i ∧
      (∀ j < (serverWeights servers).length,
        b.currentWeight j + ((serverWeights servers).getD j 0 : Nat) ≤
          b.currentWeight i + ((serverWeights servers).getD i 0 : Nat)) ∧
      ∀ j < (serverWeights servers).length, b.nextServer.2.currentWeight j =
        b.currentWeight j + ((serverWeights servers).getD j 0 : Nat) -
          if j = i then (listTotal (serverWeights servers) : Int) else 0 := by
  have htotal : b.cachedTotalWeight ≠ 0 := by
    rw [h.cachedTotalWeight_eq]
    omega
  obtain ⟨i, s, hindex, hs, -, hmax, hnext⟩ := h.consistent.nextServer_selects htotal
  have hi := (List.getElem?_eq_some_iff.mp hs).1
  refine ⟨i, h.length_eq ▸ hi, hindex, ?_, ?_⟩
  · intro j hj
    rw [← h.length_eq] at hj
    rw [← h.gain_eq hs, ← h.gain_eq (getElem?_eq_getElem hj)]
    exact (hmax j _ (getElem?_eq_getElem hj) (h.healthy _ (getElem_mem hj))).1
  · intro j hj
    rw [← h.length_eq] at hj
    have hj' : b.servers[j]? = some b.servers[j] := getElem?_eq_getElem hj
    have hraised : b.servers[j].raised.currentWeight = b.servers[j].gain := by
      rw [WeightedServer.raised, if_pos (h.healthy _ (getElem_mem hj))]
    rw [hnext j _ hj', hraised, h.gain_eq hj', h.cachedTotalWeight_eq]

end AllHealthy

lemma exactShares_new {servers : List Server} (hpos : 0 < listTotal (serverWeights servers)) :
    ExactShares (serverWeights servers)
      (count (fun b => b.nextServer.2) nextIndex (new servers))
      fun k => ((fun b : WeightedBalancer => b.nextServer.2)^[k] (new servers)).currentWeight := by
  refine exactShares_of_step hpos (allHealthy_new servers) ?_ ?_
  · intro i _
    rw [currentWeight, new, getElem?_map]
    cases servers[i]? <;> rfl
  · intro b hb _
    exact ⟨hb.nextServer, hb.nextServer_round hpos⟩

end WeightedBalancer

end TrafficCop
