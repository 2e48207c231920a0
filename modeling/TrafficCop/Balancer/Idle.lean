import TrafficCop.Balancer.Rotation
import TrafficCop.Balancer.Smooth
import TrafficCop.Lib.Transition

/-!
# Servers of weight 0

Whether a server of weight 0 is kept out of the selections. Round robin, which the weights 0 and 1
lead to, does not look at weights. In the weighted strategy a server with a weight is below 0 after
it has been selected, and stays there while those are down that it took turns with.
-/

namespace TrafficCop

open Rust List Option

namespace WeightedBalancer

/-- The current weight of a server of weight 0 stays at 0. -/
def IdleAtZero (b : WeightedBalancer) : Prop :=
  ∀ s ∈ b.servers, s.config.weight = 0 → s.currentWeight = 0

lemma idleAtZero_new (servers : List Server) : (new servers).IdleAtZero := by
  intro s hs _
  obtain ⟨config, -, rfl⟩ := mem_map.mp hs
  rfl

lemma IdleAtZero.of_map {b b' : WeightedBalancer} (h : b.IdleAtZero)
    (hmap : b'.servers.map (fun s => (s.config, s.currentWeight)) =
      b.servers.map fun s => (s.config, s.currentWeight)) : b'.IdleAtZero := by
  intro s hs hweight
  have hmem : (s.config, s.currentWeight) ∈ b.servers.map fun s => (s.config, s.currentWeight) := by
    rw [← hmap]
    exact mem_map_of_mem hs
  obtain ⟨t, ht, heq⟩ := mem_map.mp hmem
  obtain ⟨hconfig, hcurrent⟩ := Prod.mk.inj heq
  rw [← hcurrent]
  exact h t ht (hconfig ▸ hweight)

lemma IdleAtZero.markHealthy {b : WeightedBalancer} (h : b.IdleAtZero) (index : Nat) :
    (b.markHealthy index).IdleAtZero := by
  apply h.of_map
  rw [servers_markHealthy]
  exact map_modify_eq fun s => rfl

lemma IdleAtZero.markUnhealthy {b : WeightedBalancer} (h : b.IdleAtZero) (index : Nat) :
    (b.markUnhealthy index).IdleAtZero := by
  apply h.of_map
  rw [servers_markUnhealthy]
  exact map_modify_eq fun s => rfl

lemma IdleAtZero.gain_eq_zero {b : WeightedBalancer} (h : b.IdleAtZero) (hb : b.Consistent)
    {s : WeightedServer} (hs : s ∈ b.servers) (hweight : s.config.weight = 0) : s.gain = 0 := by
  rw [WeightedServer.gain, h s hs hweight, hb.effective s hs, hweight]
  rfl

lemma IdleAtZero.nextServer {b : WeightedBalancer} (h : b.IdleAtZero) (hb : b.Consistent)
    (hspared : b.cachedTotalWeight ≠ 0 → ∀ i s, b.nextIndex = some i → b.servers[i]? = some s →
      s.config.weight ≠ 0) : b.nextServer.2.IdleAtZero := by
  by_cases htotal : b.cachedTotalWeight = 0
  · have hsame : b.nextServer.2 = b := by
      rw [WeightedBalancer.nextServer, if_pos htotal]
      split <;> rfl
    rwa [hsame]
  obtain ⟨i, s, hindex, hs, -, -, hcurrent⟩ := hb.nextServer_selects htotal
  intro t' ht' hweight
  obtain ⟨j, hj⟩ := mem_iff_getElem?.mp ht'
  obtain ⟨t, ht, hconfig⟩ : ∃ t, b.servers[j]? = some t ∧ t.config = t'.config := by
    have hget : b.nextServer.2.configs[j]? = some t'.config := by
      rw [configs, getElem?_map, hj, map_some]
    rw [configs_nextServer, configs, getElem?_map] at hget
    exact map_eq_some_iff.mp hget
  have hmem := mem_of_getElem? ht
  have hne : j ≠ i := by
    rintro rfl
    obtain rfl : s = t := some.inj (hs.symm.trans ht)
    exact hspared htotal j s hindex hs (hconfig ▸ hweight)
  have hraised : t.raised.currentWeight = 0 := by
    rw [WeightedServer.raised]
    split
    · exact h.gain_eq_zero hb hmem (hconfig ▸ hweight)
    · exact h t hmem (hconfig ▸ hweight)
  rw [← currentWeight_eq hj, hcurrent j t ht, hraised, if_neg hne, Int.sub_zero]

end WeightedBalancer

namespace LoadBalancer

variable (b : LoadBalancer)

/-- A server that is to be selected. -/
def HasWeight (index : Nat) : Prop :=
  ∃ server, b.servers[index]? = some server ∧ server.weight ≠ 0

/-- A server that is to be kept out. -/
def IsIdle (index : Nat) : Prop :=
  ∃ server, b.servers[index]? = some server ∧ server.weight = 0

/-- The next selection is no server of weight 0 while a healthy one has a weight. -/
def SparesIdle : Prop :=
  ∀ server, b.nextServer.1 = some server → server.weight = 0 →
    ¬∃ index, b.isHealthy index = true ∧ b.HasWeight index

/-- The position that a scan comes to at its `i`-th step, after `n` selections. -/
def scanned (n i : Nat) : Nat := (n + i) % 2 ^ 64 % b.servers.length

/-- After `n` selections, a healthy server of weight 0 comes behind one with a weight: for round
robin in the order of the scan, or the start if no server is healthy (the counter may wrap); for the
weighted strategy one is raised above 0, or to 0 and is earlier. -/
def OutranksIdle (n : Nat) (b : LoadBalancer) : Prop :=
  match b with
  | .roundRobin _ =>
    (∀ i < b.servers.length, b.isHealthy (b.scanned n i) = true → b.IsIdle (b.scanned n i) →
      ∃ j < i, b.isHealthy (b.scanned n j) = true ∧ b.HasWeight (b.scanned n j)) ∧
    ((∀ i < b.servers.length, b.isHealthy (b.scanned n i) = false) → b.HasWeight (b.scanned n 0))
  | .weighted w =>
    ∀ idle, b.isHealthy idle = true → b.IsIdle idle →
      ∃ index s, w.servers[index]? = some s ∧ s.healthy = true ∧ s.config.weight ≠ 0 ∧
        (0 < s.gain ∨ s.gain = 0 ∧ index < idle)

variable {index : Nat} {b : WeightedBalancer} {s : WeightedServer}

lemma isIdle_iff {b : LoadBalancer} (h : index < b.servers.length) :
    b.IsIdle index ↔ ¬b.HasWeight index := by
  rw [IsIdle, HasWeight, getElem?_eq_getElem h]
  simp

lemma HasWeight.lt {b : LoadBalancer} (h : b.HasWeight index) : index < b.servers.length := by
  obtain ⟨server, hserver, -⟩ := h
  exact (List.getElem?_eq_some_iff.mp hserver).1

lemma sparesIdle_iff {b : LoadBalancer}
    (hcan : ∃ index, b.isHealthy index ∧ b.HasWeight index)
    (hindex : b.nextIndex = some index) (hlt : index < b.servers.length) :
    b.SparesIdle ↔ b.HasWeight index := by
  have hserver : b.nextServer.1 = some b.servers[index] := by
    rw [nextServer_fst, hindex, bind_some, getElem?_eq_getElem hlt]
  constructor
  · intro h
    refine ⟨b.servers[index], getElem?_eq_getElem hlt, fun hzero => ?_⟩
    exact h _ hserver hzero hcan
  · rintro ⟨server, hget, hweight⟩ server' hserver' hzero
    rw [getElem?_eq_getElem hlt, ← hserver, hserver'] at hget
    cases hget
    exact absurd hzero hweight

/-! ## Round robin -/

lemma hasWeight_nextIndex_iff {b : RoundRobinBalancer} (hne : b.servers ≠ []) :
    HasWeight (.roundRobin b) b.nextIndex ↔
      (∀ i < b.servers.length, b.isHealthy (b.slot i) → IsIdle (.roundRobin b) (b.slot i) →
        ∃ j < i, b.isHealthy (b.slot j) ∧ HasWeight (.roundRobin b) (b.slot j)) ∧
      ((∀ i < b.servers.length, b.isHealthy (b.slot i) = false) →
        HasWeight (.roundRobin b) (b.slot 0)) := by
  have hlt : ∀ i, b.slot i < (LoadBalancer.roundRobin b).servers.length := fun i =>
    Nat.mod_lt _ (length_pos_of_ne_nil hne)
  rw [RoundRobinBalancer.nextIndex, find?_map]
  cases hfind : (List.range b.servers.length).find? (b.isHealthy ∘ b.slot) with
  | some first =>
    obtain ⟨hhealthy, hmem, hbefore⟩ := find?_range_eq_some.mp hfind
    rw [map_some, getD_some]
    constructor
    · intro hweight
      refine ⟨fun i hi hup hidle => ?_, fun hnone => ?_⟩
      · rcases Nat.lt_trichotomy i first with hi' | rfl | hi'
        · exact absurd hup (by simpa using hbefore i hi')
        · exact absurd hweight ((isIdle_iff (hlt _)).mp hidle)
        · exact ⟨first, hi', hhealthy, hweight⟩
      · have hdown := hnone first (mem_range.mp hmem)
        rw [Function.comp_apply, hdown] at hhealthy
        cases hhealthy
    · rintro ⟨hranked, -⟩
      by_contra hweight
      obtain ⟨j, hj, hup, -⟩ := hranked first (mem_range.mp hmem) hhealthy
        ((isIdle_iff (hlt _)).mpr hweight)
      exact absurd hup (by simpa using hbefore j hj)
  | none =>
    -- nothing healthy is met, and the start of the scan is returned
    have hnone : ∀ i < b.servers.length, b.isHealthy (b.slot i) = false := fun i hi => by
      simpa using find?_eq_none.mp hfind i (mem_range.mpr hi)
    have hstart : b.counter.toNat % b.servers.length = b.slot 0 := by
      rw [RoundRobinBalancer.slot_eq, Nat.add_zero, Nat.mod_eq_of_lt b.counter.toNat_lt]
    rw [map_none, getD_none, hstart]
    constructor
    · intro hweight
      refine ⟨fun i hi hup => ?_, fun _ => hweight⟩
      rw [hnone i hi] at hup
      cases hup
    · rintro ⟨-, hfallback⟩
      exact hfallback hnone

/-! ## The weighted strategy -/

lemma isHealthy_weighted_iff :
    isHealthy (.weighted b) index ↔ ∃ s, b.servers[index]? = some s ∧ s.healthy :=
  getElem?_flag_iff _ _ _

lemma getElem?_weighted (hs : b.servers[index]? = some s) :
    (LoadBalancer.weighted b).servers[index]? = some s.config := by
  show b.configs[index]? = _
  rw [WeightedBalancer.configs, getElem?_map, hs, map_some]

lemma hasWeight_weighted_iff (hs : b.servers[index]? = some s) :
    HasWeight (.weighted b) index ↔ s.config.weight ≠ 0 := by
  simp [HasWeight, getElem?_weighted hs]

lemma isIdle_weighted_iff (hs : b.servers[index]? = some s) :
    IsIdle (.weighted b) index ↔ s.config.weight = 0 := by
  simp [IsIdle, getElem?_weighted hs]

/-- The selected server has a weight exactly if such a one outranks every idle server. -/
lemma hasWeight_selected_iff (hb : b.Consistent) (hzero : b.IdleAtZero)
    (htotal : b.cachedTotalWeight ≠ 0) (hindex : b.nextIndex = some index) (n : Nat) :
    HasWeight (.weighted b) index ↔ OutranksIdle n (.weighted b) := by
  obtain ⟨i, s, hi, hs, hhealthy, hmax, -⟩ := hb.nextServer_selects htotal
  obtain rfl : i = index := some.inj (hi.symm.trans hindex)
  rw [hasWeight_weighted_iff hs]
  constructor
  · intro hweight idle hup hidle
    obtain ⟨t, ht, hup⟩ := isHealthy_weighted_iff.mp hup
    have hidle := (isIdle_weighted_iff ht).mp hidle
    have hgain := hzero.gain_eq_zero hb (mem_of_getElem? ht) hidle
    obtain ⟨hle, hbefore⟩ := hmax idle t ht hup
    refine ⟨i, s, hs, hhealthy, hweight, ?_⟩
    rcases Nat.lt_trichotomy i idle with hlt | rfl | hgt
    · omega
    · obtain rfl : s = t := some.inj (hs.symm.trans ht)
      exact absurd hidle hweight
    · -- an idle server before the selected one is raised to less
      have hless := hbefore hgt
      omega
  · intro hranked hidle
    obtain ⟨k, t, ht, hup, hweight, hgain⟩ := hranked i
      (isHealthy_weighted_iff.mpr ⟨s, hs, hhealthy⟩) ((isIdle_weighted_iff hs).mpr hidle)
    have hgain' := hzero.gain_eq_zero hb (mem_of_getElem? hs) hidle
    obtain ⟨hle, hbefore⟩ := hmax k t ht hup
    rcases hgain with hpos | ⟨heq, hlt⟩
    · omega
    · have hless := hbefore hlt
      omega

/-! ## Runs -/

/-- The counter of round robin has the number of selections, and the servers of weight 0 have the
current weight 0. -/
def Remembers (before : List Call) : LoadBalancer → Prop
  | .roundRobin b => b.servers ≠ [] → b.counter = UInt64.ofNat (before.count .nextServer)
  | .weighted b => b.IdleAtZero

lemma remembers_fromLoadBalancer (lb : LoadBalancerService) :
    (fromLoadBalancer lb).Remembers [] := by
  rw [fromLoadBalancer]
  split
  · exact WeightedBalancer.idleAtZero_new _
  · exact fun _ => rfl

lemma total_ne_zero (hb : b.Consistent)
    (hcan : ∃ index, isHealthy (.weighted b) index ∧ HasWeight (.weighted b) index) :
    b.cachedTotalWeight ≠ 0 := by
  obtain ⟨index, hup, hweight⟩ := hcan
  obtain ⟨s, hs, hup⟩ := isHealthy_weighted_iff.mp hup
  exact hb.total_ne_zero_iff.mpr
    ⟨s, mem_of_getElem? hs, hup, (hasWeight_weighted_iff hs).mp hweight⟩

variable {servers : List Server} {before : List Call}

lemma Remembers.step {b : LoadBalancer}
    (h : b.Remembers before) (hkeeps : Keeps servers b) {call : Call}
    (hspares : call = .nextServer → b.SparesIdle) :
    (b.step call).Remembers (before ++ [call]) := by
  cases b with
  | roundRobin b =>
    cases call with
    | nextServer =>
      intro hne
      have hne : b.servers ≠ [] := by
        rwa [RoundRobinBalancer.servers_nextServer] at hne
      rw [RoundRobinBalancer.nextServer_snd hne, count_append, count_singleton_self,
        UInt64.ofNat_add]
      exact congrArg (· + 1) (h hne)
    | markHealthy index | markUnhealthy index =>
      intro hne
      refine (h hne).trans (congrArg UInt64.ofNat ?_)
      simp
  | weighted b =>
    cases call with
    | nextServer =>
      refine WeightedBalancer.IdleAtZero.nextServer h hkeeps.2 fun htotal i s hi hs => ?_
      obtain ⟨t, ht, hup, hweight⟩ := hkeeps.2.total_ne_zero_iff.mp htotal
      obtain ⟨j, hj⟩ := mem_iff_getElem?.mp ht
      have hcan : ∃ index, isHealthy (.weighted b) index ∧ HasWeight (.weighted b) index :=
        ⟨j, isHealthy_weighted_iff.mpr ⟨t, hj, hup⟩, (hasWeight_weighted_iff hj).mpr hweight⟩
      have hlt := (List.getElem?_eq_some_iff.mp (getElem?_weighted hs)).1
      exact (hasWeight_weighted_iff hs).mp ((sparesIdle_iff hcan hi hlt).mp (hspares rfl))
    | markHealthy index => exact WeightedBalancer.IdleAtZero.markHealthy h index
    | markUnhealthy index => exact WeightedBalancer.IdleAtZero.markUnhealthy h index

lemma Remembers.sparesIdle_iff {b : LoadBalancer}
    (h : b.Remembers before) (hkeeps : Keeps servers b) :
    b.SparesIdle ↔ ((∃ index, b.isHealthy index ∧ b.HasWeight index) →
      b.OutranksIdle (before.count .nextServer)) := by
  by_cases hcan : ∃ index, b.isHealthy index ∧ b.HasWeight index
  swap
  · exact iff_of_true (fun _ _ _ => hcan) fun hcan' => absurd hcan' hcan
  have hne : b.servers ≠ [] := by
    obtain ⟨_, -, hweight⟩ := hcan
    exact ne_nil_of_length_pos (Nat.zero_lt_of_lt hweight.lt)
  rw [imp_iff_right hcan]
  cases b with
  | roundRobin b =>
    have hindex : (LoadBalancer.roundRobin b).nextIndex = some b.nextIndex :=
      if_neg (mt List.isEmpty_iff.mp hne)
    have hslot : ∀ i, scanned (.roundRobin b) (before.count .nextServer) i = b.slot i := by
      intro i
      rw [RoundRobinBalancer.slot_eq, h hne, UInt64.toNat_ofNat', Nat.mod_add_mod]
      rfl
    rw [LoadBalancer.sparesIdle_iff hcan hindex (RoundRobinBalancer.nextIndex_lt hne),
      hasWeight_nextIndex_iff hne, OutranksIdle]
    simp only [hslot]
    rfl
  | weighted b =>
    have hservers : b.servers ≠ [] := mt map_eq_nil_iff.mpr hne
    obtain ⟨index, hlt, hindex⟩ := WeightedBalancer.exists_nextIndex hservers
    have hlt' := (List.getElem?_eq_some_iff.mp
      (getElem?_weighted (getElem?_eq_getElem hlt))).1
    rw [LoadBalancer.sparesIdle_iff hcan hindex hlt']
    exact hasWeight_selected_iff hkeeps.2 h (total_ne_zero hkeeps.2 hcan) hindex _

/-- **When servers of weight 0 are spared.** Over selections and marks, none is returned while one
with a weight is healthy, exactly if at each selection with such a one these outrank the healthy
servers of weight 0. -/
theorem spares_idle_iff (lb : LoadBalancerService) (calls : List Call) :
    (∀ before, before ++ [.nextServer] <+: calls →
        ((fromLoadBalancer lb).run before).SparesIdle) ↔
      ∀ before, before ++ [.nextServer] <+: calls →
        (∃ index, ((fromLoadBalancer lb).run before).isHealthy index = true ∧
          ((fromLoadBalancer lb).run before).HasWeight index) →
        ((fromLoadBalancer lb).run before).OutranksIdle (before.count .nextServer) := by
  -- the conditions at any call, which say something at selections only
  have hkeep : ∀ before b (call : Call), Keeps lb.servers b ∧ b.Remembers before →
      (call = .nextServer → b.SparesIdle) →
      Keeps lb.servers (b.step call) ∧ (b.step call).Remembers (before ++ [call]) :=
    fun before b call h hspares => ⟨h.1.step call, h.2.step h.1 hspares⟩
  have hiff : ∀ before b (call : Call), Keeps lb.servers b ∧ b.Remembers before →
      ((call = .nextServer → b.SparesIdle) ↔
        (call = .nextServer → (∃ index, b.isHealthy index ∧ b.HasWeight index) →
          b.OutranksIdle (before.count .nextServer))) :=
    fun before b call h => imp_congr_right fun _ => h.2.sparesIdle_iff h.1
  have hcongr := Transition.steps_congr (f := LoadBalancer.step)
    (I := fun before b => Keeps lb.servers b ∧ b.Remembers before)
    ⟨keeps_fromLoadBalancer lb, remembers_fromLoadBalancer lb⟩ hkeep hiff calls
  constructor
  · intro h before hprefix
    exact hcongr.mp (fun before call hprefix hcall => h before (hcall ▸ hprefix)) before _ hprefix
      rfl
  · intro h before hprefix
    exact hcongr.mpr (fun before call hprefix hcall => h before (hcall ▸ hprefix)) before _ hprefix
      rfl

def drainedPair : LoadBalancerService :=
  { servers := [{ url := "http://10.0.0.1", weight := 1 },
      { url := "http://10.0.0.2", weight := 0 }] }

def drainedThree : LoadBalancerService :=
  { servers := [{ url := "http://10.0.0.1", weight := 0 },
      { url := "http://10.0.0.2", weight := 2 },
      { url := "http://10.0.0.3", weight := 5 }] }

/-- Weights of 0 and 1 are round robin, which gives every second request to the drained server.
With others, a server that has had its turn is below the drained one. -/
theorem idle_server_selected :
    ¬((fromLoadBalancer drainedPair).run [.nextServer]).SparesIdle ∧
      ¬((fromLoadBalancer drainedThree).run
        [.nextServer, .nextServer, .markUnhealthy 2]).SparesIdle := by
  refine ⟨fun h => ?_, fun h => ?_⟩
  · exact h { url := "http://10.0.0.2", weight := 0 } (by decide) rfl
      ⟨0, by decide, _, rfl, by decide⟩
  · exact h { url := "http://10.0.0.1", weight := 0 } (by decide) rfl
      ⟨1, by decide, _, rfl, by decide⟩

end LoadBalancer

end TrafficCop
