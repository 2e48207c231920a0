import TrafficCop.Balancer.LoadBalancer
import TrafficCop.Balancer.Strategy

/-!
# Who is in rotation

The health flags of a load balancer, and what calls do to them: a mark sets one flag, a selection
none.
-/

namespace TrafficCop

open Rust List WeightedBalancer

namespace LoadBalancer

/-- The same balancer among the four strategies. -/
def toBalancer : LoadBalancer → Balancer
  | .roundRobin b => .roundRobin b
  | .weighted b => .weighted b

def flags (b : LoadBalancer) : List Bool := b.toBalancer.flags

def isHealthy (b : LoadBalancer) (index : Nat) : Bool := b.flags[index]?.getD false

/-- A load balancer has two of the four strategies, neither of which draws a word. -/
def nextIndex (b : LoadBalancer) : Option Nat := b.toBalancer.nextIndex 0

lemma servers_toBalancer (b : LoadBalancer) : b.toBalancer.servers = b.servers := by
  cases b <;> rfl

lemma nextServer_fst (b : LoadBalancer) :
    b.nextServer.1 = b.nextIndex.bind fun index => b.servers[index]? := by
  rw [nextIndex, ← servers_toBalancer, ← Balancer.nextServer_fst]
  cases b <;> rfl

variable {b : LoadBalancer} {servers : List Server} {index j : Nat}

lemma nextIndex_of_nil (h : b.servers = []) : b.nextIndex = none := by
  cases b with
  | roundRobin b => exact if_pos (isEmpty_iff.mpr h)
  | weighted b => exact if_pos (isEmpty_iff.mpr (map_eq_nil_iff.mp h))

lemma length_flags (b : LoadBalancer) : b.flags.length = b.servers.length := by
  cases b with
  | roundRobin b => exact b.aligned
  | weighted b => simp [flags, toBalancer, Balancer.flags, servers, configs]

lemma findServerIndex_eq (b : LoadBalancer) (url : Text) :
    b.findServerIndex url = b.servers.findIdx? fun s => s.url == url := by
  cases b with
  | roundRobin b => rfl
  | weighted b =>
    simp only [findServerIndex, findServerIndex, servers, configs, findIdx?_map]
    rfl

/-! ## The flags behind a call -/

lemma flags_fromLoadBalancer (lb : LoadBalancerService) :
    (fromLoadBalancer lb).flags = List.replicate lb.servers.length true := by
  unfold fromLoadBalancer
  dsimp only
  split
  · simp [flags, toBalancer, Balancer.flags, new, Function.comp_def, map_const']
  · rfl

lemma flags_nextServer (b : LoadBalancer) : b.nextServer.2.flags = b.flags := by
  cases b with
  | roundRobin b =>
    show b.nextServer.2.healthy = b.healthy
    unfold RoundRobinBalancer.nextServer
    split <;> rfl
  | weighted b => exact b.map_nextServer fun _ _ => rfl

lemma map_healthy_modify (servers : List WeightedServer) (index : Nat) (flag : Bool)
    {g : WeightedServer → WeightedServer} (hg : ∀ s, (g s).healthy = flag) :
    (servers.modify index g).map (·.healthy) = (servers.map (·.healthy)).set index flag := by
  induction servers generalizing index with
  | nil => simp
  | cons s servers ih =>
    cases index with
    | zero => simp [hg]
    | succ index => simp [ih]

lemma flags_markHealthy (b : LoadBalancer) (index : Nat) :
    (b.markHealthy index).flags = b.flags.set index true := by
  cases b with
  | roundRobin b => rfl
  | weighted b =>
    show (b.markHealthy index).servers.map (·.healthy) = _
    rw [servers_markHealthy]
    exact map_healthy_modify _ _ _ fun _ => rfl

lemma flags_markUnhealthy (b : LoadBalancer) (index : Nat) :
    (b.markUnhealthy index).flags = b.flags.set index false := by
  cases b with
  | roundRobin b => rfl
  | weighted b =>
    show (b.markUnhealthy index).servers.map (·.healthy) = _
    rw [servers_markUnhealthy]
    exact map_healthy_modify _ _ _ fun _ => rfl

/-! ## What every state keeps -/

/-- The servers stay, and the totals of the weighted strategy are right. -/
def Keeps (servers : List Server) (b : LoadBalancer) : Prop := Balancer.Keeps servers b.toBalancer

lemma Keeps.servers_eq (h : Keeps servers b) : b.servers = servers := by
  rw [← servers_toBalancer, h.1]

lemma keeps_fromLoadBalancer (lb : LoadBalancerService) :
    Keeps lb.servers (fromLoadBalancer lb) := by
  unfold fromLoadBalancer
  dsimp only
  split
  · exact ⟨configs_new _, consistent_new _⟩
  · exact ⟨rfl, trivial⟩

lemma Keeps.step (h : Keeps servers b) (call : Call) : Keeps servers (b.step call) := by
  -- the same call on the other side
  have hcall : ∃ call', (b.step call).toBalancer = b.toBalancer.step call' := by
    cases call with
    | nextServer => exact ⟨.nextServer 0, by cases b <;> rfl⟩
    | markHealthy index => exact ⟨.markHealthy index, by cases b <;> rfl⟩
    | markUnhealthy index => exact ⟨.markUnhealthy index, by cases b <;> rfl⟩
  obtain ⟨call', heq⟩ := hcall
  rw [Keeps, heq]
  exact Balancer.Keeps.step h call'

lemma Keeps.run (h : Keeps servers b) (calls : List Call) : Keeps servers (b.run calls) := by
  induction calls generalizing b with
  | nil => exact h
  | cons call calls ih => exact ih (h.step call)

/-! ## Selections from the rotation -/

/-- A server is in rotation that the strategy can select: for the weighted one, it has a
weight. -/
def Rotates : LoadBalancer → Prop
  | .roundRobin b => ∃ index, b.isHealthy index = true
  | .weighted b => ∃ s ∈ b.servers, s.healthy = true ∧ s.config.weight ≠ 0

/-- The counter does not wrap in `n` selections and one scan. -/
def StaysBelowWrap (n : Nat) : LoadBalancer → Prop
  | .roundRobin b => b.counter.toNat + n + b.servers.length ≤ 2 ^ 64
  | .weighted _ => True

lemma StaysBelowWrap.mark {n : Nat} (h : b.StaysBelowWrap n) (index : Nat) :
    (b.markHealthy index).StaysBelowWrap n ∧ (b.markUnhealthy index).StaysBelowWrap n := by
  cases b <;> exact ⟨h, h⟩

lemma lt_of_isHealthy (h : b.isHealthy index) : index < b.flags.length := by
  by_contra hout
  rw [isHealthy, getElem?_eq_none (by omega)] at h
  cases h

lemma Keeps.isHealthy_lt (h : Keeps servers b)
    (hhealthy : b.isHealthy index) : index < servers.length := by
  rw [← h.servers_eq, ← b.length_flags]
  exact lt_of_isHealthy hhealthy

lemma rotates_weighted_iff (b : WeightedBalancer) :
    Rotates (.weighted b) ↔ ∃ index server, isHealthy (.weighted b) index ∧
      b.configs[index]? = some server ∧ server.weight ≠ 0 := by
  constructor
  · rintro ⟨s, hs, hhealthy, hweight⟩
    obtain ⟨index, hindex⟩ := mem_iff_getElem?.mp hs
    refine ⟨index, s.config, (getElem?_flag_iff _ _ _).mpr ⟨s, hindex, hhealthy⟩, ?_, hweight⟩
    rw [configs, getElem?_map, hindex]
    rfl
  · rintro ⟨index, server, hhealthy, hserver, hweight⟩
    obtain ⟨s, hindex, hs⟩ := (getElem?_flag_iff _ _ _).mp hhealthy
    rw [configs, getElem?_map, hindex] at hserver
    cases hserver
    exact ⟨s, mem_of_getElem? hindex, hs, hweight⟩

lemma isHealthy_markHealthy (b : LoadBalancer) (h : b.isHealthy j) :
    (b.markHealthy index).isHealthy j := by
  have hlt := lt_of_isHealthy h
  rw [isHealthy, flags_markHealthy, getElem?_set]
  by_cases hj : index = j
  · simp [hj, hlt]
  · rw [if_neg hj]
    exact h

lemma isHealthy_of_markHealthy
    (h : (b.markHealthy index).isHealthy j) : j = index ∨ b.isHealthy j := by
  by_cases hj : j = index
  · exact .inl hj
  · rw [isHealthy, flags_markHealthy, getElem?_set_ne (Ne.symm hj)] at h
    exact .inr h

lemma isHealthy_of_markUnhealthy
    (h : (b.markUnhealthy index).isHealthy j) : b.isHealthy j := by
  rw [isHealthy, flags_markUnhealthy, getElem?_set] at h
  split at h
  · split at h <;> cases h
  · exact h

lemma Rotates.markHealthy (h : b.Rotates) (index : Nat) : (b.markHealthy index).Rotates := by
  cases b with
  | roundRobin b =>
    obtain ⟨j, hj⟩ := h
    exact ⟨j, isHealthy_markHealthy (.roundRobin b) hj⟩
  | weighted b =>
    obtain ⟨j, server, hj, hserver, hweight⟩ := (rotates_weighted_iff b).mp h
    refine (rotates_weighted_iff _).mpr
      ⟨j, server, isHealthy_markHealthy (.weighted b) hj, ?_, hweight⟩
    rw [configs_markHealthy, hserver]

lemma rotates_fromLoadBalancer {lb : LoadBalancerService} (hne : lb.servers ≠ []) :
    (fromLoadBalancer lb).Rotates := by
  unfold fromLoadBalancer
  dsimp only
  split
  · next hweights =>
    -- the weighted strategy is chosen for the sake of a weight above 1
    obtain ⟨server, hserver, hweight⟩ := any_eq_true.mp (Bool.and_eq_true_iff.mp hweights).1
    refine ⟨⟨server, true, 0, server.weight.toUInt64⟩, mem_map_of_mem hserver, rfl, ?_⟩
    intro hzero
    rw [show server.weight = 0 from hzero] at hweight
    exact absurd hweight (by decide)
  · have hpos := length_pos_of_ne_nil hne
    exact ⟨0, by simp [RoundRobinBalancer.isHealthy, RoundRobinBalancer.new, hpos]⟩

lemma rotates_nextServer (b : LoadBalancer) : b.nextServer.2.Rotates ↔ b.Rotates := by
  cases b with
  | roundRobin b =>
    have hflags : b.nextServer.2.healthy = b.healthy := flags_nextServer (.roundRobin b)
    simp only [nextServer, Rotates, RoundRobinBalancer.isHealthy, hflags]
  | weighted b =>
    have hmap := b.map_nextServer (f := fun s => (s.healthy, s.config.weight)) fun _ _ => rfl
    have hmem : ∀ servers : List WeightedServer,
        (∃ s ∈ servers, s.healthy ∧ s.config.weight ≠ 0) ↔
          ∃ p ∈ servers.map fun s => (s.healthy, s.config.weight), p.1 = true ∧ p.2 ≠ 0 := by
      simp
    simp only [nextServer, Rotates]
    rw [hmem, hmap, ← hmem]

lemma staysBelowWrap_nextServer {n : Nat} (hne : b.servers ≠ [])
    (h : b.StaysBelowWrap (n + 1)) : b.nextServer.2.StaysBelowWrap n := by
  cases b with
  | roundRobin b =>
    have hlength := length_pos_of_ne_nil hne
    simp only [nextServer, StaysBelowWrap, servers] at h hlength ⊢
    rw [RoundRobinBalancer.nextServer_snd hne, UInt64.toNat_add, UInt64.toNat_one]
    dsimp only
    omega
  | weighted b => trivial

/-- **A server in rotation is selected** as long as one is that the strategy can select. -/
theorem Keeps.nextIndex_of_rotates
    (h : Keeps servers b) (hrotates : b.Rotates) (hwrap : b.StaysBelowWrap 0) :
    ∃ index, b.nextIndex = some index ∧ b.isHealthy index := by
  have hsome : ∃ index, b.isHealthy index := by
    cases b with
    | roundRobin b => exact hrotates
    | weighted b =>
      obtain ⟨s, hs, hhealthy, -⟩ := hrotates
      obtain ⟨index, hindex⟩ := mem_iff_getElem?.mp hs
      exact ⟨index, (getElem?_flag_iff _ _ _).mpr ⟨s, hindex, hhealthy⟩⟩
  have hne : servers ≠ [] := by
    obtain ⟨index, hindex⟩ := hsome
    exact ne_nil_of_length_pos (Nat.zero_lt_of_lt (h.isHealthy_lt hindex))
  refine (Balancer.Keeps.nextIndex_iff h hne hsome 0).mpr ?_
  cases b with
  | roundRobin b =>
    obtain ⟨index, hindex⟩ := hrotates
    have hlt : index < b.servers.length := by
      rw [show b.servers = servers from h.servers_eq]
      exact h.isHealthy_lt hindex
    obtain ⟨i, hi, hslot⟩ := RoundRobinBalancer.exists_slot hlt hwrap
    exact ⟨i, hi, by rw [← b.slot_eq, hslot]; exact hindex⟩
  | weighted b => exact .inr hrotates

/-! ## Servers out of rotation -/

def afterSelections (b : LoadBalancer) (k : Nat) : LoadBalancer :=
  b.run (List.replicate k .nextServer)

lemma flags_afterSelections (b : LoadBalancer) (k : Nat) :
    (b.afterSelections k).flags = b.flags := by
  induction k generalizing b with
  | zero => rfl
  | succ k ih => exact (ih b.nextServer.2).trans b.flags_nextServer

/-- After `k` selections nothing in rotation can be selected, and the fallback meets `index`. -/
def FallsBackAt (k index : Nat) : LoadBalancer → Prop
  -- none of the positions that the scan comes to is healthy, and it starts at the server's
  | .roundRobin b => b.slot k = index ∧ ∀ i < b.servers.length, b.isHealthy (b.slot (k + i)) = false
  -- the fallback is always the first server
  | .weighted b => index = 0 ∧ ∀ s ∈ b.servers, s.healthy = true → s.config.weight = 0

lemma fallsBackAt_nextServer (hne : b.servers ≠ []) (k index : Nat) :
    b.nextServer.2.FallsBackAt k index ↔ b.FallsBackAt (k + 1) index := by
  cases b with
  | roundRobin b =>
    simp only [nextServer, FallsBackAt]
    rw [RoundRobinBalancer.nextServer_snd hne]
    simp only [RoundRobinBalancer.slot_succ, Nat.add_right_comm k 1]
    rfl
  | weighted b =>
    have hrotates : ∀ servers : List WeightedServer,
        (∀ s ∈ servers, s.healthy → s.config.weight = 0) ↔
          ¬∃ s ∈ servers, s.healthy ∧ s.config.weight ≠ 0 := by
      simp
    simp only [nextServer, FallsBackAt]
    rw [hrotates, hrotates]
    exact and_congr_right fun _ => not_congr (rotates_nextServer (.weighted b))

lemma fallsBackAt_afterSelections (hne : b.servers ≠ []) (k index : Nat) :
    (b.afterSelections k).FallsBackAt 0 index ↔ b.FallsBackAt k index := by
  induction k generalizing b with
  | zero => exact Iff.rfl
  | succ k ih =>
    have hservers : b.nextServer.2.servers ≠ [] := by
      rw [show b.nextServer.2 = b.step .nextServer from rfl, servers_step]
      exact hne
    exact (ih hservers).trans (fallsBackAt_nextServer hne k index)

lemma Keeps.nextIndex_eq_iff (h : Keeps servers b)
    (hne : servers ≠ []) (hout : b.isHealthy index = false) :
    b.nextIndex = some index ↔ b.FallsBackAt 0 index := by
  have hnonempty := h.servers_eq ▸ hne
  cases b with
  | roundRobin b =>
    have hservers : b.servers ≠ [] := hnonempty
    have hindex : nextIndex (.roundRobin b) = some b.nextIndex :=
      if_neg (by simpa using hservers)
    rw [hindex, Option.some.injEq, RoundRobinBalancer.nextIndex_eq_iff hservers hout]
    simp only [FallsBackAt, Nat.zero_add]
  | weighted b =>
    have hcons : b.Consistent := h.2
    have hservers : b.servers ≠ [] := fun hnil => hnonempty (by simp [LoadBalancer.servers,
      configs, hnil])
    constructor
    · intro hindex
      have hnone : ∀ s ∈ b.servers, s.healthy → s.config.weight = 0 := by
        intro s hs hhealthy
        by_contra hweight
        -- a healthy server would be selected, and `index` is not one
        obtain ⟨k, t, hk, ht, ht'⟩ :=
          (hcons.nextIndex_healthy_iff hservers).mpr (.inr ⟨s, hs, hhealthy, hweight⟩)
        rw [show b.nextIndex = some index from hindex] at hk
        cases hk
        have hhealthy : isHealthy (.weighted b) index :=
          (getElem?_flag_iff _ _ _).mpr ⟨t, ht, ht'⟩
        rw [hout] at hhealthy
        cases hhealthy
      have hzero := hcons.nextIndex_of_none hservers hnone
      rw [show b.nextIndex = some index from hindex] at hzero
      exact ⟨Option.some.inj hzero, hnone⟩
    · rintro ⟨rfl, hnone⟩
      exact hcons.nextIndex_of_none hservers hnone

/-- **A server out of rotation is selected only as the fallback.** -/
theorem Keeps.selected_iff (h : Keeps servers b)
    (hne : servers ≠ []) (hout : b.isHealthy index = false) (k : Nat) :
    (b.afterSelections k).nextIndex = some index ↔ b.FallsBackAt k index := by
  have hkeeps : Keeps servers (b.afterSelections k) := h.run _
  have hout' : (b.afterSelections k).isHealthy index = false := by
    rw [isHealthy, flags_afterSelections]
    exact hout
  rw [hkeeps.nextIndex_eq_iff hne hout', fallsBackAt_afterSelections (h.servers_eq ▸ hne)]

end LoadBalancer

end TrafficCop
