import TrafficCop.Balancer.Smooth
import TrafficCop.Lib.FlappingRoundRobin

/-!
# The weighted balancer stays fair while servers come and go

Health marks between selections. A selection is a round among the healthy servers only, whose
balances need not add up to 0. The bounds of `Spread` hold over all servers and every round keeps
them.
-/

namespace TrafficCop

open Rust SmoothRoundRobin List Option

def maxWeight (servers : List Server) : Nat := (serverWeights servers).foldl max 0

lemma foldl_max_lt_iff {l : List Nat} {t m : Nat} :
    l.foldl max t < m ↔ t < m ∧ ∀ x ∈ l, x < m := by
  induction l generalizing t with
  | nil => simp
  | cons x l ih => rw [foldl_cons, ih, max_lt_iff, forall_mem_cons, and_assoc]

lemma maxWeight_lt (servers : List Server) : maxWeight servers < 2 ^ 32 := by
  refine foldl_max_lt_iff.mpr ⟨by omega, ?_⟩
  intro x hx
  obtain ⟨s, -, rfl⟩ := mem_map.mp hx
  exact s.weight.toNat_lt

def weightAt (servers : List Server) (i : Nat) : Nat := (serverWeights servers).getD i 0

lemma weightAt_le (servers : List Server) (i : Nat) : weightAt servers i ≤ maxWeight servers := by
  rw [weightAt, getD_eq_getElem?_getD]
  cases hi : (serverWeights servers)[i]? with
  | none => exact Nat.zero_le _
  | some x =>
    have hlt : maxWeight servers < maxWeight servers + 1 := Nat.lt_succ_self _
    exact Nat.le_of_lt_succ ((foldl_max_lt_iff.mp hlt).2 x (mem_of_getElem? hi))

namespace WeightedBalancer

/-- Health marks and selections. -/
inductive Call where
  | markHealthy (index : Nat)
  | markUnhealthy (index : Nat)
  | nextServer
  deriving Repr, DecidableEq

variable (b : WeightedBalancer)

def Call.apply : Call → WeightedBalancer
  | .markHealthy index => b.markHealthy index
  | .markUnhealthy index => b.markUnhealthy index
  | .nextServer => b.nextServer.2

/-- The balancer behind a sequence of calls. -/
def run (servers : List Server) (calls : List Call) : WeightedBalancer :=
  calls.foldl Call.apply (new servers)

/-! ## Health marks leave the current weights alone -/

lemma currentWeight_of_map {b b' : WeightedBalancer}
    (h : b'.servers.map (·.currentWeight) = b.servers.map (·.currentWeight)) :
    b'.currentWeight = b.currentWeight := by
  funext i
  simp only [currentWeight, ← getElem?_map, h]

@[simp] lemma currentWeight_markHealthy (index : Nat) :
    (b.markHealthy index).currentWeight = b.currentWeight := by
  apply currentWeight_of_map
  rw [servers_markHealthy]
  exact map_modify_eq fun s => rfl

@[simp] lemma currentWeight_markUnhealthy (index : Nat) :
    (b.markUnhealthy index).currentWeight = b.currentWeight := by
  apply currentWeight_of_map
  rw [servers_markUnhealthy]
  exact map_modify_eq fun s => rfl

/-! ## The healthy servers as candidates -/

/-- A server that is down keeps its current weight. -/
def healthyAt (i : Nat) : Bool := (b.servers[i]?.map (·.healthy)).getD false

def candidates : Finset Nat :=
  (Finset.range b.servers.length).filter fun i => b.healthyAt i = true

lemma mem_candidates {b : WeightedBalancer} {i : Nat} :
    i ∈ b.candidates ↔ ∃ s, b.servers[i]? = some s ∧ s.healthy := by
  rw [candidates, Finset.mem_filter, Finset.mem_range, healthyAt]
  cases hs : b.servers[i]? with
  | none => simp
  | some s =>
    have hlt := (List.getElem?_eq_some_iff.mp hs).1
    simp [hlt]

@[simp] lemma candidates_nextServer : b.nextServer.2.candidates = b.candidates := by
  have hflags := b.map_nextServer (f := (·.healthy)) fun _ _ => rfl
  have hlength : b.nextServer.2.servers.length = b.servers.length := by
    simpa using congrArg List.length hflags
  simp only [candidates, healthyAt, ← getElem?_map, hflags, hlength]

/-- What calls keep: the servers, the cached total and the bounds on the current weights. -/
structure Kept (servers : List Server) (b : WeightedBalancer) : Prop where
  configs : b.configs = servers
  consistent : b.Consistent
  spread : Spread (Finset.range servers.length) (maxWeight servers) b.currentWeight

lemma kept_new (servers : List Server) : Kept servers (new servers) where
  configs := configs_new servers
  consistent := consistent_new servers
  spread := by
    apply spread_zero
    intro i _
    rw [currentWeight, new, getElem?_map]
    cases servers[i]? <;> rfl

namespace Kept

variable {servers : List Server} {b : WeightedBalancer}

lemma length_eq (h : Kept servers b) : b.servers.length = servers.length := by
  rw [← h.configs, WeightedBalancer.configs, length_map]

lemma candidates_subset (h : Kept servers b) : b.candidates ⊆ Finset.range servers.length := by
  rw [← h.length_eq]
  exact Finset.filter_subset _ _

variable {s : WeightedServer}

lemma effectiveWeight_eq (h : Kept servers b) {i : Nat}
    (hs : b.servers[i]? = some s) : s.effectiveWeight.toNat = weightAt servers i := by
  rw [weightAt, serverWeights, ← h.configs, WeightedBalancer.configs, getD_eq_getElem?_getD,
    getElem?_map, getElem?_map, hs, h.consistent.effective s (mem_of_getElem? hs)]
  rfl

lemma cachedTotalWeight_eq (h : Kept servers b) :
    b.cachedTotalWeight = total (weightAt servers) b.candidates := by
  let share (s : WeightedServer) : Nat := if s.healthy then s.effectiveWeight.toNat else 0
  have hshare : weightIfHealthy = fun s => (share s : Int) := by
    funext s
    unfold weightIfHealthy share
    split <;> rfl
  rw [h.consistent.cached, sumWeights_filter, hshare, foldl_map, foldl_intCast, listTotal_eq,
    total, total, candidates, Finset.sum_filter, length_map]
  refine congrArg _ (Finset.sum_congr rfl fun i hi => ?_)
  have hlt := Finset.mem_range.mp hi
  have hs : b.servers[i]? = some b.servers[i] := getElem?_eq_getElem hlt
  rw [getD_eq_getElem?_getD, getElem?_map, ← h.effectiveWeight_eq hs]
  simp only [healthyAt, hs]
  rfl

lemma nextServer_turn (h : Kept servers b) (htotal : b.cachedTotalWeight ≠ 0) :
    ∃ i, b.nextIndex = some i ∧ Turn (weightAt servers) (Finset.range servers.length)
      b.candidates i b.currentWeight b.nextServer.2.currentWeight := by
  obtain ⟨i, s, hindex, hs, hhealthy, hmax, hnext⟩ := h.consistent.nextServer_selects htotal
  have hgain : ∀ {j t}, b.servers[j]? = some t →
      b.currentWeight j + weightAt servers j = t.gain := by
    intro j t ht
    rw [currentWeight_eq ht, ← h.effectiveWeight_eq ht]
    rfl
  refine ⟨i, hindex, mem_candidates.mpr ⟨s, hs, hhealthy⟩, ?_, ?_⟩
  · intro j hj
    obtain ⟨t, ht, ht'⟩ := mem_candidates.mp hj
    rw [hgain ht, hgain hs]
    exact (hmax j t ht ht').1
  · intro j hj
    rw [Finset.mem_range, ← h.length_eq] at hj
    have ht : b.servers[j]? = some b.servers[j] := getElem?_eq_getElem hj
    have hmem : j ∈ b.candidates ↔ b.servers[j].healthy := by simp [mem_candidates, ht]
    rw [hnext j _ ht, h.cachedTotalWeight_eq, WeightedServer.raised]
    -- raised if healthy, frozen otherwise
    by_cases hup : b.servers[j].healthy
    · rw [if_pos hup, if_pos (hmem.mpr hup), hgain ht]
    · rw [if_neg hup, if_neg (mt hmem.mp hup), currentWeight_eq ht, add_zero]

lemma nextServer (h : Kept servers b) : Kept servers b.nextServer.2 where
  configs := (configs_nextServer b).trans h.configs
  consistent := h.consistent.nextServer
  spread := by
    by_cases htotal : b.cachedTotalWeight = 0
    · have hsame : b.nextServer.2 = b := by
        unfold WeightedBalancer.nextServer
        rw [if_pos htotal]
        split <;> rfl
      rw [hsame]
      exact h.spread
    · obtain ⟨i, -, hturn⟩ := h.nextServer_turn htotal
      exact h.spread.turn hturn h.candidates_subset fun j _ => weightAt_le servers j

lemma apply (h : Kept servers b) (call : Call) : Kept servers (call.apply b) := by
  cases call with
  | markHealthy index =>
    exact ⟨(configs_markHealthy b index).trans h.configs, h.consistent.markHealthy index,
      (currentWeight_markHealthy b index).symm ▸ h.spread⟩
  | markUnhealthy index =>
    exact ⟨(configs_markUnhealthy b index).trans h.configs, h.consistent.markUnhealthy index,
      (currentWeight_markUnhealthy b index).symm ▸ h.spread⟩
  | nextServer => exact h.nextServer

lemma cachedTotalWeight_le (h : Kept servers b) :
    b.cachedTotalWeight ≤ servers.length * maxWeight servers := by
  have hcard : (b.candidates.card : Int) ≤ servers.length := by
    rw [← Finset.card_range servers.length]
    exact_mod_cast Finset.card_le_card h.candidates_subset
  have hsum : ∑ j ∈ b.candidates, (weightAt servers j : Int) ≤
      b.candidates.card * maxWeight servers :=
    sum_weight_le fun j _ => weightAt_le servers j
  rw [h.cachedTotalWeight_eq, total]
  push_cast
  exact hsum.trans (mul_le_mul_of_nonneg_right hcard (Int.natCast_nonneg _))

lemma turns (h : Kept servers b) (htotal : b.cachedTotalWeight ≠ 0) (k : Nat) :
    Turns (weightAt servers) (Finset.range servers.length) b.candidates b.currentWeight k
      (count (fun b => b.nextServer.2) nextIndex b k)
      ((fun b : WeightedBalancer => b.nextServer.2)^[k] b).currentWeight := by
  -- the total and the candidates are still those of `b` after each of the selections
  suffices hk : ∀ k, let b' := (fun b : WeightedBalancer => b.nextServer.2)^[k] b
      Kept servers b' ∧ b'.cachedTotalWeight = b.cachedTotalWeight ∧
        b'.candidates = b.candidates ∧
        Turns (weightAt servers) (Finset.range servers.length) b.candidates b.currentWeight k
          (count (fun b => b.nextServer.2) nextIndex b k) b'.currentWeight from (hk k).2.2.2
  intro k
  induction k with
  | zero => exact ⟨h, rfl, rfl, .start⟩
  | succ k ih =>
    obtain ⟨hkept, hsame, hcandidates, hturns⟩ := ih
    obtain ⟨i, hindex, hturn⟩ := hkept.nextServer_turn (hsame ▸ htotal)
    rw [Function.iterate_succ_apply']
    refine ⟨hkept.nextServer, (cachedTotalWeight_nextServer _).trans hsame,
      (candidates_nextServer _).trans hcandidates, ?_⟩
    rw [hcandidates] at hturn
    exact hturns.select i hturn fun j => count_succ _ _ b k j i hindex

lemma abs_currentWeight_le (h : Kept servers b) (hs : s ∈ b.servers) :
    |s.currentWeight| ≤ (servers.length - 1) * maxWeight servers := by
  obtain ⟨i, hi⟩ := mem_iff_getElem?.mp hs
  have hlt := (List.getElem?_eq_some_iff.mp hi).1
  rw [h.length_eq] at hlt
  have habs := h.spread.abs_balance_le (Finset.mem_range.mpr hlt)
  rwa [currentWeight_eq hi, Finset.card_range] at habs

lemma gain_le (h : Kept servers b) (hs : s ∈ b.servers) :
    s.gain ≤ servers.length * maxWeight servers := by
  obtain ⟨i, hi⟩ := mem_iff_getElem?.mp hs
  have habs := (abs_le.mp (h.abs_currentWeight_le hs)).2
  have hweight := weightAt_le servers i
  rw [sub_mul] at habs
  rw [WeightedServer.gain, h.effectiveWeight_eq hi]
  omega

lemma sum_currentWeight (h : Kept servers b) :
    b.servers.foldl (fun total s => total + s.currentWeight) 0 = 0 := by
  have hfold : ∀ (l : List WeightedServer) (t : Int),
      l.foldl (fun total s => total + s.currentWeight) t =
        t + ∑ i ∈ Finset.range l.length, (l[i]?.map (·.currentWeight)).getD 0 := by
    intro l
    induction l with
    | nil => simp
    | cons s l ih =>
      intro t
      rw [foldl_cons, ih, length_cons, Finset.sum_range_succ']
      simp only [getElem?_cons_succ, getElem?_cons_zero, map_some, getD_some]
      ring
  rw [hfold, Int.zero_add, h.length_eq]
  exact h.spread.sum_eq

end Kept

lemma kept_run (servers : List Server) (calls : List Call) :
    Kept servers (run servers calls) := by
  unfold run
  have hstart := kept_new servers
  generalize new servers = b at hstart ⊢
  induction calls generalizing b with
  | nil => exact hstart
  | cons call calls ih => exact ih _ (hstart.apply call)

/-- **Fair across health flaps**: after any calls the cached total is that of the healthy servers,
the current weights add up to 0 within a range given by the number of servers and the largest
weight, and selections in a row from there give every healthy server its share up to that range. -/
theorem fair_across_flaps (servers : List Server) (calls : List Call) :
    let b := run servers calls
    b.configs = servers ∧
    b.cachedTotalWeight =
      listTotal ((b.servers.filter (·.healthy)).map fun s => s.config.weight.toNat) ∧
    b.servers.foldl (fun total s => total + s.currentWeight) 0 = 0 ∧
    (∀ s ∈ b.servers, |s.currentWeight| ≤ 2 * servers.length * maxWeight servers) ∧
    (servers.length ≤ 2 ^ 31 → b.cachedTotalWeight < 2 ^ 63 ∧
      ∀ s ∈ b.servers, -2 ^ 63 ≤ s.currentWeight ∧ s.currentWeight < 2 ^ 63 ∧ s.gain < 2 ^ 63) ∧
    ∀ k i s, b.servers[i]? = some s → s.healthy → 0 < b.cachedTotalWeight →
      |(count (fun b => b.nextServer.2) nextIndex b k i : Int) * b.cachedTotalWeight -
        k * s.config.weight.toNat| ≤ 4 * servers.length * maxWeight servers := by
  intro b
  have h : Kept servers b := kept_run servers calls
  have hn : (0 : Int) ≤ servers.length * maxWeight servers :=
    mul_nonneg (Int.natCast_nonneg _) (Int.natCast_nonneg _)
  have hw : (0 : Int) ≤ maxWeight servers := Int.natCast_nonneg _
  refine ⟨h.configs, ?_, h.sum_currentWeight, ?_, ?_, ?_⟩
  · rw [h.consistent.cached, sumWeights, foldl_intCast]
    congr 2
    refine map_congr_left fun s hs => ?_
    rw [h.consistent.effective s (mem_of_mem_filter hs)]
    rfl
  · intro s hs
    have habs := h.abs_currentWeight_le hs
    rw [sub_mul] at habs
    rw [mul_assoc]
    omega
  · intro hlength
    have hrange : (servers.length : Int) * maxWeight servers < 2 ^ 63 := by
      have hmax := maxWeight_lt servers
      have hle : servers.length * maxWeight servers ≤ 2 ^ 31 * (2 ^ 32 - 1) :=
        Nat.mul_le_mul hlength (by omega)
      zify at hle
      omega
    refine ⟨h.cachedTotalWeight_le.trans_lt hrange, ?_⟩
    intro s hs
    have habs := abs_le.mp (h.abs_currentWeight_le hs)
    have hgain := h.gain_le hs
    rw [sub_mul] at habs
    omega
  · intro k i s hs hhealthy hpos
    -- whatever flapped before, the next turns are fair up to the spread it has left
    have hcount := (h.turns hpos.ne' k).abs_count_le h.spread h.candidates_subset
      (fun j _ => weightAt_le servers j) (mem_candidates.mpr ⟨s, hs, hhealthy⟩)
    rw [Finset.card_range, ← h.cachedTotalWeight_eq, ← h.effectiveWeight_eq hs,
      h.consistent.effective s (mem_of_getElem? hs), sub_mul] at hcount
    rw [mul_assoc]
    exact hcount.trans (by omega)

def pair : List Server :=
  [{ url := "http://a", weight := 5 }, { url := "http://b", weight := 2 }]

def pairCalls : List Call := [.nextServer, .markUnhealthy 0, .nextServer, .markHealthy 0]

theorem fair_across_flaps_pair :
    ((run pair pairCalls).servers.map (·.currentWeight) = [-2, 2] ∧
      (run pair pairCalls).cachedTotalWeight = 7 ∧ maxWeight pair = 5) ∧
    |(count (fun b => b.nextServer.2) nextIndex (run pair pairCalls) 10 0 : Int) * 7 - 10 * 5| ≤
      4 * 2 * 5 := by
  have htotal : (run pair pairCalls).cachedTotalWeight = 7 := by decide
  have hserver : (run pair pairCalls).servers[0]? =
      some ⟨{ url := "http://a", weight := 5 }, true, -2, 5⟩ := by decide
  have hfair := (fair_across_flaps pair pairCalls).2.2.2.2.2 10 0 _ hserver rfl
    (by rw [htotal]; decide)
  rw [htotal] at hfair
  exact ⟨⟨by decide, htotal, by decide⟩, hfair⟩

end WeightedBalancer

end TrafficCop
