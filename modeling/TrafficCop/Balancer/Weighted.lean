import Mathlib.Data.Int.Order.Basic
import TrafficCop.Config.Types
import TrafficCop.Lib.FirstBest

/-!
# Smooth weighted round robin

`WeightedBalancer` of `balancer/weighted.rs`, one call at a time.
-/

namespace TrafficCop

open Rust List Option FirstBest

/-- The signed 64-bit counters are integers here. -/
structure WeightedServer where
  config : Server
  healthy : Bool
  currentWeight : Int
  effectiveWeight : UInt64
  deriving Repr, DecidableEq

/-- What the current weight of a healthy server is raised to in a selection. -/
def WeightedServer.gain (s : WeightedServer) : Int := s.currentWeight + s.effectiveWeight.toNat

/-- The server behind the loop of a selection. -/
def WeightedServer.raised (s : WeightedServer) : WeightedServer :=
  if s.healthy then { s with currentWeight := s.gain } else s

structure WeightedBalancer where
  servers : List WeightedServer
  cachedTotalWeight : Int
  deriving Repr, DecidableEq

namespace WeightedBalancer

def sumWeights (servers : List WeightedServer) : Int :=
  servers.foldl (fun total s => total + s.effectiveWeight.toNat) 0

def new (servers : List Server) : WeightedBalancer :=
  let servers := servers.map fun config => ⟨config, true, 0, config.weight.toUInt64⟩
  ⟨servers, sumWeights servers⟩

/-- The weights of the healthy servers. -/
def recomputeTotalWeight (b : WeightedBalancer) : WeightedBalancer :=
  { b with cachedTotalWeight := sumWeights (b.servers.filter (·.healthy)) }

/-- `best_idx.is_none() || cw > best_weight`, with the pair of both variables. -/
def better (best : Option (Nat × Int)) (idx : Nat) (cw : Int) : Option (Nat × Int) :=
  match best with
  | none => some (idx, cw)
  | some (_, bestWeight) => if cw > bestWeight then some (idx, cw) else best

/-- The loop: healthy servers gain their weight, the largest gain is remembered. -/
def raise : List WeightedServer → Nat → Option (Nat × Int) →
    List WeightedServer × Option (Nat × Int)
  | [], _, best => ([], best)
  | s :: rest, idx, best =>
    if s.healthy then
      let cw := s.currentWeight + s.effectiveWeight.toNat
      let (rest, best) := raise rest (idx + 1) (better best idx cw)
      ({ s with currentWeight := cw } :: rest, best)
    else
      let (rest, best) := raise rest (idx + 1) best
      (s :: rest, best)

def nextServer (b : WeightedBalancer) : Option Server × WeightedBalancer :=
  if b.servers.isEmpty then (none, b)
  else if b.cachedTotalWeight = 0 then (b.servers.head?.map (·.config), b)
  else
    let (servers, best) := raise b.servers 0 none
    match best with
    | some (idx, _) =>
      (servers[idx]?.map (·.config), { b with servers := servers.modify idx fun s =>
        { s with currentWeight := s.currentWeight - b.cachedTotalWeight } })
    -- no server is healthy
    | none => (servers.head?.map (·.config), { b with servers := servers })

/-- A server that comes back gets its configured weight again. -/
def markHealthy (b : WeightedBalancer) (index : Nat) : WeightedBalancer :=
  if index < b.servers.length then
    recomputeTotalWeight { b with servers := b.servers.modify index fun s =>
      { s with healthy := true, effectiveWeight := s.config.weight.toUInt64 } }
  else b

def markUnhealthy (b : WeightedBalancer) (index : Nat) : WeightedBalancer :=
  if index < b.servers.length then
    recomputeTotalWeight { b with servers := b.servers.modify index fun s =>
      { s with healthy := false } }
  else b

def findServerIndex (b : WeightedBalancer) (url : Text) : Option Nat :=
  b.servers.findIdx? fun s => s.config.url == url

/-! ## The configured servers never change -/

def configs (b : WeightedBalancer) : List Server := b.servers.map (·.config)

@[simp] lemma configs_new (servers : List Server) : (new servers).configs = servers := by
  simp [new, configs, Function.comp_def]

lemma servers_markHealthy (b : WeightedBalancer) (index : Nat) :
    (b.markHealthy index).servers = b.servers.modify index fun s =>
      { s with healthy := true, effectiveWeight := s.config.weight.toUInt64 } := by
  unfold markHealthy
  split
  · rfl
  · next hout => exact (modify_eq_self (Nat.le_of_not_lt hout)).symm

lemma servers_markUnhealthy (b : WeightedBalancer) (index : Nat) :
    (b.markUnhealthy index).servers = b.servers.modify index fun s =>
      { s with healthy := false } := by
  unfold markUnhealthy
  split
  · rfl
  · next hout => exact (modify_eq_self (Nat.le_of_not_lt hout)).symm

@[simp] lemma configs_markHealthy (b : WeightedBalancer) (index : Nat) :
    (b.markHealthy index).configs = b.configs := by
  rw [configs, servers_markHealthy]
  exact map_modify_eq fun s => rfl

@[simp] lemma configs_markUnhealthy (b : WeightedBalancer) (index : Nat) :
    (b.markUnhealthy index).configs = b.configs := by
  rw [configs, servers_markUnhealthy]
  exact map_modify_eq fun s => rfl

lemma raise_fst (servers : List WeightedServer) (idx : Nat) (best : Option (Nat × Int)) :
    (raise servers idx best).1 = servers.map (·.raised) := by
  induction servers generalizing idx best with
  | nil => rfl
  | cons s servers ih =>
    rw [raise, map_cons, WeightedServer.raised]
    split <;> simp [ih, WeightedServer.gain]

@[simp] lemma raised_config (s : WeightedServer) : s.raised.config = s.config := by
  unfold WeightedServer.raised
  split <;> rfl

lemma raise_configs (servers : List WeightedServer) (idx : Nat) (best : Option (Nat × Int)) :
    (raise servers idx best).1.map (·.config) = servers.map (·.config) := by
  simp [raise_fst, Function.comp_def]

/-! ## What the loop remembers -/

variable {best : Option (Nat × Int)} {k : Nat} {w : Int} {servers : List WeightedServer}
  {b : WeightedBalancer}

/-- What a server has in the loop. -/
def offer (s : WeightedServer) : Option Int := if s.healthy then some s.gain else none

lemma best_better {seen : List WeightedServer} (h : Best offer seen best) {s : WeightedServer}
    (hs : s.healthy) : Best offer (seen ++ [s]) (better best seen.length s.gain) := by
  have hoffer : offer s = some s.gain := if_pos hs
  unfold better
  split
  · exact h.take hoffer (by simp)
  · split
    · next hgt => exact h.take hoffer (by rintro _ _ ⟨⟩; exact hgt)
    · next k w hle =>
      refine h.keep fun v hv => ⟨k, w, rfl, ?_⟩
      rw [← some.inj (hoffer.symm.trans hv)]
      exact Int.not_lt.mp hle

lemma best_raise {seen : List WeightedServer} (h : Best offer seen best) :
    Best offer (seen ++ servers) (raise servers seen.length best).2 := by
  induction servers generalizing seen best with
  | nil => rwa [append_nil]
  | cons s servers ih =>
    rw [raise, append_cons]
    split
    · next hs => simpa [WeightedServer.gain] using ih (best_better h hs)
    · next hs =>
      have hskip : Best offer (seen ++ [s]) best := h.keep (by simp [offer, hs])
      simpa using ih hskip

/-- The first of the healthy servers with the highest gain is remembered. -/
lemma exists_raise {t : WeightedServer} (ht : t ∈ servers) (hhealthy : t.healthy) :
    ∃ k s, (raise servers 0 none).2 = some (k, s.gain) ∧ servers[k]? = some s ∧ s.healthy ∧
      ∀ j t, servers[j]? = some t → t.healthy → t.gain ≤ s.gain ∧ (j < k → t.gain < s.gain) := by
  have hoffer : ∀ {s : WeightedServer}, s.healthy → offer s = some s.gain := fun h => if_pos h
  have hraise : Best offer servers (raise servers 0 none).2 := best_raise best_nil
  cases hbest : (raise servers 0 none).2 with
  | none =>
    rw [hbest] at hraise
    exact absurd (hraise t ht) (by simp [hoffer hhealthy])
  | some p =>
    rw [hbest] at hraise
    obtain ⟨⟨s, hs, hkey⟩, hmost⟩ := hraise
    obtain ⟨hs', heq⟩ := ite_none_right_eq_some.mp hkey
    refine ⟨p.1, s, by rw [some.inj heq], hs, hs', fun j t ht ht' => ?_⟩
    rw [some.inj heq]
    exact hmost j t t.gain ht (hoffer ht')

/-! ## What a selection changes -/

lemma map_nextServer {β : Type} (b : WeightedBalancer) {f : WeightedServer → β}
    (hf : ∀ (s : WeightedServer) w, f { s with currentWeight := w } = f s) :
    b.nextServer.2.servers.map f = b.servers.map f := by
  have hraise : (raise b.servers 0 none).1.map f = b.servers.map f := by
    rw [raise_fst, List.map_map]
    refine map_congr_left fun s _ => ?_
    simp only [Function.comp, WeightedServer.raised]
    split
    · exact hf _ _
    · rfl
  unfold nextServer
  split
  · rfl
  split
  · rfl
  dsimp only
  split
  · exact (map_modify_eq fun s => hf s _).trans hraise
  · exact hraise

@[simp] lemma cachedTotalWeight_nextServer (b : WeightedBalancer) :
    b.nextServer.2.cachedTotalWeight = b.cachedTotalWeight := by
  unfold nextServer
  split
  · rfl
  split
  · rfl
  dsimp only
  split <;> rfl

@[simp] lemma configs_nextServer (b : WeightedBalancer) : b.nextServer.2.configs = b.configs :=
  b.map_nextServer fun _ _ => rfl

/-! ## The selected index -/

def nextIndex (b : WeightedBalancer) : Option Nat :=
  if b.servers.isEmpty then none
  else if b.cachedTotalWeight = 0 then some 0
  else some (((raise b.servers 0 none).2.map (·.1)).getD 0)

lemma nextServer_fst (b : WeightedBalancer) :
    b.nextServer.1 = b.nextIndex.bind fun idx => b.configs[idx]? := by
  have hfirst : ∀ {servers : List WeightedServer}, servers.map (·.config) = b.configs →
      servers.head?.map (·.config) = b.configs[0]? := by
    intro servers heq
    rw [← head?_map, heq, head?_eq_getElem?]
  unfold nextServer nextIndex
  split
  · rfl
  split
  · exact hfirst rfl
  dsimp only
  split
  · next k w hbest =>
    rw [← getElem?_map, raise_configs]
    simp [hbest, configs]
  · next hbest => simpa [hbest] using hfirst (raise_configs _ _ _)

lemma exists_nextIndex (h : b.servers ≠ []) : ∃ k < b.servers.length, b.nextIndex = some k := by
  have hpos := length_pos_of_ne_nil h
  rw [nextIndex, if_neg (by simpa using h)]
  split
  · exact ⟨0, hpos, rfl⟩
  · have hraise : Best offer b.servers (raise b.servers 0 none).2 := best_raise best_nil
    cases hbest : (raise b.servers 0 none).2 with
    | none => exact ⟨0, hpos, rfl⟩
    | some p => exact ⟨p.1, (hbest ▸ hraise).lt_length, rfl⟩

lemma nextServer_mem (h : b.configs ≠ []) :
    ∃ server ∈ b.configs, b.nextServer.1 = some server := by
  have hne : b.servers ≠ [] := by
    rintro hnil
    simp [configs, hnil] at h
  obtain ⟨k, hk, hindex⟩ := exists_nextIndex hne
  have hlen : k < b.configs.length := by simpa [configs] using hk
  refine ⟨b.configs[k], getElem_mem hlen, ?_⟩
  rw [nextServer_fst, hindex, bind_some, getElem?_eq_getElem hlen]

lemma nextServer_of_raise
    (htotal : b.cachedTotalWeight ≠ 0) (hbest : (raise b.servers 0 none).2 = some (k, w)) :
    b.nextIndex = some k ∧
      b.nextServer.2.servers = (b.servers.map (·.raised)).modify k fun s =>
        { s with currentWeight := s.currentWeight - b.cachedTotalWeight } := by
  have hempty : b.servers.isEmpty = false := by
    cases hservers : b.servers with
    | nil => rw [hservers] at hbest; cases hbest
    | cons => rfl
  constructor
  · simp [nextIndex, hempty, htotal, hbest]
  · rw [nextServer, if_neg (by simp [hempty]), if_neg htotal]
    simp only [hbest, raise_fst]

/-! ## The cached total -/

/-- The weights are the configured ones, the total is that of the healthy servers. -/
structure Consistent (b : WeightedBalancer) : Prop where
  effective : ∀ s ∈ b.servers, s.effectiveWeight = s.config.weight.toUInt64
  cached : b.cachedTotalWeight = sumWeights (b.servers.filter (·.healthy))

def weightIfHealthy (s : WeightedServer) : Int := if s.healthy then s.effectiveWeight.toNat else 0

lemma sumWeights_filter (servers : List WeightedServer) :
    sumWeights (servers.filter (·.healthy)) = (servers.map weightIfHealthy).foldl (· + ·) 0 := by
  unfold sumWeights
  generalize (0 : Int) = t
  induction servers generalizing t with
  | nil => rfl
  | cons s servers ih =>
    by_cases hs : s.healthy <;> simp [hs, ih, weightIfHealthy]

lemma consistent_new (servers : List Server) : (new servers).Consistent where
  effective := by simp [new]
  cached := by
    have hall : ∀ s ∈ (new servers).servers, s.healthy := by simp [new]
    rw [filter_eq_self.mpr hall]
    rfl

lemma Consistent.nextServer (h : b.Consistent) :
    b.nextServer.2.Consistent where
  effective := by
    have hmap := b.map_nextServer (f := fun s => (s.config, s.effectiveWeight)) fun _ _ => rfl
    intro s hs
    have hmem : (s.config, s.effectiveWeight) ∈
        b.servers.map fun s => (s.config, s.effectiveWeight) := by
      rw [← hmap]
      exact mem_map_of_mem hs
    obtain ⟨t, ht, heq⟩ := mem_map.mp hmem
    obtain ⟨hconfig, hweight⟩ := Prod.mk.inj heq
    rw [← hconfig, ← hweight]
    exact h.effective t ht
  cached := by
    rw [cachedTotalWeight_nextServer, sumWeights_filter,
      b.map_nextServer (f := weightIfHealthy) fun _ _ => rfl, ← sumWeights_filter, h.cached]

lemma Consistent.recompute (h : b.Consistent) {index : Nat} {g : WeightedServer → WeightedServer}
    (hg : ∀ s, s.effectiveWeight = s.config.weight.toUInt64 →
      (g s).effectiveWeight = (g s).config.weight.toUInt64) :
    (recomputeTotalWeight { b with servers := b.servers.modify index g }).Consistent where
  effective := by
    intro s hs
    obtain ⟨i, hi⟩ := mem_iff_getElem?.mp hs
    rw [show (recomputeTotalWeight { b with servers := b.servers.modify index g }).servers =
      b.servers.modify index g from rfl, getElem?_modify] at hi
    obtain ⟨t, ht, rfl⟩ := map_eq_some_iff.mp hi
    have heff := h.effective t (mem_of_getElem? ht)
    split
    · exact hg t heff
    · exact heff
  cached := rfl

lemma Consistent.markHealthy (h : b.Consistent) (index : Nat) :
    (b.markHealthy index).Consistent := by
  unfold WeightedBalancer.markHealthy
  split
  · exact h.recompute fun s _ => rfl
  · exact h

lemma Consistent.markUnhealthy (h : b.Consistent) (index : Nat) :
    (b.markUnhealthy index).Consistent := by
  unfold WeightedBalancer.markUnhealthy
  split
  · exact h.recompute fun s hs => hs
  · exact h

lemma sumWeights_eq_zero_iff (servers : List WeightedServer) :
    sumWeights servers = 0 ↔ ∀ s ∈ servers, s.effectiveWeight = 0 := by
  -- from a total of 0 on; nothing that is added is negative
  suffices hfold : ∀ t : Nat,
      servers.foldl (fun total s => total + (s.effectiveWeight.toNat : Int)) (t : Int) = 0 ↔
        t = 0 ∧ ∀ s ∈ servers, s.effectiveWeight = 0 by
    simpa [sumWeights] using hfold 0
  intro t
  induction servers generalizing t with
  | nil => simp
  | cons s servers ih =>
    have hstep := ih (t + s.effectiveWeight.toNat)
    rw [Int.natCast_add] at hstep
    rw [foldl_cons, hstep, forall_mem_cons, ← and_assoc]
    refine and_congr_left' ?_
    rw [Nat.add_eq_zero_iff]
    exact and_congr_right' (UInt64.toNat_inj (b := 0))

lemma Consistent.total_ne_zero_iff (h : b.Consistent) :
    b.cachedTotalWeight ≠ 0 ↔ ∃ s ∈ b.servers, s.healthy = true ∧ s.config.weight ≠ 0 := by
  have hweight : ∀ s ∈ b.servers, s.effectiveWeight = 0 ↔ s.config.weight = 0 := by
    intro s hs
    rw [h.effective s hs, ← UInt64.toNat_inj, ← UInt32.toNat_inj]
    simp
  rw [h.cached, Ne, sumWeights_eq_zero_iff]
  constructor
  · intro hne
    by_contra hnone
    refine hne fun s hs => (hweight s (mem_filter.mp hs).1).mpr ?_
    by_contra hw
    exact hnone ⟨s, (mem_filter.mp hs).1, (mem_filter.mp hs).2, hw⟩
  · rintro ⟨s, hs, hhealthy, hw⟩ hzero
    exact hw ((hweight s hs).mp (hzero s (mem_filter.mpr ⟨hs, hhealthy⟩)))

/-- **A healthy server is answered unless none has a weight**; then the first server is. -/
theorem Consistent.nextIndex_healthy_iff (h : b.Consistent) (hne : b.servers ≠ []) :
    (∃ k s, b.nextIndex = some k ∧ b.servers[k]? = some s ∧ s.healthy) ↔
      (∃ s, b.servers[0]? = some s ∧ s.healthy) ∨
        ∃ s ∈ b.servers, s.healthy ∧ s.config.weight ≠ 0 := by
  have hempty : b.servers.isEmpty = false := by simpa using hne
  by_cases htotal : b.cachedTotalWeight = 0
  · have hnone := mt h.total_ne_zero_iff.mpr (not_not.mpr htotal)
    simp [nextIndex, hempty, htotal, hnone]
  have hweight := h.total_ne_zero_iff.mp htotal
  refine iff_of_true ?_ (.inr hweight)
  obtain ⟨t, ht, hhealthy, -⟩ := hweight
  -- some server is healthy, so the loop remembers one
  obtain ⟨k, s, hbest, hs, hs', -⟩ := exists_raise ht hhealthy
  exact ⟨k, s, by simp [nextIndex, hempty, htotal, hbest], hs, hs'⟩

lemma Consistent.nextIndex_of_none (h : b.Consistent)
    (hne : b.servers ≠ []) (hnone : ∀ s ∈ b.servers, s.healthy = true → s.config.weight = 0) :
    b.nextIndex = some 0 := by
  have htotal : b.cachedTotalWeight = 0 := by
    by_contra hne
    obtain ⟨s, hs, hhealthy, hweight⟩ := h.total_ne_zero_iff.mp hne
    exact hweight (hnone s hs hhealthy)
  rw [nextIndex, if_neg (by simpa using hne), if_pos htotal]

end WeightedBalancer

end TrafficCop
