import TrafficCop.Balancer.Smooth

/-!
# Traffic splitting between services

`WeightedServiceRouter` of `service/weighted.rs`: smooth weighted round robin over services.
-/

namespace TrafficCop

open Rust SmoothRoundRobin List FirstBest

structure WeightedServiceEntry where
  name : Text
  weight : UInt32
  deriving Repr, DecidableEq

structure WeightedServiceRouter where
  services : List WeightedServiceEntry
  totalWeight : Int
  currentWeights : List Int
  aligned : currentWeights.length = services.length

namespace WeightedServiceRouter

def new (config : WeightedService) : WeightedServiceRouter where
  services := config.services.map fun s => ⟨s.name, s.weight⟩
  totalWeight := config.services.foldl (fun total s => total + (s.weight.toNat : Int)) 0
  currentWeights := config.services.map fun _ => 0
  aligned := by simp

/-- The loop of `next_service` starts from `i64::MIN` and index 0, where that of `WeightedBalancer`
starts from "no server yet". -/
def minWeight : Int := -2 ^ 63

/-- The comparison in the loop of `next_service`: an index is taken if its raised weight is above
all before. -/
def select : List Int → Nat → Int → Nat → Nat
  | [], _, _, selectedIdx => selectedIdx
  | current :: rest, i, maxWeight, selectedIdx =>
    if current > maxWeight then select rest (i + 1) current i
    else select rest (i + 1) maxWeight selectedIdx

variable (r : WeightedServiceRouter)

def raisedWeights : List Int :=
  List.zipWith (fun service current => current + (service.weight.toNat : Int)) r.services
    r.currentWeights

def charge (idx : Nat) : WeightedServiceRouter :=
  { r with
    currentWeights := r.raisedWeights.modify idx fun current => current - r.totalWeight
    aligned := by simp [raisedWeights, r.aligned] }

def nextIndex : Option Nat :=
  if r.services.isEmpty then none
  else if r.services.length = 1 then some 0
  else some (select r.raisedWeights 0 minWeight 0)

/-- A single service is answered without touching the weights. -/
def nextService : Option Text × WeightedServiceRouter :=
  if r.services.isEmpty then (none, r)
  else if r.services.length = 1 then (r.services[0]?.map (·.name), r)
  else
    let selectedIdx := select r.raisedWeights 0 minWeight 0
    (r.services[selectedIdx]?.map (·.name), r.charge selectedIdx)

lemma nextService_fst :
    r.nextService.1 = r.nextIndex.bind fun idx => r.services[idx]?.map (·.name) := by
  unfold nextService nextIndex
  split
  · rfl
  · split <;> rfl

/-! ## The selection is of the highest weight -/

/-- What a weight is in the loop: one above the bound that the loop starts from. -/
def offer (current : Int) : Option Int := if minWeight < current then some current else none

lemma best_select (weights : List Int) {seen : List Int} {best : Option (ℕ × Int)} (h : Best offer seen best) :
    ∃ best', Best offer (seen ++ weights) best' ∧
      select weights seen.length (best.elim minWeight (·.2)) (best.elim 0 (·.1)) =
        best'.elim 0 (·.1) := by
  induction weights generalizing seen best with
  | nil => exact ⟨best, by rwa [append_nil], rfl⟩
  | cons current weights ih =>
    rw [select, append_cons]
    -- what is remembered is above the bound
    have habove : minWeight ≤ best.elim minWeight (·.2) := by
      rcases best with _ | ⟨k, w⟩
      · exact Int.le_refl _
      · obtain ⟨⟨c, -, hkey⟩, -⟩ := h
        obtain ⟨hlt, ⟨⟩⟩ := Option.ite_none_right_eq_some.mp hkey
        exact Int.le_of_lt hlt
    split
    · next hgt =>
      have hoffer : offer current = some current := if_pos (Int.lt_of_le_of_lt habove hgt)
      have htake := h.take hoffer (by
        rintro k w rfl
        exact hgt)
      simpa using ih htake
    · next hle =>
      have hkeep : Best offer (seen ++ [current]) best := h.keep fun v hv => by
        obtain ⟨hlt, ⟨⟩⟩ := Option.ite_none_right_eq_some.mp hv
        rcases best with _ | ⟨k, w⟩
        · exact absurd hlt hle
        · exact ⟨k, w, rfl, Int.not_lt.mp hle⟩
      simpa using ih hkeep

/-- Since the raised weights add up to a positive total, the start is never the answer by default.
-/
lemma select_highest {weights : List Int} (hpos : ∃ c ∈ weights, 0 < c) :
    ∃ c, weights[select weights 0 minWeight 0]? = some c ∧ ∀ c' ∈ weights, c' ≤ c := by
  obtain ⟨best, hbest, hselect⟩ := best_select weights best_nil
  rw [show select weights 0 minWeight 0 = _ from hselect]
  rcases best with _ | ⟨k, w⟩
  · -- all at most `i64::MIN`: not with a positive one
    obtain ⟨c, hc, hcpos⟩ := hpos
    exact absurd (hbest c hc) (by rw [offer, if_pos (by rw [minWeight]; omega)]; simp)
  · obtain ⟨⟨c, hc, hkey⟩, hmost⟩ := hbest
    obtain ⟨hlt, ⟨⟩⟩ := Option.ite_none_right_eq_some.mp hkey
    refine ⟨w, hc, fun c' hc' => ?_⟩
    obtain ⟨j, hj⟩ := mem_iff_getElem?.mp hc'
    by_cases habove : minWeight < c'
    · exact (hmost j c' c' hj (if_pos habove)).1
    · omega

/-! ## Rounds -/

def serviceWeights (config : WeightedService) : List Nat :=
  config.services.map fun s => s.weight.toNat

def currentWeight (i : Nat) : Int := r.currentWeights.getD i 0

/-- A router for the given configuration. -/
structure Routes (config : WeightedService) (r : WeightedServiceRouter) : Prop where
  weights : r.services.map (fun s => s.weight.toNat) = serviceWeights config
  total : r.totalWeight = listTotal (serviceWeights config)

lemma routes_new (config : WeightedService) : Routes config (new config) where
  weights := by simp [new, serviceWeights, Function.comp_def]
  total := foldl_intCast _ _

namespace Routes

variable {config : WeightedService} {r : WeightedServiceRouter}

lemma length_eq (h : Routes config r) : r.services.length = (serviceWeights config).length := by
  rw [← h.weights, length_map]

lemma raisedWeights_getElem? (h : Routes config r) {i : Nat}
    (hi : i < (serviceWeights config).length) :
    r.raisedWeights[i]? = some (r.currentWeight i + ((serviceWeights config).getD i 0 : Nat)) := by
  have hservice : i < r.services.length := h.length_eq ▸ hi
  have hcurrent : i < r.currentWeights.length := r.aligned ▸ hservice
  rw [raisedWeights, getElem?_zipWith, getElem?_eq_getElem hservice,
    getElem?_eq_getElem hcurrent, currentWeight, getD_eq_getElem _ _ hcurrent,
    ← h.weights, getD_eq_getElem _ _ (by simpa using hservice), getElem_map]

lemma nextService_round (h : Routes config r) (htwo : 2 ≤ config.services.length)
    (hpos : 0 < listTotal (serviceWeights config))
    (hzero : ∑ i ∈ Finset.range (serviceWeights config).length, r.currentWeight i = 0) :
    Routes config r.nextService.2 ∧
      ∃ i < (serviceWeights config).length, r.nextIndex = some i ∧
        (∀ j < (serviceWeights config).length,
          r.currentWeight j + ((serviceWeights config).getD j 0 : Nat) ≤
            r.currentWeight i + ((serviceWeights config).getD i 0 : Nat)) ∧
        ∀ j < (serviceWeights config).length, r.nextService.2.currentWeight j =
          r.currentWeight j + ((serviceWeights config).getD j 0 : Nat) -
            if j = i then (listTotal (serviceWeights config) : Int) else 0 := by
  have hlen : r.services.length = config.services.length := by
    rw [h.length_eq, serviceWeights, length_map]
  have hempty : ¬r.services.isEmpty := by
    rw [isEmpty_iff_length_eq_zero]
    omega
  have hsingle : ¬r.services.length = 1 := by omega
  -- some raised weight is positive, so the start value of the loop is passed
  have hpositive : ∃ c ∈ r.raisedWeights, 0 < c := by
    obtain ⟨i, hi, hlt⟩ := exists_raised_pos hzero (listTotal_eq _ ▸ hpos)
    have hraised := h.raisedWeights_getElem? (Finset.mem_range.mp hi)
    exact ⟨_, mem_of_getElem? hraised, hlt⟩
  obtain ⟨c, hc, hmax⟩ := select_highest hpositive
  have hnext : r.nextService.2 = r.charge (select r.raisedWeights 0 minWeight 0) := by
    rw [nextService, if_neg hempty, if_neg hsingle]
  have hindex : r.nextIndex = some (select r.raisedWeights 0 minWeight 0) := by
    rw [nextIndex, if_neg hempty, if_neg hsingle]
  generalize select r.raisedWeights 0 minWeight 0 = i at hc hnext hindex
  have hi : i < (serviceWeights config).length := by
    have hlt := (List.getElem?_eq_some_iff.mp hc).1
    rw [raisedWeights, length_zipWith, h.length_eq] at hlt
    omega
  rw [h.raisedWeights_getElem? hi] at hc
  rw [hnext]
  refine ⟨⟨h.weights, h.total⟩, i, hi, hindex, ?_, ?_⟩
  · intro j hj
    rw [Option.some.inj hc]
    exact hmax _ (mem_of_getElem? (h.raisedWeights_getElem? hj))
  · intro j hj
    rw [currentWeight, charge, getD_eq_getElem?_getD, getElem?_modify,
      h.raisedWeights_getElem? hj, h.total]
    by_cases hij : j = i
    · simp [hij]
    · simp [hij, Ne.symm hij]

end Routes

lemma exactShares_new {config : WeightedService} (htwo : 2 ≤ config.services.length)
    (hpos : 0 < listTotal (serviceWeights config)) :
    ExactShares (serviceWeights config)
      (count (fun r => r.nextService.2) nextIndex (new config))
      fun k =>
        ((fun r : WeightedServiceRouter => r.nextService.2)^[k] (new config)).currentWeight := by
  refine exactShares_of_step hpos (routes_new config) ?_ ?_
  · intro i _
    rw [currentWeight, new, getD_eq_getElem?_getD, getElem?_map]
    cases config.services[i]? <;> rfl
  · intro r hr hzero
    exact hr.nextService_round htwo hpos hzero

end WeightedServiceRouter

/-- **Smooth weighted round robin is exact**, for the servers of a balancer that are all healthy
and for the services of a router. -/
theorem smooth_weighted_exact :
    (∀ servers : List Server, 0 < listTotal (serverWeights servers) →
      ExactShares (serverWeights servers)
        (count (fun b => b.nextServer.2) WeightedBalancer.nextIndex (.new servers))
        fun k => ((fun b : WeightedBalancer => b.nextServer.2)^[k] (.new servers)).currentWeight) ∧
    ∀ config : WeightedService, 2 ≤ config.services.length →
      0 < listTotal (WeightedServiceRouter.serviceWeights config) →
      ExactShares (WeightedServiceRouter.serviceWeights config)
        (count (fun r => r.nextService.2) WeightedServiceRouter.nextIndex (.new config))
        fun k =>
          ((fun r : WeightedServiceRouter => r.nextService.2)^[k] (.new config)).currentWeight :=
  ⟨fun _ hpos => WeightedBalancer.exactShares_new hpos,
    fun _ htwo hpos => WeightedServiceRouter.exactShares_new htwo hpos⟩

def fiveThreeTwo : List Server :=
  [{ url := "http://server0:8080", weight := 5 },
    { url := "http://server1:8080", weight := 3 },
    { url := "http://server2:8080", weight := 2 }]

def nineOne : WeightedService := ⟨[⟨"service-a", 9⟩, ⟨"service-b", 1⟩]⟩

theorem smooth_weighted_hundred :
    count (fun b => b.nextServer.2) WeightedBalancer.nextIndex (.new fiveThreeTwo) 100 1 = 30 ∧
    count (fun r => r.nextService.2) WeightedServiceRouter.nextIndex (.new nineOne) 100 0 = 90 :=
  ⟨((smooth_weighted_exact.1 fiveThreeTwo (by decide) 100 1 (by decide)).2.2.1 (by decide)).1,
    ((smooth_weighted_exact.2 nineOne (by decide) (by decide) 100 0 (by decide)).2.2.1
      (by decide)).1⟩

end TrafficCop
