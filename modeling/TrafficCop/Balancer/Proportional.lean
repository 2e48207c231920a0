import TrafficCop.Balancer.Random
import TrafficCop.Lib.Cumulative
import TrafficCop.Service.Weighted

/-!
# Proportional random selection

`RandomBalancer::next_server` of `balancer/random.rs` and `WeightedServiceRouter::random_service` of
`service/weighted.rs`, in a build that checks additions.

The balancer guards its remainder; the router does not.
-/

namespace TrafficCop

open Rust Cumulative Outcome

/-! ## Checked sums -/

/-- An addition of values that are not negative, in a type that ends at `bound`. -/
def addChecked (bound a b : ℕ) : Outcome Empty ℕ := if a + b < bound then .ok (a + b) else .panic

/-- Where `Balancer.Random` wraps, a sum that leaves its type panics. -/
def sumChecked (bound : ℕ) (weights : List ℕ) : Outcome Empty ℕ :=
  weights.foldlM (addChecked bound) 0

/-- The loop: the first entry with a weight at which the running sum passes the number drawn. -/
def drawChecked (bound rand : ℕ) : List (Option ℕ) → ℕ → ℕ → Outcome Empty (Option ℕ)
  | [], _, _ => .ok none
  | none :: rest, idx, cumulative => drawChecked bound rand rest (idx + 1) cumulative
  | some weight :: rest, idx, cumulative => do
    let cumulative ← addChecked bound cumulative weight
    if rand < cumulative then return some idx else drawChecked bound rand rest (idx + 1) cumulative

/-- The weights with 0 for the entries that are skipped. -/
def eligible (weights : List (Option ℕ)) : List ℕ := weights.map (·.getD 0)

lemma eligible_cons (weight : Option ℕ) (weights : List (Option ℕ)) :
    eligible (weight :: weights) = weight.getD 0 :: eligible weights := rfl

lemma foldlM_addChecked (bound : ℕ) (weights : List ℕ) (start : ℕ) (hstart : start < bound) :
    weights.foldlM (addChecked bound) start =
      if start + weights.sum < bound then .ok (start + weights.sum) else .panic := by
  induction weights generalizing start with
  | nil => simp [hstart]
  | cons weight weights ih =>
    rw [List.foldlM_cons, addChecked, List.sum_cons]
    split
    · next hlt => rw [ok_bind, ih _ hlt, Nat.add_assoc]
    · next hge => rw [panic_bind, if_neg (by omega)]

lemma sumChecked_eq {bound : ℕ} (hbound : 0 < bound) (weights : List ℕ) :
    sumChecked bound weights = if weights.sum < bound then .ok weights.sum else .panic := by
  rw [sumChecked, foldlM_addChecked bound weights 0 hbound, Nat.zero_add]

lemma map_succ_add (o : Option ℕ) (idx : ℕ) :
    (o.map (· + 1)).map (· + idx) = o.map (· + (idx + 1)) := by
  cases o with
  | none => rfl
  | some i => simp only [Option.map_some]; congr 1; omega

lemma drawChecked_eq {bound rand : ℕ} {weights : List (Option ℕ)} {idx cumulative : ℕ}
    (hle : cumulative ≤ rand) (hbound : cumulative + (eligible weights).sum < bound) :
    drawChecked bound rand weights idx cumulative =
      .ok ((choose (eligible weights) (rand - cumulative)).map (· + idx)) := by
  induction weights generalizing idx cumulative with
  | nil => rfl
  | cons weight weights ih =>
    rw [eligible_cons, List.sum_cons] at hbound
    rw [eligible_cons]
    cases weight with
    | none =>
      rw [Option.getD_none] at hbound ⊢
      rw [drawChecked, ih hle (by omega), choose_zero, map_succ_add]
    | some weight =>
      rw [Option.getD_some] at hbound ⊢
      rw [drawChecked, addChecked, if_pos (by omega), ok_bind, choose]
      by_cases hlt : rand < cumulative + weight
      · rw [if_pos hlt, if_pos (by omega), Option.map_some, Nat.zero_add]
        rfl
      · -- not passed yet: the sum is still at or below the number
        rw [if_neg hlt, if_neg (by omega), ih (by omega) (by omega), map_succ_add, Nat.sub_add_eq]

/-! ## Fairness -/

/-- A selection never panics. With weights to select by, the number drawn counts modulo their sum,
and every entry is selected by as many residues as its weight says. -/
structure Fair (weights : List ℕ) (answer : ℕ → Outcome Empty (Option ℕ)) : Prop where
  total : ∀ drawn, ∃ o, answer drawn = .ok o
  residues : 0 < weights.sum → ∀ drawn, answer drawn = answer (drawn % weights.sum)
  counts : 0 < weights.sum → ∀ i,
    Nat.count (fun r => answer r = .ok (some i)) weights.sum = weights.getD i 0

lemma fair_of_choose {weights : List ℕ} {answer : ℕ → Outcome Empty (Option ℕ)}
    (hzero : weights.sum = 0 → ∀ drawn, ∃ o, answer drawn = .ok o)
    (hpos : 0 < weights.sum → ∀ drawn, answer drawn = .ok (choose weights (drawn % weights.sum))) :
    Fair weights answer where
  total drawn := by
    rcases Nat.eq_zero_or_pos weights.sum with h | h
    · exact hzero h drawn
    · exact ⟨_, hpos h drawn⟩
  residues h drawn := by rw [hpos h, hpos h, Nat.mod_mod]
  counts h i := by
    rw [← count_choose weights i]
    refine count_congr fun r hr => ?_
    rw [hpos h, Nat.mod_eq_of_lt hr, ok.injEq]

/-! ## Servers -/

namespace RandomBalancer

def weightOf (s : RandomServer) : Option ℕ :=
  if s.healthy then some s.config.weight.toNat else none

def newChecked (servers : List Server) : Outcome Empty RandomBalancer := do
  let _ ← sumChecked (2 ^ 32) (servers.map (·.weight.toNat))
  return new servers

def nextIndexChecked (b : RandomBalancer) (drawn : ℕ) : Outcome Empty (Option ℕ) :=
  let first := if b.servers.isEmpty then none else some 0
  if b.servers.isEmpty || b.totalWeight == 0 then .ok first
  else do
    let healthyWeight ← sumChecked (2 ^ 32)
      ((b.servers.filter (·.healthy)).map (·.config.weight.toNat))
    if healthyWeight = 0 then return first
    else
      match ← drawChecked (2 ^ 32) (drawn % healthyWeight) (b.servers.map weightOf) 0 0 with
      | some idx => return some idx
      | none => return first

def withHealth (b : RandomBalancer) (healthy : ℕ → Bool) : RandomBalancer :=
  { b with servers := b.servers.mapIdx fun i s => { s with healthy := healthy i } }

def healthyWeights (b : RandomBalancer) : List ℕ := eligible (b.servers.map weightOf)

lemma sum_healthyWeights (servers : List RandomServer) :
    (eligible (servers.map weightOf)).sum =
      ((servers.filter (·.healthy)).map (·.config.weight.toNat)).sum := by
  induction servers with
  | nil => rfl
  | cons s servers ih =>
    rw [List.map_cons, eligible_cons, List.sum_cons, ih]
    by_cases hs : s.healthy
    · simp [weightOf, hs]
    · simp [weightOf, hs]

lemma sum_withHealth_le (b : RandomBalancer) :
    b.healthyWeights.sum ≤ (b.servers.map (·.config.weight.toNat)).sum := by
  rw [healthyWeights, sum_healthyWeights]
  exact List.Sublist.sum_le_sum (List.filter_sublist.map _) fun _ _ => Nat.zero_le _

lemma toNat_foldl_weights (servers : List Server) (start : UInt32)
    (h : start.toNat + (servers.map (·.weight.toNat)).sum < 2 ^ 32) :
    (servers.foldl (fun total s => total + s.weight) start).toNat =
      start.toNat + (servers.map (·.weight.toNat)).sum := by
  induction servers generalizing start with
  | nil => rfl
  | cons s servers ih =>
    rw [List.map_cons, List.sum_cons] at h ⊢
    have hadd : (start + s.weight).toNat = start.toNat + s.weight.toNat := by
      rw [UInt32.toNat_add]
      exact Nat.mod_eq_of_lt (by omega)
    rw [List.foldl_cons, ih _ (by rw [hadd]; omega), hadd, Nat.add_assoc]

variable {servers : List Server} {b : RandomBalancer}

lemma toNat_sumWeights (h : (servers.map (·.weight.toNat)).sum < 2 ^ 32) :
    (sumWeights servers).toNat = (servers.map (·.weight.toNat)).sum := by
  rw [sumWeights, toNat_foldl_weights _ _ (by simpa using h)]
  simp

lemma drawChecked_draw {rand : UInt32} {servers : List RandomServer} {idx : ℕ}
    {cumulative : UInt32}
    (h : cumulative.toNat + (eligible (servers.map weightOf)).sum < 2 ^ 32) :
    drawChecked (2 ^ 32) rand.toNat (servers.map weightOf) idx cumulative.toNat =
      .ok (draw rand servers idx cumulative) := by
  induction servers generalizing idx cumulative with
  | nil => rfl
  | cons s servers ih =>
    rw [List.map_cons, eligible_cons, List.sum_cons] at h
    rw [List.map_cons, draw]
    by_cases hs : s.healthy
    · have hweight : weightOf s = some s.config.weight.toNat := by simp [weightOf, hs]
      rw [hweight, Option.getD_some] at h
      have hadd : (cumulative + s.config.weight).toNat =
          cumulative.toNat + s.config.weight.toNat := by
        rw [UInt32.toNat_add]
        exact Nat.mod_eq_of_lt (by omega)
      have hskip : ¬(!s.healthy) = true := by simp [hs]
      rw [hweight, drawChecked, addChecked, if_pos (by omega), ok_bind, ← hadd, if_neg hskip]
      by_cases hlt : rand < cumulative + s.config.weight
      · rw [if_pos hlt, if_pos (UInt32.lt_iff_toNat_lt.mp hlt)]
        rfl
      · rw [if_neg hlt, if_neg (mt UInt32.lt_iff_toNat_lt.mpr hlt), ih (by rw [hadd]; omega)]
    · have hweight : weightOf s = none := by simp [weightOf, hs]
      rw [hweight, Option.getD_none, Nat.zero_add] at h
      rw [hweight, drawChecked, if_pos (by simp [hs]), ih h]

/-- The cached total is the sum, without a wrap. -/
def Summed (b : RandomBalancer) : Prop :=
  b.totalWeight.toNat = (b.servers.map (·.config.weight.toNat)).sum

lemma Summed.healthy_lt (h : b.Summed) : b.healthyWeights.sum < 2 ^ 32 :=
  Nat.lt_of_le_of_lt (h ▸ b.sum_withHealth_le) b.totalWeight.toNat_lt

lemma summed_withHealth (h : (servers.map (·.weight.toNat)).sum < 2 ^ 32) (healthy : ℕ → Bool) :
    ((new servers).withHealth healthy).Summed := by
  have hconfigs : ((new servers).withHealth healthy).servers.map (·.config.weight.toNat) =
      servers.map (·.weight.toNat) := by
    refine List.ext_getElem? fun i => ?_
    simp [withHealth, new, Function.comp_def]
  rw [Summed, hconfigs]
  exact toNat_sumWeights h

lemma Summed.sumChecked_healthy (h : b.Summed) :
    sumChecked (2 ^ 32) ((b.servers.filter (·.healthy)).map (·.config.weight.toNat)) =
      .ok b.healthyWeights.sum := by
  rw [sumChecked_eq (by decide), ← sum_healthyWeights]
  exact if_pos h.healthy_lt

lemma nextIndex_eq_checked (h : b.Summed) (word : UInt32) :
    b.nextIndexChecked word.toNat = .ok (b.nextIndex word) := by
  have hhealthy : b.healthyWeight.toNat = b.healthyWeights.sum := by
    rw [healthyWeight, toNat_sumWeights, healthyWeights, sum_healthyWeights, List.map_map]
    · rfl
    · rw [List.map_map]
      exact (sum_healthyWeights b.servers) ▸ h.healthy_lt
  have hzero : b.healthyWeights.sum = 0 ↔ b.healthyWeight = 0 := by
    rw [← hhealthy, ← UInt32.toNat_inj]
    rfl
  unfold nextIndexChecked nextIndex
  dsimp only
  generalize (if b.servers.isEmpty then none else some 0 : Option ℕ) = first
  split
  · rfl
  rw [h.sumChecked_healthy, ok_bind]
  by_cases hw : b.healthyWeight = 0
  · rw [if_pos (hzero.mpr hw), if_pos (by simpa using hw)]
    rfl
  · rw [if_neg (mt hzero.mp hw), if_neg (by simpa using hw), ← hhealthy, ← UInt32.toNat_mod]
    have hdraw := @drawChecked_draw (word % b.healthyWeight) b.servers 0 0 (by
      rw [UInt32.toNat_zero, Nat.zero_add]
      exact h.healthy_lt)
    rw [UInt32.toNat_zero] at hdraw
    rw [hdraw, ok_bind]
    cases draw (word % b.healthyWeight) b.servers 0 0 <;> rfl

lemma Summed.fair (h : b.Summed) : Fair b.healthyWeights b.nextIndexChecked := by
  refine fair_of_choose (fun hzero drawn => ?_) (fun hpos drawn => ?_)
  · unfold nextIndexChecked
    dsimp only
    split
    · exact ⟨_, rfl⟩
    · rw [h.sumChecked_healthy, ok_bind, if_pos hzero]
      exact ⟨_, rfl⟩
  · -- with a healthy server that has a weight, the guard at the start does not apply
    have hle := b.sum_withHealth_le
    have hne : ¬(b.servers.isEmpty || b.totalWeight == 0) = true := by
      intro hguard
      rcases Bool.or_eq_true_iff.mp hguard with hempty | htotal
      · rw [List.isEmpty_iff.mp hempty] at hle
        exact absurd hle (Nat.not_le.mpr hpos)
      · rw [← h, eq_of_beq htotal, UInt32.toNat_zero] at hle
        omega
    unfold nextIndexChecked
    dsimp only
    rw [if_neg hne, h.sumChecked_healthy, ok_bind, if_neg (by omega),
      drawChecked_eq (Nat.zero_le _) (by rw [Nat.zero_add]; exact h.healthy_lt), ok_bind]
    -- a residue always selects, so that the fallback behind the loop is not reached
    obtain ⟨i, hi⟩ := exists_choose (Nat.mod_lt drawn hpos)
    rw [Nat.sub_zero, ← healthyWeights, hi]
    rfl

end RandomBalancer

/-! ## Services -/

namespace WeightedServiceRouter

/-- Weights are added as `i64` values, which has room for 2³¹ services. -/
def newChecked (config : WeightedService) : Outcome Empty WeightedServiceRouter := do
  let _ ← sumChecked (2 ^ 63) (serviceWeights config)
  return new config

def randomIndex (r : WeightedServiceRouter) (drawn : ℕ) : Outcome Empty (Option ℕ) :=
  if r.services.isEmpty then .ok none
  else if r.services.length = 1 then .ok (some 0)
  -- a remainder by 0
  else if r.totalWeight = 0 then .panic
  else do
    match ← drawChecked (2 ^ 63) (drawn % r.totalWeight.toNat)
      (r.services.map fun s => some s.weight.toNat) 0 0 with
    | some idx => return some idx
    | none => return some (r.services.length - 1)

def randomService (r : WeightedServiceRouter) (word : UInt32) : Outcome Empty (Option Text) := do
  let idx ← r.randomIndex word.toNat
  return idx.bind fun idx => r.services[idx]?.map (·.name)

lemma eligible_map_some {α : Type} (l : List α) (f : α → ℕ) :
    eligible (l.map fun a => some (f a)) = l.map f := by
  rw [eligible, List.map_map]
  rfl

lemma totalWeight_new (config : WeightedService) :
    (new config).totalWeight = (serviceWeights config).sum := by
  rw [(routes_new config).total, SmoothRoundRobin.listTotal, List.sum_eq_foldl]

lemma randomIndex_many {config : WeightedService} (hmany : 2 ≤ config.services.length)
    (hfits : (serviceWeights config).sum < 2 ^ 63) (drawn : ℕ) :
    (new config).randomIndex drawn =
      if (serviceWeights config).sum = 0 then .panic
      else .ok (choose (serviceWeights config) (drawn % (serviceWeights config).sum)) := by
  have hlength : (new config).services.length = config.services.length := by simp [new]
  have hempty : ¬(new config).services.isEmpty := by
    rw [List.isEmpty_iff_length_eq_zero]
    omega
  have hweights : eligible ((new config).services.map fun s => some s.weight.toNat) =
      serviceWeights config :=
    (eligible_map_some _ _).trans (routes_new config).weights
  rw [randomIndex, if_neg hempty, if_neg (by omega), totalWeight_new, Int.toNat_natCast]
  by_cases hzero : (serviceWeights config).sum = 0
  · rw [if_pos hzero, if_pos (by exact_mod_cast hzero)]
  · rw [if_neg hzero, if_neg (by exact_mod_cast hzero), drawChecked_eq (Nat.zero_le _)
      (by rw [hweights, Nat.zero_add]; exact hfits), ok_bind, hweights]
    obtain ⟨i, hi⟩ := exists_choose (Nat.mod_lt drawn (Nat.pos_of_ne_zero hzero))
    rw [Nat.sub_zero, hi]
    rfl

lemma fair_of_le_one {config : WeightedService} (h : config.services.length ≤ 1) :
    Fair (serviceWeights config) (new config).randomIndex := by
  rcases config with ⟨_ | ⟨service, _ | ⟨second, services⟩⟩⟩
  · exact fair_of_choose (fun _ _ => ⟨none, rfl⟩) fun hpos => absurd hpos (by decide)
  · refine fair_of_choose (fun _ _ => ⟨some 0, rfl⟩) fun hpos drawn => ?_
    have hlt := Nat.mod_lt drawn hpos
    have hsum : (serviceWeights ⟨[service]⟩).sum = service.weight.toNat := by simp [serviceWeights]
    rw [hsum] at hlt ⊢
    show ok (some 0) = .ok (choose [service.weight.toNat] _)
    rw [choose, if_pos hlt]
  · simp at h

lemma fair_new_iff (config : WeightedService) :
    (∃ r, newChecked config = .ok r ∧ Fair (serviceWeights config) r.randomIndex) ↔
      (serviceWeights config).sum < 2 ^ 63 ∧
        (2 ≤ config.services.length → 0 < (serviceWeights config).sum) := by
  rw [newChecked, sumChecked_eq (by decide)]
  by_cases hfits : (serviceWeights config).sum < 2 ^ 63
  · rw [if_pos hfits, ok_bind]
    constructor
    · rintro ⟨r, hr, hfair⟩
      cases hr
      -- without weights no number drawn gets an answer
      refine ⟨hfits, fun hmany => Nat.pos_of_ne_zero fun hzero => ?_⟩
      obtain ⟨o, ho⟩ := hfair.total 0
      rw [randomIndex_many hmany hfits, if_pos hzero] at ho
      cases ho
    · rintro ⟨-, hpos⟩
      refine ⟨new config, rfl, ?_⟩
      rcases Nat.lt_or_ge config.services.length 2 with hfew | hmany
      · exact fair_of_le_one (by omega)
      · have hne : ¬(serviceWeights config).sum = 0 := (hpos hmany).ne'
        refine fair_of_choose (fun hzero => absurd hzero hne) fun _ drawn => ?_
        rw [randomIndex_many hmany hfits, if_neg hne]
  · rw [if_neg hfits, panic_bind]
    refine iff_of_false ?_ fun h => hfits h.1
    rintro ⟨r, hr, -⟩
    cases hr

end WeightedServiceRouter

lemma RandomBalancer.fair_new_iff (servers : List Server) :
    (∃ b, newChecked servers = .ok b ∧ ∀ healthy : ℕ → Bool,
        Fair (b.withHealth healthy).healthyWeights (b.withHealth healthy).nextIndexChecked ∧
        ∀ word : UInt32, (b.withHealth healthy).nextIndexChecked word.toNat =
          .ok ((b.withHealth healthy).nextIndex word)) ↔
      (servers.map (·.weight.toNat)).sum < 2 ^ 32 := by
  rw [newChecked, sumChecked_eq (by decide)]
  by_cases hfits : (servers.map (·.weight.toNat)).sum < 2 ^ 32
  · rw [if_pos hfits]
    refine iff_of_true ⟨new servers, rfl, fun healthy => ?_⟩ hfits
    have hsummed := summed_withHealth hfits healthy
    exact ⟨hsummed.fair, nextIndex_eq_checked hsummed⟩
  · rw [if_neg hfits, panic_bind]
    refine iff_of_false ?_ hfits
    rintro ⟨b, hb, -⟩
    cases hb

/-- **When random selection is total and proportional**: the weights of a balancer must add up to a
`u32`, and several services must have a weight between them. -/
theorem weighted_random_iff (servers : List Server) (config : WeightedService) :
    ((∃ b, RandomBalancer.newChecked servers = .ok b ∧ ∀ healthy : ℕ → Bool,
        Fair (b.withHealth healthy).healthyWeights (b.withHealth healthy).nextIndexChecked ∧
        ∀ word : UInt32, (b.withHealth healthy).nextIndexChecked word.toNat =
          .ok ((b.withHealth healthy).nextIndex word)) ↔
      (servers.map (·.weight.toNat)).sum < 2 ^ 32) ∧
    ((∃ r, WeightedServiceRouter.newChecked config = .ok r ∧
        Fair (WeightedServiceRouter.serviceWeights config) r.randomIndex) ↔
      (WeightedServiceRouter.serviceWeights config).sum < 2 ^ 63 ∧
        (2 ≤ config.services.length → 0 < (WeightedServiceRouter.serviceWeights config).sum)) :=
  ⟨RandomBalancer.fair_new_iff servers, WeightedServiceRouter.fair_new_iff config⟩

def heavyServers : List Server :=
  [{ url := "http://a", weight := 4294967295 }, { url := "http://b", weight := 1 }]

def weightlessServices : WeightedService :=
  ⟨[{ name := "blue", weight := 0 }, { name := "green", weight := 0 }]⟩

/-- **A sum of weights overflows**, and where it wraps the first server gets everything. **A
service group without weights is a division by 0.** -/
theorem weighted_random_panics :
    RandomBalancer.newChecked heavyServers = .panic ∧
      (∀ word, (RandomBalancer.new heavyServers).nextIndex word = some 0) ∧
      ∀ word, (WeightedServiceRouter.new weightlessServices).randomService word = .panic := by
  refine ⟨by decide, fun word => ?_, fun word => ?_⟩
  · rfl
  · rfl

end TrafficCop
