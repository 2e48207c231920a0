import Mathlib.Tactic.Ring
import TrafficCop.Balancer.LeastConn

/-!
# How exact least connections is

`next_server` of `balancer/least_conn.rs` compares loads, which are rounded down.

Rounding keeps the order of the exact ratios, so a server with the least ratio has the least load,
but servers with a higher ratio may have the same load. A product that wraps does not even keep the
order.
-/

namespace TrafficCop

open Rust List Option

namespace LeastConnBalancer

inductive Call where
  | acquire (index : ℕ)
  | release (index : ℕ)
  | markHealthy (index : ℕ)
  | markUnhealthy (index : ℕ)
  | nextServer
  deriving Repr, DecidableEq

def step (b : LeastConnBalancer) : Call → LeastConnBalancer
  | .acquire index => b.acquire index
  | .release index => b.release index
  | .markHealthy index => b.markHealthy index
  | .markUnhealthy index => b.markUnhealthy index
  | .nextServer => b

/-- The balancer behind a sequence of calls. -/
def after (servers : List Server) (calls : List Call) : LeastConnBalancer :=
  calls.foldl step (new servers)

/-- The connections of a server, counted from the calls of a run. -/
def active (calls : List Call) (i : ℕ) : ℕ := calls.count (.acquire i) - calls.count (.release i)

/-- No connection is released that was not acquired before. -/
def Balanced (calls : List Call) : Prop :=
  ∀ before, before <+: calls → ∀ i, before.count (.release i) ≤ before.count (.acquire i)

def isHealthy (b : LeastConnBalancer) (i : ℕ) : Bool := b.servers[i]?.any (·.healthy)

def weight (servers : List Server) (i : ℕ) : ℕ := (servers[i]?.map (·.weight.toNat)).getD 0

/-- What `next_server` compares. -/
def load (conns weight : ℕ) : ℕ := conns * 100 % 2 ^ 64 / weight

variable {i : ℕ} {s : LeastConnServer} {b : LeastConnBalancer} {servers : List Server}
  {calls : List Call}

/-! ## The counters of a run -/

lemma getElem?_update (b : LeastConnBalancer) (index i : ℕ)
    (f : LeastConnServer → LeastConnServer) :
    (b.update index f).servers[i]? = if index = i then b.servers[i]?.map f else b.servers[i]? := by
  rw [update, getElem?_modify]
  split
  · rfl
  · simp

def entry (b : LeastConnBalancer) (i : ℕ) : Option (Server × UInt64) :=
  b.servers[i]?.map fun s => (s.config, s.activeConnections)

lemma entry_update (b : LeastConnBalancer) (index i : ℕ)
    (f : LeastConnServer → LeastConnServer) (g : UInt64 → UInt64)
    (hf : ∀ s, (f s).config = s.config ∧ (f s).activeConnections = g s.activeConnections) :
    (b.update index f).entry i =
      (b.entry i).map (Prod.map id fun n => if index = i then g n else n) := by
  rw [entry, entry, getElem?_update]
  cases b.servers[i]? with
  | none => split <;> rfl
  | some s =>
    by_cases h : index = i
    · simp [h, hf s]
    · simp [h]

lemma entry_mark (b : LeastConnBalancer) (index i : ℕ) (healthy : Bool) :
    (b.update index fun s => { s with healthy }).entry i = b.entry i := by
  rw [entry_update b index i (fun s => { s with healthy }) id fun _ => ⟨rfl, rfl⟩]
  simp only [id_eq, ite_self]
  cases b.entry i <;> rfl

/-- What a call does to the counter of a server. -/
def Call.apply (call : Call) (i : ℕ) (n : UInt64) : UInt64 :=
  match call with
  | .acquire index => if index = i then n + 1 else n
  | .release index => if index = i then n - 1 else n
  | _ => n

lemma entry_step (b : LeastConnBalancer) (call : Call) (i : ℕ) :
    (b.step call).entry i = (b.entry i).map (Prod.map id (call.apply i)) := by
  -- a call that leaves the counters alone
  have hkeep : b.entry i = (b.entry i).map (Prod.map id id) := by simp
  cases call with
  | acquire index => exact entry_update b index i _ (· + 1) fun _ => ⟨rfl, rfl⟩
  | release index => exact entry_update b index i _ (· - 1) fun _ => ⟨rfl, rfl⟩
  | markHealthy index => exact (entry_mark b index i true).trans hkeep
  | markUnhealthy index => exact (entry_mark b index i false).trans hkeep
  | nextServer => exact hkeep

def counter (calls : List Call) (i : ℕ) : UInt64 :=
  UInt64.ofNat (calls.count (.acquire i)) - UInt64.ofNat (calls.count (.release i))

lemma counter_concat (calls : List Call) (call : Call) (i : ℕ) :
    counter (calls ++ [call]) i = call.apply i (counter calls i) := by
  rw [counter, counter, count_append, count_append, count_singleton, count_singleton]
  cases call with
  | acquire index =>
    by_cases h : index = i
    · simp [Call.apply, h]
      grind
    · simp [Call.apply, h]
  | release index =>
    by_cases h : index = i
    · simp [Call.apply, h]
      grind
    · simp [Call.apply, h]
  | markHealthy index => simp [Call.apply]
  | markUnhealthy index => simp [Call.apply]
  | nextServer => simp [Call.apply]

lemma entry_after (servers : List Server) (calls : List Call) (i : ℕ) :
    (after servers calls).entry i = servers[i]?.map fun config => (config, counter calls i) := by
  induction calls using List.reverseRecOn with
  | nil => cases h : servers[i]? <;> simp [after, new, entry, counter, h]
  | append_singleton calls call ih =>
    rw [after, foldl_concat, ← after, entry_step, ih, Option.map_map, counter_concat]
    rfl

lemma weightedConns_after (hweight : ∀ s ∈ servers, 0 < s.weight)
    (hle : calls.count (.release i) ≤ calls.count (.acquire i))
    (hs : (after servers calls).servers[i]? = some s) :
    servers[i]? = some s.config ∧ 0 < weight servers i ∧
      s.weightedConns.toNat = load (active calls i) (weight servers i) := by
  have hentry := entry_after servers calls i
  rw [entry, hs, map_some] at hentry
  obtain ⟨config, hconfig, heq⟩ := map_eq_some_iff.mp hentry.symm
  obtain ⟨rfl, hcounter⟩ := Prod.mk.inj heq
  have hpos := hweight _ (mem_of_getElem? hconfig)
  have hweight' : weight servers i = s.config.weight.toNat := by rw [weight, hconfig]; rfl
  have hactive : s.activeConnections.toNat = active calls i % 2 ^ 64 := by
    rw [← hcounter, counter, ← UInt64.ofNat_sub hle, UInt64.toNat_ofNat']
    rfl
  refine ⟨hconfig, ?_, ?_⟩
  · rw [hweight']
    exact UInt32.lt_iff_toNat_lt.mp hpos
  · rw [LeastConnServer.weightedConns, if_pos hpos, UInt64.toNat_div, UInt64.toNat_mul, hactive,
      hweight', load, UInt32.toNat_toUInt64]
    congr 1
    show active calls i % 2 ^ 64 * 100 % 2 ^ 64 = active calls i * 100 % 2 ^ 64
    omega

/-- Rounding down keeps the order of the exact ratios, if no product wraps. -/
lemma load_le_load {conns conns' weight weight' : ℕ} (hpos : 0 < weight) (hpos' : 0 < weight')
    (hrange : conns * 100 < 2 ^ 64) (hrange' : conns' * 100 < 2 ^ 64)
    (hle : conns * weight' ≤ conns' * weight) : load conns weight ≤ load conns' weight' := by
  rw [load, load, Nat.mod_eq_of_lt hrange, Nat.mod_eq_of_lt hrange', Nat.le_div_iff_mul_le hpos']
  have hfloor : conns * 100 / weight * weight ≤ conns * 100 := Nat.div_mul_le_self _ _
  have hscaled : conns * 100 / weight * weight' * weight ≤ conns' * 100 * weight := by
    calc conns * 100 / weight * weight' * weight
        = conns * 100 / weight * weight * weight' := by ring
      _ ≤ conns * 100 * weight' := Nat.mul_le_mul_right _ hfloor
      _ = conns * weight' * 100 := by ring
      _ ≤ conns' * weight * 100 := Nat.mul_le_mul_right _ hle
      _ = conns' * 100 * weight := by ring
  exact Nat.le_of_mul_le_mul_right hscaled hpos

/-! ## Exact selections -/

/-- No healthy server has a lower ratio of connections to weight. -/
def LeastRatio (servers : List Server) (calls : List Call) (i : ℕ) : Prop :=
  isHealthy (after servers calls) i = true ∧ ∀ j, isHealthy (after servers calls) j = true →
    active calls i * weight servers j ≤ active calls j * weight servers i

/-- Behind these calls, `next_server` answers with a server of the least ratio. -/
def SelectsLeast (servers : List Server) (calls : List Call) : Prop :=
  ∃ i, LeastRatio servers calls i ∧ (after servers calls).nextIndex = some i ∧
    (after servers calls).nextServer = servers[i]?

/-- A server with the least ratio has a lower load than every healthy server before it; where a
product wraps it must be the least as well. -/
def FirstOfLoad (servers : List Server) (calls : List Call) : Prop :=
  ∃ i, LeastRatio servers calls i ∧ ∀ j, isHealthy (after servers calls) j = true →
    (j < i → load (active calls i) (weight servers i) < load (active calls j) (weight servers j)) ∧
    (2 ^ 64 ≤ active calls i * 100 ∨ 2 ^ 64 ≤ active calls j * 100 →
      load (active calls i) (weight servers i) ≤ load (active calls j) (weight servers j))

lemma isHealthy_iff : b.isHealthy i ↔ ∃ s, b.servers[i]? = some s ∧ s.healthy := by
  rw [isHealthy, Option.any_eq_true]

lemma nextIndex_after_iff (hweight : ∀ s ∈ servers, 0 < s.weight)
    (hle : ∀ i, calls.count (.release i) ≤ calls.count (.acquire i)) :
    (after servers calls).nextIndex = some i ↔ isHealthy (after servers calls) i ∧
      ∀ j, isHealthy (after servers calls) j →
        load (active calls i) (weight servers i) ≤ load (active calls j) (weight servers j) ∧
        (j < i →
          load (active calls i) (weight servers i) < load (active calls j) (weight servers j)) := by
  have hload : ∀ {j s}, (after servers calls).servers[j]? = some s →
      s.weightedConns.toNat = load (active calls j) (weight servers j) :=
    fun hs => (weightedConns_after hweight (hle _) hs).2.2
  rw [nextIndex_eq_some_iff]
  constructor
  · rintro ⟨t, ht, hhealthy, hleast⟩
    refine ⟨isHealthy_iff.mpr ⟨t, ht, hhealthy⟩, fun j hj => ?_⟩
    obtain ⟨s, hs, hs'⟩ := isHealthy_iff.mp hj
    rw [← hload ht, ← hload hs, ← UInt64.le_iff_toNat_le, ← UInt64.lt_iff_toNat_lt]
    exact hleast j s hs hs'
  · rintro ⟨hi, hleast⟩
    obtain ⟨t, ht, hhealthy⟩ := isHealthy_iff.mp hi
    refine ⟨t, ht, hhealthy, fun j s hs hs' => ?_⟩
    rw [UInt64.le_iff_toNat_le, UInt64.lt_iff_toNat_lt, hload ht, hload hs]
    exact hleast j (isHealthy_iff.mpr ⟨s, hs, hs'⟩)

lemma selectsLeast_iff (hweight : ∀ s ∈ servers, 0 < s.weight)
    (hle : ∀ i, calls.count (.release i) ≤ calls.count (.acquire i)) :
    SelectsLeast servers calls ↔ FirstOfLoad servers calls := by
  have hpos : ∀ {j}, isHealthy (after servers calls) j → 0 < weight servers j := by
    intro j hj
    obtain ⟨s, hs, -⟩ := isHealthy_iff.mp hj
    exact (weightedConns_after hweight (hle _) hs).2.1
  constructor
  · rintro ⟨i, hleast, hindex, -⟩
    obtain ⟨-, hload⟩ := (nextIndex_after_iff hweight hle).mp hindex
    exact ⟨i, hleast, fun j hj => ⟨(hload j hj).2, fun _ => (hload j hj).1⟩⟩
  · rintro ⟨i, hleast, hload⟩
    have hindex : (after servers calls).nextIndex = some i := by
      refine (nextIndex_after_iff hweight hle).mpr ⟨hleast.1, fun j hj => ⟨?_, (hload j hj).1⟩⟩
      by_cases hwrap : 2 ^ 64 ≤ active calls i * 100 ∨ 2 ^ 64 ≤ active calls j * 100
      · exact (hload j hj).2 hwrap
      · -- without a wrap, rounding keeps the order
        exact load_le_load (hpos hleast.1) (hpos hj) (by omega) (by omega) (hleast.2 j hj)
    refine ⟨i, hleast, hindex, ?_⟩
    obtain ⟨s, hs, -⟩ := isHealthy_iff.mp hleast.1
    rw [nextServer, hindex, bind_some, hs, (weightedConns_after hweight (hle _) hs).1]
    rfl

/-- **When least connections is exact**: at every selection with a healthy server to select, of the
servers with the least ratio one comes before all others that have its rounded load. -/
theorem least_exact_iff (servers : List Server) (hweight : ∀ s ∈ servers, 0 < s.weight)
    (calls : List Call) (hbalanced : Balanced calls) :
    (∀ before, before ++ [.nextServer] <+: calls →
        (∃ j, isHealthy (after servers before) j = true) → SelectsLeast servers before) ↔
      ∀ before, before ++ [.nextServer] <+: calls →
        (∃ j, isHealthy (after servers before) j = true) → FirstOfLoad servers before := by
  refine forall_congr' fun before => forall_congr' fun hin => imp_congr_right fun _ => ?_
  exact selectsLeast_iff hweight (hbalanced before ((prefix_append _ _).trans hin))

def twins (weight : UInt32) : List Server :=
  [{ url := "http://a", weight }, { url := "http://b", weight }]

def oneOpen : List Call := [.acquire 0, .nextServer]

lemma balanced_oneOpen : Balanced oneOpen := by
  intro before hin i
  have hnone : before.count (.release i) ≤ oneOpen.count (.release i) := hin.sublist.count_le _
  rw [show oneOpen.count (.release i) = 0 by simp [oneOpen]] at hnone
  omega

theorem least_exact_iff_twins :
    Balanced oneOpen ∧ ∀ before, before ++ [.nextServer] <+: oneOpen →
      (∃ j, isHealthy (after (twins 1) before) j = true) → SelectsLeast (twins 1) before := by
  refine ⟨balanced_oneOpen, (least_exact_iff (twins 1) (by decide) oneOpen balanced_oneOpen).mpr ?_⟩
  intro before hin _
  obtain rfl : before = [.acquire 0] := by
    obtain ⟨rest, hrest⟩ := hin
    rcases before with _ | ⟨first, _ | ⟨second, before⟩⟩
    · simp [oneOpen] at hrest
    · rw [(List.cons.inj hrest).1]
    · simp [oneOpen] at hrest
  refine ⟨1, ⟨by decide, fun j hj => ?_⟩, fun j hj => ⟨fun hlt => ?_, fun _ => ?_⟩⟩
  · simp [active]
  · obtain rfl : j = 0 := by omega
    decide
  · simp [active, load]

/-- **The rounded loads of servers with high weights are the same**: of two servers with weight 200
the first one is selected although it has a connection and the second has none. -/
theorem least_rounded :
    (∀ s ∈ twins 200, 0 < s.weight) ∧ Balanced oneOpen ∧
      (after (twins 200) [.acquire 0]).nextIndex = some 0 ∧
      isHealthy (after (twins 200) [.acquire 0]) 1 = true ∧
      ¬SelectsLeast (twins 200) [.acquire 0] := by
  have hindex : (after (twins 200) [.acquire 0]).nextIndex = some 0 := by decide
  refine ⟨by decide, balanced_oneOpen, hindex, by decide, ?_⟩
  rintro ⟨i, ⟨-, hleast⟩, hi, -⟩
  rw [hindex] at hi
  cases hi
  have hone := hleast 1 (by decide)
  revert hone
  decide

end LeastConnBalancer

end TrafficCop
