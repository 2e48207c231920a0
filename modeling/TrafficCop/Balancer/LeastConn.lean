import Mathlib.Data.Nat.Basic
import Mathlib.Order.OrderDual
import TrafficCop.Config.Types
import TrafficCop.Lib.FirstBest

/-!
# Least connections

`LeastConnBalancer` of `balancer/least_conn.rs`, one call at a time.
-/

namespace TrafficCop

open Rust List Option FirstBest OrderDual

/-- The count is a 64-bit `usize`: `fetch_add` and `fetch_sub` wrap, and so does the product with
100 in a release build. -/
structure LeastConnServer where
  config : Server
  healthy : Bool
  activeConnections : UInt64
  deriving Repr, DecidableEq

structure LeastConnBalancer where
  servers : List LeastConnServer
  deriving Repr, DecidableEq

/-- The load that is compared: connections divided by weight. -/
def LeastConnServer.weightedConns (s : LeastConnServer) : UInt64 :=
  if 0 < s.config.weight then s.activeConnections * 100 / s.config.weight.toUInt64
  else s.activeConnections * 100

namespace LeastConnBalancer

def new (servers : List Server) : LeastConnBalancer :=
  ⟨servers.map fun config => ⟨config, true, 0⟩⟩

variable (b : LeastConnBalancer)

/-- Changing one server; an index out of range is ignored. -/
def update (index : Nat) (f : LeastConnServer → LeastConnServer) : LeastConnBalancer :=
  ⟨b.servers.modify index f⟩

def acquire (index : Nat) : LeastConnBalancer :=
  b.update index fun s => { s with activeConnections := s.activeConnections + 1 }

def release (index : Nat) : LeastConnBalancer :=
  b.update index fun s => { s with activeConnections := s.activeConnections - 1 }

/-- The loop of `next_server`, with `best_idx` and `min_conns`. -/
def scan : List LeastConnServer → Nat → Option Nat → UInt64 → Option Nat
  | [], _, bestIdx, _ => bestIdx
  | s :: rest, idx, bestIdx, minConns =>
    if !s.healthy then scan rest (idx + 1) bestIdx minConns
    else if s.weightedConns < minConns then scan rest (idx + 1) (some idx) s.weightedConns
    else scan rest (idx + 1) bestIdx minConns

def maxConns : UInt64 := 18446744073709551615

def nextIndex : Option Nat :=
  if b.servers.isEmpty then none else scan b.servers 0 none maxConns

/-- A selection leaves the balancer as it is. -/
def nextServer : Option Server :=
  b.nextIndex.bind fun idx => b.servers[idx]?.map (·.config)

def markHealthy (index : Nat) : LeastConnBalancer :=
  b.update index fun s => { s with healthy := true }

def markUnhealthy (index : Nat) : LeastConnBalancer :=
  b.update index fun s => { s with healthy := false }

def findServerIndex (url : Text) : Option Nat :=
  b.servers.findIdx? fun s => s.config.url == url

/-- A product with 100 is even, also after it has wrapped, and `usize::MAX` is odd. -/
lemma weightedConns_lt (s : LeastConnServer) : s.weightedConns < maxConns := by
  have hproduct : s.activeConnections * 100 < maxConns := by
    rw [UInt64.lt_iff_toNat_lt, UInt64.toNat_mul]
    show s.activeConnections.toNat * 100 % 2 ^ 64 < 18446744073709551615
    omega
  unfold LeastConnServer.weightedConns
  split
  · rw [UInt64.lt_iff_toNat_lt, UInt64.toNat_div]
    exact Nat.lt_of_le_of_lt (Nat.div_le_self _ _) hproduct
  · exact hproduct

/-- What a server has in the loop, where less is better. -/
def offer (s : LeastConnServer) : Option ℕᵒᵈ :=
  if s.healthy then some (toDual s.weightedConns.toNat) else none

variable {servers seen : List LeastConnServer} {best : Option (ℕ × ℕᵒᵈ)} {minConns : UInt64}
  {s : LeastConnServer} {k : ℕ} {b : LeastConnBalancer}

lemma offer_of_healthy (hs : s.healthy) : offer s = some (toDual s.weightedConns.toNat) := if_pos hs

lemma best_scan (h : Best offer seen best)
    (hmin : minConns.toNat = best.elim maxConns.toNat fun p => ofDual p.2) :
    ∃ best', Best offer (seen ++ servers) best' ∧
      scan servers seen.length (best.map (·.1)) minConns = best'.map (·.1) := by
  induction servers generalizing seen best minConns with
  | nil => exact ⟨best, by rwa [append_nil], rfl⟩
  | cons s servers ih =>
    rw [scan, append_cons]
    by_cases hs : s.healthy
    · rw [if_neg (by simp [hs])]
      split
      · next hlt =>
        have htake := h.take (offer_of_healthy hs) (by
          rintro k w rfl
          exact (UInt64.lt_iff_toNat_lt.mp hlt).trans_eq hmin)
        simpa using ih htake rfl
      · next hge =>
        have hkeep : Best offer (seen ++ [s]) best := h.keep fun v hv => by
          rw [← some.inj ((offer_of_healthy hs).symm.trans hv)]
          rcases best with _ | ⟨k, w⟩
          · -- with nothing remembered, every load is below the bound
            exact absurd (weightedConns_lt s) (UInt64.toNat_inj.mp hmin ▸ hge)
          · exact ⟨k, w, rfl, hmin.symm.trans_le (UInt64.le_iff_toNat_le.mp (UInt64.not_lt.mp hge))⟩
        simpa using ih hkeep hmin
    · have hskip : Best offer (seen ++ [s]) best := h.keep (by simp [offer, hs])
      simpa [hs] using ih hskip hmin

lemma best_nextIndex (b : LeastConnBalancer) :
    ∃ best, Best offer b.servers best ∧ b.nextIndex = best.map (·.1) := by
  unfold nextIndex
  split
  · next hempty => exact ⟨none, by rw [List.isEmpty_iff.mp hempty]; exact best_nil, rfl⟩
  · exact best_scan best_nil rfl

lemma exists_nextIndex (hs : s ∈ b.servers) (hhealthy : s.healthy) :
    ∃ k t, b.nextIndex = some k ∧ b.servers[k]? = some t ∧ t.healthy := by
  obtain ⟨_ | ⟨k, w⟩, hbest, hindex⟩ := b.best_nextIndex
  · exact absurd (hbest s hs) (by simp [offer_of_healthy hhealthy])
  · obtain ⟨⟨t, ht, hkey⟩, -⟩ := hbest
    exact ⟨k, t, hindex, ht, (ite_none_right_eq_some.mp hkey).1⟩

/-- The first of the healthy servers with the least load is selected. -/
lemma nextIndex_eq_some_iff :
    b.nextIndex = some k ↔ ∃ t, b.servers[k]? = some t ∧ t.healthy ∧
      ∀ j s, b.servers[j]? = some s → s.healthy →
        t.weightedConns ≤ s.weightedConns ∧ (j < k → t.weightedConns < s.weightedConns) := by
  obtain ⟨best, hbest, hindex⟩ := b.best_nextIndex
  rw [hindex]
  constructor
  · intro hk
    obtain ⟨⟨k, w⟩, rfl, rfl⟩ := map_eq_some_iff.mp hk
    obtain ⟨⟨t, ht, hkey⟩, hleast⟩ := hbest
    obtain ⟨hhealthy, heq⟩ := ite_none_right_eq_some.mp hkey
    refine ⟨t, ht, hhealthy, fun j s hs hs' => ?_⟩
    rw [UInt64.le_iff_toNat_le, UInt64.lt_iff_toNat_lt]
    obtain rfl := some.inj heq
    exact hleast j s _ hs (offer_of_healthy hs')
  · rintro ⟨t, ht, hhealthy, hleast⟩
    have hfirst : Best offer b.servers (some (k, toDual t.weightedConns.toNat)) := by
      refine ⟨⟨t, ht, offer_of_healthy hhealthy⟩, fun j s v hs hv => ?_⟩
      obtain ⟨hs', ⟨⟩⟩ := ite_none_right_eq_some.mp hv
      have hload := hleast j s hs hs'
      rwa [UInt64.le_iff_toNat_le, UInt64.lt_iff_toNat_lt] at hload
    rw [hbest.unique hfirst, map_some]

end LeastConnBalancer

end TrafficCop
