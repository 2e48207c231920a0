import TrafficCop.Config.Types
import TrafficCop.Lib.Cycle

/-!
# Round robin

`RoundRobinBalancer` of `balancer/round_robin.rs`, one call at a time.
-/

namespace TrafficCop

open Rust List Option

/-- The counter is a 64-bit `usize`: its increment and the offset added to it wrap. There are as
many health flags as servers. -/
structure RoundRobinBalancer where
  servers : List Server
  healthy : List Bool
  counter : UInt64
  aligned : healthy.length = servers.length

namespace RoundRobinBalancer

def new (servers : List Server) : RoundRobinBalancer where
  servers := servers
  healthy := List.replicate servers.length true
  counter := 0
  aligned := length_replicate

def isHealthy (b : RoundRobinBalancer) (idx : Nat) : Bool := b.healthy[idx]?.getD false

/-- `(start + i) % len`. -/
def slot (b : RoundRobinBalancer) (i : Nat) : Nat :=
  (b.counter + UInt64.ofNat i).toNat % b.servers.length

/-- The first healthy slot from the counter's on, or the counter's own. -/
def nextIndex (b : RoundRobinBalancer) : Nat :=
  (((List.range b.servers.length).map b.slot).find? b.isHealthy).getD
    (b.counter.toNat % b.servers.length)

def nextServer (b : RoundRobinBalancer) : Option Server × RoundRobinBalancer :=
  if b.servers.isEmpty then (none, b)
  else (b.servers[b.nextIndex]?, { b with counter := b.counter + 1 })

def mark (b : RoundRobinBalancer) (index : Nat) (flag : Bool) : RoundRobinBalancer :=
  { b with healthy := b.healthy.set index flag, aligned := by rw [length_set, b.aligned] }

def markHealthy (b : RoundRobinBalancer) (index : Nat) : RoundRobinBalancer := b.mark index true

def markUnhealthy (b : RoundRobinBalancer) (index : Nat) : RoundRobinBalancer := b.mark index false

def findServerIndex (b : RoundRobinBalancer) (url : Text) : Option Nat :=
  b.servers.findIdx? fun s => s.url == url

@[simp] lemma servers_new (servers : List Server) : (new servers).servers = servers := rfl

@[simp] lemma servers_markHealthy (b : RoundRobinBalancer) (index : Nat) :
    (b.markHealthy index).servers = b.servers := rfl

@[simp] lemma servers_markUnhealthy (b : RoundRobinBalancer) (index : Nat) :
    (b.markUnhealthy index).servers = b.servers := rfl

@[simp] lemma servers_nextServer (b : RoundRobinBalancer) :
    b.nextServer.2.servers = b.servers := by
  unfold nextServer
  split <;> rfl

variable {b : RoundRobinBalancer} {idx : Nat}

lemma nextIndex_lt (h : b.servers ≠ []) : b.nextIndex < b.servers.length := by
  have hpos := length_pos_of_ne_nil h
  unfold nextIndex
  cases hfind : ((List.range b.servers.length).map b.slot).find? b.isHealthy with
  | none => exact Nat.mod_lt _ hpos
  | some idx =>
    obtain ⟨i, -, rfl⟩ := mem_map.mp (mem_of_find?_eq_some hfind)
    exact Nat.mod_lt _ hpos

lemma nextServer_mem (h : b.servers ≠ []) :
    ∃ server ∈ b.servers, b.nextServer.1 = some server := by
  have hlt := nextIndex_lt h
  refine ⟨b.servers[b.nextIndex], getElem_mem hlt, ?_⟩
  rw [nextServer, if_neg (by simpa using h), getElem?_eq_getElem hlt]

lemma nextServer_fst (h : b.servers ≠ []) : b.nextServer.1 = b.servers[b.nextIndex]? := by
  rw [nextServer, if_neg (by simpa using h)]

lemma slot_eq (b : RoundRobinBalancer) (i : Nat) :
    b.slot i = (b.counter.toNat + i) % 2 ^ 64 % b.servers.length := by
  simp [slot, UInt64.toNat_add]

lemma isHealthy_nextIndex_iff (h : b.servers ≠ []) :
    b.isHealthy b.nextIndex ↔ ∃ i < b.servers.length, b.isHealthy (b.slot i) := by
  unfold nextIndex
  cases hfind : ((List.range b.servers.length).map b.slot).find? b.isHealthy with
  | some idx =>
    obtain ⟨i, hi, rfl⟩ := mem_map.mp (mem_of_find?_eq_some hfind)
    exact iff_of_true (find?_some hfind) ⟨i, by simpa using hi, find?_some hfind⟩
  | none =>
    -- nothing is found, not even at the start of the scan
    have hnone : ∀ i < b.servers.length, ¬b.isHealthy (b.slot i) := fun i hi =>
      find?_eq_none.mp hfind _ (mem_map_of_mem (mem_range.mpr hi))
    have hstart := hnone 0 (length_pos_of_ne_nil h)
    rw [slot_eq, Nat.add_zero, Nat.mod_eq_of_lt b.counter.toNat_lt] at hstart
    exact iff_of_false hstart fun ⟨i, hi, hhealthy⟩ => hnone i hi hhealthy

lemma exists_slot (hidx : idx < b.servers.length)
    (hwrap : b.counter.toNat + b.servers.length ≤ 2 ^ 64) :
    ∃ i < b.servers.length, b.slot i = idx := by
  obtain ⟨i, hi, heq⟩ := Cycle.exists_add_mod_eq b.counter.toNat hidx
  refine ⟨i, hi, ?_⟩
  rw [slot_eq, Nat.mod_eq_of_lt (Nat.lt_of_lt_of_le (by omega) hwrap), heq]

lemma slot_succ (b : RoundRobinBalancer) (i : Nat) :
    ({ b with counter := b.counter + 1 } : RoundRobinBalancer).slot i = b.slot (i + 1) := by
  simp [slot, UInt64.add_assoc, UInt64.add_comm 1]

lemma nextIndex_eq_iff (h : b.servers ≠ []) (hidx : b.isHealthy idx = false) :
    b.nextIndex = idx ↔
      b.slot 0 = idx ∧ ∀ i < b.servers.length, b.isHealthy (b.slot i) = false := by
  have hnone : b.isHealthy b.nextIndex = false ↔
      ∀ i < b.servers.length, b.isHealthy (b.slot i) = false := by
    have hiff := not_congr (isHealthy_nextIndex_iff h)
    push Not at hiff
    simpa only [ne_eq, Bool.not_eq_true] using hiff
  have hstart : (∀ i < b.servers.length, b.isHealthy (b.slot i) = false) →
      b.nextIndex = b.slot 0 := by
    intro hscan
    have hfind : ((List.range b.servers.length).map b.slot).find? b.isHealthy = none := by
      refine find?_eq_none.mpr fun j hj => ?_
      obtain ⟨i, hi, rfl⟩ := mem_map.mp hj
      simp [hscan i (mem_range.mp hi)]
    rw [nextIndex, hfind, getD_none, slot_eq, Nat.add_zero, Nat.mod_eq_of_lt b.counter.toNat_lt]
  constructor
  · intro heq
    have hscan := hnone.mp (heq ▸ hidx)
    exact ⟨(hstart hscan).symm.trans heq, hscan⟩
  · rintro ⟨hslot, hscan⟩
    exact (hstart hscan).trans hslot

lemma nextServer_snd (h : b.servers ≠ []) :
    b.nextServer.2 = { b with counter := b.counter + 1 } := by
  rw [nextServer, if_neg (by simpa using h)]

end RoundRobinBalancer

end TrafficCop
