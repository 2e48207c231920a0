import TrafficCop.Balancer.RoundRobin

/-!
# The shares of round robin

Calls of `next_server` in a row, with fixed health flags. The calls of a whole turn start their
scans at every server once.
-/

namespace TrafficCop

open List Option Cycle

namespace RoundRobinBalancer

def selections : ℕ → RoundRobinBalancer → List (Option Server)
  | 0, _ => []
  | k + 1, b => b.nextServer.1 :: selections k b.nextServer.2

def indices : ℕ → RoundRobinBalancer → List ℕ
  | 0, _ => []
  | k + 1, b => b.nextIndex :: indices k b.nextServer.2

/-- The servers directly before it that are down: each hands its start on to it. -/
def unhealthyBefore (b : RoundRobinBalancer) (index : ℕ) : ℕ :=
  (range b.servers.length).findIdx fun d =>
    b.isHealthy ((index + b.servers.length - 1 - d) % b.servers.length)

/-- The sum `start + i` at which the scan of the `k`-th call ends, short of a wrap. -/
def scanEnd (b : RoundRobinBalancer) (k : ℕ) : ℕ :=
  b.counter.toNat + k + (range b.servers.length).findIdx fun i =>
    b.isHealthy ((b.counter.toNat + k + i) % b.servers.length)

variable {b : RoundRobinBalancer}

lemma isHealthy_mod (k : ℕ) : b.isHealthy (k % b.servers.length) = around b.healthy k :=
  getElem?_mod b.aligned k

lemma unhealthyBefore_eq (index : ℕ) :
    b.unhealthyBefore index = gap (around b.healthy) b.servers.length index := by
  simp only [unhealthyBefore, isHealthy_mod, gap]

lemma scanEnd_eq (k : ℕ) :
    b.scanEnd k = seek (around b.healthy) b.servers.length (b.counter.toNat + k) := by
  simp only [scanEnd, isHealthy_mod, seek]

variable {index m : ℕ}

lemma around_of_isHealthy (h : b.isHealthy index) :
    index < b.servers.length ∧ around b.healthy index :=
  around_of_getElem? b.aligned h

lemma exists_around (hhealthy : ∃ index, b.isHealthy index) :
    0 < b.servers.length ∧ ∃ k, around b.healthy k := by
  obtain ⟨index, hindex⟩ := hhealthy
  obtain ⟨hlt, haround⟩ := around_of_isHealthy hindex
  exact ⟨Nat.zero_lt_of_lt hlt, index, haround⟩

lemma nextIndex_eq (hhealthy : ∃ index, b.isHealthy index) (hwrap : b.scanEnd 0 < 2 ^ 64) :
    b.nextIndex = b.scanEnd 0 % b.servers.length := by
  obtain ⟨hpos, hex⟩ := exists_around hhealthy
  obtain ⟨hle, hlt, hfound, hbefore⟩ :=
    seek_spec (periodic_around b.aligned) hpos hex b.counter.toNat
  rw [scanEnd_eq, Nat.add_zero] at hwrap ⊢
  generalize seek (around b.healthy) b.servers.length b.counter.toNat = m at *
  have hslot : ∀ i, b.counter.toNat + i ≤ m →
      b.isHealthy (b.slot i) = around b.healthy (b.counter.toNat + i) := by
    intro i hi
    rw [slot_eq, Nat.mod_eq_of_lt (Nat.lt_of_le_of_lt hi hwrap), isHealthy_mod]
  have hfind : (range b.servers.length).find? (b.isHealthy ∘ b.slot) =
      some (m - b.counter.toNat) := by
    refine find?_range_eq_some.mpr ⟨?_, mem_range.mpr (by omega), fun j hj => ?_⟩
    · rw [Function.comp_apply, hslot _ (by omega), Nat.add_sub_cancel' hle, hfound]
    · rw [Function.comp_apply, hslot _ (by omega), hbefore _ (by omega) (by omega), Bool.not_false]
  rw [nextIndex, find?_map, hfind, map_some, getD_some, slot_eq,
    Nat.add_sub_cancel' hle, Nat.mod_eq_of_lt hwrap]

lemma indices_eq (hhealthy : ∃ index, b.isHealthy index)
    (hwrap : ∀ k < m, b.scanEnd k < 2 ^ 64) :
    indices m b = (range m).map fun k => b.scanEnd k % b.servers.length := by
  induction m generalizing b with
  | zero => rfl
  | succ m ih =>
    have hne : b.servers ≠ [] := ne_nil_of_length_pos (exists_around hhealthy).1
    rw [indices, nextIndex_eq hhealthy (hwrap 0 (by omega)), range_succ_eq_map, map_cons,
      List.map_map, nextServer_snd hne]
    cases m with
    | zero => rfl
    | succ m =>
      -- a further call has the next number, which its own scan keeps below the wrap
      have hnext := hwrap 1 (by omega)
      have hcounter : (b.counter + 1).toNat = b.counter.toNat + 1 := by
        rw [UInt64.toNat_add, UInt64.toNat_one, Nat.mod_eq_of_lt]
        rw [scanEnd] at hnext
        omega
      have hend : ∀ k, scanEnd { b with counter := b.counter + 1 } k = b.scanEnd (k + 1) := by
        intro k
        simp only [scanEnd, isHealthy, hcounter, Nat.add_assoc, Nat.add_comm 1]
      rw [ih (b := { b with counter := b.counter + 1 }) hhealthy fun k hk => by
        rw [hend]; exact hwrap (k + 1) (by omega)]
      refine congrArg (_ :: ·) (map_congr_left fun k _ => ?_)
      rw [hend, Function.comp_apply]

lemma selections_eq (hne : b.servers ≠ []) (m : ℕ) :
    selections m b = (indices m b).map fun index => b.servers[index]? := by
  induction m generalizing b with
  | zero => rfl
  | succ m ih =>
    rw [selections, indices, map_cons, nextServer_fst hne, ih (by rwa [servers_nextServer]),
      servers_nextServer]

/-- A healthy server is selected once over a turn, and once more for each unhealthy server directly
before it. -/
lemma count_indices (hwrap : ∀ k < b.servers.length, b.scanEnd k < 2 ^ 64)
    (hindex : b.isHealthy index) :
    (indices b.servers.length b).count index = 1 + b.unhealthyBefore index := by
  obtain ⟨hpos, hex⟩ := exists_around ⟨index, hindex⟩
  obtain ⟨hlt, haround⟩ := around_of_isHealthy hindex
  have hshare := countP_seek (periodic_around b.aligned) hpos hex haround
    b.counter.toNat
  rw [Nat.mod_eq_of_lt hlt, range'_eq_map_range, countP_map] at hshare
  rw [unhealthyBefore_eq, ← hshare, indices_eq ⟨index, hindex⟩ hwrap, count, countP_map]
  refine countP_congr fun k _ => ?_
  simp only [Function.comp_apply, scanEnd_eq]

lemma isHealthy_of_mem_indices (hhealthy : ∃ index, b.isHealthy index)
    (hwrap : ∀ k < m, b.scanEnd k < 2 ^ 64) (hmem : index ∈ indices m b) :
    b.isHealthy index := by
  obtain ⟨hpos, hex⟩ := exists_around hhealthy
  rw [indices_eq hhealthy hwrap] at hmem
  obtain ⟨k, -, rfl⟩ := mem_map.mp hmem
  rw [scanEnd_eq, isHealthy_mod]
  exact (seek_spec (periodic_around b.aligned) hpos hex _).2.2.1

lemma unhealthyBefore_eq_zero (hpos : 0 < b.servers.length)
    (hall : ∀ index < b.servers.length, b.isHealthy index) (index : ℕ) :
    b.unhealthyBefore index = 0 := by
  by_contra hne
  have hdown := not_of_lt_findIdx (Nat.pos_of_ne_zero hne)
  rw [hall _ (Nat.mod_lt _ hpos)] at hdown
  cases hdown

/-- **The shares of a turn.** Over as many calls as there are servers, with no flag changed and
nothing wrapping, a healthy server is selected once and once more for each of the unhealthy ones
directly before it, and no unhealthy one is. -/
theorem shares_of_turn (b : RoundRobinBalancer) (hhealthy : ∃ index, b.isHealthy index = true)
    (hwrap : ∀ k < b.servers.length, b.scanEnd k < 2 ^ 64) :
    selections b.servers.length b =
        (indices b.servers.length b).map (fun index => b.servers[index]?) ∧
      (∀ index, b.isHealthy index = true →
        (indices b.servers.length b).count index = 1 + b.unhealthyBefore index) ∧
      (∀ index ∈ indices b.servers.length b, b.isHealthy index = true) ∧
      ((∀ index < b.servers.length, b.isHealthy index = true) →
        ∀ index < b.servers.length, (indices b.servers.length b).count index = 1) := by
  obtain ⟨hpos, -⟩ := exists_around hhealthy
  refine ⟨selections_eq (ne_nil_of_length_pos hpos) _, fun index => count_indices hwrap,
    fun index => isHealthy_of_mem_indices hhealthy hwrap, fun hall index hindex => ?_⟩
  rw [count_indices hwrap (hall index hindex), unhealthyBefore_eq_zero hpos hall]

def skipping : RoundRobinBalancer :=
  (new [{ url := "http://server0:8080" }, { url := "http://server1:8080" },
    { url := "http://server2:8080" }]).markUnhealthy 1

/-- The third server takes the share of the second. -/
theorem shares_of_turn_skips :
    (indices 3 skipping).count 2 = 1 + skipping.unhealthyBefore 2 ∧ skipping.unhealthyBefore 2 = 1 ∧
      indices 3 skipping = [0, 2, 2] := by
  have hshares := shares_of_turn skipping ⟨0, by decide⟩ (by decide)
  exact ⟨hshares.2.1 2 (by decide), by decide, by decide⟩

end RoundRobinBalancer

end TrafficCop
