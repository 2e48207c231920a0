import TrafficCop.Store.Basic

/-!
# The nodes that are listed as active

`ClusterManager::get_active_nodes` (`cluster/manager.rs`) on what `node_list` has returned.
-/

namespace TrafficCop

open List

namespace ClusterManager

open Rust Store

/-- `now - n.last_heartbeat`: below zero it panics with overflow checks, and wraps without. -/
def age (checks : Bool) (now : UInt64) (n : NodeInfo) : Outcome Empty UInt64 :=
  if checks = true ∧ now < n.lastHeartbeat then .panic else .ok (now - n.lastHeartbeat)

def timeoutMs (nodeTimeout : ℕ) : UInt64 := UInt64.ofNat (nodeTimeout / 1000000)

/-- The filter; `&&` leaves the age of an unhealthy node alone. -/
def isActive (checks : Bool) (now : UInt64) (nodeTimeout : ℕ) (n : NodeInfo) :
    Outcome Empty Bool :=
  if n.status = .unhealthy then .ok false
  else do return decide ((← age checks now n) < timeoutMs nodeTimeout)

/-- The heartbeats were dated on other clocks, so they may be any numbers of milliseconds. -/
def getActiveNodes (checks : Bool) (now : UInt64) (nodeTimeout : ℕ) :
    List NodeInfo → Outcome Empty (List NodeInfo)
  | [] => .ok []
  | n :: nodes => do
    let active ← isActive checks now nodeTimeout n
    let rest ← getActiveNodes checks now nodeTimeout nodes
    return if active then n :: rest else rest

/-- The node's timeout is not over yet. -/
def Later (now : UInt64) (nodeTimeout : ℕ) (n : NodeInfo) : Prop :=
  now.toNat * 1000000 < n.lastHeartbeat.toNat * 1000000 + nodeTimeout

section Filter

variable {checks : Bool} {now : UInt64} {nodeTimeout : ℕ}

lemma isActive_eq_ok {n : NodeInfo} {active : Bool} :
    isActive checks now nodeTimeout n = .ok active ↔
      (n.status ≠ .unhealthy → checks = true → n.lastHeartbeat ≤ now) ∧
        active = decide (n.status ≠ .unhealthy ∧
          now - n.lastHeartbeat < timeoutMs nodeTimeout) := by
  unfold isActive
  split
  · next hstatus => simp [hstatus, eq_comm]
  · next hstatus =>
    rw [age]
    split
    · next hunder => simp [hstatus, hunder, UInt64.not_le.mpr hunder.2]
    · next hage =>
      have hle : checks → n.lastHeartbeat ≤ now := fun h =>
        UInt64.not_lt.mp fun hlt => hage ⟨h, hlt⟩
      simp only [hstatus, Outcome.ok_bind, Outcome.pure_eq, Outcome.ok.injEq, ne_eq,
        not_false_eq_true, true_and, forall_const]
      rw [and_iff_right hle, eq_comm]

lemma getActiveNodes_eq_ok {nodes active : List NodeInfo} :
    getActiveNodes checks now nodeTimeout nodes = .ok active ↔
      (∀ n ∈ nodes, n.status ≠ .unhealthy → checks = true → n.lastHeartbeat ≤ now) ∧
        active = nodes.filter fun n =>
          n.status ≠ .unhealthy ∧ now - n.lastHeartbeat < timeoutMs nodeTimeout := by
  induction nodes generalizing active with
  | nil => simp [getActiveNodes, eq_comm]
  | cons n nodes ih =>
    simp only [getActiveNodes, Outcome.bind_eq_ok, isActive_eq_ok, ih, forall_mem_cons, filter_cons]
    constructor
    · rintro ⟨_, ⟨hn, rfl⟩, _, ⟨hnodes, rfl⟩, heq⟩
      cases heq
      exact ⟨⟨hn, hnodes⟩, rfl⟩
    · rintro ⟨⟨hn, hnodes⟩, rfl⟩
      exact ⟨_, ⟨hn, rfl⟩, _, ⟨hnodes, rfl⟩, rfl⟩

end Filter

lemma age_lt_iff {now : UInt64} {nodeTimeout : ℕ} {n : NodeInfo} (h : n.lastHeartbeat ≤ now) :
    now - n.lastHeartbeat < timeoutMs nodeTimeout ↔
      now.toNat < n.lastHeartbeat.toNat + nodeTimeout / 1000000 % 2 ^ 64 := by
  have hle := UInt64.le_iff_toNat_le.mp h
  rw [UInt64.lt_iff_toNat_lt, UInt64.toNat_sub_of_le _ _ h, timeoutMs, UInt64.toNat_ofNat']
  omega

/-- **When clock skew hides no live node**: no subtraction underflows, and every node with a
heartbeat later than `now - node_timeout` is listed, exactly if no heartbeat is dated after `now`
and the milliseconds of the timeout, as a `u64`, reach back to those that are later. -/
theorem active_nodes_iff (now : UInt64) (nodeTimeout : ℕ) (nodes : List NodeInfo) :
    ((∃ active, getActiveNodes true now nodeTimeout nodes = .ok active) ∧
      ∀ checks active, getActiveNodes checks now nodeTimeout nodes = .ok active →
        ∀ n ∈ nodes, n.status ≠ .unhealthy → Later now nodeTimeout n → n ∈ active) ↔
      ∀ n ∈ nodes, n.status ≠ .unhealthy → n.lastHeartbeat ≤ now ∧ (Later now nodeTimeout n →
        now.toNat < n.lastHeartbeat.toNat + nodeTimeout / 1000000 % 2 ^ 64) := by
  constructor
  · rintro ⟨⟨active, hok⟩, hlisted⟩ n hn hstatus
    obtain ⟨hle, rfl⟩ := getActiveNodes_eq_ok.mp hok
    refine ⟨hle n hn hstatus rfl, fun hlater => ?_⟩
    have hmem := (mem_filter.mp (hlisted true _ hok n hn hstatus hlater)).2
    exact (age_lt_iff (hle n hn hstatus rfl)).mp (of_decide_eq_true hmem).2
  · intro h
    refine ⟨⟨_, getActiveNodes_eq_ok.mpr ⟨fun n hn hstatus _ => (h n hn hstatus).1, rfl⟩⟩, ?_⟩
    intro checks active hok n hn hstatus hlater
    obtain ⟨-, rfl⟩ := getActiveNodes_eq_ok.mp hok
    obtain ⟨hle, hage⟩ := h n hn hstatus
    exact mem_filter.mpr ⟨hn, decide_eq_true ⟨hstatus, (age_lt_iff hle).mpr (hage hlater)⟩⟩

def nodeAhead : NodeInfo := ⟨"b", "b:80", .active, 0, 1001, 0, "1"⟩

/-- Its heartbeat panics the reader, or makes it 2 ^ 64 - 1 milliseconds old. -/
theorem active_nodes_ahead :
    Later 1000 30000000000 nodeAhead ∧
      getActiveNodes true 1000 30000000000 [nodeAhead] = .panic ∧
      getActiveNodes false 1000 30000000000 [nodeAhead] = .ok [] := by
  exact ⟨by unfold Later; decide +kernel, by decide +kernel, by decide +kernel⟩

end ClusterManager

end TrafficCop
