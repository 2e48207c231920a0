import TrafficCop.Lib.Cycle
import TrafficCop.Rust.Text

/-!
# The TCP and UDP services

`TcpService` of `tcp/service.rs` and `UdpService` of `udp/service.rs` differ only in what they know
of a server, so there is one type (`StreamBackends`) over a type of servers. Calls are one at a
time. The counter is a 64-bit `usize` that wraps, and the loop of `next_server` is given a number of
iterations.
-/

namespace TrafficCop

open Rust List Option Cycle

structure TcpBackendServer where
  address : Text
  weight : UInt32
  useTls : Bool
  deriving Repr, DecidableEq

structure UdpBackendServer where
  address : Text
  weight : UInt32
  deriving Repr, DecidableEq

/-- The two services, over what a server is to them. -/
structure StreamBackends (σ : Type) where
  name : Text
  servers : List σ
  rrCounter : UInt64
  healthy : List Bool
  aligned : healthy.length = servers.length

abbrev TcpService := StreamBackends TcpBackendServer

abbrev UdpService := StreamBackends UdpBackendServer

namespace StreamBackends

variable {σ : Type}

/-- As the managers build it: all servers are healthy at first. -/
def new (name : Text) (servers : List σ) : StreamBackends σ where
  name := name
  servers := servers
  rrCounter := 0
  healthy := List.replicate servers.length true
  aligned := length_replicate

def isHealthy (s : StreamBackends σ) (idx : ℕ) : Bool := s.healthy[idx]?.getD false

def healthyCount (s : StreamBackends σ) : ℕ := s.healthy.count true

def mark (s : StreamBackends σ) (index : ℕ) (flag : Bool) : StreamBackends σ :=
  { s with healthy := s.healthy.set index flag, aligned := by rw [length_set, s.aligned] }

def markUnhealthy (s : StreamBackends σ) (index : ℕ) : StreamBackends σ := s.mark index false

def markHealthy (s : StreamBackends σ) (index : ℕ) : StreamBackends σ := s.mark index true

/-- The loop of `next_server`: the index it returns and the counter it leaves, or `none` if the
iterations run out. -/
def search (s : StreamBackends σ) : (iterations attempts : ℕ) → UInt64 → Option (ℕ × UInt64)
  | 0, _, _ => none
  | iterations + 1, attempts, counter =>
    let idx := counter.toNat % s.servers.length
    if s.isHealthy idx then some (idx, counter + 1)
    -- all servers are checked: the first one
    else if s.servers.length ≤ attempts + 1 then some (0, counter + 1)
    else search s iterations (attempts + 1) (counter + 1)

/-- The index of the server that `next_server` returns, and the service behind it. -/
def nextIndex (s : StreamBackends σ) (iterations : ℕ) : Option (Option ℕ × StreamBackends σ) :=
  if s.servers.isEmpty then some (none, s)
  else if s.healthyCount = 0 then some (some 0, s)
  else (s.search iterations 0 s.rrCounter).map fun (idx, counter) =>
    (some idx, { s with rrCounter := counter })

def nextServer (s : StreamBackends σ) (iterations : ℕ) : Option (Option σ × StreamBackends σ) :=
  (s.nextIndex iterations).map fun (idx, s') => (idx.bind fun idx => s.servers[idx]?, s')

/-- The index of the server that `get_server_by_hash` returns; the loop of `next_server` takes no
more iterations than there are servers. -/
def hashIndex (s : StreamBackends σ) (hash : ℕ) : Option ℕ × StreamBackends σ :=
  if s.servers.isEmpty then (none, s)
  else if s.isHealthy (hash % s.servers.length) then (some (hash % s.servers.length), s)
  else (s.nextIndex s.servers.length).getD (none, s)

def getServerByHash (s : StreamBackends σ) (hash : ℕ) : Option σ × StreamBackends σ :=
  let (idx, s') := s.hashIndex hash
  (idx.bind fun idx => s.servers[idx]?, s')

def selections (iterations : ℕ) : ℕ → StreamBackends σ → Option (List (Option σ))
  | 0, _ => some []
  | k + 1, s => do
    let (server, s') ← s.nextServer iterations
    return server :: (← selections iterations k s')

def indices (iterations : ℕ) : ℕ → StreamBackends σ → Option (List (Option ℕ))
  | 0, _ => some []
  | k + 1, s => do
    let (idx, s') ← s.nextIndex iterations
    return idx :: (← indices iterations k s')

/-- The values of the counter at which `k` calls in a row return, short of a wrap. -/
def stops (k : ℕ) (s : StreamBackends σ) : List ℕ :=
  visits (around s.healthy) s.servers.length k s.rrCounter.toNat

variable {s : StreamBackends σ}

lemma isHealthy_mod (k : ℕ) : s.isHealthy (k % s.servers.length) = around s.healthy k :=
  getElem?_mod s.aligned k

lemma healthyCount_eq (s : StreamBackends σ) :
    s.healthyCount = (List.range s.servers.length).countP (around s.healthy) := by
  rw [← s.aligned, countP_around, healthyCount]

lemma exists_around (h : 0 < s.healthyCount) :
    0 < s.servers.length ∧ ∃ k, around s.healthy k := by
  rw [healthyCount_eq, countP_pos_iff] at h
  obtain ⟨k, hk, hhealthy⟩ := h
  exact ⟨Nat.zero_lt_of_lt (mem_range.mp hk), k, hhealthy⟩

variable {k iterations m : ℕ}

lemma lt_length_of_isHealthy (h : s.isHealthy k) : k < s.servers.length :=
  (around_of_getElem? s.aligned h).1

lemma healthyCount_pos (h : s.isHealthy k) : 0 < s.healthyCount := by
  obtain ⟨hlt, haround⟩ := around_of_getElem? s.aligned h
  rw [healthyCount_eq, countP_pos_iff]
  exact ⟨k, mem_range.mpr hlt, haround⟩

/-- Unlike that of `RoundRobinBalancer`, the counter is moved on by every server looked at, so a
call starts behind the server that the call before it has returned. -/
def atCounter (s : StreamBackends σ) (c : ℕ) : StreamBackends σ :=
  { s with rrCounter := UInt64.ofNat c }

@[simp] lemma servers_atCounter (c : ℕ) : (s.atCounter c).servers = s.servers := rfl

@[simp] lemma isHealthy_atCounter (c idx : ℕ) :
    (s.atCounter c).isHealthy idx = s.isHealthy idx := rfl

lemma atCounter_self (s : StreamBackends σ) : s.atCounter s.rrCounter.toNat = s := by
  rw [atCounter, UInt64.ofNat_toNat]

def index (s : StreamBackends σ) (position : ℕ) : ℕ := position % 2 ^ 64 % s.servers.length

lemma isHealthy_index {position : ℕ} (h : position < 2 ^ 64) :
    s.isHealthy (s.index position) = around s.healthy position := by
  rw [index, Nat.mod_eq_of_lt h, isHealthy_mod]

/-- **The loop of `next_server`** ends at the first position with a healthy server, or by its guard
if there is none among those left. -/
theorem search_cases {attempts left : ℕ} (hleft : attempts + left = s.servers.length)
    (hpos : 0 < left) (hiterations : left ≤ iterations) (c : ℕ) :
    (∃ position, c ≤ position ∧ position < c + left ∧ s.isHealthy (s.index position) ∧
      (∀ p, c ≤ p → p < position → s.isHealthy (s.index p) = false) ∧
      s.search iterations attempts (UInt64.ofNat c) =
        some (s.index position, UInt64.ofNat (position + 1))) ∨
    (∀ p, c ≤ p → p < c + left → s.isHealthy (s.index p) = false) ∧
      s.search iterations attempts (UInt64.ofNat c) = some (0, UInt64.ofNat (c + left)) := by
  induction iterations generalizing attempts left c with
  | zero => omega
  | succ iterations ih =>
    have hindex : (UInt64.ofNat c).toNat % s.servers.length = s.index c := by
      rw [UInt64.toNat_ofNat', index]
    have hnext : UInt64.ofNat c + 1 = UInt64.ofNat (c + 1) := by
      rw [UInt64.ofNat_add]
      rfl
    rw [search, hindex, hnext]
    cases hhere : s.isHealthy (s.index c) with
    | true =>
      exact .inl ⟨c, Nat.le_refl c, by omega, hhere, fun p hle hlt => by omega, if_pos rfl⟩
    | false =>
      -- what holds behind this position holds with it
      have hcons : ∀ {q : ℕ}, (∀ p, c + 1 ≤ p → p < q → s.isHealthy (s.index p) = false) →
          ∀ p, c ≤ p → p < q → s.isHealthy (s.index p) = false := by
        intro q hbehind p hle hlt
        rcases Nat.eq_or_lt_of_le hle with rfl | hlt'
        · exact hhere
        · exact hbehind p hlt' hlt
      rw [if_neg Bool.false_ne_true]
      split
      · next hlast =>
        have hone : left = 1 := by omega
        subst hone
        exact .inr ⟨hcons fun p hle hlt => by omega, rfl⟩
      · next hmore =>
        have hih := ih (show attempts + 1 + (left - 1) = s.servers.length by omega) (by omega)
          (by omega) (c + 1)
        rw [show c + 1 + (left - 1) = c + left by omega] at hih
        rcases hih with ⟨position, hle, hlt, hfound, hbefore, hsearch⟩ | ⟨hnone, hsearch⟩
        · exact .inl ⟨position, by omega, hlt, hfound, hcons hbefore, hsearch⟩
        · exact .inr ⟨hcons hnone, hsearch⟩

lemma nextIndex_atCounter (h : 0 < s.healthyCount) (iterations c : ℕ) :
    (s.atCounter c).nextIndex iterations =
      ((s.atCounter c).search iterations 0 (UInt64.ofNat c)).map
        fun r => (some r.1, { s with rrCounter := r.2 }) := by
  have hempty : ¬(s.atCounter c).servers.isEmpty := by
    rw [servers_atCounter, List.isEmpty_iff]
    exact ne_nil_of_length_pos (exists_around h).1
  have hcount : (s.atCounter c).healthyCount ≠ 0 := Nat.ne_of_gt h
  rw [nextIndex, if_neg hempty, if_neg hcount]
  rfl

/-- **A call with a healthy server** returns the first such position, or the first server if none is
among as many positions as servers. -/
theorem nextIndex_cases (h : 0 < s.healthyCount)
    (hiterations : s.servers.length ≤ iterations) (c : ℕ) :
    (∃ position, c ≤ position ∧ position < c + s.servers.length ∧
      s.isHealthy (s.index position) ∧
      (∀ p, c ≤ p → p < position → s.isHealthy (s.index p) = false) ∧
      (s.atCounter c).nextIndex iterations =
        some (some (s.index position), s.atCounter (position + 1))) ∨
    (∀ p, c ≤ p → p < c + s.servers.length → s.isHealthy (s.index p) = false) ∧
      (s.atCounter c).nextIndex iterations = some (some 0, s.atCounter (c + s.servers.length)) := by
  rw [nextIndex_atCounter h]
  rcases search_cases (s := s.atCounter c) (Nat.zero_add _) (exists_around h).1 hiterations c with
    ⟨position, hle, hlt, hfound, hbefore, hsearch⟩ | ⟨hnone, hsearch⟩
  · exact .inl ⟨position, hle, hlt, hfound, hbefore, by rw [hsearch]; rfl⟩
  · exact .inr ⟨hnone, by rw [hsearch]; rfl⟩

lemma nextIndex_found (h : 0 < s.healthyCount)
    (hiterations : s.servers.length ≤ iterations) {c : ℕ} (hle : c ≤ m)
    (hlt : m < c + s.servers.length) (hfound : s.isHealthy (s.index m))
    (hbefore : ∀ p, c ≤ p → p < m → s.isHealthy (s.index p) = false) :
    (s.atCounter c).nextIndex iterations = some (some (s.index m), s.atCounter (m + 1)) := by
  rcases nextIndex_cases h hiterations c with
    ⟨position, hle', -, hfound', hbefore', hnext⟩ | ⟨hnone, -⟩
  · -- there is just one first position
    rcases Nat.lt_trichotomy position m with hlt' | rfl | hgt
    · rw [hbefore position hle' hlt'] at hfound'
      cases hfound'
    · exact hnext
    · rw [hbefore' m hle hgt] at hfound
      cases hfound
  · rw [hnone m hle hlt] at hfound
    cases hfound

lemma getServerByHash_new (name : Text) (servers : List σ) (hash : ℕ) :
    (new name servers).getServerByHash hash =
      (servers[hash % servers.length]?, new name servers) := by
  unfold getServerByHash hashIndex
  by_cases hnil : servers = []
  · rw [hnil]
    rfl
  · have hpos : 0 < servers.length := length_pos_iff.mpr hnil
    have hhealthy : (new name servers).isHealthy (hash % (new name servers).servers.length) := by
      rw [isHealthy, new, getElem?_replicate, if_pos (Nat.mod_lt _ hpos), getD_some]
    have hne : ¬(new name servers).servers.isEmpty := mt List.isEmpty_iff.mp hnil
    rw [if_neg hne, if_pos hhealthy]
    rfl

lemma nextIndex_eq (h : 0 < s.healthyCount)
    (hiterations : s.servers.length ≤ iterations) (hm : m < 2 ^ 64)
    (hstop : seek (around s.healthy) s.servers.length s.rrCounter.toNat = m) :
    s.nextIndex iterations =
      some (some (m % s.servers.length), { s with rrCounter := UInt64.ofNat (m + 1) }) := by
  obtain ⟨hpos, hex⟩ := exists_around h
  obtain ⟨hle, hlt, hfound, hbefore⟩ :=
    seek_spec (periodic_around s.aligned) hpos hex s.rrCounter.toNat
  rw [hstop] at hle hlt hfound hbefore
  have hnext := nextIndex_found h hiterations hle hlt (by rwa [isHealthy_index hm])
    fun p hp hpm => by rw [isHealthy_index (by omega), hbefore p hp hpm]
  rwa [atCounter_self, index, Nat.mod_eq_of_lt hm] at hnext

lemma indices_eq (h : 0 < s.healthyCount)
    (hiterations : s.servers.length ≤ iterations) (hwrap : ∀ c ∈ stops k s, c < 2 ^ 64) :
    indices iterations k s = some ((stops k s).map fun c => some (c % s.servers.length)) := by
  induction k generalizing s with
  | zero => rfl
  | succ k ih =>
    obtain ⟨hpos, hex⟩ := exists_around h
    rw [stops, visits] at hwrap ⊢
    obtain ⟨hm, hrest⟩ := forall_mem_cons.mp hwrap
    generalize hstop : seek (around s.healthy) s.servers.length s.rrCounter.toNat = m
      at hm hrest ⊢
    rw [indices, nextIndex_eq h hiterations hm hstop]
    cases k with
    | zero => rfl
    | succ k =>
      -- a further call returns behind this one, so the value that is left does not wrap
      obtain ⟨hle, -⟩ := seek_spec (periodic_around s.aligned) hpos hex (m + 1)
      have hnext := hrest _ (mem_cons_self ..)
      have hcounter : (UInt64.ofNat (m + 1)).toNat = m + 1 :=
        UInt64.toNat_ofNat_of_lt' (Nat.lt_of_le_of_lt hle hnext)
      have hstops : stops (k + 1) { s with rrCounter := UInt64.ofNat (m + 1) } =
          visits (around s.healthy) s.servers.length (k + 1) (m + 1) := by
        rw [stops, hcounter]
      have hih := ih (s := { s with rrCounter := UInt64.ofNat (m + 1) }) h hiterations
        (by rwa [hstops])
      rw [hstops] at hih
      simp only [Option.bind_eq_bind, Option.bind_some, hih, Option.pure_def, List.map_cons]

lemma servers_nextIndex {idx : Option ℕ} {s' : StreamBackends σ}
    (h : s.nextIndex iterations = some (idx, s')) : s'.servers = s.servers := by
  unfold nextIndex at h
  split at h
  · cases h
    rfl
  · split at h
    · cases h
      rfl
    · obtain ⟨r, -, heq⟩ := map_eq_some_iff.mp h
      cases heq
      rfl

lemma selections_eq (iterations k : ℕ) (s : StreamBackends σ) :
    selections iterations k s =
      (indices iterations k s).map
        (List.map fun idx => idx.bind fun idx => s.servers[idx]?) := by
  induction k generalizing s with
  | zero => rfl
  | succ k ih =>
    rw [selections, indices, nextServer]
    cases hnext : s.nextIndex iterations with
    | none => rfl
    | some r =>
      obtain ⟨idx, s'⟩ := r
      simp only [map_some, bind_eq_bind, bind_some, ih s', servers_nextIndex hnext]
      cases indices iterations k s' with
      | none => rfl
      | some rest => rfl

/-- **The healthy servers take turns.** With no flag changed and a counter that does not wrap on
the way, as many calls as there are healthy servers return each of them once, in no more iterations
than there are servers. -/
theorem fair_turn (s : StreamBackends σ) (h : 0 < s.healthyCount)
    (hwrap : ∀ c ∈ stops s.healthyCount s, c < 2 ^ 64) :
    ∃ selected : List ℕ,
      (∀ iterations, s.servers.length ≤ iterations →
        indices iterations s.healthyCount s = some (selected.map some) ∧
        selections iterations s.healthyCount s =
          some (selected.map fun idx => s.servers[idx]?)) ∧
      (∀ idx, s.isHealthy idx = true → selected.count idx = 1) ∧
      ∀ idx ∈ selected, s.isHealthy idx = true := by
  obtain ⟨hpos, hex⟩ := exists_around h
  have hperiodic := periodic_around s.aligned
  refine ⟨(stops s.healthyCount s).map (· % s.servers.length), ?_, ?_, ?_⟩
  · intro iterations hiterations
    rw [selections_eq, indices_eq h hiterations hwrap, Option.map_some, List.map_map, List.map_map,
      List.map_map]
    exact ⟨rfl, rfl⟩
  · intro idx hidx
    obtain ⟨hlt, haround⟩ := around_of_getElem? s.aligned hidx
    rw [stops, healthyCount_eq]
    exact count_visits hperiodic hpos hex hlt haround _
  · intro idx hidx
    obtain ⟨c, hc, rfl⟩ := mem_map.mp hidx
    rw [stops, healthyCount_eq, ← countP_range' hperiodic s.rrCounter.toNat,
      visits_eq hperiodic hpos hex] at hc
    rw [isHealthy_mod]
    exact (mem_filter.mp hc).2

def skippingTcp : TcpService :=
  (new "db" [⟨"10.0.0.1:5432", 1, false⟩, ⟨"10.0.0.2:5432", 1, false⟩,
    ⟨"10.0.0.3:5432", 1, true⟩]).markUnhealthy 1

def skippingUdp : UdpService :=
  (new "dns" [⟨"10.0.0.1:53", 1⟩, ⟨"10.0.0.2:53", 1⟩]).markUnhealthy 0

theorem fair_turn_skips :
    (∃ selected : List ℕ, indices 3 2 skippingTcp = some (selected.map some) ∧
      ∀ idx, skippingTcp.isHealthy idx = true → selected.count idx = 1) ∧
    ∃ selected : List ℕ, indices 2 1 skippingUdp = some (selected.map some) ∧
      ∀ idx, skippingUdp.isHealthy idx = true → selected.count idx = 1 := by
  obtain ⟨tcp, htcp, hcount, -⟩ := fair_turn skippingTcp (by decide) (by decide)
  obtain ⟨udp, hudp, hcount', -⟩ := fair_turn skippingUdp (by decide) (by decide)
  exact ⟨⟨tcp, (htcp 3 (by decide)).1, hcount⟩, ⟨udp, (hudp 2 (by decide)).1, hcount'⟩⟩

end StreamBackends

end TrafficCop
