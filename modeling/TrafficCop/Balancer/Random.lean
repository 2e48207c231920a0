import TrafficCop.Config.Types

/-!
# Random selection

`RandomBalancer` of `balancer/random.rs`. Its sums of weights are `u32` values.
-/

namespace TrafficCop

open Rust List Option

structure RandomServer where
  config : Server
  healthy : Bool
  deriving Repr, DecidableEq

structure RandomBalancer where
  servers : List RandomServer
  totalWeight : UInt32
  deriving Repr, DecidableEq

namespace RandomBalancer

/-- The sum wraps in a release build; so do the weight of the healthy servers and the running sum.
-/
def sumWeights (servers : List Server) : UInt32 := servers.foldl (fun total s => total + s.weight) 0

def new (servers : List Server) : RandomBalancer where
  servers := servers.map fun config => ⟨config, true⟩
  totalWeight := sumWeights servers

variable (b : RandomBalancer)

def healthyWeight : UInt32 :=
  sumWeights ((b.servers.filter (·.healthy)).map (·.config))

/-- The loop: the first healthy server at which the running sum passes the number drawn. -/
def draw (rand : UInt32) : List RandomServer → Nat → UInt32 → Option Nat
  | [], _, _ => none
  | s :: rest, idx, cumulative =>
    if !s.healthy then draw rand rest (idx + 1) cumulative
    else if rand < cumulative + s.config.weight then some idx
    else draw rand rest (idx + 1) (cumulative + s.config.weight)

/-- The word is what `fast_random` draws. -/
def nextIndex (word : UInt32) : Option Nat :=
  let first := if b.servers.isEmpty then none else some 0
  if b.servers.isEmpty || b.totalWeight == 0 then first
  else if b.healthyWeight == 0 then first
  else
    match draw (word % b.healthyWeight) b.servers 0 0 with
    | some idx => some idx
    | none => first

def nextServer (word : UInt32) : Option Server :=
  (b.nextIndex word).bind fun idx => b.servers[idx]?.map (·.config)

def mark (index : Nat) (flag : Bool) : RandomBalancer :=
  { b with servers := b.servers.modify index fun s => { s with healthy := flag } }

def markHealthy (index : Nat) : RandomBalancer := b.mark index true

def markUnhealthy (index : Nat) : RandomBalancer := b.mark index false

def findServerIndex (url : Text) : Option Nat :=
  b.servers.findIdx? fun s => s.config.url == url

variable {rand cumulative : UInt32} {servers : List RandomServer} {idx : Nat}

lemma draw_healthy {k : Nat} (h : draw rand servers idx cumulative = some k) :
    idx ≤ k ∧ ∃ s, servers[k - idx]? = some s ∧ s.healthy := by
  induction servers generalizing idx cumulative with
  | nil => cases h
  | cons s servers ih =>
    rw [draw] at h
    -- found among the later servers
    have hlater : (idx + 1 ≤ k ∧ ∃ t, servers[k - (idx + 1)]? = some t ∧ t.healthy) →
        idx ≤ k ∧ ∃ t, (s :: servers)[k - idx]? = some t ∧ t.healthy := by
      rintro ⟨hle, t, ht, hhealthy⟩
      exact ⟨by omega, t, (getElem?_sub_cons hle).trans ht, hhealthy⟩
    split at h
    · exact hlater (ih h)
    · next hs =>
      split at h
      · cases h
        exact ⟨Nat.le_refl _, s, by simp, by simpa using hs⟩
      · exact hlater (ih h)

/-- A draw from the start of the running sum up to its end finds a server. -/
lemma draw_ne_none (hstart : ¬rand < cumulative)
    (hend : rand < ((servers.filter (·.healthy)).map (·.config)).foldl
      (fun total s => total + s.weight) cumulative) :
    draw rand servers idx cumulative ≠ none := by
  induction servers generalizing idx cumulative with
  | nil => exact absurd hend hstart
  | cons s servers ih =>
    rw [draw]
    by_cases hs : s.healthy
    · rw [if_neg (by simp [hs])]
      rw [filter_cons_of_pos hs] at hend
      split
      · simp
      · next hnot => exact ih hnot hend
    · rw [if_pos (by simp [hs])]
      rw [filter_cons_of_neg hs] at hend
      exact ih hstart hend

lemma nextIndex_healthy_iff {b : RandomBalancer} (hne : b.servers ≠ []) (word : UInt32) :
    (∃ k s, b.nextIndex word = some k ∧ b.servers[k]? = some s ∧ s.healthy) ↔
      (∃ s, b.servers[0]? = some s ∧ s.healthy) ∨ b.totalWeight ≠ 0 ∧ b.healthyWeight ≠ 0 := by
  have hempty : b.servers.isEmpty = false := by simpa using hne
  by_cases htotal : b.totalWeight = 0
  · simp [nextIndex, hempty, htotal]
  by_cases hweight : b.healthyWeight = 0
  · simp [nextIndex, hempty, htotal, hweight]
  -- both weights are positive: the draw finds a server
  have hdraw : draw (word % b.healthyWeight) b.servers 0 0 ≠ none := by
    refine draw_ne_none (by simp) (UInt32.mod_lt word ?_)
    exact UInt32.pos_iff_ne_zero.mpr hweight
  obtain ⟨k, hk⟩ := ne_none_iff_exists'.mp hdraw
  obtain ⟨-, s, hs, hhealthy⟩ := draw_healthy hk
  refine iff_of_true ⟨k, s, ?_, by simpa using hs, hhealthy⟩ (.inr ⟨htotal, hweight⟩)
  simp [nextIndex, hempty, htotal, hweight, hk]

end RandomBalancer

end TrafficCop
