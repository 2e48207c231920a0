import TrafficCop.Rust.Text

/-!
# Passive health

`PassiveHealthChecker` of `health/passive.rs`: the state of a backend, by URL, as the responses to
requests leave it.
-/

namespace TrafficCop

open Rust List Option

structure PassiveHealthConfig where
  failureThreshold : UInt32 := 5
  successThreshold : UInt32 := 2
  failureStatusCodes : UInt16 → Bool := fun code => 500 ≤ code && code ≤ 599
  responseTimeThresholdMs : Option UInt64 := none
  windowDuration : Nat := 30000000000
  recoveryInterval : Nat := 10000000000

inductive HealthChange where
  | noChange
  | becameHealthy
  | becameUnhealthy
  deriving Repr, DecidableEq

def HealthChange.after : HealthChange → Bool → Bool
  | .noChange, before => before
  | .becameHealthy, _ => true
  | .becameUnhealthy, _ => false

/-- `struct BackendState`; `window` has the entries of the sliding window. -/
structure BackendState where
  healthy : Bool := true
  consecutiveFailures : UInt32 := 0
  consecutiveSuccesses : UInt32 := 0
  unhealthySince : Option Nat := none
  window : List (Nat × Bool) := []
  deriving Repr, DecidableEq

namespace BackendState

/-- `SlidingWindow::add`: what is as old as the window goes, then the new one comes in. -/
def addToWindow (config : PassiveHealthConfig) (state : BackendState) (isFailure : Bool)
    (now : Nat) : List (Nat × Bool) :=
  state.window.filter (fun entry => now < entry.1 + config.windowDuration) ++ [(now, isFailure)]

def count (config : PassiveHealthConfig) (state : BackendState) (isFailure : Bool) (now : Nat) :
    BackendState :=
  let state := { state with window := state.addToWindow config isFailure now }
  if isFailure then
    { state with consecutiveFailures := state.consecutiveFailures + 1, consecutiveSuccesses := 0 }
  else
    { state with consecutiveSuccesses := state.consecutiveSuccesses + 1, consecutiveFailures := 0 }

def failureCount (state : BackendState) : Nat := (state.window.filter (·.2)).length

/-- The part of `record_response` that is about one backend. -/
def record (config : PassiveHealthConfig) (state : BackendState) (isFailure : Bool) (now : Nat) :
    HealthChange × BackendState :=
  let state := state.count config isFailure now
  if state.healthy then
    if config.failureThreshold ≤ state.consecutiveFailures ∨
        config.failureThreshold.toNat ≤ state.failureCount then
      (.becameUnhealthy, { state with
        healthy := false, unhealthySince := some now, consecutiveSuccesses := 0 })
    else (.noChange, state)
  else if config.successThreshold ≤ state.consecutiveSuccesses then
    (.becameHealthy, { state with
      healthy := true, unhealthySince := none, consecutiveFailures := 0 })
  -- the source compares with `was_healthy` here once more, but nothing has changed
  else (.noChange, state)

variable (config : PassiveHealthConfig) (state : BackendState) (isFailure : Bool) (now : Nat)

lemma count_healthy : (state.count config isFailure now).healthy = state.healthy := by
  unfold count
  dsimp only
  split <;> rfl

lemma record_healthy : (state.record config isFailure now).2.healthy =
      (state.record config isFailure now).1.after state.healthy := by
  have hcount := state.count_healthy config isFailure now
  unfold record
  dsimp only
  split
  · split
    · rfl
    · exact hcount
  · split
    · rfl
    · exact hcount

/-- The thresholds are reached, so that a response turns the health of the backend. -/
def Flips (config : PassiveHealthConfig) (state : BackendState) (isFailure : Bool) (now : Nat) :
    Prop :=
  if state.healthy then
    config.failureThreshold ≤ (if isFailure then state.consecutiveFailures + 1 else 0) ∨
      config.failureThreshold.toNat ≤
        (state.window.filter fun entry => now < entry.1 + config.windowDuration && entry.2).length +
          isFailure.toNat
  else config.successThreshold ≤ (if isFailure then 0 else state.consecutiveSuccesses + 1)

lemma count_consecutiveFailures : (state.count config isFailure now).consecutiveFailures =
      if isFailure then state.consecutiveFailures + 1 else 0 := by
  cases isFailure <;> rfl

lemma count_consecutiveSuccesses : (state.count config isFailure now).consecutiveSuccesses =
      if isFailure then 0 else state.consecutiveSuccesses + 1 := by
  cases isFailure <;> rfl

lemma failureCount_count : (state.count config isFailure now).failureCount =
      (state.window.filter fun entry => now < entry.1 + config.windowDuration && entry.2).length +
        isFailure.toNat := by
  have hwindow : (state.count config isFailure now).window =
      state.addToWindow config isFailure now := by
    cases isFailure <;> rfl
  rw [failureCount, hwindow, addToWindow, filter_append, length_append, List.filter_filter]
  simp only [Bool.and_comm]
  cases isFailure <;> rfl

lemma record_flips : state.Flips config isFailure now ↔
      (state.record config isFailure now).1.after state.healthy ≠ state.healthy := by
  unfold Flips
  rw [← count_consecutiveFailures config state isFailure now,
    ← count_consecutiveSuccesses config state isFailure now, ← failureCount_count]
  have hcount := state.count_healthy config isFailure now
  simp only [record, hcount]
  cases hhealthy : state.healthy with
  | true =>
    simp only [if_true]
    split <;> simp_all [HealthChange.after]
  | false =>
    simp only [Bool.false_eq_true, if_false]
    split <;> simp_all [HealthChange.after]

end BackendState

/-- Without the counters for statistics. The clock that a call reads is an argument; times are
nanoseconds. -/
structure PassiveHealthChecker where
  config : PassiveHealthConfig
  backends : Text → Option BackendState

namespace PassiveHealthChecker

def new (config : PassiveHealthConfig) : PassiveHealthChecker := ⟨config, fun _ => none⟩

variable (c : PassiveHealthChecker)

def isHealthy (url : Text) : Bool :=
  ((c.backends url).map (·.healthy)).getD true

/-- An unhealthy backend is tried again after the recovery interval. -/
def canTry (url : Text) (now : Nat) : Bool :=
  ((c.backends url).map fun s =>
    if s.healthy then true
    else
      match s.unhealthySince with
      | some since => c.config.recoveryInterval ≤ now - since
      | none => false).getD true

def isFailure (status : UInt16) (responseTime : Nat) : Bool :=
  if c.config.failureStatusCodes status then true
  else
    match c.config.responseTimeThresholdMs with
    | some threshold => threshold < UInt64.ofNat (responseTime / 1000000)
    | none => false

def recordResponse (url : Text) (status : UInt16)
    (responseTime now : Nat) : HealthChange × PassiveHealthChecker :=
  let state := (c.backends url).getD {}
  let r := state.record c.config (c.isFailure status responseTime) now
  (r.1, { c with backends := Function.update c.backends url (some r.2) })

lemma healthy_backend (url : Text) : ((c.backends url).getD {}).healthy = c.isHealthy url := by
  rw [isHealthy]
  cases c.backends url <;> rfl

/-- **The health behind a response**: the reported change for its URL, nothing for others. -/
theorem recordResponse_isHealthy (url other : Text) (status : UInt16) (responseTime now : Nat) :
    (c.recordResponse url status responseTime now).2.isHealthy other =
      if other = url then
        (c.recordResponse url status responseTime now).1.after (c.isHealthy url)
      else c.isHealthy other := by
  by_cases hurl : other = url
  · subst hurl
    rw [if_pos rfl, ← c.healthy_backend other]
    simp only [recordResponse, isHealthy, Function.update_self, map_some, getD_some]
    exact BackendState.record_healthy _ _ _ _
  · rw [if_neg hurl]
    simp only [recordResponse, isHealthy, Function.update_of_ne hurl]

/-- The response reaches a threshold of the backend's. -/
def Flips (url : Text) (status : UInt16) (responseTime now : Nat) : Prop :=
  ((c.backends url).getD {}).Flips c.config (c.isFailure status responseTime) now

lemma recordResponse_flips (url : Text) (status : UInt16)
    (responseTime now : Nat) : c.Flips url status responseTime now ↔
      (c.recordResponse url status responseTime now).1.after (c.isHealthy url) ≠
        c.isHealthy url := by
  rw [← c.healthy_backend url]
  exact BackendState.record_flips _ _ _ _

end PassiveHealthChecker

end TrafficCop
