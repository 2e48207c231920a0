import Mathlib.Algebra.Group.Nat.Defs
import TrafficCop.Lib.Timed
import TrafficCop.Rust.Core

/-!
# The circuit breaker

`CircuitBreaker` of `health/circuit_breaker.rs`, one call at a time. A call comes at an instant, in
milliseconds since the breaker was made; what the code takes of it, and of the timeout, are 64 bits.

The automaton (`Breaker`) has in each state the one number that is not stale.
-/

namespace TrafficCop

inductive CircuitState where
  | closed
  | opened
  | halfOpen
  deriving Repr, DecidableEq

/-- In each state some of the counters and the instant of opening are stale: the successes are read
in `HalfOpen` only, the failures in `Closed`, and the instant in `Open`. -/
structure CircuitBreaker where
  failureThreshold : UInt32
  recoveryTimeoutMs : UInt64
  failures : UInt32
  successes : UInt32
  /-- The field `state`: 0 is `Closed`, 1 is `Open`, anything else `HalfOpen`. -/
  code : UInt32
  openedAt : UInt64
  deriving Repr, DecidableEq

inductive BreakerCall where
  | state
  | allowRequest
  | recordSuccess
  | recordFailure
  | reset
  deriving Repr, DecidableEq

inductive BreakerAnswer where
  | state (state : CircuitState)
  | allowed (allowed : Bool)
  | done
  deriving Repr, DecidableEq

namespace CircuitBreaker

/-- The timeout is `as_millis() as u64`. -/
def new (failureThreshold : UInt32) (recoveryTimeout : ℕ) : CircuitBreaker where
  failureThreshold := failureThreshold
  recoveryTimeoutMs := UInt64.ofNat recoveryTimeout
  failures := 0
  successes := 0
  code := 0
  openedAt := 0

/-- `self.epoch.elapsed().as_millis() as u64`. -/
def elapsed (now : ℕ) : UInt64 := UInt64.ofNat now

variable (b : CircuitBreaker)

def state (now : ℕ) : CircuitState × CircuitBreaker :=
  if b.code = 0 then (.closed, b)
  else if b.code = 1 then
    if elapsed now - b.openedAt ≥ b.recoveryTimeoutMs then
      (.halfOpen, { b with code := 2, successes := 0 })
    else (.opened, b)
  else (.halfOpen, b)

def allowRequest (now : ℕ) : Bool × CircuitBreaker :=
  match b.state now with
  | (.closed, b) => (true, b)
  | (.opened, b) => (false, b)
  | (.halfOpen, b) => (true, b)

def recordSuccess (now : ℕ) : CircuitBreaker :=
  match b.state now with
  | (.closed, b) => { b with failures := 0 }
  | (.halfOpen, b) =>
    let b := { b with successes := b.successes + 1 }
    if b.successes ≥ 3 then { b with code := 0, failures := 0 } else b
  | (.opened, b) => b

def recordFailure (now : ℕ) : CircuitBreaker :=
  match b.state now with
  | (.closed, b) =>
    let b := { b with failures := b.failures + 1 }
    if b.failures ≥ b.failureThreshold then { b with code := 1, openedAt := elapsed now } else b
  | (.halfOpen, b) => { b with code := 1, openedAt := elapsed now }
  | (.opened, b) => b

def reset : CircuitBreaker :=
  { b with code := 0, failures := 0, successes := 0 }

/-- The breaker as a machine with a clock. -/
def answer (now : ℕ) : BreakerCall → CircuitBreaker × BreakerAnswer
  | .state => ((b.state now).2, .state (b.state now).1)
  | .allowRequest => ((b.allowRequest now).2, .allowed (b.allowRequest now).1)
  | .recordSuccess => (b.recordSuccess now, .done)
  | .recordFailure => (b.recordFailure now, .done)
  | .reset => (b.reset, .done)

end CircuitBreaker

/-! ## The automaton -/

/-- `n` failures in a row, open since `t`, or `k` successes since it has been half open. -/
inductive Breaker where
  | closed (n : ℕ)
  | opened (t : ℕ)
  | halfOpen (k : ℕ)
  deriving Repr, DecidableEq

namespace Breaker

/-- An opened breaker is half open when its timeout is over. -/
def seen (timeout now : ℕ) : Breaker → Breaker
  | .opened t => if t + timeout ≤ now then .halfOpen 0 else .opened t
  | a => a

def state : Breaker → CircuitState
  | .closed _ => .closed
  | .opened _ => .opened
  | .halfOpen _ => .halfOpen

def succeed : Breaker → Breaker
  | .closed _ => .closed 0
  | .opened t => .opened t
  | .halfOpen k => if k + 1 = 3 then .closed 0 else .halfOpen (k + 1)

def fail (threshold now : ℕ) : Breaker → Breaker
  | .closed n => if n + 1 = max threshold 1 then .opened now else .closed (n + 1)
  | .opened t => .opened t
  | .halfOpen _ => .opened now

def answer (threshold timeout : ℕ) (a : Breaker) (now : ℕ) : BreakerCall → Breaker × BreakerAnswer
  | .state => (a.seen timeout now, .state (a.seen timeout now).state)
  | .allowRequest => (a.seen timeout now, .allowed ((a.seen timeout now).state ≠ .opened))
  | .recordSuccess => ((a.seen timeout now).succeed, .done)
  | .recordFailure => ((a.seen timeout now).fail threshold now, .done)
  | .reset => (.closed 0, .done)

end Breaker

/-! ## The refinement -/

namespace CircuitBreaker

/-- The fields that are not stale say what the automaton's state says. -/
inductive Represents (now : ℕ) (b : CircuitBreaker) : Breaker → Prop
  | closed (hcode : b.code = 0) (hlt : b.failures.toNat < max b.failureThreshold.toNat 1) :
      Represents now b (.closed b.failures.toNat)
  | opened (hcode : b.code = 1) (hle : b.openedAt.toNat ≤ now) :
      Represents now b (.opened b.openedAt.toNat)
  | halfOpen (hcode : b.code = 2) (hlt : b.successes.toNat < 3) :
      Represents now b (.halfOpen b.successes.toNat)

/-- The configuration does not change. -/
def MadeWith (threshold : UInt32) (timeout : UInt64) (b : CircuitBreaker) : Prop :=
  b.failureThreshold = threshold ∧ b.recoveryTimeoutMs = timeout

variable {b : CircuitBreaker} {a : Breaker} {t now : ℕ} {threshold : UInt32} {timeout : UInt64}

lemma toNat_elapsed (hnow : now < 2 ^ 64) : (elapsed now).toNat = now :=
  UInt64.toNat_ofNat_of_lt' hnow

/-- Every call but `reset` starts with this. -/
lemma Represents.state (h : Represents t b a) (hmade : b.MadeWith threshold timeout)
    (hle : t ≤ now) (hnow : now < 2 ^ 64) :
    (b.state now).1 = (a.seen timeout.toNat now).state ∧
      Represents now (b.state now).2 (a.seen timeout.toNat now) ∧
      (b.state now).2.MadeWith threshold timeout := by
  obtain ⟨rfl, rfl⟩ := hmade
  cases h with
  | closed hcode hlt =>
    rw [CircuitBreaker.state, if_pos hcode]
    exact ⟨rfl, .closed hcode hlt, rfl, rfl⟩
  | halfOpen hcode hlt =>
    rw [CircuitBreaker.state, if_neg (by simp [hcode]), if_neg (by simp [hcode])]
    exact ⟨rfl, .halfOpen hcode hlt, rfl, rfl⟩
  | opened hcode hopened =>
    -- the clock has not gone back since, so the subtraction does not wrap
    have hsub : (elapsed now - b.openedAt).toNat = now - b.openedAt.toNat := by
      have hle' : b.openedAt ≤ elapsed now := by
        rw [UInt64.le_iff_toNat_le, toNat_elapsed hnow]
        omega
      rw [UInt64.toNat_sub_of_le _ _ hle', toNat_elapsed hnow]
    have hiff : elapsed now - b.openedAt ≥ b.recoveryTimeoutMs ↔
        b.openedAt.toNat + b.recoveryTimeoutMs.toNat ≤ now := by
      rw [ge_iff_le, UInt64.le_iff_toNat_le, hsub]
      omega
    rw [CircuitBreaker.state, if_neg (by simp [hcode]), if_pos hcode, Breaker.seen]
    simp only [hiff]
    split
    · have hzero : (0 : UInt32).toNat < 3 := by decide
      exact ⟨rfl, .halfOpen rfl hzero, rfl, rfl⟩
    · exact ⟨rfl, .opened hcode (Nat.le_trans hopened hle), rfl, rfl⟩

lemma Represents.opened_at (hcode : b.code = 1) (hnow : now < 2 ^ 64)
    (hopened : b.openedAt = elapsed now) : Represents now b (.opened now) := by
  have heq : b.openedAt.toNat = now := by rw [hopened, toNat_elapsed hnow]
  have h : Represents now b (.opened b.openedAt.toNat) := .opened hcode (by omega)
  rwa [heq] at h

lemma Represents.closed_zero (hcode : b.code = 0) (hfailures : b.failures = 0) :
    Represents now b (.closed 0) := by
  have hlt : b.failures.toNat < max b.failureThreshold.toNat 1 := by
    rw [hfailures]
    exact Nat.lt_of_lt_of_le Nat.zero_lt_one (Nat.le_max_right _ _)
  have h : Represents now b (.closed b.failures.toNat) := .closed hcode hlt
  rwa [hfailures] at h

lemma toNat_succ {x : UInt32} {bound : ℕ} (hlt : x.toNat < bound) (hbound : bound < 2 ^ 32) :
    (x + 1).toNat = x.toNat + 1 := by
  rw [UInt32.toNat_add, UInt32.toNat_one, Nat.mod_eq_of_lt (by omega)]

lemma Represents.recordSuccess (h : Represents t b a) (hmade : b.MadeWith threshold timeout)
    (hle : t ≤ now) (hnow : now < 2 ^ 64) :
    Represents now (b.recordSuccess now) (a.seen timeout.toNat now).succeed ∧
      (b.recordSuccess now).MadeWith threshold timeout := by
  obtain ⟨hstate, hrep, hmade⟩ := h.state hmade hle hnow
  rw [CircuitBreaker.recordSuccess]
  generalize b.state now = r at hstate hrep hmade ⊢
  generalize a.seen timeout.toNat now = a at hstate hrep ⊢
  obtain ⟨seen, b⟩ := r
  cases hrep with
  | closed hcode hlt =>
    obtain rfl : seen = .closed := hstate
    exact ⟨.closed_zero hcode rfl, hmade⟩
  | opened hcode hopened =>
    obtain rfl : seen = .opened := hstate
    exact ⟨.opened hcode hopened, hmade⟩
  | halfOpen hcode hlt =>
    obtain rfl : seen = .halfOpen := hstate
    dsimp only at hcode hlt hmade ⊢
    have hsucc := toNat_succ hlt (by decide)
    have hiff : b.successes + 1 ≥ 3 ↔ b.successes.toNat + 1 = 3 := by
      rw [ge_iff_le, UInt32.le_iff_toNat_le, hsucc, show (3 : UInt32).toNat = 3 from rfl]
      omega
    rw [Breaker.succeed]
    simp only [hiff]
    split
    · exact ⟨.closed_zero rfl rfl, hmade⟩
    · refine ⟨?_, hmade⟩
      have hrep : Represents now { b with successes := b.successes + 1 }
          (.halfOpen (b.successes + 1).toNat) := .halfOpen hcode (by dsimp only; omega)
      rwa [hsucc] at hrep

lemma Represents.recordFailure (h : Represents t b a) (hmade : b.MadeWith threshold timeout)
    (hle : t ≤ now) (hnow : now < 2 ^ 64) :
    Represents now (b.recordFailure now)
        ((a.seen timeout.toNat now).fail threshold.toNat now) ∧
      (b.recordFailure now).MadeWith threshold timeout := by
  obtain ⟨hstate, hrep, hmade⟩ := h.state hmade hle hnow
  rw [CircuitBreaker.recordFailure]
  generalize b.state now = r at hstate hrep hmade ⊢
  generalize a.seen timeout.toNat now = a at hstate hrep ⊢
  obtain ⟨seen, b⟩ := r
  cases hrep with
  | halfOpen hcode hlt =>
    obtain rfl : seen = .halfOpen := hstate
    exact ⟨.opened_at rfl hnow rfl, hmade⟩
  | opened hcode hopened =>
    obtain rfl : seen = .opened := hstate
    exact ⟨.opened hcode hopened, hmade⟩
  | closed hcode hlt =>
    obtain rfl : seen = .closed := hstate
    dsimp only at hcode hlt hmade ⊢
    -- the count stays below the threshold, so it never wraps
    have hbound : max b.failureThreshold.toNat 1 < 2 ^ 32 := by
      have := b.failureThreshold.toNat_lt
      omega
    have hsucc := toNat_succ hlt hbound
    have hiff : b.failures + 1 ≥ b.failureThreshold ↔
        b.failures.toNat + 1 = max threshold.toNat 1 := by
      rw [ge_iff_le, UInt32.le_iff_toNat_le, hsucc, ← hmade.1]
      omega
    rw [Breaker.fail]
    simp only [hiff]
    split
    · exact ⟨.opened_at rfl hnow rfl, hmade⟩
    · refine ⟨?_, hmade⟩
      have hrep : Represents now { b with failures := b.failures + 1 }
          (.closed (b.failures + 1).toNat) := by
        refine .closed hcode ?_
        dsimp only
        rw [← hmade.1] at *
        omega
      rwa [hsucc] at hrep

lemma allowRequest_eq (b : CircuitBreaker) (now : ℕ) :
    b.allowRequest now = (decide ((b.state now).1 ≠ .opened), (b.state now).2) := by
  rw [allowRequest]
  generalize b.state now = r
  obtain ⟨seen, b⟩ := r
  cases seen with
  | closed | opened | halfOpen => rfl

lemma Represents.answer (h : Represents t b a) (hmade : b.MadeWith threshold timeout)
    (hle : t ≤ now) (hnow : now < 2 ^ 64) (call : BreakerCall) :
    (b.answer now call).2 = (a.answer threshold.toNat timeout.toNat now call).2 ∧
      Represents now (b.answer now call).1 (a.answer threshold.toNat timeout.toNat now call).1 ∧
      (b.answer now call).1.MadeWith threshold timeout := by
  cases call with
  | state =>
    obtain ⟨hstate, hrep, hmade⟩ := h.state hmade hle hnow
    exact ⟨congrArg BreakerAnswer.state hstate, hrep, hmade⟩
  | allowRequest =>
    obtain ⟨hstate, hrep, hmade⟩ := h.state hmade hle hnow
    rw [CircuitBreaker.answer, allowRequest_eq, hstate]
    exact ⟨rfl, hrep, hmade⟩
  | recordSuccess => exact ⟨rfl, h.recordSuccess hmade hle hnow⟩
  | recordFailure => exact ⟨rfl, h.recordFailure hmade hle hnow⟩
  | reset => exact ⟨rfl, .closed_zero rfl rfl, hmade⟩

/-- **The breaker is the automaton**: for every threshold, timeout and sequence of calls at instants
that do not go back, it gives the same answers. Timeouts and instants of `2 ^ 64` ms and more, of
which `as u64` keeps the low bits, are not meant. -/
theorem circuit_breaker_refines (threshold : UInt32) (timeout : UInt64)
    (calls : List (UInt64 × BreakerCall)) (horder : calls.Pairwise fun x y => x.1 ≤ y.1) :
    (Timed.operate CircuitBreaker.answer (new threshold timeout.toNat)
        (calls.map fun x => (x.1.toNat, x.2))).log =
      (Timed.operate (Breaker.answer threshold.toNat timeout.toNat) (.closed 0)
        (calls.map fun x => (x.1.toNat, x.2))).log := by
  have hmade : (new threshold timeout.toNat).MadeWith threshold timeout :=
    ⟨rfl, UInt64.ofNat_toNat⟩
  have hrep : Represents 0 (new threshold timeout.toNat) (.closed 0) := .closed_zero rfl rfl
  have horder' : Timed.InOrder (calls.map fun x => (x.1.toNat, x.2)) :=
    List.pairwise_map.mpr (horder.imp fun hle => UInt64.le_iff_toNat_le.mp hle)
  refine (Timed.log_eq (P := fun x => x.1 < 2 ^ 64)
    (R := fun t b a => Represents t b a ∧ b.MadeWith threshold timeout) ⟨hrep, hmade⟩ ?_ horder'
    ?_).1
  · rintro t b a now call ⟨hrep, hmade⟩ hle hnow
    exact hrep.answer hmade hle hnow call
  · intro x hx
    obtain ⟨y, -, rfl⟩ := List.mem_map.mp hx
    exact y.1.toNat_lt

/-- A breaker that opens at the second failure and lets requests through again after five seconds,
until the next failure. -/
theorem circuit_breaker_refines_reopens :
    (Timed.operate CircuitBreaker.answer (new 2 5000)
        [(10, .recordFailure), (20, .recordFailure), (30, .allowRequest), (5020, .allowRequest),
          (5030, .recordFailure), (5040, .state)]).log.map (·.answer) =
      [.done, .done, .allowed false, .allowed true, .done, .state .opened] := by
  have hlog := circuit_breaker_refines 2 5000
    [(10, .recordFailure), (20, .recordFailure), (30, .allowRequest), (5020, .allowRequest),
      (5030, .recordFailure), (5040, .state)] (by decide)
  refine (congrArg (List.map (·.answer)) hlog).trans ?_
  decide

end CircuitBreaker

end TrafficCop
