import TrafficCop.Health.Active
import TrafficCop.Lib.Hysteresis
import TrafficCop.Store.Basic

/-!
# Distributed health checks

The loop of `DistributedHealthChecker::start` in `health/distributed.rs`, beside that of
`HealthChecker::start` (`Health.Active`). As the leader a node checks the server and publishes the
result, otherwise it takes over the status that the store has.
-/

namespace TrafficCop

open Rust Store Hysteresis List

/-- What comes of `timeout(check_timeout, self.perform_http_check())`. -/
inductive CheckOutcome where
  | success
  | error
  | timeout
  deriving Repr, DecidableEq

def CheckOutcome.ok : CheckOutcome → Bool
  | .success => true
  | .error => false
  | .timeout => false

/-- What a turn finds: the store's answer, or how the check goes and when. -/
inductive HealthTick where
  | follower (read : StoreResult (Option Store.HealthStatus))
  | leader (outcome : CheckOutcome) (millis : UInt64)

/-- The variables of the loop. -/
structure DistributedHealthChecker where
  localConsecutiveSuccesses : UInt32 := 0
  localConsecutiveFailures : UInt32 := 0
  currentHealth : Bool := true
  deriving Repr, DecidableEq

namespace DistributedHealthChecker

def succeed (s : DistributedHealthChecker) : DistributedHealthChecker :=
  let s := { s with
    localConsecutiveSuccesses := s.localConsecutiveSuccesses + 1, localConsecutiveFailures := 0 }
  if !s.currentHealth && s.localConsecutiveSuccesses ≥ 2 then { s with currentHealth := true }
  else s

def fail (s : DistributedHealthChecker) : DistributedHealthChecker :=
  let s := { s with
    localConsecutiveFailures := s.localConsecutiveFailures + 1, localConsecutiveSuccesses := 0 }
  if s.currentHealth && s.localConsecutiveFailures ≥ 3 then { s with currentHealth := false } else s

/-- The counters are touched by checks alone, so they go on counting where the node was leader last.
-/
def check (s : DistributedHealthChecker) : CheckOutcome → DistributedHealthChecker
  | .success => s.succeed
  | .error => s.fail
  | .timeout => s.fail

/-- One turn of the loop, and the status that it writes to the store. -/
def tick (s : DistributedHealthChecker) :
    HealthTick → DistributedHealthChecker × Option Store.HealthStatus
  | .follower (.ok (some status)) => ({ s with currentHealth := status.healthy }, none)
  -- without a status in the store, healthy
  | .follower (.ok none) => ({ s with currentHealth := true }, none)
  | .follower (.error _) => (s, none)
  | .leader outcome millis =>
    let s := s.check outcome
    (s, some {
      healthy := s.currentHealth
      lastCheck := millis
      consecutiveFailures := s.localConsecutiveFailures
      lastError := if s.currentHealth then none else some "Health check failed" })

def run (ticks : List HealthTick) : DistributedHealthChecker :=
  ticks.foldl (fun s t => (s.tick t).1) {}

/-! ## Checks of a leadership and of all -/

/-- The results of the checks made as the leader. -/
def checks (ticks : List HealthTick) : List Bool :=
  ticks.foldl (fun checks t =>
    match t with
    | .follower _ => checks
    | .leader outcome _ => checks ++ [outcome.ok]) []

/-- The checks since it last became leader. -/
def checksAsLeader (ticks : List HealthTick) : List Bool :=
  ticks.foldl (fun checks t =>
    match t with
    | .follower _ => []
    | .leader outcome _ => checks ++ [outcome.ok]) []

/-- A published status that differs from the one before has three failed, or two successful, checks
of the present leadership behind it. -/
def FlipsCovered (before : List HealthTick) (t : HealthTick) : Prop :=
  ∀ status, ((run before).tick t).2 = some status →
    ((run before).currentHealth = true → status.healthy = false →
      3 ≤ streak false (checksAsLeader (before ++ [t]))) ∧
    ((run before).currentHealth = false → status.healthy = true →
      2 ≤ streak true (checksAsLeader (before ++ [t])))

/-- With fewer checks of the present leadership than a flip takes, those of all leaderships are too
few as well. The counters are 32 bits wide. -/
def FewOverall (before : List HealthTick) (t : HealthTick) : Prop :=
  match t with
  | .follower _ => True
  | .leader outcome _ =>
    (outcome.ok = false → (run before).currentHealth = true →
      streak false (checksAsLeader (before ++ [t])) < 3 →
        streak false (checks (before ++ [t])) % 2 ^ 32 < 3) ∧
    (outcome.ok = true → (run before).currentHealth = false →
      streak true (checksAsLeader (before ++ [t])) < 2 →
        streak true (checks (before ++ [t])) % 2 ^ 32 < 2)

variable (ticks : List HealthTick)

lemma run_concat (t : HealthTick) : run (ticks ++ [t]) = ((run ticks).tick t).1 := by
  rw [run, foldl_append]
  rfl

lemma checks_concat_leader (outcome : CheckOutcome) (millis : UInt64) :
    checks (ticks ++ [.leader outcome millis]) = checks ticks ++ [outcome.ok] := by
  rw [checks, foldl_append]
  rfl

lemma checks_concat_follower (read : StoreResult (Option Store.HealthStatus)) :
    checks (ticks ++ [.follower read]) = checks ticks := by
  rw [checks, foldl_append]
  rfl

/-! ## One check -/

variable {s : DistributedHealthChecker} {outcome : CheckOutcome}

lemma check_of_not_ok (h : outcome.ok = false) :
    s.check outcome =
      { localConsecutiveSuccesses := 0
        localConsecutiveFailures := s.localConsecutiveFailures + 1
        currentHealth := s.currentHealth && !decide (3 ≤ s.localConsecutiveFailures + 1) } := by
  have hfail : s.check outcome = s.fail := by
    cases outcome with
    | success => cases h
    | error | timeout => rfl
  rw [hfail, fail]
  cases s.currentHealth <;> by_cases hmany : 3 ≤ s.localConsecutiveFailures + 1 <;> simp [hmany]

lemma check_of_ok (h : outcome.ok) :
    s.check outcome =
      { localConsecutiveSuccesses := s.localConsecutiveSuccesses + 1
        localConsecutiveFailures := 0
        currentHealth := s.currentHealth || decide (2 ≤ s.localConsecutiveSuccesses + 1) } := by
  have hsucceed : s.check outcome = s.succeed := by
    cases outcome with
    | success => rfl
    | error | timeout => cases h
  rw [hsucceed, succeed]
  cases s.currentHealth <;> by_cases hmany : 2 ≤ s.localConsecutiveSuccesses + 1 <;> simp [hmany]

lemma toNat_add_one {x : UInt32} {n : ℕ} (h : x.toNat = n % 2 ^ 32) :
    (x + 1).toNat = (n + 1) % 2 ^ 32 := by
  rw [UInt32.toNat_add, UInt32.toNat_one, h, Nat.mod_add_mod]

lemma toNat_add_one_of_lt {x : UInt32} {n threshold : ℕ} (h : x.toNat = n)
    (hlt : n < threshold) (hthreshold : threshold < 2 ^ 32) : (x + 1).toNat = n + 1 := by
  have hmod : x.toNat = n % 2 ^ 32 := by rw [h, Nat.mod_eq_of_lt (by omega)]
  rw [toNat_add_one hmod, Nat.mod_eq_of_lt (by omega)]

lemma counters_run :
    (run ticks).localConsecutiveFailures.toNat = streak false (checks ticks) % 2 ^ 32 ∧
      (run ticks).localConsecutiveSuccesses.toNat = streak true (checks ticks) % 2 ^ 32 := by
  induction ticks using List.reverseRecOn with
  | nil => exact ⟨rfl, rfl⟩
  | append_singleton ticks t ih =>
    rw [run_concat]
    cases t with
    | follower read =>
      rw [checks_concat_follower]
      match read with
      | .ok (some status) => exact ih
      | .ok none => exact ih
      | .error _ => exact ih
    | leader outcome millis =>
      rw [checks_concat_leader, tick]
      cases hok : outcome.ok with
      | false =>
        rw [check_of_not_ok hok, streak_concat_self, streak_concat_of_ne (by decide)]
        exact ⟨toNat_add_one ih.1, rfl⟩
      | true =>
        rw [check_of_ok hok, streak_concat_self, streak_concat_of_ne (by decide)]
        exact ⟨rfl, toNat_add_one ih.2⟩

lemma flipsCovered_iff (before : List HealthTick) (t : HealthTick) :
    FlipsCovered before t ↔ FewOverall before t := by
  cases t with
  | follower read =>
    -- a follower publishes nothing
    refine iff_of_true (fun status hstatus => ?_) trivial
    match read, hstatus with
    | .ok (some _), hstatus => cases hstatus
    | .ok none, hstatus => cases hstatus
    | .error _, hstatus => cases hstatus
  | leader outcome millis =>
    obtain ⟨hfailures, hsuccesses⟩ := counters_run before
    have hpublished : FlipsCovered before (.leader outcome millis) ↔
        ((run before).currentHealth → ((run before).check outcome).currentHealth = false →
          3 ≤ streak false (checksAsLeader (before ++ [.leader outcome millis]))) ∧
        ((run before).currentHealth = false → ((run before).check outcome).currentHealth →
          2 ≤ streak true (checksAsLeader (before ++ [.leader outcome millis]))) := by
      constructor
      · exact fun h => h _ rfl
      · rintro h _ ⟨⟩
        exact h
    rw [hpublished, FewOverall, checks_concat_leader]
    generalize checksAsLeader (before ++ [.leader outcome millis]) = asLeader
    -- a failed check can only end health, a good one only bring it back
    cases hok : outcome.ok with
    | false =>
      have hmany : 3 ≤ (run before).localConsecutiveFailures + 1 ↔
          ¬(streak false (checks before) + 1) % 2 ^ 32 < 3 := by
        rw [UInt32.le_iff_toNat_le, toNat_add_one hfailures, Nat.not_lt]
        rfl
      rw [check_of_not_ok hok, streak_concat_self]
      cases (run before).currentHealth with
      | false => simp
      | true =>
        simp only [hmany, Bool.true_and, Bool.not_eq_false', decide_eq_true_eq, forall_const,
          reduceCtorEq, false_implies, and_true]
        rw [← not_imp_not, Nat.not_le, not_not]
    | true =>
      have hmany : 2 ≤ (run before).localConsecutiveSuccesses + 1 ↔
          ¬(streak true (checks before) + 1) % 2 ^ 32 < 2 := by
        rw [UInt32.le_iff_toNat_le, toNat_add_one hsuccesses, Nat.not_lt]
        rfl
      rw [check_of_ok hok, streak_concat_self]
      cases (run before).currentHealth with
      | true => simp
      | false =>
        simp only [hmany, Bool.false_or, decide_eq_true_eq, forall_const, reduceCtorEq,
          false_implies, true_and]
        rw [← not_imp_not, Nat.not_le, not_not]

/-- **When every flip is covered by the present leadership**: over a sequence of ticks, exactly if
at each check the ones from before the leadership do not make up for what is missing. -/
theorem flips_covered_iff (ticks : List HealthTick) :
    (∀ before t, before ++ [t] <+: ticks → FlipsCovered before t) ↔
      ∀ before t, before ++ [t] <+: ticks → FewOverall before t :=
  forall₃_congr fun before t _ => flipsCovered_iff before t

theorem flip_after_one_check :
    ¬FlipsCovered [.leader .error 0, .leader .timeout 10000, .follower (.ok none)]
      (.leader .error 30000) := by
  intro h
  have hthree := (h _ rfl).1 rfl rfl
  exact absurd hthree (by decide)

/-! ## Beside the other loop -/

def toStatus (s : DistributedHealthChecker) : HealthStatus where
  healthy := s.currentHealth
  consecutiveSuccesses := s.localConsecutiveSuccesses
  consecutiveFailures := s.localConsecutiveFailures

lemma check_step (s : DistributedHealthChecker) (outcome : CheckOutcome) :
    (s.check outcome).toStatus = s.toStatus.check outcome.ok := by
  cases outcome with
  | success =>
    rw [check, succeed, apply_ite toStatus]
    rfl
  | error | timeout =>
    rw [check, fail, apply_ite toStatus]
    rfl

def asLeader (outcomes : List (CheckOutcome × UInt64)) : List HealthTick :=
  outcomes.map fun x => .leader x.1 x.2

variable (outcomes : List (CheckOutcome × UInt64))

lemma run_asLeader_concat (x : CheckOutcome × UInt64) :
    run (asLeader (outcomes ++ [x])) = (run (asLeader outcomes)).check x.1 := by
  rw [asLeader, map_append]
  exact run_concat _ _

lemma toStatus_run : (run (asLeader outcomes)).toStatus =
      outcomes.foldl (fun s x => s.check x.1.ok) ({} : HealthStatus) := by
  induction outcomes using List.reverseRecOn with
  | nil => rfl
  | append_singleton outcomes x ih =>
    rw [run_asLeader_concat, check_step, ih, foldl_append]
    rfl

/-- The switch, with the counter that matters in each position. -/
structure Switches (l : List Bool) (s : DistributedHealthChecker) : Prop where
  down : s.currentHealth = false ↔ Down 3 2 l
  failures : s.currentHealth = true →
    s.localConsecutiveFailures.toNat = streak false l ∧ streak false l < 3
  successes : s.currentHealth = false →
    s.localConsecutiveSuccesses.toNat = streak true l ∧ streak true l < 2

lemma Switches.fail {l : List Bool} (h : Switches l s) (hok : outcome.ok = false) :
    Switches (l ++ [false]) (s.check outcome) := by
  have hafter := down_concat_false (m := 3) (k := 2) (l := l) (by decide)
  rw [check_of_not_ok hok]
  cases hhealth : s.currentHealth with
  | true =>
    obtain ⟨hcount, hfew⟩ := h.failures hhealth
    have hsucc := toNat_add_one_of_lt hcount hfew (by decide)
    have hup : ¬Down 3 2 l := fun hdown => by simp [h.down.mpr hdown] at hhealth
    by_cases hmany : 3 ≤ s.localConsecutiveFailures + 1
    · rw [decide_eq_true hmany]
      rw [UInt32.le_iff_toNat_le, hsucc] at hmany
      exact ⟨iff_of_true rfl (hafter.mpr (.inr hmany)), by simp,
        fun _ => by simp [streak_concat_of_ne]⟩
    · rw [decide_eq_false hmany]
      rw [UInt32.le_iff_toNat_le, hsucc, show (3 : UInt32).toNat = 3 from rfl] at hmany
      refine ⟨iff_of_false (by simp) fun hdown => ?_, fun _ => ?_, by simp⟩
      · rcases hafter.mp hdown with hdown | hstreak
        · exact hup hdown
        · exact hmany hstreak
      · rw [streak_concat_self]
        exact ⟨hsucc, by omega⟩
  | false =>
    exact ⟨iff_of_true rfl (hafter.mpr (.inl (h.down.mp hhealth))), by simp,
      fun _ => by simp [streak_concat_of_ne]⟩

lemma Switches.succeed {l : List Bool} (h : Switches l s) (hok : outcome.ok) :
    Switches (l ++ [true]) (s.check outcome) := by
  have hafter := down_concat_true (m := 3) (k := 2) (l := l) (by decide)
  rw [check_of_ok hok]
  cases hhealth : s.currentHealth with
  | true =>
    have hup : ¬Down 3 2 l := fun hdown => by simp [h.down.mpr hdown] at hhealth
    exact ⟨iff_of_false (by simp) fun hdown => hup (hafter.mp hdown).1,
      fun _ => by simp [streak_concat_of_ne], by simp⟩
  | false =>
    obtain ⟨hcount, hfew⟩ := h.successes hhealth
    have hsucc := toNat_add_one_of_lt hcount hfew (by decide)
    by_cases hmany : 2 ≤ s.localConsecutiveSuccesses + 1
    · rw [decide_eq_true hmany]
      rw [UInt32.le_iff_toNat_le, hsucc, show (2 : UInt32).toNat = 2 from rfl] at hmany
      refine ⟨iff_of_false (by simp) fun hdown => ?_, fun _ => by simp [streak_concat_of_ne],
        by simp⟩
      exact absurd (hafter.mp hdown).2 (Nat.not_lt.mpr hmany)
    · rw [decide_eq_false hmany]
      rw [UInt32.le_iff_toNat_le, hsucc, show (2 : UInt32).toNat = 2 from rfl] at hmany
      refine ⟨iff_of_true rfl (hafter.mpr ⟨h.down.mp hhealth, by omega⟩), by simp, fun _ => ?_⟩
      rw [streak_concat_self]
      exact ⟨hsucc, by omega⟩

lemma switches_run : Switches (outcomes.map fun x => x.1.ok) (run (asLeader outcomes)) := by
  induction outcomes using List.reverseRecOn with
  | nil =>
    refine ⟨iff_of_false (by simp [asLeader, run]) (not_down_nil (by decide)),
      fun _ => ⟨rfl, by decide⟩, by simp [asLeader, run]⟩
  | append_singleton outcomes x ih =>
    rw [run_asLeader_concat, map_append, map_singleton]
    cases hok : x.1.ok with
    | false => exact ih.fail hok
    | true => exact ih.succeed hok

/-- **The two loops agree**, and are the switch: after any checks both statuses are the same, and
they are unhealthy exactly if there were three failures in a row and not two successes in a row
since. -/
theorem active_checkers_agree (outcomes : List (CheckOutcome × UInt64)) :
    (outcomes.foldl (fun s x => s.check x.1.ok) ({} : HealthStatus)).healthy =
        (run (asLeader outcomes)).currentHealth ∧
      ((run (asLeader outcomes)).currentHealth = false ↔
        ∃ a b, outcomes.map (fun x => x.1.ok) = a ++ [false, false, false] ++ b ∧
          ¬[true, true] <:+: b) := by
  refine ⟨?_, (switches_run outcomes).down⟩
  rw [← toStatus_run]
  rfl

example : (run (asLeader [(.error, 0), (.timeout, 0), (.error, 0), (.success, 0)])).currentHealth =
    false := by
  decide

end DistributedHealthChecker

end TrafficCop
