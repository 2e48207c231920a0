import TrafficCop.Balancer.Rotation
import TrafficCop.Lib.Transition

/-!
# Active health checks

`HealthStatus` of `health/mod.rs`, the loop of `HealthChecker::start` in `health/checker.rs`, and a
load-balancer service with a health check as `ServiceManager` holds it: a balancer, and a status for
each server.

Nothing carries a status over to the balancer: `next_server` goes by its own flags.
-/

namespace TrafficCop

open Rust Transition List Option LoadBalancer

structure HealthStatus where
  healthy : Bool := true
  consecutiveSuccesses : UInt32 := 0
  consecutiveFailures : UInt32 := 0
  deriving Repr, DecidableEq

namespace HealthStatus

variable (s : HealthStatus)

def recordSuccess : HealthStatus :=
  { s with consecutiveSuccesses := s.consecutiveSuccesses + 1, consecutiveFailures := 0 }

def recordFailure : HealthStatus :=
  { s with consecutiveFailures := s.consecutiveFailures + 1, consecutiveSuccesses := 0 }

def markHealthy : HealthStatus := { s with healthy := true }

def markUnhealthy : HealthStatus := { s with healthy := false }

/-- One turn of `HealthChecker::start`; the thresholds are 2 successes and 3 failures. -/
def check (ok : Bool) : HealthStatus :=
  if ok then
    let s := s.recordSuccess
    if !s.healthy && 2 ≤ s.consecutiveSuccesses then s.markHealthy else s
  else
    let s := s.recordFailure
    if s.healthy && 3 ≤ s.consecutiveFailures then s.markUnhealthy else s

/-- The third failure in a row of a healthy server. -/
def TurnsUnhealthy (ok : Bool) : Prop :=
  s.healthy = true ∧ ok = false ∧ 3 ≤ s.consecutiveFailures + 1

lemma check_healthy {s : HealthStatus} {ok : Bool} (hs : s.healthy)
    (hturn : ¬s.TurnsUnhealthy ok) : (s.check ok).healthy := by
  cases ok with
  | true => simp [check, recordSuccess, hs]
  | false =>
    have hfew : ¬3 ≤ s.consecutiveFailures + 1 := fun h => hturn ⟨hs, rfl, h⟩
    simp [check, recordFailure, hs, hfew]

end HealthStatus

/-- The balancer and the statuses of a load-balancer service. -/
structure CheckedService where
  balancer : LoadBalancer
  healthStatuses : List HealthStatus

namespace CheckedService

/-- The checkers write the statuses; requests select from the balancer, and passive health sets its
flags. -/
inductive Action where
  | check (index : Nat) (ok : Bool)
  | call (c : Call)
  deriving Repr, DecidableEq

def new (lb : LoadBalancerService) : CheckedService where
  balancer := .fromLoadBalancer lb
  healthStatuses := lb.servers.map fun _ => {}

/-- There is a checker for each server of the service. -/
def step (s : CheckedService) : Action → Option CheckedService
  | .check index ok =>
    if index < s.healthStatuses.length then
      some { s with healthStatuses := s.healthStatuses.modify index (·.check ok) }
    else none
  | .call c => some { s with balancer := s.balancer.step c }

/-- `health_statuses[index].is_healthy()`. -/
def checkedHealthy (s : CheckedService) (index : Nat) : Bool :=
  (s.healthStatuses.map (·.healthy))[index]?.getD false

/-- An unhealthy server is not the next one while another is healthy. -/
def Governed (s : CheckedService) : Prop :=
  ∀ index, s.balancer.nextIndex = some index → s.checkedHealthy index = false →
    ∀ j, j ≠ index → s.checkedHealthy j = false

/-- The steps after which the statuses still govern: a status turns unhealthy for a server out of
rotation, passive health brings back servers of a healthy status and never takes the last one out,
and the counter does not wrap. -/
def InStep (s : CheckedService) : Action → Prop
  | .check index ok => ∀ status, s.healthStatuses[index]? = some status →
      status.TurnsUnhealthy ok → s.balancer.isHealthy index = false
  | .call (.markHealthy index) => s.checkedHealthy index = true
  | .call (.markUnhealthy index) => (s.balancer.markUnhealthy index).Rotates
  | .call .nextServer => s.balancer.StaysBelowWrap 1

/-- Who is in rotation has a healthy status, and somebody is in rotation. -/
structure UpToDate (servers : List Server) (s : CheckedService) : Prop where
  keeps : s.balancer.Keeps servers
  checked : ∀ index, s.balancer.isHealthy index = true → s.checkedHealthy index = true
  rotates : s.balancer.Rotates
  wrap : s.balancer.StaysBelowWrap 0

variable {lb : LoadBalancerService} {servers : List Server} {s : CheckedService}

lemma upToDate_new (hne : lb.servers ≠ [])
    (hlength : lb.servers.length ≤ 2 ^ 64) : UpToDate lb.servers (new lb) where
  keeps := keeps_fromLoadBalancer lb
  checked := by
    intro index hindex
    have hlt := (keeps_fromLoadBalancer lb).isHealthy_lt hindex
    simp [checkedHealthy, new, hlt]
  rotates := rotates_fromLoadBalancer hne
  wrap := by
    show (fromLoadBalancer lb).StaysBelowWrap 0
    unfold fromLoadBalancer
    dsimp only
    split
    · trivial
    · simpa [StaysBelowWrap, RoundRobinBalancer.new] using hlength

lemma checkedHealthy_modify (s : CheckedService) (index j : Nat) (ok : Bool) :
    checkedHealthy { s with healthStatuses := s.healthStatuses.modify index (·.check ok) } j =
      ((s.healthStatuses[j]?.map fun status =>
        if index = j then (status.check ok).healthy else status.healthy).getD false) := by
  rw [checkedHealthy, getElem?_map, getElem?_modify]
  cases s.healthStatuses[j]? with
  | none => rfl
  | some status => by_cases hj : index = j <;> simp [hj]

lemma step_upToDate {s' : CheckedService} {a : Action}
    (h : s.UpToDate servers) (hin : s.InStep a) (hstep : s.step a = some s') :
    s'.UpToDate servers := by
  cases a with
  | check index ok =>
    obtain ⟨-, hstep⟩ := ite_none_right_eq_some.mp hstep
    cases hstep
    refine ⟨h.keeps, ?_, h.rotates, h.wrap⟩
    intro j hj
    rw [checkedHealthy_modify]
    have hbefore := h.checked j hj
    rw [checkedHealthy, getElem?_flag_iff] at hbefore
    obtain ⟨status, hstatus, hhealthy⟩ := hbefore
    rw [hstatus, map_some, getD_some]
    split
    · next heq =>
      -- in rotation, so the check cannot have turned the status
      subst heq
      refine HealthStatus.check_healthy hhealthy fun hturn => ?_
      have hout := hin status hstatus hturn
      exact absurd hj (by simp [hout])
    · exact hhealthy
  | call c =>
    cases hstep
    have hkeeps := h.keeps.step c
    cases c with
    | nextServer =>
      refine ⟨hkeeps, ?_, (s.balancer.rotates_nextServer).mpr h.rotates, ?_⟩
      · intro j hj
        refine h.checked j ?_
        rw [isHealthy, ← flags_nextServer]
        exact hj
      · refine staysBelowWrap_nextServer ?_ hin
        obtain ⟨index, -, hhealthy⟩ := h.keeps.nextIndex_of_rotates h.rotates h.wrap
        rw [h.keeps.servers_eq]
        exact ne_nil_of_length_pos (Nat.zero_lt_of_lt (h.keeps.isHealthy_lt hhealthy))
    | markHealthy index =>
      refine ⟨hkeeps, ?_, h.rotates.markHealthy index, (h.wrap.mark index).1⟩
      intro j hj
      rcases isHealthy_of_markHealthy hj with rfl | hbefore
      · exact hin
      · exact h.checked j hbefore
    | markUnhealthy index =>
      refine ⟨hkeeps, ?_, hin, (h.wrap.mark index).2⟩
      intro j hj
      exact h.checked j (isHealthy_of_markUnhealthy hj)

lemma UpToDate.governed (h : s.UpToDate servers) : s.Governed := by
  intro index hindex hunhealthy
  obtain ⟨index', hindex', hhealthy⟩ := h.keeps.nextIndex_of_rotates h.rotates h.wrap
  have hsame : index' = index := Option.some.inj (hindex'.symm.trans hindex)
  have hchecked := h.checked index (hsame ▸ hhealthy)
  exact absurd hchecked (by simp [hunhealthy])

lemma keeps_of_run {allowed : CheckedService → Action → Prop}
    {as : List Action} (hrun : Run step allowed (new lb) as s) :
    s.balancer.Keeps lb.servers := by
  refine hrun.invariant (I := fun s => s.balancer.Keeps lb.servers)
    (keeps_fromLoadBalancer lb) ?_
  intro t a t' h _ hstep
  cases a with
  | check index ok =>
    obtain ⟨-, hstep⟩ := ite_none_right_eq_some.mp hstep
    cases hstep
    exact h
  | call c =>
    cases hstep
    exact h.step c

/-- **Checks govern as long as the rotation is in step with them**: in every run whose steps
all keep it so, in every state reached. -/
theorem selects_checked {lb : LoadBalancerService} (hlength : lb.servers.length ≤ 2 ^ 64)
    {as : List Action} {s : CheckedService} (hrun : Run step InStep (new lb) as s) :
    s.Governed := by
  by_cases hnil : lb.servers = []
  · -- nobody to select
    intro index hindex
    rw [nextIndex_of_nil ((keeps_of_run hrun).servers_eq.trans hnil)] at hindex
    cases hindex
  · exact (hrun.invariant (upToDate_new hnil hlength)
      fun _ _ _ h hin hstep => step_upToDate h hin hstep).governed

def twins : LoadBalancerService :=
  ⟨[{ url := "http://10.0.0.1" }, { url := "http://10.0.0.2" }]⟩

def threeFailures : List Action := List.replicate 3 (.check 0 false)

/-- Passive health takes the first server out of rotation before its checks fail. -/
theorem selects_checked_twins :
    ∃ s, Run step InStep (new twins) (.call (.markUnhealthy 0) :: threeFailures) s ∧
      s.checkedHealthy 0 = false ∧ s.checkedHealthy 1 = true ∧ s.Governed := by
  have hrun : ∃ s, Run step InStep (new twins) (.call (.markUnhealthy 0) :: threeFailures) s ∧
      s.checkedHealthy 0 = false ∧ s.checkedHealthy 1 :=
    ⟨_, .cons (s := new twins) ⟨1, rfl⟩ rfl (.cons (fun _ _ _ => rfl) rfl
      (.cons (fun _ _ _ => rfl) rfl (.cons (fun _ _ _ => rfl) rfl .refl))), rfl, rfl⟩
  obtain ⟨s, hrun, hfirst, hsecond⟩ := hrun
  exact ⟨s, hrun, hfirst, hsecond, selects_checked (by simp [twins]) hrun⟩

/-- The first server fails its checks and is selected next, although the other's status is
healthy. -/
theorem selects_failed_check :
    ∃ s, Run step (fun _ _ => True) (new twins) threeFailures s ∧
      s.balancer.nextIndex = some 0 ∧ s.balancer.nextServer.1 = twins.servers[0]? ∧
      s.checkedHealthy 0 = false ∧ s.checkedHealthy 1 = true :=
  ⟨_, .of_foldlM rfl, by decide, by decide, rfl, rfl⟩

end CheckedService

end TrafficCop
