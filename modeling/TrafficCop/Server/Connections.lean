import Mathlib.Data.List.Basic

/-!
# Graceful shutdown

`ConnectionTracker` of `server/mod.rs`, the tasks of `Listener::serve` that use it, and the end of
`Server::run`. All of them take their atomic steps in any order.
-/

namespace TrafficCop.Connections

open List

/-- The task of a connection loads the flag, raises the counter, serves, and lowers the counter. A
WebSocket is served on by a task that `handle_websocket` spawns, behind the back of the counter. -/
inductive Task where
  | spawned
  /-- The flag was not up, but the connection is not counted yet. -/
  | admitted
  | serving
  /-- The connection was upgraded and its task is over; the spawned one copies on. -/
  | tunnelled
  | ended
  | panicked
  | rejected
  deriving DecidableEq

/-- A panic while a connection is served leaves the counter raised, in a build that unwinds: with
the release profile it aborts the process. -/
def Task.counted (task : Task) : Bool := task = .serving || task = .panicked

/-- The connection is served or about to be. -/
def Task.isOpen (task : Task) : Bool :=
  task = .admitted || task = .serving || task = .tunnelled

inductive Phase where
  | running
  | draining
  | waiting (deadline : ℕ)
  | stopped
  deriving DecidableEq

/-- `Server::run` and the flag, which it alone raises. Times are in milliseconds. -/
structure Server where
  now : ℕ := 0
  draining : Bool := false
  phase : Phase := .running

inductive ServerAction where
  | tick (millis : ℕ)
  | startDrain
  | activeCount

/-- `Server::run` raises the flag and then looks at the counter. -/
def Server.step (active : ℕ) (server : Server) : ServerAction → Server
  | .tick millis => { server with now := server.now + millis }
  | .startDrain =>
    if server.phase = .running then { server with draining := true, phase := .draining } else server
  | .activeCount =>
    match server.phase with
    | .draining =>
      { server with phase := if 0 < active then .waiting (server.now + 30000) else .stopped }
    -- a turn of the loop in `wait_for_drain`
    | .waiting deadline =>
      if active = 0 ∨ deadline ≤ server.now then { server with phase := .stopped } else server
    | _ => server

/-- The steps of a connection: the two of `connection_start`, the one of `connection_end` behind a
connection that has ended or was upgraded, and the end of a tunnel. -/
inductive Move where
  | load
  | fetchAdd
  | fetchSub (upgraded : Bool)
  | panic
  | closeTunnel

def Move.source : Move → Task
  | .load => .spawned
  | .fetchAdd => .admitted
  | .fetchSub _ | .panic => .serving
  | .closeTunnel => .tunnelled

def Move.target (draining : Bool) : Move → Task
  | .load => if draining then .rejected else .admitted
  | .fetchAdd => .serving
  | .fetchSub upgraded => if upgraded then .tunnelled else .ended
  | .panic => .panicked
  | .closeTunnel => .ended

def Move.count (active : ℕ) : Move → ℕ
  | .load | .panic | .closeTunnel => active
  | .fetchAdd => active + 1
  | .fetchSub _ => active - 1

/-- The counter, the tasks and the server. -/
structure State where
  active : ℕ := 0
  tasks : List Task := []
  server : Server := {}

inductive Action where
  | server (a : ServerAction)
  | accept
  | task (i : ℕ) (move : Move)

def step (s : State) : Action → State
  | .server a => { s with server := s.server.step s.active a }
  -- the listeners are aborted when the server stops
  | .accept => if s.server.phase = .stopped then s else { s with tasks := s.tasks ++ [.spawned] }
  | .task i move =>
    if s.tasks[i]? = some move.source then
      { s with
        active := move.count s.active
        tasks := s.tasks.set i (move.target s.server.draining) }
    else s

/-- The state behind any interleaving of steps. -/
def run (actions : List Action) : State := actions.foldl step {}

variable {s : State} {i : ℕ}

lemma active_step (h : s.active = s.tasks.countP Task.counted) (a : Action) :
    (step s a).active = (step s a).tasks.countP Task.counted := by
  cases a with
  | server a => exact h
  | accept =>
    dsimp only [step]
    split
    · exact h
    · simpa [Task.counted] using h
  | task i move =>
    dsimp only [step]
    split
    · next htask =>
      obtain ⟨hi, hget⟩ := List.getElem?_eq_some_iff.mp htask
      have hpos : move.source.counted → 0 < s.tasks.countP Task.counted := fun hcounted =>
        countP_pos_iff.mpr ⟨_, mem_of_getElem? htask, hcounted⟩
      dsimp only
      rw [countP_set hi, hget, h]
      cases move with
      | load => cases s.server.draining <;> rfl
      | fetchAdd => rfl
      | fetchSub upgraded => cases upgraded <;> rfl
      | closeTunnel => rfl
      | panic => exact (Nat.sub_add_cancel (hpos rfl)).symm
    · exact h

lemma draining_server {active : ℕ} {server : Server} (h : server.draining = true)
    (a : ServerAction) : (server.step active a).draining = true := by
  cases a <;> dsimp only [Server.step] <;> (try split) <;> (try split) <;> simp [h]

/-- With the flag up, no task becomes open and the flag stays up. -/
lemma isOpen_step (h : s.server.draining = true) (a : Action) :
    (step s a).server.draining = true ∧
      ((step s a).tasks[i]?.any Task.isOpen → s.tasks[i]?.any Task.isOpen) := by
  cases a with
  | server a => exact ⟨draining_server h a, id⟩
  | accept =>
    dsimp only [step]
    split
    · exact ⟨h, id⟩
    · refine ⟨h, fun hopen => ?_⟩
      rw [getElem?_append, getElem?_singleton] at hopen
      split at hopen
      · exact hopen
      · split at hopen <;> cases hopen
  | task j move =>
    dsimp only [step]
    split
    · next htask =>
      refine ⟨h, fun hopen => ?_⟩
      dsimp only at hopen
      rw [getElem?_set, h] at hopen
      split at hopen
      · next hij =>
        rw [← hij, htask]
        split at hopen
        · cases move with
          | fetchAdd | fetchSub => rfl
          | _ => cases hopen
        · cases hopen
      · exact hopen
    · exact ⟨h, id⟩

lemma isOpen_run (h : s.server.draining = true) (behind : List Action)
    (hopen : (behind.foldl step s).tasks[i]?.any Task.isOpen) :
    s.tasks[i]?.any Task.isOpen := by
  induction behind generalizing s with
  | nil => exact hopen
  | cons a behind ih =>
    obtain ⟨hstill, hback⟩ := isOpen_step h a
    exact hback (ih hstill hopen)

/-- **What a shutdown waits for.** The counter is that of the connections whose own task serves
them and of those whose task has panicked. Once the flag is up, no connection is served later but
those that were open then. And the next look at the counter stops the server exactly if there are
none of the former, or the deadline is over; for a tunnel it does not wait. -/
theorem drain_iff (before behind : List Action) :
    let s := run before
    s.active = s.tasks.countP Task.counted ∧
    (s.server.draining = true → ∀ i : ℕ, (run (before ++ behind)).tasks[i]?.any Task.isOpen →
      s.tasks[i]?.any Task.isOpen) ∧
    ((s.server.step s.active .activeCount).phase = .stopped ↔
      match s.server.phase with
      | .running => False
      | .draining => ∀ task ∈ s.tasks, task.counted = false
      | .waiting deadline => (∀ task ∈ s.tasks, task.counted = false) ∨ deadline ≤ s.server.now
      | .stopped => True) := by
  intro s
  have hactive : s.active = s.tasks.countP Task.counted :=
    foldlRecOn (motive := fun s => s.active = s.tasks.countP Task.counted) before step rfl
      fun _ h a _ => active_step h a
  have hnone : s.active = 0 ↔ ∀ task ∈ s.tasks, task.counted = false := by
    rw [hactive, countP_eq_zero]
    simp
  refine ⟨hactive, fun hdraining i hopen => ?_, ?_⟩
  · rw [run, foldl_append] at hopen
    exact isOpen_run hdraining behind hopen
  · rw [← hnone]
    cases h : s.server.phase with
    | running => simp [Server.step, h]
    | draining => simp [Server.step, h, Nat.pos_iff_ne_zero]
    | waiting deadline => simp [Server.step, h, apply_ite Server.phase, or_iff_not_imp_left]
    | stopped => simp [Server.step, h]

end TrafficCop.Connections
