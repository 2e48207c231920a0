import TrafficCop.Store.NodeKey

/-!
# Draining a node from another node

`AdminApi::start_drain` and `AdminApi::drain_node` (`admin/api.rs`) over `start_drain` and the drain
listener of `ClusterManager` (`cluster/manager.rs`), for any number of nodes with one `ValkeyStore`.
The commands are those of `Store.NodeKey`, and everything interleaves. A listener may also miss
events (`lag`).

A node is one process with a `ClusterManager`; a restart makes a new process.
-/

namespace TrafficCop

open Function

namespace Drain

open Rust Store Transition

/-! ## Requests -/

/-- A call to the store: a request to the admin API of `node`, or another call of a manager, about
the node with this id. -/
inductive Call (ν : Type) where
  | startDrain (node : ν)
  | drainNode (node : ν) (id : Text)
  | other (id : Text) (call : NodeKey.Call)

/-- The answers of the admin API. -/
inductive Response where
  | json (success : Bool) (message nodeId : Text)
  | error (status : UInt16) (message : Text)
  deriving Repr, DecidableEq

namespace Call

variable {ν : Type} (nodeId : ν → Text)

def id : Call ν → Text
  | .startDrain node => nodeId node
  | .drainNode _ id => id
  | .other id _ => id

def stored : Call ν → NodeKey.Call
  | .startDrain _ | .drainNode _ _ => .setStatus .draining
  | .other _ call => call

/-- A drain of the node itself first raises its `is_draining` flag; one of another node only writes
the status. -/
def starts : Call ν → Option ν
  | .startDrain node => some node
  -- "Check if it's this node"
  | .drainNode node id => if nodeId node = id then some node else none
  | .other _ _ => none

/-- The answer to a request, from what `node_set_status` returned. -/
def respond (call : Call ν) (result : Except Text Unit) : Option Response :=
  match call.starts nodeId, call with
  -- `drain_node` for the node itself hands over to `start_drain`
  | some node, _ =>
    match result with
    | .ok () => some (.json true "Drain started" (nodeId node))
    | .error e => some (.error 500
        ("Failed to start drain: " ++ ("Failed to set drain status: " ++ e)))
  | none, .drainNode _ id =>
    match result with
    | .ok () => some (.json true ("Drain initiated for node " ++ id) id)
    | .error e => some (.error 500 ("Failed to drain node: " ++ e))
  | none, _ => none

end Call

/-- The last command of a status write publishes the id to all listeners. -/
def onDrainEvent (nodeId event : Text) : Option Text :=
  if event ≠ nodeId then some ("Node " ++ event ++ " is draining")
  -- an event about the node itself is passed over
  else none

/-! ## States and steps -/

/-- The keys, and for each node its flag, the events on their way to its listener, those received,
and its log. -/
structure State (ν ι : Type) where
  registry : Text → NodeKey.State ι
  begun : ι → Bool
  isDraining : ν → Bool
  inbox : ν → List Text
  received : ν → List Text
  log : ν → List Text

/-- Steps of nodes, of the store and of time. -/
inductive Action (ν ι : Type) where
  | advance (nanos : ℕ)
  /-- The node begins with a call. -/
  | handle (i : ι)
  /-- A command of a call that has begun. -/
  | store (a : NodeKey.Action ι)
  | receive (n : ν)
  | lag (n : ν)

namespace State

variable {ν ι : Type} [DecidableEq ν] [DecidableEq ι] (s : State ν ι)

/-- The key of a node after a command; what is published goes to every node. -/
def written (id : Text) (r : NodeKey.State ι) : State ν ι :=
  { s with
    registry := update s.registry id r
    inbox := fun n =>
      if r.published = (s.registry id).published then s.inbox n else s.inbox n ++ [id] }

/-- `is_draining.store(true)`, which comes before the call to the store. -/
def raise : Option ν → State ν ι
  | some n => { s with isDraining := update s.isDraining n true }
  | none => s

def step (nodeId : ν → Text) (c : ι → Call ν) (s : State ν ι) : Action ν ι → Option (State ν ι)
  | .advance nanos => some { s with
      registry := fun id => { s.registry id with now := (s.registry id).now + nanos } }
  | .handle i =>
    if s.begun i then none
    else some ({ s with begun := update s.begun i true }.raise ((c i).starts nodeId))
  | .store a =>
    match a.call with
    | some i =>
      -- the clock is one for all keys, so time passes with `advance` alone
      if s.begun i then
        (NodeKey.State.step (fun j => (c j).stored) (s.registry ((c i).id nodeId)) a).map
          (s.written ((c i).id nodeId))
      else none
    | none => none
  | .receive n =>
    match s.inbox n with
    | [] => none
    | event :: rest => some { s with
        inbox := update s.inbox n rest
        received := update s.received n (s.received n ++ [event])
        log := update s.log n (s.log n ++ (onDrainEvent (nodeId n) event).toList) }
  | .lag n =>
    match s.inbox n with
    | [] => none
    | _ :: rest => some { s with inbox := update s.inbox n rest }

/-- The admin API's answer to a call, if there is one; `e` is a store error. -/
def response (nodeId : ν → Text) (c : ι → Call ν) (s : State ν ι) (i : ι) (e : Text) :
    Option Response :=
  match (s.registry ((c i).id nodeId)).phase i with
  | .returned true => (c i).respond nodeId (.ok ())
  | .returned false => (c i).respond nodeId (.error e)
  | _ => none

def status (id : Text) : Option NodeStatus :=
  (s.registry id).stored.map NodeInfo.status

variable (nodeId : ν → Text) (c : ι → Call ν)

/-- Some node's `drain_node` has succeeded for `n`, and `n` has received the event. -/
def Delivered (s : State ν ι) (n : ν) : Prop :=
  (∃ i m e message id, c i = .drainNode m (nodeId n) ∧
    s.response nodeId c i e = some (.json true message id)) ∧ nodeId n ∈ s.received n

/-- A node whose drain was answered and has reached it is draining. -/
def TakesEffect (s : State ν ι) (n : ν) : Prop :=
  s.Delivered nodeId c n → s.isDraining n = true

/-! ## Who drains -/

omit [DecidableEq ι] in
lemma raise_isDraining (node : Option ν) (n : ν) :
    (s.raise node).isDraining n ↔ s.isDraining n ∨ node = some n := by
  cases node with
  | none => simp [raise]
  | some m =>
    rw [raise, Option.some_inj]
    by_cases hn : n = m
    · simp [hn]
    · simp [update_of_ne hn, Ne.symm hn]

variable {nodeId c} {s s' t : State ν ι} {n : ν}

/-- Only the handler of a node's own drain raises the flag, and nothing lowers it. -/
lemma step_isDraining {a : Action ν ι} (h : step nodeId c s a = some s') :
    s'.isDraining n ↔ s.isDraining n ∨ ∃ i, a = .handle i ∧ (c i).starts nodeId = some n := by
  -- the flags are not touched by the other four
  have hsame (hflag : s'.isDraining = s.isDraining) (ha : ∀ i, a ≠ .handle i) :
      s'.isDraining n ↔ s.isDraining n ∨ ∃ i, a = .handle i ∧ (c i).starts nodeId = some n := by
    simp [hflag, ha]
  match a with
  | .advance nanos =>
    obtain rfl := Option.some.inj h
    exact hsame rfl (by simp)
  | .handle i =>
    simp only [step, Option.ite_none_left_eq_some, Option.some_inj] at h
    obtain ⟨-, rfl⟩ := h
    rw [raise_isDraining]
    simp
  | .store b =>
    rw [step] at h
    split at h
    · split at h
      · obtain ⟨r, -, rfl⟩ := Option.map_eq_some_iff.mp h
        exact hsame rfl (by simp)
      · cases h
    · cases h
  | .receive m | .lag m =>
    rw [step] at h
    split at h
    · cases h
    · obtain rfl := Option.some.inj h
      exact hsame rfl (by simp)

lemma run_isDraining {as : List (Action ν ι)}
    (hrun : Run (step nodeId c) (fun _ _ => True) s as t) :
    t.isDraining n ↔ s.isDraining n ∨ ∃ i, .handle i ∈ as ∧ (c i).starts nodeId = some n := by
  refine hrun.history (I := fun as t => t.isDraining n = true ↔
    s.isDraining n ∨ ∃ i, .handle i ∈ as ∧ (c i).starts nodeId = some n) (by simp) ?_
  intro as u a u' ih _ hstep
  -- the new step is a handler of its own, or it adds nothing to the list
  rw [step_isDraining hstep, ih, or_assoc, ← exists_or]
  refine or_congr_right (exists_congr fun i => ?_)
  rw [← or_and_right, List.mem_append, List.mem_singleton, eq_comm (a := a)]

/-- **A drain whose event has reached the node takes effect exactly if it, or another one,
was asked for at the node itself.** -/
theorem takesEffect_iff {as : List (Action ν ι)}
    (hrun : Run (step nodeId c) (fun _ _ => True) s as t) (hdelivered : t.Delivered nodeId c n) :
    t.TakesEffect nodeId c n ↔
      s.isDraining n = true ∨ ∃ i, .handle i ∈ as ∧ (c i).starts nodeId = some n := by
  rw [← run_isDraining hrun]
  exact ⟨fun h => h hdelivered, fun h _ => h⟩

end State

def twoNodes : State Bool Unit :=
  { registry := fun id =>
      { now := 0
        key := if id = "b" then
          some (NodeKey.registeredNode, Redis.nanosPerSec * 60) else none
        member := true, published := 0, phase := fun _ => .idle }
    begun := fun _ => false, isDraining := fun _ => false, inbox := fun _ => []
    received := fun _ => [], log := fun _ => [] }

def twoIds (b : Bool) : Text := if b then "b" else "a"

def drainActions : List (Action Bool Unit) :=
  [.handle (), .store (.exec () 5), .store (.exec () 5), .store (.exec () 5), .receive true,
    .receive false]

theorem takesEffect_own_request :
    ∃ t, drainActions.foldlM (State.step twoIds fun _ => .drainNode true "b") twoNodes =
      some t ∧ t.TakesEffect twoIds (fun _ => .drainNode true "b") true := by
  have hrun : ∃ t, Run (State.step twoIds fun _ => .drainNode true "b")
      (fun _ _ => True) twoNodes drainActions t ∧
      t.Delivered twoIds (fun _ => .drainNode true "b") true :=
    ⟨_, .of_foldlM rfl, ⟨(), true, [], _, _, rfl, rfl⟩, by decide⟩
  obtain ⟨t, hrun, hdelivered⟩ := hrun
  exact ⟨t, hrun.foldlM_eq, (State.takesEffect_iff hrun hdelivered).mpr
    (Or.inr ⟨(), by simp [drainActions], rfl⟩)⟩

/-- **A remote drain does not take effect.** Node `a` answers that the drain of `b` is
initiated, the store has `b` as draining and `b` has received the event, but it does not
drain. -/
theorem remote_drain_without_effect :
    ∃ t, drainActions.foldlM (State.step twoIds fun _ => .drainNode false "b") twoNodes =
      some t ∧
      t.response twoIds (fun _ => .drainNode false "b") () [] =
        some (.json true "Drain initiated for node b" "b") ∧
      t.status "b" = some .draining ∧ t.received true = ["b"] ∧
      t.isDraining true = false ∧
      ¬t.TakesEffect twoIds (fun _ => .drainNode false "b") true := by
  refine ⟨_, rfl, rfl, rfl, rfl, rfl, fun h => ?_⟩
  exact absurd (h ⟨⟨(), false, [], _, _, rfl, rfl⟩, by decide⟩) (by decide)

end Drain

end TrafficCop
