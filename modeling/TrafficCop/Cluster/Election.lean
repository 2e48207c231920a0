import TrafficCop.Lib.Transition
import TrafficCop.Rust.Text

/-!
# Leader election

The election task and the shutdown of `ClusterManager` (`cluster/manager.rs`) against one store with
the two scripts of `store/valkey.rs`. Nodes, the store and the clock take their steps in any order.

The lease of a leader can run out, or be released by `shutdown`, while its flag is still up.
-/

namespace TrafficCop

open Option

namespace Election

open Rust Transition

/-! ## States and steps -/

/-- Where the election task is. An answer is the store's, or `none` for an error. -/
inductive Task where
  | waiting
  | asking
  | answered (reply : Option Bool)
  | stopped
  deriving Repr, DecidableEq

/-- The part of `ClusterManager` in the election. `abandoned` counts requests that the node has
given up and the store may still run. -/
structure Node where
  isLeader : Bool := false
  task : Task := .waiting
  signalled : Bool := false
  releasing : Bool := false
  abandoned : Nat := 0
  deriving Repr, DecidableEq

/-- The nodes' names and the number of seconds of a lease (`ttl.as_secs()`). -/
structure Cluster (ν : Type) where
  nodeId : ν → Text
  ttl : Nat

/-- The store's clock (in milliseconds) and key, and the nodes. -/
structure State (ν : Type) where
  now : Nat
  lease : Option (Text × Nat)
  nodes : ν → Node

/-- A request is on its way until the store runs the script, and its answer until the node gets it;
either may be lost, and then the node gets an error. -/
inductive Action (ν : Type) where
  | advance (millis : Nat)
  | tick (i : ν)
  | apply (i : ν)
  | fail (i : ν)
  | applyAbandoned (i : ν)
  | reply (i : ν)
  | shutdown (i : ν)
  | applyRelease (i : ν)
  | failRelease (i : ν)
  | stop (i : ν)
  deriving Repr, DecidableEq

namespace State

variable {ν : Type}

def init : State ν := ⟨0, none, fun _ => {}⟩

/-- `redis.call('GET', key)`: a lease that has run out is not seen. -/
def holder (s : State ν) : Option Text :=
  match s.lease with
  | some (id, expires) => if s.now < expires then some id else none
  | none => none

/-- `LEADER_ACQUIRE_SCRIPT`: the answer and the lease. An expiry of 0 seconds is rejected. -/
def acquire (c : Cluster ν) (s : State ν) (i : ν) : Option Bool × Option (Text × Nat) :=
  if s.holder = none ∨ s.holder = some (c.nodeId i) then
    if c.ttl = 0 then (none, s.lease) else (some true, some (c.nodeId i, s.now + c.ttl * 1000))
  else (some false, s.lease)

/-- `LEADER_RELEASE_SCRIPT`. -/
def release (c : Cluster ν) (s : State ν) (i : ν) : Option (Text × Nat) :=
  if s.holder = some (c.nodeId i) then none else s.lease

variable [DecidableEq ν]

def setNode (s : State ν) (i : ν) (node : Node) : State ν :=
  { s with nodes := Function.update s.nodes i node }

def step (c : Cluster ν) (s : State ν) : Action ν → Option (State ν)
  | .advance millis => some { s with now := s.now + millis }
  -- `interval_timer.tick()`: the task sends a request and waits for it
  | .tick i =>
    if (s.nodes i).task = .waiting then some (s.setNode i { s.nodes i with task := .asking })
    else none
  | .apply i =>
    if (s.nodes i).task = .asking then
      some { s.setNode i { s.nodes i with task := .answered (s.acquire c i).1 } with
        lease := (s.acquire c i).2 }
    else none
  -- the request or its answer is lost; the node gets an error
  | .fail i =>
    match (s.nodes i).task with
    | .asking => some (s.setNode i { s.nodes i with
        task := .answered none, abandoned := (s.nodes i).abandoned + 1 })
    | .answered _ => some (s.setNode i { s.nodes i with task := .answered none })
    | _ => none
  | .applyAbandoned i =>
    if (s.nodes i).abandoned = 0 then none
    else some { s.setNode i { s.nodes i with abandoned := (s.nodes i).abandoned - 1 } with
      lease := (s.acquire c i).2 }
  -- `is_leader.swap(acquired)`, or `is_leader.store(false)` on an error
  | .reply i =>
    match (s.nodes i).task with
    | .answered reply => some (s.setNode i { s.nodes i with
        isLeader := reply.getD false, task := .waiting })
    | _ => none
  -- the signal is sent, and the lease is released if the flag is up; the flag stays
  | .shutdown i => some (s.setNode i { s.nodes i with
      signalled := true, releasing := (s.nodes i).releasing || (s.nodes i).isLeader })
  | .applyRelease i =>
    if (s.nodes i).releasing then
      some { s.setNode i { s.nodes i with releasing := false } with lease := s.release c i }
    else none
  | .failRelease i =>
    if (s.nodes i).releasing then some (s.setNode i { s.nodes i with releasing := false })
    else none
  -- `shutdown_rx.recv()`
  | .stop i =>
    if (s.nodes i).task = .waiting ∧ (s.nodes i).signalled = true then
      some (s.setNode i { s.nodes i with task := .stopped })
    else none

/-- A flag that only an answer changes. -/
def isHealthCheckLeader (s : State ν) (i : ν) : Bool := (s.nodes i).isLeader

/-! ## Who holds the lease -/

/-- A node that reports leadership, or will when the answer arrives. -/
def Claims (s : State ν) (i : ν) : Prop :=
  s.isHealthCheckLeader i = true ∨ (s.nodes i).task = .answered (some true)

/-- Nothing takes the lease from a node that claims it: it does not run out, and no release of that
node's reaches the store. -/
def Undisturbed (c : Cluster ν) (s : State ν) : Action ν → Prop
  | .advance millis => ∀ i expires, s.Claims i → s.lease = some (c.nodeId i, expires) →
      s.now + millis < expires
  | .applyRelease i => ¬s.Claims i
  | _ => True

/-- Whoever claims to lead holds a lease that runs. -/
def Backed (c : Cluster ν) (s : State ν) : Prop :=
  ∀ i, s.Claims i → ∃ expires, s.lease = some (c.nodeId i, expires) ∧ s.now < expires

variable {c : Cluster ν} {s : State ν} {i j : ν}

omit [DecidableEq ν] in
lemma holder_eq {id : Text} {expires : Nat} (hlease : s.lease = some (id, expires))
    (hnow : s.now < expires) : s.holder = some id := by
  rw [holder, hlease]
  exact if_pos hnow

omit [DecidableEq ν] in
lemma acquire_keeps (hinj : Function.Injective c.nodeId) (hbacked : s.Backed c)
    (hclaims : s.Claims j) :
    ∃ expires, (s.acquire c i).2 = some (c.nodeId j, expires) ∧ s.now < expires := by
  obtain ⟨expires, hlease, hnow⟩ := hbacked j hclaims
  rw [acquire]
  split
  · next hfree =>
    -- the lease is taken, so it can only be the asking node's own
    rw [holder_eq hlease hnow] at hfree
    have hsame : j = i := hinj (by simpa using hfree)
    split
    · exact ⟨expires, hlease, hnow⟩
    · next httl => exact ⟨_, by rw [hsame], by omega⟩
  · exact ⟨expires, hlease, hnow⟩

omit [DecidableEq ν] in
lemma acquire_granted (h : (s.acquire c i).1 = some true) :
    ∃ expires, (s.acquire c i).2 = some (c.nodeId i, expires) ∧ s.now < expires := by
  rw [acquire] at h ⊢
  split at h
  · next hfree =>
    rw [if_pos hfree]
    split at h
    · cases h
    · next httl =>
      rw [if_neg httl]
      exact ⟨_, rfl, by omega⟩
  · cases h

variable {node : Node}

lemma claims_setNode (h : (s.setNode i node).Claims j) :
    (j = i ∧ (node.isLeader ∨ node.task = .answered (some true))) ∨ j ≠ i ∧ s.Claims j := by
  by_cases hij : j = i
  · subst hij
    exact .inl ⟨rfl, by simpa [Claims, isHealthCheckLeader, State.setNode] using h⟩
  · exact .inr ⟨hij, by
      simpa [Claims, isHealthCheckLeader, State.setNode, Function.update_of_ne hij] using h⟩

lemma claims_of_setNode (h : (s.setNode i node).Claims j)
    (hnode : node.isLeader ∨ node.task = .answered (some true) → s.Claims i) :
    s.Claims j := by
  rcases claims_setNode h with ⟨rfl, hnew⟩ | ⟨-, hold⟩
  · exact hnode hnew
  · exact hold

lemma Backed.setNode (hbacked : s.Backed c)
    (hnode : node.isLeader ∨ node.task = .answered (some true) → s.Claims i) :
    (s.setNode i node).Backed c :=
  fun j hclaims => hbacked j (claims_of_setNode hclaims hnode)

lemma Backed.setNode_of_ne (hbacked : s.Backed c)
    (hleader : node.isLeader = (s.nodes i).isLeader) (htask : node.task ≠ .answered (some true)) :
    (s.setNode i node).Backed c := by
  refine hbacked.setNode ?_
  rintro (hnode | hnode)
  · exact .inl (hleader.symm.trans hnode)
  · exact absurd hnode htask

/-- **Steps keep claims backed**, unless they take the lease from under a claim. -/
theorem step_backed (hinj : Function.Injective c.nodeId) {a : Action ν} {s' : State ν}
    (hbacked : s.Backed c) (hallowed : s.Undisturbed c a) (hstep : s.step c a = some s') :
    s'.Backed c := by
  cases a with
  | advance millis =>
    cases hstep
    intro j hclaims
    obtain ⟨expires, hlease, -⟩ := hbacked j hclaims
    exact ⟨expires, hlease, hallowed j expires hclaims hlease⟩
  | tick i =>
    obtain ⟨-, hstep⟩ := ite_none_right_eq_some.mp hstep
    cases hstep
    exact hbacked.setNode_of_ne rfl (by simp)
  | apply i =>
    obtain ⟨-, hstep⟩ := ite_none_right_eq_some.mp hstep
    cases hstep
    intro j hclaims
    rcases claims_setNode hclaims with ⟨rfl, hleader | hgranted⟩ | ⟨-, hold⟩
    · exact acquire_keeps hinj hbacked (.inl hleader)
    · exact acquire_granted (Task.answered.inj hgranted)
    · exact acquire_keeps hinj hbacked hold
  | fail i =>
    simp only [step] at hstep
    split at hstep
    · cases hstep
      exact hbacked.setNode_of_ne rfl (by simp)
    · cases hstep
      exact hbacked.setNode_of_ne rfl (by simp)
    · cases hstep
  | applyAbandoned i =>
    obtain ⟨-, hstep⟩ := ite_none_left_eq_some.mp hstep
    cases hstep
    -- nobody hears the answer, but the script may renew the lease
    intro j hclaims
    exact acquire_keeps hinj hbacked (claims_of_setNode hclaims id)
  | reply i =>
    simp only [step] at hstep
    split at hstep
    · next reply htask =>
      cases hstep
      refine hbacked.setNode ?_
      rintro (hleader | htask')
      · -- the flag goes up with a granting answer only
        cases reply with
        | none => cases hleader
        | some acquired =>
          cases hleader
          exact .inr htask
      · cases htask'
    · cases hstep
  | shutdown i =>
    cases hstep
    exact hbacked.setNode id
  | applyRelease i =>
    obtain ⟨-, hstep⟩ := ite_none_right_eq_some.mp hstep
    cases hstep
    intro j hclaims
    have hold : s.Claims j := claims_of_setNode hclaims id
    obtain ⟨expires, hlease, hnow⟩ := hbacked j hold
    -- the releasing node is not the holder, since that one still claims
    have hother : ¬s.holder = some (c.nodeId i) := by
      rw [holder_eq hlease hnow]
      intro heq
      have hsame : j = i := hinj (Option.some.inj heq)
      exact hallowed (hsame ▸ hold)
    refine ⟨expires, ?_, hnow⟩
    show s.release c i = _
    rw [release, if_neg hother, hlease]
  | failRelease i =>
    obtain ⟨-, hstep⟩ := ite_none_right_eq_some.mp hstep
    cases hstep
    exact hbacked.setNode id
  | stop i =>
    obtain ⟨-, hstep⟩ := ite_none_right_eq_some.mp hstep
    cases hstep
    exact hbacked.setNode_of_ne rfl (by simp)

omit [DecidableEq ν] in
lemma backed_init (c : Cluster ν) : (init : State ν).Backed c := by
  rintro i (hleader | htask)
  · cases hleader
  · cases htask

end State

variable {ν : Type} [DecidableEq ν]

/-- **One leader at most**, in every state of every run in which no lease is taken away from
under its holder. -/
theorem leader_unique {c : Cluster ν} (hinj : Function.Injective c.nodeId) {as : List (Action ν)}
    {s : State ν} (hrun : Run (State.step c) (State.Undisturbed c) State.init as s) {i j : ν}
    (hi : s.isHealthCheckLeader i = true) (hj : s.isHealthCheckLeader j = true) : i = j := by
  have hbacked : s.Backed c := hrun.invariant (State.backed_init c)
    fun _ _ _ hbacked hallowed hstep => State.step_backed hinj hbacked hallowed hstep
  obtain ⟨_, hleasei, -⟩ := hbacked i (.inl hi)
  obtain ⟨_, hleasej, -⟩ := hbacked j (.inl hj)
  rw [hleasei] at hleasej
  exact hinj (Prod.mk.inj (Option.some.inj hleasej)).1

def twoNodes : Cluster Bool := ⟨fun i => if i then "b" else "a", 30⟩

def elect (i : Bool) : List (Action Bool) := [.tick i, .apply i, .reply i]

/-- While node `a` leads, node `b` is told that it does not. -/
theorem leader_unique_two :
    ∃ s : State Bool, Run (State.step twoNodes) (State.Undisturbed twoNodes) State.init
        (elect false ++ elect true) s ∧
      s.isHealthCheckLeader false = true ∧
      ∀ i, s.isHealthCheckLeader i = true → i = false := by
  have hinj : Function.Injective twoNodes.nodeId := by
    intro i j h
    cases i <;> cases j <;> simp [twoNodes] at h ⊢
  have hrun : ∃ s, Run (State.step twoNodes) (State.Undisturbed twoNodes) State.init
      (elect false ++ elect true) s ∧ s.isHealthCheckLeader false :=
    ⟨_, .cons trivial rfl (.cons trivial rfl (.cons trivial rfl (.cons trivial rfl
      (.cons trivial rfl (.cons trivial rfl .refl))))), rfl⟩
  obtain ⟨s, hrun, hfirst⟩ := hrun
  exact ⟨s, hrun, hfirst, fun i hi => leader_unique hinj hrun hi hfirst⟩

/-- Two leaders: after a shutdown, which releases the lease and leaves the flag up, and after
a lease has run out before the holder's next answer. -/
theorem two_leaders :
    (∃ s : State Bool, Run (State.step twoNodes) (fun _ _ => True) State.init
        (elect false ++ [.shutdown false, .applyRelease false] ++ elect true) s ∧
      s.isHealthCheckLeader false = true ∧ s.isHealthCheckLeader true = true) ∧
    ∃ s : State Bool, Run (State.step twoNodes) (fun _ _ => True) State.init
        (elect false ++ [.advance 30000] ++ elect true) s ∧
      s.isHealthCheckLeader false = true ∧ s.isHealthCheckLeader true = true :=
  ⟨⟨_, .of_foldlM rfl, rfl, rfl⟩, _, .of_foldlM rfl, rfl, rfl⟩

end Election

end TrafficCop
