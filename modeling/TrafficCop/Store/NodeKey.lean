import TrafficCop.Lib.Transition
import TrafficCop.Store.Basic

/-!
# The registration of a node in Valkey

The calls of `store/valkey.rs` that concern one node: `node_register`, `node_heartbeat`,
`node_set_status`, `node_deregister` and, for this node, `node_list`. They share the key of the
node, and whether its id is in `nodes_set`.

Every call is a sequence of Redis commands that interleave with those of other calls: a step is one
command, or time passing. `serde_json` gives back the `NodeInfo` that was written, so the key holds
the record itself.
-/

namespace TrafficCop

open Option

namespace NodeKey

open Rust Store Transition

/-- The calls that concern one node. -/
inductive Call where
  | register (info : NodeInfo)
  | heartbeat (connections : UInt64)
  | setStatus (status : NodeStatus)
  | deregister
  | list
  deriving Repr, DecidableEq

/-- The commands of a call that have been answered, with what the call does next. -/
inductive Phase where
  | idle
  /-- `SETEX` was answered, `SADD` comes next. -/
  | registering
  /-- `GET` returned this record, `SETEX` comes next. -/
  | holding (info : NodeInfo)
  /-- The status is written, `PUBLISH` comes next. -/
  | notifying
  /-- `DEL` was answered, `SREM` comes next. -/
  | deregistering
  /-- `SMEMBERS` had the id, `GET` comes next. -/
  | listed
  /-- `GET` found no key, `SREM` comes next. -/
  | stale
  | returned (ok : Bool)
  deriving Repr, DecidableEq

/-- The clock (in nanoseconds), the key with its end, whether the id is in `nodes_set`, how
many drain events were published for the node, and the calls. -/
structure State (ι : Type) where
  now : ℕ
  key : Option (NodeInfo × ℕ)
  member : Bool
  published : ℕ
  phase : ι → Phase

/-- A command can fail, or be carried out although the caller gets an error; the call then returns
an error, except that `node_list` ignores its `SREM`. -/
inductive Action (ι : Type) where
  | advance (nanos : ℕ)
  /-- The next command of a call, at this time of day. -/
  | exec (i : ι) (wallMillis : UInt64)
  | fail (i : ι)
  | lose (i : ι) (wallMillis : UInt64)
  deriving Repr, DecidableEq

def Action.call {ι : Type} : Action ι → Option ι
  | .advance _ => none
  | .exec i _ | .fail i | .lose i _ => some i

namespace State

variable {ι : Type}

/-- `GET`: the record, unless the key has expired. -/
def stored (s : State ι) : Option NodeInfo :=
  match s.key with
  | some (info, expires) => if s.now < expires then some info else none
  | none => none

/-- `SETEX key info 60`. -/
def setEx (s : State ι) (info : NodeInfo) : State ι :=
  { s with key := some (info, s.now + Redis.nanosPerSec * 60) }

variable [DecidableEq ι]

def setPhase (s : State ι) (i : ι) (phase : Phase) : State ι :=
  { s with phase := Function.update s.phase i phase }

/-- The `GET` of a heartbeat or a status change. -/
def read (s : State ι) (i : ι) : State ι :=
  match s.stored with
  | some info => s.setPhase i (.holding info)
  -- without a key there is nothing to do, and that is no error
  | none => s.setPhase i (.returned true)

/-- The key expires 60 seconds after it was written. -/
def command (s : State ι) (call : Call) (i : ι) (wallMillis : UInt64) : Option (State ι) :=
  match call with
  | .register info =>
    match s.phase i with
    | .idle => some ((s.setEx info).setPhase i .registering)
    | .registering => some ({ s with member := true }.setPhase i (.returned true))
    | _ => none
  | .heartbeat connections =>
    match s.phase i with
    | .idle => some (s.read i)
    | .holding info =>
      some ((s.setEx { info with lastHeartbeat := wallMillis, activeConnections := connections
        }).setPhase i (.returned true))
    | _ => none
  | .setStatus status =>
    match s.phase i with
    | .idle => some (s.read i)
    | .holding info =>
      some ((s.setEx { info with status, lastHeartbeat := wallMillis }).setPhase i
        (if status = .draining then .notifying else .returned true))
    | .notifying => some ({ s with published := s.published + 1 }.setPhase i (.returned true))
    | _ => none
  | .deregister =>
    match s.phase i with
    | .idle => some ({ s with key := none }.setPhase i .deregistering)
    | .deregistering => some ({ s with member := false }.setPhase i (.returned true))
    | _ => none
  | .list =>
    match s.phase i with
    | .idle => some (s.setPhase i (if s.member then .listed else .returned true))
    | .listed => some (s.setPhase i (if s.stored.isSome then .returned true else .stale))
    -- "Remove stale node from set"
    | .stale => some ({ s with member := false }.setPhase i (.returned true))
    | _ => none

/-- What a call returns when the command at hand fails. -/
def failed (call : Call) (phase : Phase) : Phase :=
  match call, phase with
  -- the result of this `SREM` is dropped with `.ok()`
  | .list, .stale => .returned true
  | _, _ => .returned false

/-- One step, for calls `c`; `none` where the call is not at a command. -/
def step (c : ι → Call) (s : State ι) : Action ι → Option (State ι)
  | .advance nanos => some { s with now := s.now + nanos }
  | .exec i wallMillis => s.command (c i) i wallMillis
  | .fail i =>
    match s.phase i with
    | .returned _ => none
    | phase => some (s.setPhase i (failed (c i) phase))
  | .lose i wallMillis =>
    (s.command (c i) i wallMillis).map (·.setPhase i (failed (c i) (s.phase i)))

@[simp] lemma setPhase_phase_self (s : State ι) (i : ι) (phase : Phase) :
    (s.setPhase i phase).phase i = phase := Function.update_self _ _ _

lemma setPhase_phase_of_ne (s : State ι) {i j : ι} (hj : j ≠ i) (phase : Phase) :
    (s.setPhase i phase).phase j = s.phase j := Function.update_of_ne hj _ _

@[simp] lemma setPhase_stored (s : State ι) (i : ι) (phase : Phase) :
    (s.setPhase i phase).stored = s.stored := rfl

@[simp] lemma setPhase_member (s : State ι) (i : ι) (phase : Phase) :
    (s.setPhase i phase).member = s.member := rfl

omit [DecidableEq ι] in
@[simp] lemma setEx_stored (s : State ι) (info : NodeInfo) :
    (s.setEx info).stored = some info := by
  rw [stored, setEx]
  exact if_pos (Nat.lt_add_of_pos_right (by decide))

/-- The commands one by one. -/
inductive Did (s : State ι) (i : ι) (wallMillis : UInt64) : Call → State ι → Prop
  | setRegistration {info} (hphase : s.phase i = .idle) :
      Did s i wallMillis (.register info) ((s.setEx info).setPhase i .registering)
  | addMember {info} (hphase : s.phase i = .registering) :
      Did s i wallMillis (.register info) ({ s with member := true }.setPhase i (.returned true))
  | read {call info} (hcall : (∃ n, call = .heartbeat n) ∨ ∃ status, call = .setStatus status)
      (hphase : s.phase i = .idle) (hstored : s.stored = some info) :
      Did s i wallMillis call (s.setPhase i (.holding info))
  | readNothing {call} (hcall : (∃ n, call = .heartbeat n) ∨ ∃ status, call = .setStatus status)
      (hphase : s.phase i = .idle) (hstored : s.stored = none) :
      Did s i wallMillis call (s.setPhase i (.returned true))
  | writeHeartbeat {connections info} (hphase : s.phase i = .holding info) :
      Did s i wallMillis (.heartbeat connections) ((s.setEx { info with
        lastHeartbeat := wallMillis, activeConnections := connections }).setPhase i
          (.returned true))
  | writeStatus {status info} (hphase : s.phase i = .holding info) :
      Did s i wallMillis (.setStatus status)
        ((s.setEx { info with status, lastHeartbeat := wallMillis }).setPhase i
          (if status = .draining then .notifying else .returned true))
  | publish {status} (hphase : s.phase i = .notifying) :
      Did s i wallMillis (.setStatus status)
        ({ s with published := s.published + 1 }.setPhase i (.returned true))
  | delete (hphase : s.phase i = .idle) :
      Did s i wallMillis .deregister ({ s with key := none }.setPhase i .deregistering)
  | removeSelf (hphase : s.phase i = .deregistering) :
      Did s i wallMillis .deregister ({ s with member := false }.setPhase i (.returned true))
  | members (hphase : s.phase i = .idle) :
      Did s i wallMillis .list (s.setPhase i (if s.member then .listed else .returned true))
  | lookUp (hphase : s.phase i = .listed) :
      Did s i wallMillis .list
        (s.setPhase i (if s.stored.isSome then .returned true else .stale))
  | removeStale (hphase : s.phase i = .stale) :
      Did s i wallMillis .list ({ s with member := false }.setPhase i (.returned true))

variable {s s' : State ι} {call : Call} {i : ι} {wallMillis : UInt64}

lemma did_read (hcall : (∃ n, call = .heartbeat n) ∨ ∃ status, call = .setStatus status)
    (hphase : s.phase i = .idle) : Did s i wallMillis call (s.read i) := by
  rw [read]
  split
  · next info hstored => exact .read hcall hphase hstored
  · next hstored => exact .readNothing hcall hphase hstored

lemma did_of_command (h : s.command call i wallMillis = some s') :
    Did s i wallMillis call s' := by
  match call with
  | .register info =>
    simp only [command] at h
    split at h
    · next hphase => exact some.inj h ▸ .setRegistration hphase
    · next hphase => exact some.inj h ▸ .addMember hphase
    · cases h
  | .heartbeat n =>
    simp only [command] at h
    split at h
    · next hphase => exact some.inj h ▸ did_read (Or.inl ⟨n, rfl⟩) hphase
    · next hphase => exact some.inj h ▸ .writeHeartbeat hphase
    · cases h
  | .setStatus status =>
    simp only [command] at h
    split at h
    · next hphase => exact some.inj h ▸ did_read (Or.inr ⟨status, rfl⟩) hphase
    · next hphase => exact some.inj h ▸ .writeStatus hphase
    · next hphase => exact some.inj h ▸ .publish hphase
    · cases h
  | .deregister =>
    simp only [command] at h
    split at h
    · next hphase => exact some.inj h ▸ .delete hphase
    · next hphase => exact some.inj h ▸ .removeSelf hphase
    · cases h
  | .list =>
    simp only [command] at h
    split at h
    · next hphase => exact some.inj h ▸ .members hphase
    · next hphase => exact some.inj h ▸ .lookUp hphase
    · next hphase => exact some.inj h ▸ .removeStale hphase
    · cases h

lemma Did.phase_of_ne (h : Did s i wallMillis call s') {j : ι} (hj : j ≠ i) :
    s'.phase j = s.phase j := by
  cases h <;> exact setPhase_phase_of_ne _ hj _

lemma Did.not_returned (h : Did s i wallMillis call s') (ok : Bool) :
    s.phase i ≠ .returned ok := by
  cases h <;> simp_all

variable {c : ι → Call} {a : Action ι} {j : ι}

lemma step_phase (h : step c s a = some s') (hj : a.call ≠ some j) : s'.phase j = s.phase j := by
  have hne : ∀ {i}, a.call = some i → j ≠ i := by
    rintro i hi rfl
    exact hj hi
  match a with
  | .advance nanos =>
    obtain rfl := some.inj h
    rfl
  | .exec i wallMillis => exact (did_of_command h).phase_of_ne (hne rfl)
  | .fail i =>
    rw [step] at h
    split at h
    · cases h
    · obtain rfl := some.inj h
      exact setPhase_phase_of_ne _ (hne rfl) _
  | .lose i wallMillis =>
    obtain ⟨u, hu, rfl⟩ := map_eq_some_iff.mp h
    rw [setPhase_phase_of_ne _ (hne rfl), (did_of_command hu).phase_of_ne (hne rfl)]

lemma step_returned (h : step c s a = some s') {ok : Bool} (hj : s.phase j = .returned ok) :
    s'.phase j = .returned ok := by
  refine (step_phase h ?_).trans hj
  -- a call that has returned takes no step
  intro hcall
  match a with
  | .advance _ => cases hcall
  | .exec i _ =>
    obtain rfl := some.inj hcall
    exact (did_of_command h).not_returned ok hj
  | .fail i =>
    obtain rfl := some.inj hcall
    simp [step, hj] at h
  | .lose i _ =>
    obtain rfl := some.inj hcall
    obtain ⟨u, hu, -⟩ := map_eq_some_iff.mp h
    exact (did_of_command hu).not_returned ok hj

end State

def registeredNode : NodeInfo :=
  { nodeId := "b", address := "10.0.0.2:8080", status := .active
    activeConnections := 0, lastHeartbeat := 0, startedAt := 0, version := "0.1.0" }

end NodeKey

end TrafficCop
