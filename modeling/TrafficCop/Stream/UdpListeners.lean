import TrafficCop.Stream.UdpProxy

/-!
# The listeners of UDP sessions

The runs of a `UdpProxy`, with for which session's socket a listener was started, since when a task
waits, and what was handled for which socket.
-/

namespace TrafficCop

open Rust Transition List Option HashMap

namespace UdpProxy

/-! ## Traces -/

def UdpTask.client {Ip : Type} : UdpTask Ip → SocketAddr Ip
  | .handle client _ | .bind client _ _ _ | .forward client _ _ _ _ | .listen client _
  | .check client _ _ | .receive client _ _ | .respond client _ _ _ _ | .leave client => client

def UdpTask.spawned {Ip : Type} : UdpTask Ip → Option ℕ
  | .listen _ socket => some socket
  | _ => none

def UdpTask.pending {Ip : Type} : UdpTask Ip → Option ℕ
  | .forward _ _ _ socket true => some socket
  | _ => none

/-- A spawned listener is running until it has removed the session, so `leave` still counts. -/
def UdpTask.isListener {Ip : Type} : UdpTask Ip → Bool
  | .handle .. | .bind .. | .forward .. => false
  | .listen .. | .check .. | .receive .. | .respond .. | .leave .. => true

/-- The tasks that store a session next. -/
def UdpTask.isStoring {Ip : Type} : UdpTask Ip → Bool
  | .bind .. => true
  | _ => false

/-- A task, the socket it was started for if a listener, since when it waits, and whether its last
wait timed out. -/
structure Traced (Ip : Type) where
  task : UdpTask Ip
  startedFor : Option ℕ
  since : ℕ
  timedOut : Bool
  deriving DecidableEq

/-- A state with its tasks traced; `handled` has the sockets served, and when. -/
structure Trace (Ip : Type) where
  state : State Ip
  tasks : List (Traced Ip)
  handled : List (ℕ × ℕ)

def Trace.plain {Ip : Type} (w : Trace Ip) : State Ip :=
  { w.state with tasks := w.tasks.map Traced.task }

def Input.isTimedOut {Ip : Type} : Input Ip → Bool
  | .timedOut => true
  | _ => false

/-- A task behind another one, from an instant on. -/
def Traced.next {Ip : Type} (t : Traced Ip) (input : Input Ip) (now : ℕ) (task : UdpTask Ip) :
    Traced Ip where
  task := task
  startedFor := task.spawned.or t.startedFor
  since := now
  timedOut := input.isTimedOut

section Code

variable {Net Ip : Type} [IpCrate Net Ip] [DecidableEq Ip] (proxy : UdpProxy Net Ip)

/-- The session's socket a datagram is handled for: of the client, or of a sender at it. -/
def handledFor (s : State Ip) : UdpTask Ip → Input Ip → Option ℕ
  | .handle client _, .done => (s.sessions.get client).map UdpSession.backendSocket
  | .bind .., .done => some s.nextSocket
  | .receive _ socket _, .received .. => some socket
  | _, _ => none

/-- None of what is traced has an influence: sessions are found by the client's address alone. -/
def tracedStep (w : Trace Ip) : Action Ip → Option (Trace Ip)
  | .datagram client data =>
    some { w with tasks := w.tasks ++ [⟨.handle client data, none, w.state.now, false⟩] }
  | .proceed idx input =>
    w.tasks[idx]?.bind fun t => (proxy.advance w.plain t.task input).map fun r =>
      { state := { r.1 with tasks := [] }
        tasks := w.tasks.eraseIdx idx ++ r.2.map (t.next input w.state.now)
        handled := w.handled ++
          (handledFor w.plain t.task input).toList.map fun socket => (socket, w.state.now) }
  | .tick d =>
    (proxy.step w.plain (.tick d)).map fun s => { w with state := { s with tasks := [] } }
  | .collect =>
    (proxy.step w.plain .collect).map fun s => { w with state := { s with tasks := [] } }
  | .expire => (proxy.step w.plain .expire).map fun s => { w with state := { s with tasks := [] } }

variable (Ip) in
def traceStart (servers : Text → Option (List UdpBackendServer)) : Trace Ip :=
  ⟨start Ip servers, [], []⟩

/-- `tokio::time::timeout`: a wait ends when it has lasted as long as a session may. -/
def Timely (w : Trace Ip) : Action Ip → Prop
  | .proceed idx .timedOut =>
    ∀ t, w.tasks[idx]? = some t → t.since + proxy.sessionTimeout ≤ w.state.now
  | _ => True

lemma plain_step (w : Trace Ip) (a : Action Ip) :
    (proxy.tracedStep w a).map Trace.plain = proxy.step w.plain a := by
  cases a with
  | datagram client data =>
    rw [tracedStep, step, map_some]
    simp [Trace.plain]
  | proceed idx input =>
    rw [tracedStep, step]
    cases htask : w.tasks[idx]? with
    | none => simp [Trace.plain, htask]
    | some t =>
      have hplain : w.plain.tasks[idx]? = some t.task := by simp [Trace.plain, htask]
      rw [hplain, Option.bind_some, Option.bind_some, Option.map_map]
      cases proxy.advance w.plain t.task input with
      | none => rfl
      | some r =>
        have hnext : r.2.map (Traced.task ∘ t.next input w.state.now) = r.2 :=
          (map_congr_left fun _ _ => rfl).trans (map_id r.2)
        simp [Trace.plain, eraseIdx_map, hnext]
  | tick d => rfl
  | collect => rfl
  | expire =>
    rw [tracedStep, Option.map_map, step]
    cases hexpired : w.plain.expired with
    | nil => rfl
    | cons client expired => rfl

end Code

/-! ## What a task does to the sessions -/

section Effect

variable {Net Ip : Type} [IpCrate Net Ip] [DecidableEq Ip] {proxy : UdpProxy Net Ip}

def sessionSocket (s : State Ip) (client : SocketAddr Ip) : Option ℕ :=
  (s.sessions.get client).map UdpSession.backendSocket

/-- What a task that goes on does to the sessions, and where it waits next. -/
inductive Effect (s : State Ip) : UdpTask Ip → Input Ip → State Ip → List (UdpTask Ip) → Prop where
  /-- A session with a new socket. -/
  | store {client data backend service} {s' : State Ip} (hsocket : s'.nextSocket = s.nextSocket + 1)
      (hsessions : ∀ c, sessionSocket s' c =
        if c = client then some s.nextSocket else sessionSocket s c) :
      Effect s (.bind client data backend service) .done s'
        [.forward client data backend s.nextSocket true]
  /-- The listener of a session. -/
  | spawn {client data backend socket} {s' : State Ip} (hsocket : s'.nextSocket = s.nextSocket)
      (hsessions : ∀ c, sessionSocket s' c = sessionSocket s c) :
      Effect s (.forward client data backend socket true) .done s' [.listen client socket]
  /-- The end of a listener. -/
  | leave {client} {s' : State Ip} (hsocket : s'.nextSocket = s.nextSocket)
      (hsessions : ∀ c, sessionSocket s' c = if c = client then none else sessionSocket s c) :
      Effect s (.leave client) .done s' []
  /-- Anything that ends a task, -/
  | stop {task input} {s' : State Ip} (hsocket : s'.nextSocket = s.nextSocket)
      (hsessions : ∀ c, sessionSocket s' c = sessionSocket s c)
      (hdone : input = .done → task.pending = none ∧ task.isStoring = false) :
      Effect s task input s' []
  /-- or lets it go on as the same one. -/
  | goOn {task task' input} {s' : State Ip} (hsocket : s.nextSocket ≤ s'.nextSocket)
      (hsessions : ∀ c, sessionSocket s' c = sessionSocket s c)
      (hclient : task'.client = task.client) (hlistener : task'.isListener = task.isListener)
      (hstoring : task.isStoring = false) (hpending : task.pending = none)
      (hpending' : task'.pending = none) (hspawned : task'.spawned = none) :
      Effect s task input s' [task']

lemma sessionSocket_touch (s : State Ip) (client c : SocketAddr Ip) :
    sessionSocket (touch s client) c = sessionSocket s c := by
  rw [touch]
  split
  · next session hsession =>
    show ((s.sessions.insert client _).get c).map _ = _
    rw [get_insert]
    split
    · next heq =>
      rw [sessionSocket, heq, hsession]
      rfl
    · rfl
  · rfl

lemma nextSocket_touch (s : State Ip) (client : SocketAddr Ip) :
    (touch s client).nextSocket = s.nextSocket := by
  rw [touch]
  split <;> rfl

variable {s s' : State Ip} {task : UdpTask Ip} {next : List (UdpTask Ip)}

lemma effect_of_advance {input : Input Ip} (h : proxy.advance s task input = some (s', next)) :
    Effect s task input { s' with tasks := [] } next := by
  revert h
  fun_cases proxy.advance s task input <;> intro h <;> cases h
  -- a datagram is handled
  case case1 client _ _ _ =>
    exact .goOn (nextSocket_touch s client).ge (sessionSocket_touch s client) rfl rfl rfl rfl
      rfl rfl
  case case2 client _ _ _ =>
    cases (proxy.selectBackend s.services client).1 with
    | none => exact .stop rfl (fun _ => rfl) fun _ => ⟨rfl, rfl⟩
    | some r => exact .goOn (Nat.le_refl _) (fun _ => rfl) rfl rfl rfl rfl rfl rfl
  case case3 client _ _ _ _ =>
    refine .store rfl fun c => ?_
    show ((s.sessions.insert client _).get c).map _ = _
    rw [get_insert]
    split <;> rfl
  case case5 isNew =>
    cases isNew with
    | true => exact .spawn rfl fun _ => rfl
    | false => exact .stop rfl (fun _ => rfl) fun _ => ⟨rfl, rfl⟩
  -- a socket that fails
  case case4 | case6 | case8 => exact .stop rfl (fun _ => rfl) fun hin => absurd hin (by simp)
  -- a listener
  case case7 => exact .goOn (Nat.le_succ _) (fun _ => rfl) rfl rfl rfl rfl rfl rfl
  case case9 => split <;> exact .goOn (Nat.le_refl _) (fun _ => rfl) rfl rfl rfl rfl rfl rfl
  case case10 client _ _ _ _ =>
    exact .goOn (nextSocket_touch s client).ge (sessionSocket_touch s client) rfl rfl rfl rfl
      rfl rfl
  case case11 | case12 | case13 | case14 =>
    exact .goOn (Nat.le_refl _) (fun _ => rfl) rfl rfl rfl rfl rfl rfl
  case case15 client =>
    refine .leave rfl fun c => ?_
    show ((s.sessions.erase client).get c).map _ = _
    rw [get_erase]
    split <;> rfl

end Effect

/-! ## Who owns a session -/

section Ownership

variable {Net Ip : Type} [IpCrate Net Ip] [DecidableEq Ip] {proxy : UdpProxy Net Ip}
  {w w' : Trace Ip} {a : Action Ip} {client : SocketAddr Ip} {idx : ℕ} {t : Traced Ip}
  {input : Input Ip} {new : List (Traced Ip)}

/-- The sockets that the running listeners of a client were started for. -/
def Trace.listeners (w : Trace Ip) (client : SocketAddr Ip) : List ℕ :=
  w.tasks.filterMap fun t => if t.task.client = client then t.startedFor else none

/-- **Ownership.** A listener that ends removes only the session it was started for, and sessions
and listeners are one to one. -/
structure Ownership (w : Trace Ip) : Prop where
  removes : ∀ t ∈ w.tasks, ∀ client socket, t.task = .leave client →
    sessionSocket w.state client = some socket → t.startedFor = some socket
  single : ∀ client socket, sessionSocket w.state client = some socket →
    (w.listeners client).length ≤ 1
  own : ∀ client socket listener, sessionSocket w.state client = some socket →
    listener ∈ w.listeners client → listener = socket

/-- The steps that keep it: a session is stored while its client has no listener, and a listener
starts while the client has no other session. -/
def Careful (w : Trace Ip) : Action Ip → Prop
  | .proceed idx .done => ∀ t, w.tasks[idx]? = some t →
    (t.task.isStoring = true → w.listeners t.task.client = []) ∧
    ∀ socket k, t.task.pending = some socket →
      sessionSocket w.state t.task.client = some k → k = socket
  | _ => True

/-- A task listens for the client at this socket. -/
def Listens (tasks : List (Traced Ip)) (client : SocketAddr Ip) (socket : ℕ) : Prop :=
  ∃ t ∈ tasks, t.task.client = client ∧ t.startedFor = some socket

variable {k : ℕ} {s' : State Ip} {next : List (UdpTask Ip)}
  {servers : Text → Option (List UdpBackendServer)} {as : List (Action Ip)}
  {allowed : Trace Ip → Action Ip → Prop}

lemma mem_listeners : k ∈ w.listeners client ↔ Listens w.tasks client k := by
  rw [Trace.listeners, mem_filterMap]
  refine exists_congr fun t => and_congr_right fun _ => ?_
  split <;> simp [*]

/-- The socket a task has to do with, as a listener or before that. -/
def Traced.socket? (t : Traced Ip) : Option ℕ := t.startedFor.or t.task.pending

/-- In every run listeners were started for a socket, one for each. -/
structure Kept (w : Trace Ip) : Prop where
  labelled : ∀ t ∈ w.tasks, t.startedFor.isSome = t.task.isListener
  bound : ∀ k ∈ w.tasks.filterMap Traced.socket?, k < w.state.nextSocket
  nodup : (w.tasks.filterMap Traced.socket?).Nodup

lemma traced_cases (h : proxy.tracedStep w a = some w') :
    (Careful w a ∧ w'.state.nextSocket = w.state.nextSocket ∧
      (∀ c k, sessionSocket w'.state c = some k → sessionSocket w.state c = some k) ∧
      (w'.tasks = w.tasks ∨ ∃ client data now,
        w'.tasks = w.tasks ++ [⟨.handle client data, none, now, false⟩])) ∨
    ∃ idx input t next, a = .proceed idx input ∧ w.tasks[idx]? = some t ∧
      Effect w.plain t.task input w'.state next ∧
      w'.tasks = w.tasks.eraseIdx idx ++ next.map (t.next input w.state.now) := by
  cases a with
  | datagram client data =>
    obtain rfl := some.inj h
    exact .inl ⟨trivial, rfl, fun _ _ => id, Or.inr ⟨client, data, _, rfl⟩⟩
  | proceed idx input =>
    obtain ⟨t, htask, hnext⟩ := bind_eq_some_iff.mp h
    obtain ⟨⟨s', next⟩, hadvance, rfl⟩ := map_eq_some_iff.mp hnext
    exact .inr ⟨idx, input, t, next, rfl, htask, effect_of_advance hadvance, rfl⟩
  | tick d | collect =>
    obtain rfl := some.inj h
    exact .inl ⟨trivial, rfl, fun _ _ => id, Or.inl rfl⟩
  | expire =>
    obtain ⟨s', hstep, rfl⟩ := map_eq_some_iff.mp h
    rw [step] at hstep
    split at hstep
    · obtain rfl := some.inj hstep
      refine .inl ⟨trivial, rfl, fun c k hk => ?_, Or.inl rfl⟩
      obtain ⟨session, hsession, rfl⟩ := map_eq_some_iff.mp hk
      exact map_eq_some_iff.mpr ⟨session, get_of_get_erase hsession, rfl⟩
    · cases hstep

omit [DecidableEq Ip] in
lemma perm_of_getElem? (htask : w.tasks[idx]? = some t) :
    (t :: w.tasks.eraseIdx idx).Perm w.tasks := by
  obtain ⟨hlt, rfl⟩ := List.getElem?_eq_some_iff.mp htask
  exact getElem_cons_eraseIdx_perm hlt

lemma sockets_next (hlabelled : t.startedFor.isSome = t.task.isListener) (now : ℕ)
    (heffect : Effect w.plain t.task input s' next) :
    (∀ t' ∈ next.map (t.next input now), t'.startedFor.isSome = t'.task.isListener) ∧
      w.state.nextSocket ≤ s'.nextSocket ∧
      ((next.map (t.next input now)).filterMap Traced.socket? = [] ∨
        (next.map (t.next input now)).filterMap Traced.socket? = t.socket?.toList ∨
        (next.map (t.next input now)).filterMap Traced.socket? = [w.state.nextSocket] ∧
          s'.nextSocket = w.state.nextSocket + 1) := by
  obtain ⟨task, startedFor, since, timedOut⟩ := t
  cases heffect with
  | store hsocket _ =>
    obtain rfl : startedFor = none := by simpa [UdpTask.isListener] using hlabelled
    exact ⟨forall_mem_singleton.mpr rfl, (Nat.le_succ _).trans_eq hsocket.symm,
      Or.inr (Or.inr ⟨rfl, hsocket⟩)⟩
  | spawn hsocket _ =>
    obtain rfl : startedFor = none := by simpa [UdpTask.isListener] using hlabelled
    exact ⟨forall_mem_singleton.mpr rfl, hsocket.ge, Or.inr (Or.inl rfl)⟩
  | leave hsocket _ | stop hsocket _ _ => exact ⟨by simp, hsocket.ge, Or.inl rfl⟩
  | @goOn _ task' _ _ hsocket _ _ hlistener _ hpending hpending' hspawned =>
    have hsame : (task'.spawned.or startedFor) = startedFor := by rw [hspawned, none_or]
    refine ⟨forall_mem_singleton.mpr ?_, hsocket, Or.inr (Or.inl ?_)⟩
    · show (task'.spawned.or startedFor).isSome = task'.isListener
      rw [hsame, hlistener]
      exact hlabelled
    · have hsocket? : (Traced.next ⟨task, startedFor, since, timedOut⟩ input now task').socket? =
          Traced.socket? ⟨task, startedFor, since, timedOut⟩ := by
        show (task'.spawned.or startedFor).or task'.pending = startedFor.or task.pending
        rw [hsame, hpending, hpending']
      rw [map_singleton, filterMap_cons, hsocket?]
      cases Traced.socket? ⟨task, startedFor, since, timedOut⟩ <;> rfl

omit [DecidableEq Ip] in
lemma kept_start (servers : Text → Option (List UdpBackendServer)) :
    Kept (traceStart Ip servers) :=
  ⟨nofun, nofun, nodup_nil⟩

lemma Kept.step (h : Kept w) (hstep : proxy.tracedStep w a = some w') : Kept w' := by
  rcases traced_cases hstep with ⟨-, hsocket, -, htasks | ⟨client, data, now, htasks⟩⟩ |
    ⟨idx, input, t, next, rfl, htask, heffect, htasks⟩
  · exact ⟨htasks ▸ h.labelled, by rw [htasks, hsocket]; exact h.bound, htasks ▸ h.nodup⟩
  · -- a task that handles a datagram has no socket yet
    have hsame : w'.tasks.filterMap Traced.socket? = w.tasks.filterMap Traced.socket? := by
      rw [htasks, filterMap_append]
      exact append_nil _
    refine ⟨?_, by rw [hsame, hsocket]; exact h.bound, hsame ▸ h.nodup⟩
    rw [htasks]
    exact forall_mem_append.mpr ⟨h.labelled, forall_mem_singleton.mpr rfl⟩
  · obtain ⟨hlabelled, hle, hsockets⟩ :=
      sockets_next (h.labelled t (mem_of_getElem? htask)) w.state.now heffect
    generalize next.map (t.next input w.state.now) = new at htasks hlabelled hsockets
    have hperm : (t.socket?.toList ++ (w.tasks.eraseIdx idx).filterMap Traced.socket?).Perm
        (w.tasks.filterMap Traced.socket?) := by
      have hperm := (perm_of_getElem? htask).filterMap Traced.socket?
      rw [filterMap_cons] at hperm
      cases hsome : t.socket? <;> simpa [hsome] using hperm
    have hold := fun k hk => h.bound k (hperm.subset (mem_append_right _ hk))
    have hnodup := hperm.nodup_iff.mpr h.nodup
    have hsplit : w'.tasks.filterMap Traced.socket? =
        (w.tasks.eraseIdx idx).filterMap Traced.socket? ++ new.filterMap Traced.socket? := by
      rw [htasks, filterMap_append]
    refine ⟨?_, fun k hk => ?_, ?_⟩
    · rw [htasks]
      exact forall_mem_append.mpr
        ⟨fun t' ht' => h.labelled t' (mem_of_mem_eraseIdx ht'), hlabelled⟩
    · rw [hsplit] at hk
      rcases mem_append.mp hk with hk | hk
      · exact (hold k hk).trans_le hle
      · rcases hsockets with hnone | hsame | ⟨hfresh, hnext⟩
        · simp [hnone] at hk
        · exact (h.bound k (hperm.subset (mem_append_left _ (hsame ▸ hk)))).trans_le hle
        · rw [hfresh, mem_singleton] at hk
          omega
    · rw [hsplit]
      rcases hsockets with hnone | hsame | ⟨hfresh, -⟩
      · rw [hnone, append_nil]
        exact (nodup_append.mp hnodup).2.1
      · rw [hsame]
        exact perm_append_comm.nodup_iff.mpr hnodup
      · rw [hfresh]
        refine nodup_append.mpr
          ⟨(nodup_append.mp hnodup).2.1, nodup_singleton _, fun k hk j hj => ?_⟩
        rw [mem_singleton.mp hj]
        exact (hold k hk).ne

lemma filterMap_sublist {α β : Type} {f g : α → Option β}
    (h : ∀ x y, f x = some y → g x = some y) (l : List α) :
    (l.filterMap f).Sublist (l.filterMap g) := by
  induction l with
  | nil => exact .slnil
  | cons x l ih =>
    rw [filterMap_cons, filterMap_cons]
    cases hf : f x with
    | some y =>
      rw [h x y hf]
      exact ih.cons_cons y
    | none =>
      cases g x with
      | none => exact ih
      | some y => exact ih.cons y

lemma listeners_sublist (w : Trace Ip) (client : SocketAddr Ip) :
    (w.listeners client).Sublist (w.tasks.filterMap Traced.socket?) := by
  refine filterMap_sublist (fun t k hk => ?_) w.tasks
  split at hk
  · rw [Traced.socket?, hk, some_or]
  · cases hk

/-- It is then enough that listeners have no session but their own. -/
lemma Kept.ownership (h : Kept w)
    (hown : ∀ client socket listener, sessionSocket w.state client = some socket →
      listener ∈ w.listeners client → listener = socket) : Ownership w where
  removes t ht client socket hleave hsession := by
    have hsome : t.startedFor.isSome := by rw [h.labelled t ht, hleave]; rfl
    obtain ⟨k, hk⟩ := isSome_iff_exists.mp hsome
    have hmem : k ∈ w.listeners client := mem_listeners.mpr ⟨t, ht, by rw [hleave]; rfl, hk⟩
    rw [hk, hown client socket k hsession hmem]
  single client socket hsession := by
    have hnodup := (listeners_sublist w client).nodup h.nodup
    have hall : ∀ k ∈ w.listeners client, k = socket := fun k => hown client socket k hsession
    rw [eq_replicate_of_mem hall] at hnodup
    exact nodup_replicate.mp hnodup
  own := hown

omit [DecidableEq Ip] in
lemma listens_append {l l' : List (Traced Ip)} :
    Listens (l ++ l') client k ↔ Listens l client k ∨ Listens l' client k := by
  simp only [Listens, mem_append, or_and_right, exists_or]

lemma mem_listeners_next (htask : w.tasks[idx]? = some t)
    (htasks : w'.tasks = w.tasks.eraseIdx idx ++ new) (c : SocketAddr Ip) (k : ℕ) :
    (k ∈ w.listeners c ↔ Listens [t] c k ∨ Listens (w.tasks.eraseIdx idx) c k) ∧
      (k ∈ w'.listeners c ↔ Listens (w.tasks.eraseIdx idx) c k ∨ Listens new c k) := by
  rw [mem_listeners, mem_listeners, htasks, ← listens_append, ← listens_append]
  refine ⟨exists_congr fun t' => and_congr_left fun _ => ?_, Iff.rfl⟩
  exact (perm_of_getElem? htask).mem_iff.symm

omit [DecidableEq Ip] in
lemma listens_singleton :
    Listens [t] client k ↔ t.task.client = client ∧ t.startedFor = some k := by
  simp only [Listens, mem_singleton, exists_eq_left]

lemma ownership_store_iff (hkept : Kept w) (hkept' : Kept w') (hown : Ownership w)
    (hsame : ∀ c k, k ∈ w'.listeners c ↔ k ∈ w.listeners c)
    (hsessions : ∀ c, sessionSocket w'.state c =
      if c = client then some w.state.nextSocket else sessionSocket w.state c) :
    Ownership w' ↔ w.listeners client = [] := by
  constructor
  · intro hown'
    -- a listener from before has another socket than the new session
    refine eq_nil_iff_forall_not_mem.mpr fun k hk => ?_
    have hlt := hkept.bound k ((listeners_sublist w client).subset hk)
    have hsession : sessionSocket w'.state client = some w.state.nextSocket := by
      rw [hsessions, if_pos rfl]
    exact hlt.ne (hown'.own client _ k hsession ((hsame client k).mpr hk))
  · intro hnone
    refine hkept'.ownership fun c socket listener hsession hmem => ?_
    rw [hsame] at hmem
    rw [hsessions] at hsession
    split at hsession
    · next heq =>
      rw [heq, hnone] at hmem
      cases hmem
    · exact hown.own c socket listener hsession hmem

lemma ownership_spawn_iff {s : ℕ} (hkept' : Kept w') (hown : Ownership w)
    (hnew : ∀ c k, k ∈ w'.listeners c ↔ k ∈ w.listeners c ∨ client = c ∧ s = k)
    (hsessions : ∀ c, sessionSocket w'.state c = sessionSocket w.state c) :
    Ownership w' ↔ ∀ k, sessionSocket w.state client = some k → k = s := by
  constructor
  · intro hown' k hsession
    exact (hown'.own client k s ((hsessions client).trans hsession)
      ((hnew client s).mpr (Or.inr ⟨rfl, rfl⟩))).symm
  · intro hsame
    refine hkept'.ownership fun c k listener hsession hmem => ?_
    rw [hsessions] at hsession
    rcases (hnew c listener).mp hmem with hold | ⟨rfl, rfl⟩
    · exact hown.own c k listener hsession hold
    · exact (hsame k hsession).symm

lemma ownership_step_iff (hkept : Kept w) (hown : Ownership w)
    (hstep : proxy.tracedStep w a = some w') : Ownership w' ↔ Careful w a := by
  have hkept' := hkept.step hstep
  -- fewer sessions and fewer listeners do not matter
  have hmono : (∀ c k, sessionSocket w'.state c = some k → sessionSocket w.state c = some k) →
      (∀ c k, k ∈ w'.listeners c → k ∈ w.listeners c) → Ownership w' := fun hsessions hlisteners =>
    hkept'.ownership fun c socket listener hsession hmem =>
      hown.own c socket listener (hsessions c socket hsession) (hlisteners c listener hmem)
  rcases traced_cases hstep with ⟨hcareful, -, hsessions, htasks⟩ |
    ⟨idx, input, t, next, rfl, htask, heffect, htasks⟩
  · refine iff_of_true (hmono hsessions fun c k hk => ?_) hcareful
    rw [mem_listeners] at hk ⊢
    rcases htasks with htasks | ⟨client', data, now, htasks⟩
    · exact htasks ▸ hk
    · rw [htasks, listens_append, listens_singleton] at hk
      exact hk.resolve_right nofun
  · have hlabelled := hkept.labelled t (mem_of_getElem? htask)
    have hbefore := fun c k => (mem_listeners_next htask htasks c k).1
    have hbehind := fun c k => (mem_listeners_next htask htasks c k).2
    have hquiet : (input = .done → t.task.pending = none ∧ t.task.isStoring = false) →
        Careful w (.proceed idx input) := by
      intro h
      cases input with
      | done =>
        intro t' ht'
        obtain rfl := some.inj (htask.symm.trans ht')
        simp [h rfl]
      | _ => trivial
    have hcareful : Careful w (.proceed idx .done) ↔
        (t.task.isStoring → w.listeners t.task.client = []) ∧
          ∀ socket k, t.task.pending = some socket →
            sessionSocket w.state t.task.client = some k → k = socket :=
      ⟨fun h => h t htask, fun h t' ht' => some.inj (htask.symm.trans ht') ▸ h⟩
    generalize htask' : t.task = task at heffect hlabelled hcareful hquiet
    cases heffect with
    | @store client _ _ _ _ _ hsessions =>
      have hlabel : t.startedFor = none := by simpa [UdpTask.isListener] using hlabelled
      rw [hcareful, ownership_store_iff hkept hkept' hown (fun c k => ?_) hsessions]
      · exact ⟨fun h => ⟨fun _ => h, nofun⟩, fun h => h.1 rfl⟩
      · rw [hbefore, hbehind, map_singleton, listens_singleton, listens_singleton]
        simp [Traced.next, UdpTask.spawned, hlabel]
    | @spawn client _ _ socket _ _ hsessions =>
      have hlabel : t.startedFor = none := by simpa [UdpTask.isListener] using hlabelled
      rw [hcareful, ownership_spawn_iff (s := socket) hkept' hown (fun c k => ?_) hsessions]
      · refine ⟨fun h => ⟨nofun, fun socket' k hpending => ?_⟩, fun h k => h.2 socket k rfl⟩
        exact some.inj hpending ▸ h k
      · rw [hbefore, hbehind, map_singleton, listens_singleton, listens_singleton, hlabel]
        simp [Traced.next, UdpTask.spawned, UdpTask.client]
    | leave _ hsessions =>
      refine iff_of_true (hmono (fun c k hk => ?_) fun c k hk => ?_) (hquiet fun _ => ⟨rfl, rfl⟩)
      · rw [hsessions] at hk
        split at hk
        · cases hk
        · exact hk
      · exact (hbefore c k).mpr (Or.inr (((hbehind c k).mp hk).resolve_right nofun))
    | stop _ hsessions hdone =>
      refine iff_of_true (hmono (fun c k hk => hsessions c ▸ hk) fun c k hk => ?_) (hquiet hdone)
      exact (hbefore c k).mpr (Or.inr (((hbehind c k).mp hk).resolve_right nofun))
    | goOn _ hsessions hclient _ hstoring hpending _ hspawned =>
      refine iff_of_true (hmono (fun c k hk => hsessions c ▸ hk) fun c k hk => ?_)
        (hquiet fun _ => ⟨hpending, hstoring⟩)
      -- it is the same listener
      rw [hbefore, or_comm]
      refine ((hbehind c k).mp hk).imp_right fun hnew => ?_
      rw [map_singleton, listens_singleton] at hnew
      rw [listens_singleton, htask', ← hclient, ← hnew.2, Traced.next, hspawned]
      exact ⟨hnew.1, rfl⟩

lemma traced_proceed (htask : w.tasks[idx]? = some t)
    (hadvance : proxy.advance w.plain t.task input = some (s', next)) :
    proxy.tracedStep w (.proceed idx input) = some
      { state := { s' with tasks := [] }
        tasks := w.tasks.eraseIdx idx ++ next.map (t.next input w.state.now)
        handled := w.handled ++
          (handledFor w.plain t.task input).toList.map fun socket => (socket, w.state.now) } := by
  rw [tracedStep, htask, bind_some, hadvance]
  rfl

lemma run_plain (h : Run proxy.tracedStep allowed (traceStart Ip servers) as w) :
    Run proxy.step (fun _ _ => True) (start Ip servers) as w.plain := by
  induction h with
  | refl => exact .refl
  | @snoc as u a u' _ _ hlast ih =>
    refine .snoc ih trivial ?_
    rw [← plain_step, hlast, map_some]

lemma sessionSocket_eq_none (hnone : ∀ client, proxy.backendOf servers client = none)
    (h : Run proxy.tracedStep allowed (traceStart Ip servers) as w) (client : SocketAddr Ip) :
    sessionSocket w.state client = none := by
  have hsound := sound_of_any_run (run_plain h)
  refine map_eq_none_iff.mpr (eq_none_iff_forall_ne_some.mpr fun session hget => ?_)
  have hbackend := (hsound.sessions client session hget).2
  rw [hnone] at hbackend
  cases hbackend

/-- **Two datagrams of a new client at once**, and one later: the first listener starts without its
session, and times out although it was just used. -/
theorem exists_outlasted
    {backend : SocketAddr Ip} (h : proxy.backendOf servers client = some backend) :
    ∃ as w t session, Run proxy.tracedStep proxy.Timely (traceStart Ip servers) as w ∧
      w.tasks[2]? = some t ∧ t.task = .leave client ∧ t.startedFor = some 1 ∧ t.timedOut ∧
      w.state.sessions.get client = some session ∧ session.backendSocket = 2 ∧
      (2, w.state.now) ∈ w.handled ∧ ∃ f ∈ w.state.forwards, f.client = client := by
  obtain ⟨service, hselect⟩ := exists_select h
  -- the instant of the last datagram
  let later : ℕ := 0 + proxy.sessionTimeout
  let session (time socket : ℕ) : UdpSession Ip := ⟨backend, service, time, socket⟩
  let task (task : UdpTask Ip) (time : ℕ) : Traced Ip := ⟨task, none, time, false⟩
  let forward (socket : ℕ) : Traced Ip := task (.forward client [] backend socket true) 0
  let listener (task : UdpTask Ip) : Traced Ip := ⟨task, some 1, 0, false⟩
  -- both datagrams are bound before either session is stored
  let bound : Trace Ip := ⟨start Ip servers,
    [task (.bind client [] backend service) 0, task (.bind client [] backend service) 0], []⟩
  -- the second session has taken the place of the first
  let both : State Ip := { start Ip servers with
    nextSocket := 3
    sessions := (empty.insert client (session 0 1)).insert client (session 0 2)
    owner := Function.update (Function.update (fun _ => none) 1 (some client)) 2 (some client) }
  -- the listener of the first finds a session, and waits
  let started : State Ip := { both with
    nextSocket := 4
    forwards := [⟨client, [], 1, backend⟩] }
  let checking : Trace Ip :=
    ⟨started, [forward 2, listener (.check client 1 3)], [(1, 0), (2, 0)]⟩
  let waiting : Trace Ip := ⟨{ started with now := later },
    [forward 2, listener (.receive client 1 3), task (.handle client []) later], [(1, 0), (2, 0)]⟩
  -- the last datagram is handled for the second session
  let used : Trace Ip := ⟨{ started with
      now := later
      sessions := both.sessions.insert client (session later 2) },
    [forward 2, listener (.receive client 1 3), task (.forward client [] backend 2 false) later],
    [(1, 0), (2, 0), (2, later)]⟩
  let ended : Trace Ip := { used with
    tasks := [forward 2, task (.forward client [] backend 2 false) later,
      ⟨.leave client, some 1, later, true⟩] }
  have hsession : both.sessions.get client = some (session 0 2) := by
    rw [get_insert, if_pos rfl]
  have hfound : proxy.tracedStep checking (.proceed 1 .done) =
      some ⟨started, [forward 2, listener (.receive client 1 3)], [(1, 0), (2, 0)]⟩ := by
    have hcontains : checking.plain.sessions.containsKey client := by
      show (both.sessions.get client).isSome = true
      rw [hsession]
      rfl
    have hadvance : proxy.advance checking.plain (.check client 1 3) .done =
        some (checking.plain, [.receive client 1 3]) := by
      rw [advance, if_pos hcontains]
    exact (traced_proceed rfl hadvance).trans rfl
  have hused : proxy.tracedStep waiting (.proceed 2 .done) = some used := by
    have hadvance := advance_handle_session (s := waiting.plain) proxy hsession []
    have hhandled : handledFor waiting.plain (.handle client []) .done = some 2 := by
      show (both.sessions.get client).map _ = some 2
      rw [hsession]
      rfl
    refine (traced_proceed (w := waiting) (t := task (.handle client []) later) rfl
      hadvance).trans ?_
    rw [hhandled]
    rfl
  have htimely : proxy.Timely used (.proceed 1 .timedOut) := fun t ht =>
    some.inj ht ▸ Nat.le_refl _
  refine ⟨[.datagram client [], .datagram client [], .proceed 0 .done, .proceed 0 .done,
    .proceed 0 .done, .proceed 0 .done, .proceed 0 .done, .proceed 1 .done, .proceed 1 .done,
    .tick proxy.sessionTimeout, .datagram client [], .proceed 2 .done, .proceed 1 .timedOut],
    ended, _, session later 2, ?_, rfl, rfl, rfl, rfl, ?_, rfl, by simp [ended, used],
    _, mem_singleton_self _, rfl⟩
  · refine .cons trivial rfl (.cons trivial rfl ?_)
    refine .cons trivial (traced_proceed rfl (advance_handle_new rfl rfl [] hselect)) ?_
    refine .cons (u := bound) trivial
      ((traced_proceed rfl (advance_handle_new rfl rfl [] hselect)).trans rfl) ?_
    refine .cons trivial rfl (.cons trivial rfl (.cons trivial rfl ?_))
    refine .cons (u := checking) trivial rfl (.cons trivial hfound (.cons trivial rfl ?_))
    exact .cons (u := waiting) trivial rfl (.cons trivial hused (.cons htimely rfl .refl))
  · show (both.sessions.insert client (session later 2)).get client = _
    rw [get_insert, if_pos rfl]

/-- **When listeners own their sessions.** In all runs exactly if no client has a backend.
Throughout one run exactly if sessions are stored only while no listener of their client is
running, and listeners start only while their client has no other session. -/
theorem udp_ownership_iff (proxy : UdpProxy Net Ip)
    (servers : Text → Option (List UdpBackendServer)) :
    ((∀ as w, Run proxy.tracedStep proxy.Timely (traceStart Ip servers) as w → Ownership w) ↔
      ∀ client, proxy.backendOf servers client = none) ∧
    ∀ as w, Run proxy.tracedStep proxy.Timely (traceStart Ip servers) as w →
      ((∀ before u, before <+: as →
          Run proxy.tracedStep proxy.Timely (traceStart Ip servers) before u → Ownership u) ↔
        Run proxy.tracedStep (fun w a => proxy.Timely w a ∧ Careful w a) (traceStart Ip servers)
          as w) := by
  have hkept : ∀ as w, Run proxy.tracedStep proxy.Timely (traceStart Ip servers) as w → Kept w :=
    fun as w hrun => hrun.invariant (kept_start servers) fun _ _ _ h _ hstep => h.step hstep
  refine ⟨⟨fun h client => ?_, fun hnone as w hrun => ?_⟩, fun as w hrun => ?_⟩
  · by_contra hsome
    obtain ⟨backend, hbackend⟩ := ne_none_iff_exists'.mp hsome
    obtain ⟨as, w, t, session, hrun, htask, hleave, hlabel, -, hget, hsocket, -⟩ :=
      exists_outlasted hbackend
    have hremoves := (h as w hrun).removes t (mem_of_getElem? htask) client 2 hleave
      (by rw [sessionSocket, hget, map_some, hsocket])
    rw [hlabel] at hremoves
    cases hremoves
  · refine (hkept as w hrun).ownership fun client socket listener hsession => ?_
    rw [sessionSocket_eq_none hnone hrun] at hsession
    cases hsession
  · have hstart : Ownership (traceStart Ip servers) :=
      (kept_start servers).ownership fun _ _ _ hsession => by cases hsession
    exact hrun.throughout_iff (kept_start servers) hstart
      (fun _ _ _ h _ hstep => h.step hstep) fun _ _ _ hk hown hstep =>
        ownership_step_iff hk hown hstep

end Ownership

/-- Two datagrams at once, both sessions up to their listeners, and a time-out of the first. -/
def overtaking : List (Action Text) :=
  [.datagram someClient [1], .datagram someClient [2], .proceed 0 .done, .proceed 0 .done,
    .proceed 0 .done, .proceed 0 .done, .proceed 0 .done, .proceed 0 .done, .proceed 0 .done,
    .proceed 0 .done, .proceed 0 .done, .proceed 0 .done, .tick 60, .proceed 0 .timedOut]

/-- **A listener removes the session of another one.** Two listeners are running for a client, the
first of which is about to end; the session is that of the second. -/
theorem udp_ownership_overtaken :
    (overtaking.foldlM oneServerProxy.tracedStep (traceStart Text oneServer)).map (fun w =>
        (w.listeners someClient, w.tasks.getLast?, sessionSocket w.state someClient)) =
      some ([2, 1], some ⟨.leave someClient, some 1, 60, true⟩, some 2) ∧
    ((overtaking ++ [Action.proceed 1 .done]).foldlM oneServerProxy.tracedStep
        (traceStart Text oneServer)).map (fun w : Trace Text =>
        (w.listeners someClient, sessionSocket w.state someClient)) = some ([2], none) :=
  ⟨by decide +kernel, by decide +kernel⟩

end UdpProxy

end TrafficCop
