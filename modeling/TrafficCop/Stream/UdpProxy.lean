import TrafficCop.Lib.Transition
import TrafficCop.Stream.Routing
import TrafficCop.Stream.Service

/-!
# UDP sessions and the replies to clients

`UdpProxy` of `udp/proxy.rs`. Every datagram of a client is handled by a task of its own, and the
first one of a session leads to a task that listens for replies.

What comes in at a session's socket has any sender, for the socket is not connected.
-/

namespace TrafficCop

open Rust Transition List Option Function

/-! ## The code -/

structure SocketAddr (Ip : Type) where
  ip : Ip
  port : UInt16
  deriving Repr, DecidableEq

structure UdpSession (Ip : Type) where
  backendAddr : SocketAddr Ip
  serviceName : Text
  lastActivity : ℕ
  backendSocket : ℕ

/-- What a proxy is given. The hash of an address is the one of its IP address. -/
structure UdpProxy (Net Ip : Type) where
  router : UdpRouter Net
  entrypoint : Text
  sessionTimeout : ℕ
  hashIp : Ip → ℕ
  parseAddr : Text → Option (SocketAddr Ip)

namespace UdpProxy

/-- Sockets are numbers; `bind` gives one that is not in use. -/
def entrypointSocket : ℕ := 0

/-- Each task is here where it waits. -/
inductive UdpTask (Ip : Type) where
  /-- `handle_datagram`, before it looks for a session. -/
  | handle (client : SocketAddr Ip) (data : List UInt8)
  /-- Waits for the socket of a new session. -/
  | bind (client : SocketAddr Ip) (data : List UInt8) (backend : SocketAddr Ip) (service : Text)
  /-- Sends a datagram to the backend; for a new session, a listener comes next. -/
  | forward (client : SocketAddr Ip) (data : List UInt8) (backend : SocketAddr Ip) (socket : ℕ)
      (isNew : Bool)
  /-- `listen_for_responses` waits for the socket of the replies. -/
  | listen (client : SocketAddr Ip) (socket : ℕ)
  /-- The head of its loop. -/
  | check (client : SocketAddr Ip) (socket response : ℕ)
  /-- Waits for a datagram at the socket of the session. -/
  | receive (client : SocketAddr Ip) (socket response : ℕ)
  /-- Sends to the client what has come in. -/
  | respond (client : SocketAddr Ip) (socket response : ℕ) (sender : SocketAddr Ip)
      (payload : List UInt8)
  /-- Behind the loop. -/
  | leave (client : SocketAddr Ip)
  deriving DecidableEq

/-- A datagram of a client, on its way to a backend. -/
structure Forward (Ip : Type) where
  client : SocketAddr Ip
  payload : List UInt8
  source : ℕ
  backend : SocketAddr Ip
  deriving DecidableEq

/-- A datagram to a client, where it came from, and the backend of the session then. -/
structure Reply (Ip : Type) where
  client : SocketAddr Ip
  payload : List UInt8
  source : ℕ
  socket : ℕ
  sender : SocketAddr Ip
  sessionBackend : Option (SocketAddr Ip)
  deriving DecidableEq

/-- The sessions and tasks of a proxy, and the history: whom a socket was opened for, and what was
sent. -/
structure State (Ip : Type) where
  services : Text → Option UdpService
  sessions : HashMap (SocketAddr Ip) (UdpSession Ip)
  now : ℕ
  nextSocket : ℕ
  tasks : List (UdpTask Ip)
  expired : List (SocketAddr Ip)
  owner : ℕ → Option (SocketAddr Ip)
  forwards : List (Forward Ip)
  replies : List (Reply Ip)

/-- How the wait of a task ends. -/
inductive Input (Ip : Type) where
  | done
  | failed
  | timedOut
  | received (sender : SocketAddr Ip) (payload : List UInt8)

section Code

variable {Net Ip : Type} [IpCrate Net Ip] [DecidableEq Ip] (proxy : UdpProxy Net Ip)

def hashAddr (addr : SocketAddr Ip) : ℕ := proxy.hashIp addr.ip

/-- The backend for a client without a session, and the services behind the choice. -/
def selectBackend (services : Text → Option UdpService) (client : SocketAddr Ip) :
    Option (SocketAddr Ip × Text) × (Text → Option UdpService) :=
  match proxy.router.matchDatagram proxy.entrypoint (some client.ip) with
  | none => (none, services)
  | some route =>
    match services route.service with
    | none => (none, services)
    | some service =>
      let r := service.getServerByHash (proxy.hashAddr client)
      (r.1.bind fun server => (proxy.parseAddr server.address).map (·, route.service),
        update services route.service (some r.2))

/-- A session is refreshed, if there is one. -/
def touch (s : State Ip) (client : SocketAddr Ip) : State Ip :=
  match s.sessions.get client with
  | some session =>
    { s with sessions := s.sessions.insert client { session with lastActivity := s.now } }
  | none => s

/-- A task goes on: the state it leaves, and where it or a task it has spawned waits next. -/
def advance (s : State Ip) : UdpTask Ip → Input Ip → Option (State Ip × List (UdpTask Ip))
  | .handle client data, .done =>
    match s.sessions.get client with
    | some session =>
      some (touch s client, [.forward client data session.backendAddr session.backendSocket false])
    | none =>
      let r := proxy.selectBackend s.services client
      some ({ s with services := r.2 },
        r.1.toList.map fun (backend, service) => .bind client data backend service)
  | .bind client data backend service, .done =>
    -- replaces a session that another task may have stored meanwhile
    let session : UdpSession Ip := ⟨backend, service, s.now, s.nextSocket⟩
    some ({ s with
        nextSocket := s.nextSocket + 1
        sessions := s.sessions.insert client session
        owner := update s.owner s.nextSocket (some client) },
      [.forward client data backend s.nextSocket true])
  | .bind .., .failed => some (s, [])
  | .forward client data backend socket isNew, .done =>
    some ({ s with forwards := s.forwards ++ [⟨client, data, socket, backend⟩] },
      if isNew then [.listen client socket] else [])
  | .forward .., .failed => some (s, [])
  | .listen client socket, .done =>
    some ({ s with nextSocket := s.nextSocket + 1 }, [.check client socket s.nextSocket])
  | .listen .., .failed => some (s, [])
  | .check client socket response, .done =>
    some (s, if s.sessions.containsKey client then [.receive client socket response]
      else [.leave client])
  | .receive client socket response, .received sender payload =>
    -- `from_addr` is for the log only
    some (touch s client, [.respond client socket response sender payload])
  | .receive client _ _, .failed => some (s, [.leave client])
  | .receive client _ _, .timedOut => some (s, [.leave client])
  | .respond client socket response sender payload, .done =>
    let reply : Reply Ip := ⟨client, payload, response, socket, sender,
      (s.sessions.get client).map UdpSession.backendAddr⟩
    some ({ s with replies := s.replies ++ [reply] }, [.check client socket response])
  | .respond client socket response _ _, .failed => some (s, [.check client socket response])
  -- whichever session the client has by then
  | .leave client, .done => some ({ s with sessions := s.sessions.erase client }, [])
  | _, _ => none

/-- An action lets a task go on to where it waits next. -/
inductive Action (Ip : Type) where
  /-- A datagram comes in at the entrypoint. -/
  | datagram (client : SocketAddr Ip) (data : List UInt8)
  /-- The wait of a task ends. -/
  | proceed (idx : ℕ) (input : Input Ip)
  | tick (d : ℕ)
  /-- `cleanup_expired_sessions` looks for expired sessions … -/
  | collect
  /-- … and removes one of those it has found. -/
  | expire

/-- One action; `none` where it is not possible. -/
def step (s : State Ip) : Action Ip → Option (State Ip)
  | .datagram client data => some { s with tasks := s.tasks ++ [.handle client data] }
  | .proceed idx input =>
    s.tasks[idx]?.bind fun task => (proxy.advance s task input).map fun (s', next) =>
      { s' with tasks := s.tasks.eraseIdx idx ++ next }
  | .tick d => some { s with now := s.now + d }
  | .collect =>
    let old := s.sessions.entries.filter fun entry =>
      decide (proxy.sessionTimeout < s.now - entry.2.lastActivity)
    some { s with expired := s.expired ++ old.map Prod.fst }
  | .expire =>
    match s.expired with
    | client :: expired => some { s with sessions := s.sessions.erase client, expired := expired }
    | [] => none

/-- The services of `UdpServiceManager::new`, from the servers of each. -/
def managed (servers : Text → Option (List UdpBackendServer)) : Text → Option UdpService :=
  fun name => (servers name).map (StreamBackends.new name)

variable (Ip) in
def start (servers : Text → Option (List UdpBackendServer)) : State Ip where
  services := managed servers
  sessions := .empty
  now := 0
  nextSocket := entrypointSocket + 1
  tasks := []
  expired := []
  owner := fun _ => none
  forwards := []
  replies := []

end Code

/-! ## Backends -/

section Runs

variable {Net Ip : Type} [IpCrate Net Ip] (proxy : UdpProxy Net Ip)
  (servers : Text → Option (List UdpBackendServer))

/-- The backend of a client, always the same, as health never changes. -/
def backendOf (client : SocketAddr Ip) : Option (SocketAddr Ip) :=
  (proxy.selectBackend (managed servers) client).1.map Prod.fst

lemma selectBackend_managed (client : SocketAddr Ip) :
    (proxy.selectBackend (managed servers) client).2 = managed servers := by
  rw [selectBackend]
  split
  · rfl
  · next route _ =>
    split
    · rfl
    · next service hservice =>
      obtain ⟨list, -, rfl⟩ := map_eq_some_iff.mp hservice
      rw [StreamBackends.getServerByHash_new]
      dsimp only
      rw [← hservice]
      exact update_eq_self _ _

variable {backend : SocketAddr Ip} {r : Reply Ip} {task : UdpTask Ip}

variable {proxy servers} in
lemma exists_select {client : SocketAddr Ip} (h : proxy.backendOf servers client = some backend) :
    ∃ service, (proxy.selectBackend (managed servers) client).1 = some (backend, service) := by
  obtain ⟨⟨backend', service⟩, hselect, rfl⟩ := map_eq_some_iff.mp h
  exact ⟨service, hselect⟩

/-! ## What holds throughout a run -/

/-- Sockets are those of the task's client, and replies have one of their own. -/
def TaskOk (owner : ℕ → Option (SocketAddr Ip)) : UdpTask Ip → Prop
  | .handle .. => True
  | .bind client _ backend _ => proxy.backendOf servers client = some backend
  | .forward client _ backend socket _ =>
    owner socket = some client ∧ proxy.backendOf servers client = some backend
  | .listen client socket => owner socket = some client
  | .check client socket response | .receive client socket response
  | .respond client socket response _ _ =>
    owner socket = some client ∧ response ≠ entrypointSocket
  | .leave _ => True

/-- A reply is not sent from the entrypoint, and its session goes to the backend of the client. -/
structure ReplyOk (r : Reply Ip) : Prop where
  source : r.source ≠ entrypointSocket
  session : ∀ backend, r.sessionBackend = some backend →
    proxy.backendOf servers r.client = some backend

variable {proxy servers} in
lemma ReplyOk.sessionBackend_eq_some_iff (h : ReplyOk proxy servers r) :
    r.sessionBackend = some r.sender ↔
      proxy.backendOf servers r.client = some r.sender ∧ r.sessionBackend ≠ none := by
  constructor
  · intro hsession
    exact ⟨h.session _ hsession, by simp [hsession]⟩
  · rintro ⟨hbackend, hsome⟩
    obtain ⟨backend, hsession⟩ := ne_none_iff_exists'.mp hsome
    rw [hsession, ← h.session backend hsession, hbackend]

variable {proxy servers} in
lemma TaskOk.later {owner owner' : ℕ → Option (SocketAddr Ip)}
    (hlater : ∀ socket client, owner socket = some client → owner' socket = some client)
    (h : TaskOk proxy servers owner task) : TaskOk proxy servers owner' task := by
  cases task with
  | handle => trivial
  | bind => exact h
  | forward => exact ⟨hlater _ _ h.1, h.2⟩
  | listen => exact hlater _ _ h
  | check => exact ⟨hlater _ _ h.1, h.2⟩
  | receive => exact ⟨hlater _ _ h.1, h.2⟩
  | respond => exact ⟨hlater _ _ h.1, h.2⟩
  | leave => trivial

/-! ### States -/

variable [DecidableEq Ip]

/-- What holds of a state but for its tasks. -/
structure Core (s : State Ip) : Prop where
  nextSocket_pos : entrypointSocket < s.nextSocket
  unowned : ∀ socket, s.nextSocket ≤ socket → s.owner socket = none
  services : s.services = managed servers
  sessions : ∀ client session, s.sessions.get client = some session →
    s.owner session.backendSocket = some client ∧
      proxy.backendOf servers client = some session.backendAddr
  forwards : ∀ f ∈ s.forwards, proxy.backendOf servers f.client = some f.backend
  replies : ∀ r ∈ s.replies, ReplyOk proxy servers r

/-- The invariant of all runs. -/
structure Sound (s : State Ip) : Prop extends Core proxy servers s where
  tasks : ∀ task ∈ s.tasks, TaskOk proxy servers s.owner task

lemma sound_start : Sound proxy servers (start Ip servers) where
  nextSocket_pos := Nat.zero_lt_one
  unowned _ _ := rfl
  services := rfl
  sessions := nofun
  forwards := nofun
  replies := nofun
  tasks := nofun

variable {proxy servers} {s s' : State Ip} {client : SocketAddr Ip}

/-! ### What tasks do to a state -/

lemma owner_touch : (touch s client).owner = s.owner := by
  rw [touch]
  split <;> rfl

lemma Core.touch (h : Core proxy servers s) :
    Core proxy servers (touch s client) := by
  rw [UdpProxy.touch]
  split
  swap
  · exact h
  next session hsession =>
  refine { h with sessions := fun client' session' hget => ?_ }
  rw [HashMap.get_insert] at hget
  split at hget
  · next heq =>
    obtain rfl := some.inj hget
    rw [heq]
    exact h.sessions client session hsession
  · exact h.sessions client' session' hget

lemma Core.erase (h : Core proxy servers s) (client : SocketAddr Ip) :
    Core proxy servers { s with sessions := s.sessions.erase client } :=
  { h with
    sessions := fun client' session hget =>
      h.sessions client' session (HashMap.get_of_get_erase hget) }

lemma Core.owner_update (h : Core proxy servers s) {socket : ℕ} {client' : SocketAddr Ip}
    (howner : s.owner socket = some client') :
    update s.owner s.nextSocket (some client) socket = some client' := by
  have hne : socket ≠ s.nextSocket := by
    rintro rfl
    rw [h.unowned _ le_rfl] at howner
    cases howner
  rw [update_of_ne hne, howner]

lemma Core.newSession (h : Core proxy servers s)
    (service : Text) (hbackend : proxy.backendOf servers client = some backend) :
    Core proxy servers { s with
      nextSocket := s.nextSocket + 1
      sessions := s.sessions.insert client ⟨backend, service, s.now, s.nextSocket⟩
      owner := update s.owner s.nextSocket (some client) } where
  nextSocket_pos := Nat.lt_succ_of_lt h.nextSocket_pos
  unowned socket hle := by
    have hne : socket ≠ s.nextSocket := Nat.ne_of_gt hle
    exact (update_of_ne hne _ _).trans (h.unowned socket (Nat.le_of_succ_le hle))
  services := h.services
  sessions client' session hget := by
    rw [HashMap.get_insert] at hget
    split at hget
    · next heq =>
      obtain rfl := some.inj hget
      rw [heq]
      exact ⟨update_self _ _ _, hbackend⟩
    · obtain ⟨howner, hsession⟩ := h.sessions client' session hget
      exact ⟨h.owner_update howner, hsession⟩
  forwards := h.forwards
  replies := h.replies

lemma Core.bound (h : Core proxy servers s) :
    Core proxy servers { s with nextSocket := s.nextSocket + 1 } :=
  { h with
    nextSocket_pos := Nat.lt_succ_of_lt h.nextSocket_pos
    unowned := fun socket hle => h.unowned socket (Nat.le_of_succ_le hle) }

lemma Core.forwarded (h : Core proxy servers s) {f : Forward Ip}
    (hf : proxy.backendOf servers f.client = some f.backend) :
    Core proxy servers { s with forwards := s.forwards ++ [f] } :=
  { h with forwards := forall_mem_append.mpr ⟨h.forwards, forall_mem_singleton.mpr hf⟩ }

lemma Core.replied (h : Core proxy servers s)
    (hr : ReplyOk proxy servers r) :
    Core proxy servers { s with replies := s.replies ++ [r] } :=
  { h with replies := forall_mem_append.mpr ⟨h.replies, forall_mem_singleton.mpr hr⟩ }

/-- What a task leaves: a sound state in which sockets keep their owners, and sound tasks. -/
structure Leaves (proxy : UdpProxy Net Ip) (servers : Text → Option (List UdpBackendServer))
    (s s' : State Ip) (next : List (UdpTask Ip)) : Prop where
  core : Core proxy servers s'
  later : ∀ socket client, s.owner socket = some client → s'.owner socket = some client
  tasks : ∀ task ∈ next, TaskOk proxy servers s'.owner task

lemma Core.ends (h : Core proxy servers s') (howner : s'.owner = s.owner) :
    Leaves proxy servers s s' [] :=
  ⟨h, fun _ _ hsocket => howner ▸ hsocket, nofun⟩

lemma Core.goesOn (h : Core proxy servers s') (howner : s'.owner = s.owner)
    (htask : TaskOk proxy servers s.owner task) :
    Leaves proxy servers s s' [task] :=
  ⟨h, fun _ _ hsocket => howner ▸ hsocket, forall_mem_singleton.mpr (howner ▸ htask)⟩

lemma advance_handle_new (hservices : s.services = managed servers)
    (hnone : s.sessions.get client = none) (data : List UInt8)
    {service : Text}
    (hselect : (proxy.selectBackend (managed servers) client).1 = some (backend, service)) :
    proxy.advance s (.handle client data) .done =
      some (s, [.bind client data backend service]) := by
  have hkept := selectBackend_managed proxy servers client
  rw [advance, hnone]
  dsimp only
  rw [hservices, hselect, hkept, ← hservices]
  rfl

lemma advance_handle_session (proxy : UdpProxy Net Ip) {session : UdpSession Ip}
    (hsession : s.sessions.get client = some session) (data : List UInt8) :
    proxy.advance s (.handle client data) .done = some (
      { s with sessions := s.sessions.insert client { session with lastActivity := s.now } },
      [.forward client data session.backendAddr session.backendSocket false]) := by
  rw [advance, hsession]
  dsimp only
  rw [UdpProxy.touch, hsession]

lemma Core.advance_respond (h : Core proxy servers s) {socket response : ℕ}
    {sender : SocketAddr Ip} {payload : List UInt8}
    (htask : TaskOk proxy servers s.owner
      (.respond client socket response sender payload)) :
    ReplyOk proxy servers ⟨client, payload, response, socket, sender,
      (s.sessions.get client).map UdpSession.backendAddr⟩ where
  source := htask.2
  session backend hbackend := by
    obtain ⟨session, hsession, rfl⟩ := map_eq_some_iff.mp hbackend
    exact (h.sessions client session hsession).2

/-- **A task goes on** from a sound state. -/
theorem Core.advance {input : Input Ip} {next : List (UdpTask Ip)}
    (h : Core proxy servers s) (htask : TaskOk proxy servers s.owner task)
    (hadvance : proxy.advance s task input = some (s', next)) :
    Leaves proxy servers s s' next := by
  -- one case for each place at which a task waits and each input that ends the wait
  revert hadvance
  fun_cases proxy.advance s task input <;> intro hadvance <;> cases hadvance
  case case1 client data session hsession =>
    exact h.touch.goesOn owner_touch (h.sessions client session hsession)
  case case2 client data _ r =>
    have hr : r = proxy.selectBackend (managed servers) client := h.services ▸ rfl
    refine ⟨{ h with services := ?_ }, fun _ _ => id, fun task htask => ?_⟩
    · exact hr ▸ selectBackend_managed proxy servers client
    · obtain ⟨⟨backend, service⟩, hselect, rfl⟩ := mem_map.mp htask
      rw [hr, mem_toList] at hselect
      exact congrArg (Option.map Prod.fst) hselect
  case case3 =>
    -- the socket is a new one, so that the others keep their owners
    exact ⟨h.newSession _ htask, fun _ _ => h.owner_update,
      forall_mem_singleton.mpr ⟨update_self _ _ _, htask⟩⟩
  case case4 | case6 | case8 => exact h.ends rfl
  case case5 client data backend socket isNew =>
    have hforwarded := h.forwarded (f := ⟨client, data, socket, backend⟩) htask.2
    cases isNew with
    | true => exact hforwarded.goesOn (s := s) rfl htask.1
    | false => exact hforwarded.ends rfl
  case case7 =>
    -- the entrypoint's socket is in use since the start, so the new one is not it
    refine h.bound.goesOn (s := s) rfl ?_
    exact ⟨htask, Nat.ne_of_gt h.nextSocket_pos⟩
  case case9 =>
    split
    · exact h.goesOn rfl htask
    · exact h.goesOn rfl trivial
  case case10 => exact h.touch.goesOn owner_touch htask
  case case11 | case12 => exact h.goesOn rfl trivial
  case case13 => exact (h.replied (h.advance_respond htask)).goesOn (s := s) rfl htask
  case case14 => exact h.goesOn rfl htask
  case case15 client => exact (h.erase client).ends rfl

/-! ### Runs -/

lemma Sound.step {a : Action Ip} (h : Sound proxy servers s)
    (hstep : proxy.step s a = some s') :
    Sound proxy servers s' := by
  cases a with
  | datagram client data =>
    obtain rfl := some.inj hstep
    exact { h with
      tasks := forall_mem_append.mpr ⟨h.tasks, forall_mem_singleton.mpr trivial⟩ }
  | proceed idx input =>
    obtain ⟨task, htask, hnext⟩ := bind_eq_some_iff.mp hstep
    obtain ⟨⟨s₁, next⟩, hadvance, rfl⟩ := map_eq_some_iff.mp hnext
    have hleaves := h.toCore.advance (h.tasks task (mem_of_getElem? htask)) hadvance
    refine { hleaves.core with tasks := forall_mem_append.mpr ⟨fun task' htask' => ?_, ?_⟩ }
    · exact (h.tasks task' (mem_of_mem_eraseIdx htask')).later hleaves.later
    · exact hleaves.tasks
  | tick d =>
    obtain rfl := some.inj hstep
    exact { h with }
  | collect =>
    obtain rfl := some.inj hstep
    exact { h with }
  | expire =>
    rw [UdpProxy.step] at hstep
    split at hstep
    · next client expired _ =>
      obtain rfl := some.inj hstep
      exact { h.toCore.erase client with tasks := h.tasks }
    · cases hstep

lemma sound_of_any_run {as : List (Action Ip)} {t : State Ip}
    (h : Run proxy.step (fun _ _ => True) (start Ip servers) as t) :
    Sound proxy servers t :=
  h.invariant (sound_start proxy servers) fun _ _ _ hs _ hstep => hs.step hstep

/-! ## Replies -/

/-- From the backend of the client's session, by the socket of the entrypoint. -/
def Authentic (r : Reply Ip) : Prop :=
  r.sessionBackend = some r.sender ∧ r.source = entrypointSocket

/-- The replies of a run are all authentic only if there is none. The payloads are those of the
backends' if a listener only gets datagrams from the backend of its client, and passes them on
while the client has a session. -/
theorem replies_authentic_iff {as : List (Action Ip)} {t : State Ip}
    (h : Run proxy.step (fun _ _ => True) (start Ip servers) as t) :
    ((∀ r ∈ t.replies, Authentic r) ↔ t.replies = []) ∧
    ((∀ r ∈ t.replies, r.sessionBackend = some r.sender) ↔
      ∀ r ∈ t.replies, proxy.backendOf servers r.client = some r.sender ∧
        r.sessionBackend ≠ none) := by
  have hsound := sound_of_any_run h
  refine ⟨⟨fun hall => ?_, fun hnone => ?_⟩, forall₂_congr fun r hr => ?_⟩
  · -- a reply is never from the entrypoint's socket
    refine eq_nil_iff_forall_not_mem.mpr fun r hr => ?_
    exact (hsound.replies r hr).source (hall r hr).2
  · rw [hnone]
    nofun
  · exact (hsound.replies r hr).sessionBackend_eq_some_iff

end Runs

def oneServerProxy : UdpProxy Text Text where
  router := ⟨fun _ => none, fun _ => some ⟨['r'], ['s'], [], .catchAll, 0⟩⟩
  entrypoint := ['e']
  sessionTimeout := 60
  hashIp _ := 0
  parseAddr address := some ⟨address, 53⟩

def oneServer (_ : Text) : Option (List UdpBackendServer) := some [⟨['b'], 1⟩]

def someClient : SocketAddr Text := ⟨['c'], 4000⟩

def theBackend : SocketAddr Text := ⟨['b'], 53⟩

def aStranger : SocketAddr Text := ⟨['x'], 9⟩

/-- A client sends a datagram, and something comes in at the socket of its session. -/
def exchange (sender : SocketAddr Text) : List (Action Text) :=
  [.datagram someClient [1], .proceed 0 .done, .proceed 0 .done, .proceed 0 .done, .proceed 0 .done,
    .proceed 0 .done, .proceed 0 (.received sender [2]), .proceed 0 .done]

theorem replies_authentic_iff_exchange :
    ∃ t, Run oneServerProxy.step (fun _ _ => True) (start Text oneServer) (exchange theBackend) t ∧
      ((∀ r ∈ t.replies, Authentic r) ↔ t.replies = []) ∧
      ((∀ r ∈ t.replies, r.sessionBackend = some r.sender) ↔
        ∀ r ∈ t.replies, oneServerProxy.backendOf oneServer r.client = some r.sender ∧
          r.sessionBackend ≠ none) := by
  have hsome :
      ((exchange theBackend).foldlM oneServerProxy.step (start Text oneServer)).isSome := by
    decide +kernel
  obtain ⟨t, ht⟩ := isSome_iff_exists.mp hsome
  exact ⟨t, .of_foldlM ht, replies_authentic_iff (.of_foldlM ht)⟩

/-- **The reply of a backend comes from another socket than the client's datagram went to**, and
what a stranger sends to the session's socket is passed on as well. -/
theorem replies_from_elsewhere :
    entrypointSocket = 0 ∧
      ((exchange theBackend).foldlM oneServerProxy.step (start Text oneServer)).map State.replies =
        some [⟨someClient, [2], 2, 1, theBackend, some theBackend⟩] ∧
      ((exchange aStranger).foldlM oneServerProxy.step (start Text oneServer)).map State.replies =
        some [⟨someClient, [2], 2, 1, aStranger, some theBackend⟩] := by
  refine ⟨rfl, by decide +kernel, by decide +kernel⟩

end UdpProxy

end TrafficCop
