import TrafficCop.Stream.UdpListeners

/-!
# How long UDP sessions live

A session ends by its age in two ways. `cleanup_expired_sessions` goes by `last_activity`, which
datagrams of client and backend refresh. `listen_for_responses` goes by its own wait at the
session's socket, which datagrams of the client do not end.
-/

namespace TrafficCop

open Rust Transition List Option

namespace UdpProxy

def UdpTask.leaving {Ip : Type} : UdpTask Ip → Option (SocketAddr Ip)
  | .leave client => some client
  | _ => none

section Activity

variable {Net Ip : Type} [IpCrate Net Ip] [DecidableEq Ip] (proxy : UdpProxy Net Ip)

/-- Nothing was handled at a socket for as long as a session may last. -/
def Idle (w : Trace Ip) (socket : ℕ) : Prop :=
  ∀ time, (socket, time) ∈ w.handled → time + proxy.sessionTimeout ≤ w.state.now

/-- The client whose session is removed by age: by its listener's time-out or the cleanup. -/
def agedOut (w : Trace Ip) : Action Ip → Option (SocketAddr Ip)
  | .proceed idx .done => w.tasks[idx]?.bind fun t => if t.timedOut then t.task.leaving else none
  | .expire => w.state.expired.head?
  | _ => none

/-- No socket fails. -/
def Working : Action Ip → Prop
  | .proceed _ .failed => False
  | _ => True

/-- Sessions are removed by their age only when they are idle. -/
def RemovesIdle (servers : Text → Option (List UdpBackendServer)) : Prop :=
  ∀ as w a client session, Run proxy.tracedStep proxy.Timely (traceStart Ip servers) as w →
    agedOut w a = some client → w.state.sessions.get client = some session →
      proxy.Idle w session.backendSocket

/-- A client served again and again before its session is idle keeps session and socket. -/
def KeepsUsed (servers : Text → Option (List UdpBackendServer)) : Prop :=
  ∀ before u as w client socket,
    Run proxy.tracedStep proxy.Timely (traceStart Ip servers) before u →
      sessionSocket u.state client = some socket →
        Run proxy.tracedStep (fun w a => proxy.Timely w a ∧ ¬proxy.Idle w socket ∧ Working a)
          u as w →
          sessionSocket w.state client = some socket

variable {proxy : UdpProxy Net Ip} {servers : Text → Option (List UdpBackendServer)}
  {s s' : State Ip} {w w' : Trace Ip} {a : Action Ip} {client c : SocketAddr Ip}
  {session : UdpSession Ip}

/-! ## What `last_activity` records -/

lemma get_touch (h : (touch s client).sessions.get c = some session) :
    (c = client ∧ session.lastActivity = s.now) ∨
      (c ≠ client ∧ s.sessions.get c = some session) := by
  rw [touch] at h
  split at h
  · rw [HashMap.get_insert] at h
    split at h
    · next heq =>
      obtain rfl := some.inj h
      exact .inl ⟨heq, rfl⟩
    · next hne => exact .inr ⟨hne, h⟩
  · next hnone =>
    refine .inr ⟨?_, h⟩
    rintro rfl
    rw [hnone] at h
    cases h

lemma now_touch (s : State Ip) (client : SocketAddr Ip) : (touch s client).now = s.now := by
  rw [touch]
  split <;> rfl

lemma Core.socket_ne (h : Core proxy servers s) {socket : ℕ} (howner : s.owner socket = some client)
    (hne : c ≠ client) (hget : s.sessions.get c = some session) :
    some socket ≠ some session.backendSocket := by
  intro heq
  have hc := (h.sessions c session hget).1
  rw [← some.inj heq, howner] at hc
  exact hne (some.inj hc).symm

lemma used_or_same {task : UdpTask Ip} {input : Input Ip} {next : List (UdpTask Ip)}
    (h : Core proxy servers s) (htask : TaskOk proxy servers s.owner task)
    (hadvance : proxy.advance s task input = some (s', next)) :
    s'.now = s.now ∧ ∀ c session, s'.sessions.get c = some session →
      session.lastActivity = s.now ∨
        (s.sessions.get c = some session ∧
          handledFor s task input ≠ some session.backendSocket) := by
  revert hadvance
  fun_cases proxy.advance s task input <;> intro hadvance <;> cases hadvance
  case case1 client data own hown =>
    refine ⟨now_touch s client, fun c session hget => ?_⟩
    rcases get_touch hget with ⟨-, hlast⟩ | ⟨hne, hget⟩
    · exact .inl hlast
    · refine .inr ⟨hget, ?_⟩
      rw [handledFor, hown]
      exact h.socket_ne (h.sessions client own hown).1 hne hget
  case case2 hnone _ =>
    refine ⟨rfl, fun c session hget => .inr ⟨hget, ?_⟩⟩
    rw [handledFor, hnone]
    exact (some_ne_none _).symm
  case case3 =>
    refine ⟨rfl, fun c session hget => ?_⟩
    rw [HashMap.get_insert] at hget
    split at hget
    · cases hget
      exact .inl rfl
    · -- the new socket is nobody's so far
      refine .inr ⟨hget, fun heq => ?_⟩
      have howner := (h.sessions c session hget).1
      rw [← some.inj heq, h.unowned _ le_rfl] at howner
      cases howner
  case case10 client socket _ _ _ =>
    refine ⟨now_touch s client, fun c session hget => ?_⟩
    rcases get_touch hget with ⟨-, hlast⟩ | ⟨hne, hget⟩
    · exact .inl hlast
    · exact .inr ⟨hget, h.socket_ne htask.1 hne hget⟩
  case case15 =>
    exact ⟨rfl, fun _ _ hget =>
      Or.inr ⟨HashMap.get_of_get_erase hget, (some_ne_none _).symm⟩⟩
  -- the others neither handle a datagram nor touch the sessions
  all_goals exact ⟨rfl, fun _ _ hget => .inr ⟨hget, (some_ne_none _).symm⟩⟩

/-- What was handled is not later than now, nor than the `last_activity` of a session still there.
-/
structure Recorded (w : Trace Ip) : Prop where
  past : ∀ socket time, (socket, time) ∈ w.handled → time ≤ w.state.now
  last : ∀ client session, w.state.sessions.get client = some session →
    ∀ time, (session.backendSocket, time) ∈ w.handled → time ≤ session.lastActivity

lemma Recorded.step (h : Recorded w)
    (hsound : Sound proxy servers w.plain) (hstep : proxy.tracedStep w a = some w') :
    Recorded w' := by
  cases a with
  | datagram client data =>
    obtain rfl := some.inj hstep
    exact ⟨h.past, h.last⟩
  | proceed idx input =>
    obtain ⟨t, htask, hnext⟩ := bind_eq_some_iff.mp hstep
    obtain ⟨⟨s', next⟩, hadvance, rfl⟩ := map_eq_some_iff.mp hnext
    have htaskOk := hsound.tasks t.task (mem_map_of_mem (mem_of_getElem? htask))
    obtain ⟨hnow, hsessions⟩ := used_or_same hsound.toCore htaskOk hadvance
    -- what is handled in this step is handled now
    have hnew : ∀ socket time,
        (socket, time) ∈ (handledFor w.plain t.task input).toList.map (·, w.state.now) →
          handledFor w.plain t.task input = some socket ∧ time = w.state.now := by
      intro socket time hmem
      obtain ⟨socket', hsocket, heq⟩ := mem_map.mp hmem
      obtain ⟨rfl, rfl⟩ := Prod.mk.inj heq
      exact ⟨mem_toList.mp hsocket, rfl⟩
    refine ⟨fun socket time hmem => ?_, fun client session hget time hmem => ?_⟩
    · show time ≤ s'.now
      rw [hnow]
      rcases mem_append.mp hmem with hmem | hmem
      · exact h.past socket time hmem
      · exact (hnew socket time hmem).2.le
    · rcases hsessions client session hget with hlast | ⟨hsame, hne⟩
      · rw [hlast]
        rcases mem_append.mp hmem with hmem | hmem
        · exact h.past _ time hmem
        · exact (hnew _ time hmem).2.le
      · rcases mem_append.mp hmem with hmem | hmem
        · exact h.last client session hsame time hmem
        · exact absurd (hnew _ time hmem).1 hne
  | tick d =>
    obtain rfl := some.inj hstep
    exact ⟨fun socket time hmem => (h.past socket time hmem).trans (Nat.le_add_right _ d), h.last⟩
  | collect =>
    obtain rfl := some.inj hstep
    exact ⟨h.past, h.last⟩
  | expire =>
    obtain ⟨s', hexpire, rfl⟩ := map_eq_some_iff.mp hstep
    rw [UdpProxy.step] at hexpire
    split at hexpire
    · obtain rfl := some.inj hexpire
      exact ⟨h.past, fun c session hget => h.last c session (HashMap.get_of_get_erase hget)⟩
    · cases hexpire

lemma recorded_of_run {allowed : Trace Ip → Action Ip → Prop} {as : List (Action Ip)}
    (h : Run proxy.tracedStep allowed (traceStart Ip servers) as w) : Recorded w := by
  induction h with
  | refl => exact ⟨by simp [traceStart], by simp [traceStart]⟩
  | snoc hrun _ hlast ih => exact ih.step (sound_of_any_run (run_plain hrun)) hlast

omit [IpCrate Net Ip] in
lemma Recorded.idle (h : Recorded w) (hget : w.state.sessions.get client = some session)
    (hold : session.lastActivity + proxy.sessionTimeout ≤ w.state.now) :
    proxy.Idle w session.backendSocket := by
  intro time hmem
  have hle := h.last client session hget time hmem
  omega

/-! ## The proxies whose sessions live while they are used -/

/-- **Sessions live while they are used** for exactly those proxies that give them no time, or no
client a backend. What `cleanup_expired_sessions` finds has not been used for as long as a session
may last. -/
theorem udp_activity_iff (proxy : UdpProxy Net Ip)
    (servers : Text → Option (List UdpBackendServer)) :
    (RemovesIdle proxy servers ∧ KeepsUsed proxy servers ↔
      proxy.sessionTimeout = 0 ∨ ∀ client, proxy.backendOf servers client = none) ∧
    ∀ as w client session, Run proxy.tracedStep proxy.Timely (traceStart Ip servers) as w →
      w.state.sessions.get client = some session →
        proxy.sessionTimeout < w.state.now - session.lastActivity →
          proxy.Idle w session.backendSocket := by
  refine ⟨⟨fun ⟨hremoves, _⟩ => ?_, ?_⟩, fun as w client session hrun hget hold => ?_⟩
  · refine or_iff_not_imp_left.mpr fun hne client => ?_
    by_contra hsome
    obtain ⟨backend, hbackend⟩ := ne_none_iff_exists'.mp hsome
    obtain ⟨as, w, t, session, hrun, htask, hleave, -, htimedOut, hget, hsocket, hhandled, -⟩ :=
      exists_outlasted hbackend
    have haged : agedOut w (.proceed 2 .done) = some client := by
      rw [agedOut, htask, bind_some, if_pos htimedOut, hleave]
      rfl
    have hidle := hremoves as w _ client session hrun haged hget _ (hsocket ▸ hhandled)
    omega
  · rintro (hzero | hnone)
    · -- sessions are idle at once
      have hidle : ∀ {w : Trace Ip}, Recorded w → ∀ socket, proxy.Idle w socket := by
        intro w h socket time hmem
        rw [hzero]
        exact h.past socket time hmem
      refine ⟨fun as w a client session hrun _ _ => hidle (recorded_of_run hrun) _, ?_⟩
      intro before u as w client socket hbefore hsession hrun
      -- so a run in which one is used is over
      have hsame : w = u ∧ ∀ socket, proxy.Idle w socket := by
        refine hrun.invariant (I := fun w => w = u ∧ ∀ socket, proxy.Idle w socket)
          ⟨rfl, hidle (recorded_of_run hbefore)⟩ ?_
        intro t a t' h hallowed _
        exact absurd (h.2 socket) hallowed.2.1
      rw [hsame.1, hsession]
    · -- there are no sessions
      refine ⟨fun as w a client session hrun _ hget => ?_, ?_⟩
      · have hsocket := sessionSocket_eq_none hnone hrun client
        rw [sessionSocket, hget] at hsocket
        cases hsocket
      · intro before u as w client socket hbefore hsession
        rw [sessionSocket_eq_none hnone hbefore] at hsession
        cases hsession
  · exact (recorded_of_run hrun).idle hget (by omega)

end Activity

/-- A session, its listener, and a second datagram 40 seconds later; the wait is over after 60. -/
def outlasted : List (Action Text) :=
  [.datagram someClient [1], .proceed 0 .done, .proceed 0 .done, .proceed 0 .done, .proceed 0 .done,
    .proceed 0 .done, .tick 40, .datagram someClient [2], .proceed 1 .done, .tick 20,
    .proceed 0 .timedOut]

/-- **The session is removed 20 seconds after a datagram of its client.** -/
theorem udp_activity_outlasted :
    oneServerProxy.sessionTimeout = 60 ∧
    (outlasted.foldlM oneServerProxy.tracedStep (traceStart Text oneServer)).map (fun w =>
        (agedOut w (.proceed 1 .done), sessionSocket w.state someClient, w.handled, w.state.now)) =
      some (some someClient, some 1, [(1, 0), (1, 40)], 60) ∧
    ((outlasted ++ [Action.proceed 1 .done]).foldlM oneServerProxy.tracedStep
        (traceStart Text oneServer)).map (fun w : Trace Text =>
        (sessionSocket w.state someClient, w.state.now)) = some (none, 60) :=
  ⟨rfl, by decide +kernel, by decide +kernel⟩

end UdpProxy

end TrafficCop
