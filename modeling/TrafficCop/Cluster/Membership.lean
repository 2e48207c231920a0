import TrafficCop.Store.NodeKey

/-!
# Membership of a node

One node's `ClusterManager` (`cluster/manager.rs`) against `ValkeyStore`: it registers the node
once, then sends heartbeats until it shuts down, and other nodes call `node_list` at any time. The
store may be out of reach for as long as it likes.

A heartbeat refreshes the key if there is one; if there is none it returns `Ok` and leaves it at
that, and nothing ever puts the id back into the set.
-/

namespace TrafficCop

open Option

namespace NodeKey

namespace State

open Rust Store Transition

variable {ι : Type}

/-- A registration has returned `Ok`. -/
def Registered (c : ι → Call) (s : State ι) : Prop :=
  ∃ r info, c r = .register info ∧ s.phase r = .returned true

/-- `ClusterManager::new` registers the node and then starts the heartbeats. -/
def Managed (c : ι → Call) (s : State ι) (a : Action ι) : Prop :=
  ∀ i n, a.call = some i → c i = .heartbeat n → s.phase i = .idle → Registered c s

/-- There is one registration. -/
def RegistersOnce (c : ι → Call) : Prop :=
  ∀ r r' info info', c r = .register info → c r' = .register info' → r = r'

/-- The key exists, or a call has read it and may write it back. -/
def Alive (s : State ι) : Prop :=
  s.stored.isSome = true ∨ ∃ j info, s.phase j = .holding info

/-- The next command of the call is the `SREM` of `node_list` or `node_deregister`. -/
def Removes (c : ι → Call) (s : State ι) (i : ι) : Prop :=
  c i = .deregister ∧ s.phase i = .deregistering ∨ c i = .list ∧ s.phase i = .stale

/-- A heartbeat finds the key, and a registered node leaves the set only when its key is gone. -/
def Present (c : ι → Call) (s : State ι) : Action ι → Prop
  | .exec i _ => (∀ n, c i = .heartbeat n → s.phase i = .idle → s.stored.isSome = true) ∧
      (Removes c s i → Registered c s → ¬s.Alive)
  | .lose i _ => Removes c s i → Registered c s → ¬s.Alive
  | _ => True

/-- A registered node that is alive is in `nodes_set`. -/
def Listed (c : ι → Call) (s : State ι) : Prop := Registered c s → s.Alive → s.member = true

variable [DecidableEq ι] {c : ι → Call} {s s' : State ι} {a : Action ι} {i : ι}
  {wallMillis : UInt64} {call : Call}

lemma Registered.step (h : Registered c s) (hstep : step c s a = some s') : Registered c s' := by
  obtain ⟨r, info, hcall, hphase⟩ := h
  exact ⟨r, info, hcall, step_returned hstep hphase⟩

lemma alive_setPhase {phase : Phase} (hphase : ∀ info, phase ≠ .holding info)
    (h : (s.setPhase i phase).Alive) : s.Alive := by
  rcases h with hstored | ⟨j, info, hj⟩
  · exact .inl hstored
  · by_cases hji : j = i
    · rw [hji, setPhase_phase_self] at hj
      exact absurd hj (hphase info)
    · rw [setPhase_phase_of_ne _ hji] at hj
      exact .inr ⟨j, info, hj⟩

lemma Did.listed (hdid : Did s i wallMillis (c i) s') (hone : RegistersOnce c)
    (hregistered : Registered c s) (hlisted : Listed c s)
    (hremoves : Removes c s i → ¬s.Alive) (halive : s'.Alive) : s'.member := by
  have hmember : s.Alive → s.member := hlisted hregistered
  generalize hcall : c i = call at hdid
  cases hdid with
  | setRegistration hphase =>
    -- the node has registered already
    obtain ⟨r, info, hr, hreturned⟩ := hregistered
    rw [hone i r _ _ hcall hr, hreturned] at hphase
    cases hphase
  | addMember _ => rfl
  | read _ _ hstored => exact hmember (Or.inl (by rw [hstored]; rfl))
  | readNothing _ _ _ => exact hmember (alive_setPhase (by simp) halive)
  | writeHeartbeat hphase => exact hmember (Or.inr ⟨i, _, hphase⟩)
  | writeStatus hphase => exact hmember (Or.inr ⟨i, _, hphase⟩)
  | publish _ => exact hmember (alive_setPhase (by simp) halive)
  | delete _ =>
    rcases alive_setPhase (by simp) halive with hstored | hholding
    · cases hstored
    · exact hmember (Or.inr hholding)
  | removeSelf hphase =>
    have halive : s.Alive := alive_setPhase (by simp) halive
    exact absurd halive (hremoves (Or.inl ⟨hcall, hphase⟩))
  | members _ => exact hmember (alive_setPhase (by intro info; split <;> simp) halive)
  | lookUp _ => exact hmember (alive_setPhase (by intro info; split <;> simp) halive)
  | removeStale hphase =>
    have halive : s.Alive := alive_setPhase (by simp) halive
    exact absurd halive (hremoves (Or.inr ⟨hcall, hphase⟩))

lemma registered_or_member (hstep : step c s a = some s') (h : Registered c s') :
    Registered c s ∨ s'.member := by
  obtain ⟨r, info, hcall, hreturned⟩ := h
  by_cases hown : a.call = some r
  · match a with
    | .exec i wallMillis =>
      obtain rfl := some.inj hown
      have hdid := did_of_command hstep
      rw [hcall] at hdid
      cases hdid with
      | setRegistration _ => simp at hreturned
      | addMember _ => exact .inr rfl
      | read hupdate _ _ => simp at hupdate
      | readNothing hupdate _ _ => simp at hupdate
    | .fail i =>
      obtain rfl := some.inj hown
      rw [step] at hstep
      split at hstep
      · cases hstep
      · obtain rfl := some.inj hstep
        simp [failed, hcall] at hreturned
    | .lose i wallMillis =>
      obtain rfl := some.inj hown
      obtain ⟨u, hu, rfl⟩ := map_eq_some_iff.mp hstep
      simp [failed, hcall] at hreturned
  · exact .inl ⟨r, info, hcall, (step_phase hstep hown).symm.trans hreturned⟩

lemma failed_ne_holding (call : Call) (phase : Phase) (info : NodeInfo) :
    failed call phase ≠ .holding info := by
  unfold failed
  split <;> simp

lemma step_listed (hone : RegistersOnce c) (hlisted : Listed c s) (hpresent : Present c s a)
    (hstep : step c s a = some s') : Listed c s' := by
  intro hregistered' halive
  rcases registered_or_member hstep hregistered' with hregistered | hmember
  · match a with
    | .advance nanos =>
      obtain rfl := some.inj hstep
      -- time can only let the key expire
      have halive : s.Alive := by
        refine halive.imp_left fun hstored => ?_
        rw [stored] at hstored ⊢
        rcases hkey : s.key with _ | ⟨info, expires⟩
        · simp [hkey] at hstored
        · simp only [hkey] at hstored ⊢
          split at hstored
          · next hlt => rw [if_pos (by omega)]; rfl
          · cases hstored
      exact hlisted hregistered halive
    | .exec i wallMillis =>
      exact (did_of_command hstep).listed hone hregistered hlisted
        (fun hremoves => hpresent.2 hremoves hregistered) halive
    | .fail i =>
      rw [step] at hstep
      split at hstep
      · cases hstep
      · obtain rfl := some.inj hstep
        exact hlisted hregistered (alive_setPhase (failed_ne_holding _ _) halive)
    | .lose i wallMillis =>
      obtain ⟨u, hu, rfl⟩ := map_eq_some_iff.mp hstep
      exact (did_of_command hu).listed hone hregistered hlisted
        (fun hremoves => hpresent hremoves hregistered)
        (alive_setPhase (failed_ne_holding _ _) halive)
  · exact hmember

/-- Heartbeats start when the registration has returned. -/
def Begun (c : ι → Call) (s : State ι) : Prop :=
  ∀ i n, c i = .heartbeat n → s.phase i ≠ .idle → Registered c s

lemma step_begun (hbegun : Begun c s) (hmanaged : Managed c s a)
    (hstep : step c s a = some s') : Begun c s' := by
  intro i n hcall hphase
  by_cases hidle : s.phase i = .idle
  · -- the heartbeat begins with this step
    have hown : a.call = some i := by
      by_contra hother
      rw [step_phase hstep hother] at hphase
      exact hphase hidle
    exact (hmanaged i n hown hcall hidle).step hstep
  · exact (hbegun i n hcall hidle).step hstep

lemma run_listed (hone : RegistersOnce c) (hidle : ∀ i, s.phase i = .idle)
    {as : List (Action ι)} {t : State ι}
    (hrun : Run (step c) (fun u a => Managed c u a ∧ Present c u a) s as t) :
    Listed c t ∧ Begun c t := by
  refine hrun.invariant (I := fun t => Listed c t ∧ Begun c t) ⟨?_, ?_⟩ ?_
  · rintro ⟨r, info, -, hreturned⟩
    simp [hidle r] at hreturned
  · exact fun i n _ hphase => absurd (hidle i) hphase
  · rintro t a t' ⟨hlisted, hbegun⟩ ⟨hmanaged, hpresent⟩ hstep
    exact ⟨step_listed hone hlisted hpresent hstep, step_begun hbegun hmanaged hstep⟩

/-- **A heartbeat that succeeds finds the node in the cluster**, in every run in which no heartbeat
finds the key gone and a registered node is taken out of the set only when its key is gone for
good; and from then on the id is in the set as long as the key exists. -/
theorem heartbeat_present (c : ι → Call) (hone : RegistersOnce c) (s : State ι)
    (hidle : ∀ i, s.phase i = .idle) {as : List (Action ι)} {t : State ι}
    (hrun : Run (step c) (fun u a => Managed c u a ∧ Present c u a) s as t) :
    (∀ before i n wallMillis, as = before ++ [.exec i wallMillis] → c i = .heartbeat n →
      t.phase i = .returned true → t.stored.isSome = true ∧ t.member = true) ∧
    ∀ i n, c i = .heartbeat n → t.phase i = .returned true → t.stored.isSome = true →
      t.member = true := by
  obtain ⟨hlisted, hbegun⟩ := run_listed hone hidle hrun
  have hmember : ∀ i n, c i = .heartbeat n → t.phase i = .returned true →
      t.stored.isSome → t.member := by
    intro i n hcall hreturned hstored
    exact hlisted (hbegun i n hcall (by simp [hreturned])) (Or.inl hstored)
  refine ⟨?_, hmember⟩
  rintro before i n wallMillis rfl hcall hreturned
  obtain ⟨u, hu, ⟨-, hpresent⟩, hstep⟩ := hrun.of_concat
  -- the last command of a heartbeat has written the key, or it has found none
  have hstored : t.stored.isSome := by
    have hdid : Did u i wallMillis (.heartbeat n) t := hcall ▸ did_of_command hstep
    cases hdid with
    | read _ _ _ => simp at hreturned
    | readNothing _ hphase hnone =>
      have := hpresent.1 n hcall hphase
      simp [hnone] at this
    | writeHeartbeat _ => simp
  exact ⟨hstored, hmember i n hcall hreturned hstored⟩

variable {info : NodeInfo} {expires : ℕ} {u : State Caller}

omit [DecidableEq ι] in
lemma stored_of_expired (hexpired : expires ≤ s.now)
    (hkey : s.key = some (info, expires)) : s.stored = none := by
  rw [stored, hkey]
  exact if_neg (by omega)

lemma exec_of_expired {n : UInt64} (hexpired : expires ≤ s.now)
    (hkey : s.key = some (info, expires)) (hcall : c i = .heartbeat n)
    (hphase : s.phase i = .idle) :
    step c s (.exec i wallMillis) = some (s.setPhase i (.returned true)) := by
  simp [step, command, read, hcall, hphase, stored_of_expired hexpired hkey]

inductive Caller where
  | registration
  | heartbeat
  | lister
  deriving DecidableEq

def lifeOfNode : Caller → Call
  | .registration => .register registeredNode
  | .heartbeat => .heartbeat 5
  | .lister => .list

def beforeStart (member : Bool) : State Caller := ⟨0, none, member, 0, fun _ => .idle⟩

lemma registersOnce_lifeOfNode : RegistersOnce lifeOfNode := by
  rintro (_ | _ | _) (_ | _ | _) info info' h h' <;>
    simp_all [lifeOfNode]

lemma managed_of_ne (u : State Caller) (wallMillis : UInt64) {i : Caller} (hi : i ≠ .heartbeat) :
    Managed lifeOfNode u (.exec i wallMillis) := by
  rintro j n hj hcall -
  cases hj
  cases i <;> simp_all [lifeOfNode]

lemma managed_of_registered (wallMillis : UInt64) (hu : u.phase .registration = .returned true) :
    Managed lifeOfNode u (.exec .heartbeat wallMillis) :=
  fun _ _ _ _ _ => ⟨.registration, registeredNode, rfl, hu⟩

lemma present_of_ne (wallMillis : UInt64) {i : Caller} (hi : i ≠ .lister)
    (hfound : i = .heartbeat → u.phase i = .idle → u.stored.isSome) :
    Present lifeOfNode u (.exec i wallMillis) := by
  refine ⟨fun n hcall hphase => hfound ?_ hphase, fun hremoves => absurd hremoves ?_⟩
  · cases i <;> simp_all [lifeOfNode]
  · rintro (⟨hcall, -⟩ | ⟨hcall, -⟩) <;> cases i <;> simp_all [lifeOfNode]

theorem heartbeat_present_undisturbed :
    ∃ t, ([.exec .registration 0, .exec .registration 0, .exec .heartbeat 1, .exec .heartbeat 1] :
        List (Action Caller)).foldlM (step lifeOfNode) (beforeStart false) = some t ∧
      t.stored.isSome = true ∧ t.member = true := by
  have hrun : ∃ t, Run (step lifeOfNode)
      (fun u a => Managed lifeOfNode u a ∧ Present lifeOfNode u a) (beforeStart false)
      [.exec .registration 0, .exec .registration 0, .exec .heartbeat 1, .exec .heartbeat 1] t ∧
      t.phase .heartbeat = .returned true := by
    have hregistration : ∀ u, Managed lifeOfNode u (.exec .registration 0) ∧
        Present lifeOfNode u (.exec .registration 0) := fun u =>
      ⟨managed_of_ne u 0 (by decide), present_of_ne 0 (by decide) nofun⟩
    exact ⟨_, .cons (hregistration _) rfl (.cons (hregistration _) rfl
      (.cons ⟨managed_of_registered 1 rfl, present_of_ne 1 (by decide) fun _ _ => rfl⟩ rfl
      (.cons ⟨managed_of_registered 1 rfl, present_of_ne 1 (by decide) nofun⟩ rfl .refl))), rfl⟩
  obtain ⟨t, hrun, hreturned⟩ := hrun
  exact ⟨t, hrun.foldlM_eq, (heartbeat_present lifeOfNode registersOnce_lifeOfNode
    (beforeStart false) (fun _ => rfl) hrun).1
      [.exec .registration 0, .exec .registration 0, .exec .heartbeat 1] .heartbeat 5 1 rfl rfl
      hreturned⟩

/-- **A heartbeat can succeed without a node in the cluster.** The key expires in an outage, and
the next heartbeat returns `Ok` and leaves it so. Or another node finds no key for the id of an
earlier run, the node registers, and the other one takes the id out. -/
theorem heartbeat_without_node :
    (∃ t, Run (step lifeOfNode) (Managed lifeOfNode) (beforeStart false)
        [.exec .registration 0, .exec .registration 0, .advance (Redis.nanosPerSec * 60),
          .exec .heartbeat 60000] t ∧
      t.phase .heartbeat = .returned true ∧ t.stored = none) ∧
    ∃ t, Run (step lifeOfNode) (Managed lifeOfNode) (beforeStart true)
        [.exec .lister 0, .exec .lister 0, .exec .registration 0, .exec .registration 0,
          .exec .lister 0, .exec .heartbeat 1, .exec .heartbeat 1] t ∧
      t.phase .heartbeat = .returned true ∧ t.stored.isSome = true ∧ t.member = false := by
  refine ⟨⟨_, .cons (managed_of_ne _ _ (by decide)) rfl (.cons (managed_of_ne _ _ (by decide)) rfl
      (.cons ?_ rfl (.cons (managed_of_registered _ rfl)
      (exec_of_expired (Nat.le_refl _) rfl rfl rfl) .refl))),
      setPhase_phase_self _ _ _, stored_of_expired (Nat.le_refl _) rfl⟩,
    ⟨_, .cons (managed_of_ne _ _ (by decide)) rfl (.cons (managed_of_ne _ _ (by decide)) rfl
      (.cons (managed_of_ne _ _ (by decide)) rfl (.cons (managed_of_ne _ _ (by decide)) rfl
      (.cons (managed_of_ne _ _ (by decide)) rfl (.cons (managed_of_registered _ rfl) rfl
      (.cons (managed_of_registered _ rfl) rfl .refl)))))), rfl, rfl, rfl⟩⟩
  intro i n hi
  cases hi

end State

end NodeKey

end TrafficCop
