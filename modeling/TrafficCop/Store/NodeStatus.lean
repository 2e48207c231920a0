import TrafficCop.Store.NodeKey

/-!
# The status of a node under concurrent calls

`node_heartbeat` and `node_set_status` both read the record of the node and write it back with their
own fields changed. In `ValkeyStore` these are two commands, so a heartbeat that read before a
status was set, and writes afterwards, brings the old status back.
-/

namespace TrafficCop

open Rust Store Transition List Option

namespace NodeKey

namespace State

variable {ι : Type} [DecidableEq ι]

def statusOf (s : State ι) : Option NodeStatus := s.stored.map NodeInfo.status

/-- The key does not expire and no command fails. -/
def Calm (s : State ι) : Action ι → Prop
  | .advance nanos => ∀ info expires, s.key = some (info, expires) → s.now + nanos < expires
  | .exec _ _ => True
  | .fail _ => False
  | .lose _ _ => False

/-- A heartbeat that writes the record back finds the status that it has read. -/
def UpToDate (c : ι → Call) (s : State ι) : Action ι → Prop
  | .exec i _ => ∀ n info, c i = .heartbeat n → s.phase i = .holding info →
      s.statusOf = some info.status
  | _ => True

/-- Calls that read the record and write it back. -/
def Updates (c : ι → Call) : Prop :=
  ∀ i, (∃ n, c i = .heartbeat n) ∨ ∃ status, c i = .setStatus status

/-- Call `j` begins when call `i` has returned. -/
def Follows (c : ι → Call) (s : State ι) (as : List (Action ι)) (i j : ι) : Prop :=
  ∃ before wallMillis later u, as = before ++ .exec j wallMillis :: later ∧
    before.foldlM (step c) s = some u ∧ u.phase j = .idle ∧ ∃ ok, u.phase i = .returned ok

variable {c : ι → Call} {s t t' : State ι} {as : List (Action ι)} {a : Action ι} {i j : ι}
  {wallMillis : UInt64}

lemma Follows.of_concat (h : Follows c s (as ++ [a]) i j) (ht : as.foldlM (step c) s = some t) :
    Follows c s as i j ∨
      (∃ wallMillis, a = .exec j wallMillis) ∧ t.phase j = .idle ∧
        ∃ ok, t.phase i = .returned ok := by
  obtain ⟨before, wallMillis, later, u, has, hu, hj, hi⟩ := h
  cases later using List.reverseRecOn with
  | nil =>
    obtain ⟨rfl, hlast⟩ := append_inj' has rfl
    obtain rfl := Option.some.inj (ht.symm.trans hu)
    exact .inr ⟨⟨wallMillis, (List.cons.inj hlast).1⟩, hj, hi⟩
  | append_singleton later last =>
    rw [← cons_append, ← append_assoc] at has
    exact .inl ⟨before, wallMillis, later, u, (append_inj' has rfl).1, hu, hj, hi⟩

omit [DecidableEq ι] in
lemma stored_advance {nanos : ℕ} (hcalm : s.Calm (.advance nanos)) :
    stored { s with now := s.now + nanos } = s.stored := by
  rw [stored, stored]
  rcases hkey : s.key with _ | ⟨info, expires⟩
  · rfl
  · have hlt := hcalm info expires hkey
    dsimp only
    rw [if_pos hlt, if_pos (by omega)]

lemma heartbeat_keeps_status {n : UInt64} (hcall : c i = .heartbeat n)
    (hcurrent : UpToDate c t (.exec i wallMillis))
    (hstep : step c t (.exec i wallMillis) = some t') : t'.statusOf = t.statusOf := by
  have hdid : Did t i wallMillis (.heartbeat n) t' := hcall ▸ did_of_command hstep
  cases hdid with
  | read _ _ _ => rfl
  | readNothing _ _ _ => rfl
  | writeHeartbeat hphase =>
    rw [hcurrent n _ hcall hphase]
    simp [statusOf]

/-! ## The last status change -/

/-- The record has been written back. -/
def Phase.Wrote (phase : Phase) : Prop := phase = .notifying ∨ ∃ ok, phase = .returned ok

/-- Whose status is stored after a run: nobody's, or that of a call such that all changes begun
after its return are still to be written. -/
inductive LastSet (c : ι → Call) (s : State ι) (as : List (Action ι)) (t : State ι) : Prop
  | unset (hstatus : t.statusOf = s.statusOf)
      (hpending : ∀ j status, c j = .setStatus status →
        t.phase j = .idle ∨ ∃ info, t.phase j = .holding info)
  | setBy (i : ι) (status : NodeStatus) (hcall : c i = .setStatus status)
      (hstatus : t.statusOf = some status) (hwrote : Phase.Wrote (t.phase i))
      (hlater : ∀ j status', c j = .setStatus status' → Follows c s as i j →
        ∃ info, t.phase j = .holding info)

/-- What is known of the state behind a run. -/
structure Tracked (c : ι → Call) (s : State ι) (as : List (Action ι)) (t : State ι) : Prop where
  run : as.foldlM (step c) s = some t
  stored : t.stored.isSome = true
  returned : ∀ i j, Follows c s as i j → ∃ ok, t.phase i = .returned ok
  last : LastSet c s as t

lemma Tracked.init (hidle : ∀ i, s.phase i = .idle) (hstored : s.stored.isSome) :
    Tracked c s [] s := by
  refine ⟨rfl, hstored, ?_, .unset rfl fun j _ _ => .inl (hidle j)⟩
  rintro i j ⟨before, wallMillis, later, u, has, -⟩
  simp at has

lemma LastSet.of_same (h : LastSet c s as t) (hrun : as.foldlM (step c) s = some t)
    (hstatus : t'.statusOf = t.statusOf)
    (hphase : ∀ j status, c j = .setStatus status → t'.phase j = t.phase j)
    (hother : ∀ j status wallMillis, c j = .setStatus status → a ≠ .exec j wallMillis) :
    LastSet c s (as ++ [a]) t' := by
  rcases h with ⟨hsame, hpending⟩ | ⟨i, status, hcall, hset, hwrote, hlater⟩
  · exact .unset (hstatus.trans hsame) fun j status hj => hphase j status hj ▸ hpending j status hj
  · refine .setBy i status hcall (hstatus.trans hset) (hphase i status hcall ▸ hwrote) ?_
    intro j status' hj hfollows
    rw [hphase j status' hj]
    rcases hfollows.of_concat hrun with hfollows | ⟨⟨wallMillis, rfl⟩, -⟩
    · exact hlater j status' hj hfollows
    · exact absurd rfl (hother j status' wallMillis hj)

lemma LastSet.read (h : LastSet c s as t) (hrun : as.foldlM (step c) s = some t)
    (hidle : t.phase j = .idle) (info : NodeInfo) :
    LastSet c s (as ++ [.exec j wallMillis]) (t.setPhase j (.holding info)) := by
  have hphase : ∀ k, k ≠ j → (t.setPhase j (.holding info)).phase k = t.phase k :=
    fun k hk => setPhase_phase_of_ne t hk _
  rcases h with ⟨hsame, hpending⟩ | ⟨i, status, hcall, hset, hwrote, hlater⟩
  · refine .unset hsame fun k status hk => ?_
    by_cases hkj : k = j
    · subst hkj
      exact .inr ⟨info, setPhase_phase_self _ _ _⟩
    · rw [hphase k hkj]
      exact hpending k status hk
  · have hij : i ≠ j := by
      rintro rfl
      rw [hidle] at hwrote
      simp [Phase.Wrote] at hwrote
    refine .setBy i status hcall hset (hphase i hij ▸ hwrote) fun k status' hk hfollows => ?_
    rcases hfollows.of_concat hrun with hfollows | ⟨⟨wallMillis, heq⟩, -⟩
    · have hholding := hlater k status' hk hfollows
      have hkj : k ≠ j := by
        rintro rfl
        simp [hidle] at hholding
      rw [hphase k hkj]
      exact hholding
    · cases heq
      exact ⟨info, setPhase_phase_self _ _ _⟩

/-- Nobody can have begun after the return of a call that is only writing. -/
lemma LastSet.write {status : NodeStatus} (hcall : c j = .setStatus status) {info : NodeInfo}
    (htracked : Tracked c s as t) (hphase : t.phase j = .holding info) (info' : NodeInfo)
    (hinfo' : info'.status = status) {phase : Phase} (hwrote : Phase.Wrote phase) :
    LastSet c s (as ++ [.exec j wallMillis]) ((t.setEx info').setPhase j phase) := by
  refine .setBy j status hcall (by simp [statusOf, hinfo']) ?_ fun k _ _ hfollows => ?_
  · rw [setPhase_phase_self]
    exact hwrote
  · -- whoever follows `j` began after its return, but `j` is at its `SETEX`
    rcases hfollows.of_concat htracked.run with hfollows | ⟨⟨wallMillis, heq⟩, hidle, -⟩
    · obtain ⟨ok, hreturned⟩ := htracked.returned j k hfollows
      simp [hphase] at hreturned
    · cases heq
      simp [hphase] at hidle

lemma LastSet.publish {status : NodeStatus} (hcall : c j = .setStatus status)
    (h : LastSet c s as t) (hrun : as.foldlM (step c) s = some t)
    (hphase : t.phase j = .notifying) :
    LastSet c s (as ++ [.exec j wallMillis])
      ({ t with published := t.published + 1 }.setPhase j (.returned true)) := by
  rcases h with ⟨hsame, hpending⟩ | ⟨i, status', hi, hset, hwrote, hlater⟩
  · have := hpending j status hcall
    simp [hphase] at this
  · refine .setBy i status' hi hset ?_ fun k status'' hk hfollows => ?_
    · by_cases hij : i = j
      · rw [hij, setPhase_phase_self]
        exact .inr ⟨true, rfl⟩
      · rw [setPhase_phase_of_ne _ hij]
        exact hwrote
    · rcases hfollows.of_concat hrun with hfollows | ⟨⟨wallMillis, heq⟩, hidle, -⟩
      · have hholding := hlater k status'' hk hfollows
        have hkj : k ≠ j := by
          rintro rfl
          simp [hphase] at hholding
        rw [setPhase_phase_of_ne _ hkj]
        exact hholding
      · cases heq
        simp [hphase] at hidle

lemma step_tracked (hupdates : Updates c) (h : Tracked c s as t) (hcalm : t.Calm a)
    (hcurrent : UpToDate c t a) (hstep : step c t a = some t') : Tracked c s (as ++ [a]) t' := by
  have hrun : (as ++ [a]).foldlM (step c) s = some t' := by
    rw [foldlM_append, h.run]
    simpa using hstep
  have hreturned : ∀ i j, Follows c s (as ++ [a]) i j → ∃ ok, t'.phase i = .returned ok := by
    intro i j hfollows
    -- `i` had returned before this step, whether `j` begins with it or began earlier
    obtain ⟨ok, hok⟩ : ∃ ok, t.phase i = .returned ok := by
      rcases hfollows.of_concat h.run with hfollows | ⟨-, -, hi⟩
      · exact h.returned i j hfollows
      · exact hi
    exact ⟨ok, step_returned hstep hok⟩
  match a with
  | .advance nanos =>
    obtain rfl := Option.some.inj hstep
    have hstored := stored_advance hcalm
    refine ⟨hrun, hstored ▸ h.stored, hreturned, ?_⟩
    exact h.last.of_same h.run (by rw [statusOf, hstored, statusOf]) (fun _ _ _ => rfl)
      fun _ _ _ _ => nofun
  | .exec k wallMillis =>
    have hdid := did_of_command hstep
    rcases hupdates k with ⟨n, hcall⟩ | ⟨status, hcall⟩
    · -- a heartbeat: the status stays, and the status changes are other calls
      have hstatus := heartbeat_keeps_status hcall hcurrent hstep
      have hne : ∀ j status, c j = .setStatus status → j ≠ k := by
        rintro j status hj rfl
        simp [hcall] at hj
      refine ⟨hrun, ?_, hreturned, h.last.of_same h.run hstatus
        (fun j status hj => hdid.phase_of_ne (hne j status hj)) ?_⟩
      · rw [← isSome_map (f := NodeInfo.status), ← statusOf, hstatus, statusOf,
          isSome_map]
        exact h.stored
      · rintro j status wallMillis' hj heq
        cases heq
        exact hne k status hj rfl
    · rw [hcall] at hdid
      cases hdid with
      | read _ hphase hstored =>
        exact ⟨hrun, h.stored, hreturned, h.last.read h.run hphase _⟩
      | readNothing _ _ hstored =>
        -- the key does not expire, so `GET` finds it
        have := h.stored
        simp [hstored] at this
      | writeStatus hphase =>
        refine ⟨hrun, by simp, hreturned, .write hcall h hphase _ rfl ?_⟩
        split
        · exact .inl rfl
        · exact .inr ⟨true, rfl⟩
      | publish hphase => exact ⟨hrun, h.stored, hreturned, .publish hcall h.last h.run hphase⟩
  | .fail _ => exact hcalm.elim
  | .lose _ _ => exact hcalm.elim

end State

end NodeKey

/-! ## The local store -/

/-- A heartbeat or a status change; in the local store each is one step. -/
inductive NodeOp where
  | heartbeat (nodeId : Text) (connections wallMillis : UInt64)
  | setStatus (nodeId : Text) (status : NodeStatus)
  deriving Repr, DecidableEq

namespace LocalStore

def nodeHeartbeat (nodes : HashMap Text NodeInfo) (nodeId : Text)
    (connections wallMillis : UInt64) : HashMap Text NodeInfo :=
  match nodes.get nodeId with
  | some entry => nodes.insert nodeId
      { entry with lastHeartbeat := wallMillis, activeConnections := connections }
  | none => nodes

/-- `LocalStore::node_set_status`, with the drain event that it sends. -/
def nodeSetStatus (nodes : HashMap Text NodeInfo) (nodeId : Text) (status : NodeStatus) :
    HashMap Text NodeInfo × Option Text :=
  match nodes.get nodeId with
  | some entry => (nodes.insert nodeId { entry with status },
      if status = .draining then some nodeId else none)
  | none => (nodes, none)

/-- The entry is locked throughout. -/
def nodeOp (nodes : HashMap Text NodeInfo) : NodeOp → HashMap Text NodeInfo
  | .heartbeat nodeId connections wallMillis => nodeHeartbeat nodes nodeId connections wallMillis
  | .setStatus nodeId status => (nodeSetStatus nodes nodeId status).1

def statusOf (nodes : HashMap Text NodeInfo) (nodeId : Text) : Option NodeStatus :=
  (nodes.get nodeId).map NodeInfo.status

def givenStatus (nodeId : Text) : NodeOp → Option NodeStatus
  | .setStatus nodeId' status => if nodeId' = nodeId then some status else none
  | .heartbeat _ _ _ => none

lemma statusOf_nodeOp (nodes : HashMap Text NodeInfo) (op : NodeOp) {nodeId : Text}
    (hknown : (nodes.get nodeId).isSome) :
    ((nodeOp nodes op).get nodeId).isSome ∧
      statusOf (nodeOp nodes op) nodeId = (givenStatus nodeId op).or (statusOf nodes nodeId) := by
  -- writing the entry of another node does not show
  have hinsert : ∀ nodeId' entry, ((nodes.insert nodeId' entry).get nodeId).isSome ∧
      statusOf (nodes.insert nodeId' entry) nodeId =
        if nodeId = nodeId' then some entry.status else statusOf nodes nodeId := by
    intro nodeId' entry
    rw [statusOf, HashMap.get_insert]
    split
    · exact ⟨rfl, rfl⟩
    · exact ⟨hknown, rfl⟩
  cases op with
  | heartbeat nodeId' connections wallMillis =>
    rw [nodeOp, nodeHeartbeat]
    cases hentry : nodes.get nodeId' with
    | none => exact ⟨hknown, rfl⟩
    | some entry =>
      obtain ⟨hsome, hstatus⟩ := hinsert nodeId'
        { entry with lastHeartbeat := wallMillis, activeConnections := connections }
      refine ⟨hsome, hstatus.trans ?_⟩
      split
      · next heq => rw [heq, statusOf, hentry]; rfl
      · rfl
  | setStatus nodeId' status =>
    rw [nodeOp, nodeSetStatus]
    cases hentry : nodes.get nodeId' with
    | none =>
      have hne : nodeId' ≠ nodeId := by
        rintro rfl
        simp [hentry] at hknown
      exact ⟨hknown, by rw [givenStatus, if_neg hne]; rfl⟩
    | some entry =>
      obtain ⟨hsome, hstatus⟩ := hinsert nodeId' { entry with status }
      refine ⟨hsome, hstatus.trans ?_⟩
      rw [givenStatus]
      split
      · next heq => rw [if_pos heq.symm]; rfl
      · next hne => rw [if_neg (Ne.symm hne)]; rfl

lemma status_after (nodes : HashMap Text NodeInfo) (ops : List NodeOp) {nodeId : Text}
    (hknown : (nodes.get nodeId).isSome) :
    statusOf (ops.foldl nodeOp nodes) nodeId =
      (ops.filterMap (givenStatus nodeId)).getLast?.or (statusOf nodes nodeId) := by
  induction ops generalizing nodes with
  | nil => rfl
  | cons op ops ih =>
    obtain ⟨hsome, hstatus⟩ := statusOf_nodeOp nodes op hknown
    rw [foldl_cons, ih _ hsome, hstatus, filterMap_cons]
    cases hgiven : givenStatus nodeId op with
    | none => rfl
    | some status =>
      dsimp only
      rw [getLast?_cons]
      cases (ops.filterMap (givenStatus nodeId)).getLast? <;> rfl

end LocalStore

/-! ## Both stores -/

namespace NodeKey

open State

/-- **No status change is lost** in a run of heartbeats and status changes of a registered node in
which every heartbeat that writes finds the status it has read. In the end the stored status is
that of a change after which no other one began; in the local store it is the one given last. -/
theorem status_not_lost {ι : Type} [DecidableEq ι] (c : ι → Call) (hupdates : Updates c)
    (s : State ι) (hidle : ∀ i, s.phase i = .idle) (hstored : s.stored.isSome = true)
    {as : List (Action ι)} {t : State ι}
    (hrun : Run (step c) (fun u a => u.Calm a ∧ UpToDate c u a) s as t) :
    (∀ i n wallMillis u, c i = .heartbeat n → UpToDate c t (.exec i wallMillis) →
      step c t (.exec i wallMillis) = some u → u.statusOf = t.statusOf) ∧
    ((∀ i, t.phase i = .idle ∨ ∃ ok, t.phase i = .returned ok) →
      (∃ i status, c i = .setStatus status ∧ (∃ ok, t.phase i = .returned ok) ∧
        t.statusOf = some status ∧
        ∀ j status', c j = .setStatus status' → ¬Follows c s as i j) ∨
      t.statusOf = s.statusOf ∧ ∀ j status, c j = .setStatus status → t.phase j = .idle) ∧
    ∀ (nodes : HashMap Text NodeInfo) (ops : List NodeOp) (nodeId : Text),
      (nodes.get nodeId).isSome = true →
      LocalStore.statusOf (ops.foldl LocalStore.nodeOp nodes) nodeId =
        (ops.filterMap (LocalStore.givenStatus nodeId)).getLast?.or
          (LocalStore.statusOf nodes nodeId) := by
  have htracked : Tracked c s as t :=
    hrun.history (I := Tracked c s) (.init hidle hstored)
      fun _ _ _ _ h hallowed hstep => step_tracked hupdates h hallowed.1 hallowed.2 hstep
  refine ⟨fun i n wallMillis u hcall hcurrent hstep => heartbeat_keeps_status hcall hcurrent hstep,
    fun hquiet => ?_, fun nodes ops nodeId hknown => LocalStore.status_after nodes ops hknown⟩
  rcases htracked.last with ⟨hstatus, hpending⟩ | ⟨i, status, hcall, hstatus, hwrote, hlater⟩
  · right
    refine ⟨hstatus, fun j status hj => ?_⟩
    rcases hquiet j, hpending j status hj with ⟨hidle | ⟨ok, hok⟩, hphase⟩
    · exact hidle
    · simp [hok] at hphase
  · left
    refine ⟨i, status, hcall, ?_, hstatus, fun j status' hj hfollows => ?_⟩
    · rcases hquiet i with hidle | hreturned
      · rw [hidle] at hwrote
        simp [Phase.Wrote] at hwrote
      · exact hreturned
    · obtain ⟨info, hholding⟩ := hlater j status' hj hfollows
      simpa [hholding] using hquiet j

def heartbeatAndDrain : Bool → Call
  | false => .heartbeat 5
  | true => .setStatus .draining

def registered : State Bool :=
  ⟨0, some (registeredNode, Redis.nanosPerSec * 60), true, 0, fun _ => .idle⟩

lemma updates_heartbeatAndDrain : Updates heartbeatAndDrain := by
  rintro (_ | _)
  · exact .inl ⟨5, rfl⟩
  · exact .inr ⟨.draining, rfl⟩

theorem status_not_lost_sequential :
    ∃ t, ([.exec false 1, .exec false 2, .exec true 3, .exec true 4, .exec true 5] :
        List (Action Bool)).foldlM (step heartbeatAndDrain) registered = some t ∧
      t.statusOf = some .draining := by
  have hrun : ∃ t, Run (step heartbeatAndDrain)
      (fun u a => u.Calm a ∧ UpToDate heartbeatAndDrain u a) registered
      [.exec false 1, .exec false 2, .exec true 3, .exec true 4, .exec true 5] t ∧
      ∀ i, t.phase i = .returned true := by
    refine ⟨_, .cons ⟨trivial, ?_⟩ rfl (.cons ⟨trivial, ?_⟩ rfl (.cons ⟨trivial, ?_⟩ rfl
      (.cons ⟨trivial, ?_⟩ rfl (.cons ⟨trivial, ?_⟩ rfl .refl)))), ?_⟩
    · rintro n info - hphase
      cases hphase
    · rintro n info - hphase
      cases hphase
      rfl
    · rintro n info hcall -
      cases hcall
    · rintro n info hcall -
      cases hcall
    · rintro n info hcall -
      cases hcall
    · rintro (_ | _) <;> rfl
  obtain ⟨t, hrun, hreturned⟩ := hrun
  have hquiet : ∀ i, t.phase i = .idle ∨ ∃ ok, t.phase i = .returned ok :=
    fun i => .inr ⟨true, hreturned i⟩
  refine ⟨t, hrun.foldlM_eq, ?_⟩
  rcases (status_not_lost heartbeatAndDrain updates_heartbeatAndDrain registered (fun _ => rfl)
      rfl hrun).2.1 hquiet with ⟨i, status, hcall, -, hstatus, -⟩ | ⟨-, hidle⟩
  · cases i with
    | false => cases hcall
    | true =>
      cases hcall
      exact hstatus
  · have := hidle true .draining rfl
    simp [hreturned] at this

/-- **A heartbeat can bring the old status back.** It reads the record, the node is set to drain,
and it writes the record that it has read: all calls have returned, and the stored status is
`active`. -/
theorem heartbeat_reverts_status :
    ∃ t, Run (step heartbeatAndDrain) (fun u a => u.Calm a) registered
        [.exec false 1, .exec true 2, .exec true 3, .exec true 4, .exec false 5] t ∧
      (∀ i, t.phase i = .returned true) ∧ t.statusOf = some .active := by
  refine ⟨_, .cons trivial rfl (.cons trivial rfl (.cons trivial rfl (.cons trivial rfl
    (.cons trivial rfl .refl)))), ?_, rfl⟩
  rintro (_ | _) <;> rfl

end NodeKey

end TrafficCop
