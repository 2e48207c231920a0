import TrafficCop.Store.Tables

/-!
# Sticky sessions and health states in the two stores

The operations on sessions and health states of `store/local.rs` and `store/valkey.rs`.

`serde_json` and the glob patterns of Redis are parameters: a health state that is written can be
read back, and about patterns nothing is assumed.
-/

namespace TrafficCop

open Rust Store Timed List Option Function HashMap

/-! ## The local store -/

structure StickyEntry where
  serverUrl : Text
  expiresAt : ℕ
  deriving Repr, DecidableEq

namespace LocalStore

def stickySessionGet (sessions : HashMap Text StickyEntry) (now : ℕ) (service sessionId : Text) :
    StoreResult (Option Text) :=
  match sessions.get (joined (service, sessionId)) with
  | some entry => if now < entry.expiresAt then .ok (some entry.serverUrl) else .ok none
  | none => .ok none

def stickySessionSet (sessions : HashMap Text StickyEntry) (now : ℕ)
    (service sessionId serverUrl : Text) (ttl : ℕ) :
    HashMap Text StickyEntry × StoreResult Unit :=
  (sessions.insert (joined (service, sessionId)) ⟨serverUrl, now + ttl⟩, .ok ())

def stickySessionDelete (sessions : HashMap Text StickyEntry) (service sessionId : Text) :
    HashMap Text StickyEntry × StoreResult Unit :=
  (sessions.erase (joined (service, sessionId)), .ok ())

def healthGet (states : HashMap Text Store.HealthStatus) (service serverUrl : Text) :
    StoreResult (Option Store.HealthStatus) :=
  .ok (states.get (joined (service, serverUrl)))

/-- `LocalStore::health_set`, with what is sent to the subscribers. -/
def healthSet (states : HashMap Text Store.HealthStatus) (service serverUrl : Text)
    (status : Store.HealthStatus) :
    HashMap Text Store.HealthStatus × (Text × Text × Store.HealthStatus) × StoreResult Unit :=
  (states.insert (joined (service, serverUrl)) status, (service, serverUrl, status), .ok ())

def healthGetAll (states : HashMap Text Store.HealthStatus) (service : Text) :
    StoreResult (HashMap Text Store.HealthStatus) :=
  let start := service ++ [':']
  .ok (.collect (states.entries.filterMap fun entry =>
    if start.isPrefixOf entry.1 then some ((stripPrefix start entry.1).getD entry.1, entry.2)
    else none))

/-- A map for each; health states never expire. -/
structure Sessions where
  sticky : HashMap Text StickyEntry
  health : HashMap Text Store.HealthStatus

/-- One operation; of `LocalStore::cleanup` only what concerns the sessions. -/
def sessionOp (s : Sessions) (now : ℕ) : Op → Sessions × Answer
  | .stickySessionGet service sessionId =>
    (s, .session (stickySessionGet s.sticky now service sessionId))
  | .stickySessionSet service sessionId serverUrl ttl =>
    let (sticky, result) := stickySessionSet s.sticky now service sessionId serverUrl ttl
    ({ s with sticky }, .unit result)
  | .stickySessionDelete service sessionId =>
    let (sticky, result) := stickySessionDelete s.sticky service sessionId
    ({ s with sticky }, .unit result)
  | .healthGet service serverUrl => (s, .health (healthGet s.health service serverUrl))
  | .healthSet service serverUrl status =>
    let (health, _, result) := healthSet s.health service serverUrl status
    ({ s with health }, .unit result)
  | .healthGetAll service =>
    (s, .healths ((healthGetAll s.health service).map get))
  | .cleanup =>
    ({ s with sticky := s.sticky.retain fun _ entry => now < entry.expiresAt }, .unit (.ok ()))

/-- Every time to live is accepted, and health states are kept for good. -/
def lifetimes : Lifetimes := ⟨some, none⟩

def shown (entry : Option StickyEntry) (t : ℕ) : Option Text :=
  entry.bind fun entry => shownUntil (some entry.expiresAt) entry.serverUrl t

lemma get_healthGetAll (states : HashMap Text Store.HealthStatus) (service : Text) :
    (healthGetAll states service).map get =
      .ok fun serverUrl => states.get (joined (service, serverUrl)) := by
  have hjoined (u : Text) : joined (service, u) = service ++ [':'] ++ u := by simp [joined]
  refine congrArg Except.ok (get_collect_graph fun serverUrl status => ?_)
  rw [mem_filterMap, get_eq_some_iff]
  constructor
  · rintro ⟨⟨key, status'⟩, hmem, h⟩
    obtain ⟨hstart, hentry⟩ := ite_none_right_eq_some.mp h
    obtain ⟨rest, hrest⟩ := isPrefixOf_iff_prefix.mp hstart
    -- behind a prefix `strip_prefix` succeeds, so `unwrap_or` has no part in it
    rw [stripPrefix_eq_some_iff.mpr hrest] at hentry
    obtain ⟨rfl, rfl⟩ := Prod.mk.inj (some.inj hentry)
    rw [hjoined, getD_some, hrest]
    exact hmem
  · intro hmem
    refine ⟨_, hmem, ?_⟩
    have hstart : (service ++ [':']).isPrefixOf (joined (service, serverUrl)) :=
      isPrefixOf_iff_prefix.mpr ⟨serverUrl, (hjoined serverUrl).symm⟩
    rw [if_pos hstart, stripPrefix_eq_some_iff.mpr (hjoined serverUrl).symm, getD_some]

lemma stickySessionGet_eq (sessions : HashMap Text StickyEntry) (now : ℕ)
    (service sessionId : Text) : stickySessionGet sessions now service sessionId =
      .ok (shown (sessions.get (joined (service, sessionId))) now) := by
  rw [stickySessionGet]
  cases sessions.get (joined (service, sessionId)) with
  | none => rfl
  | some entry => by_cases hlive : now < entry.expiresAt <;> simp [shown, shownUntil, hlive]

lemma shown_filter {now later : ℕ} (hle : now ≤ later) (entry : Option StickyEntry) :
    shown (entry.filter fun entry => now < entry.expiresAt) later = shown entry later := by
  cases entry with
  | none => rfl
  | some entry =>
    by_cases hlive : now < entry.expiresAt
    · simp [Option.filter, hlive]
    · have hlater : ¬later < entry.expiresAt := by omega
      simp [hlive, shown, shownUntil, hlater]

/-- The store shows what is in the tables. -/
abbrev Shown (now : ℕ) (s : Sessions) (t : Tables Text) : Prop :=
  t.Shown (fun shown => shown) now (fun k => shown (s.sticky.get k)) fun k _ => s.health.get k

lemma sessionOp_shown (s : Sessions) (t : Tables Text) (now : ℕ) (op : Op) (h : Shown now s t) :
    (sessionOp s now op).2 = (t.answer lifetimes joined (fun _ => true) now op).2 ∧
      Shown now (sessionOp s now op).1
        (t.answer lifetimes joined (fun _ => true) now op).1 := by
  match op with
  | .stickySessionGet service sessionId =>
    refine ⟨congrArg Answer.session ?_, h⟩
    rw [stickySessionGet_eq]
    exact congrArg Except.ok (h.sticky _ now (Nat.le_refl _))
  | .stickySessionSet service sessionId serverUrl ttl =>
    refine ⟨rfl, h.sticky.update fun k t => ?_, h.health⟩
    show shown ((s.sticky.insert _ _).get k) t = _
    rw [get_insert]
    split <;> rfl
  | .stickySessionDelete service sessionId =>
    refine ⟨rfl, h.sticky.update fun k t => ?_, h.health⟩
    show shown ((s.sticky.erase _).get k) t = _
    rw [get_erase]
    split <;> rfl
  | .healthGet service serverUrl =>
    exact ⟨congrArg (fun a => Answer.health (.ok a)) (h.health _ now (Nat.le_refl _)), h⟩
  | .healthSet service serverUrl status =>
    exact ⟨rfl, h.sticky, h.health.update fun _ _ => get_insert⟩
  | .healthGetAll service =>
    refine ⟨congrArg Answer.healths ((get_healthGetAll s.health service).trans ?_), h⟩
    exact congrArg Except.ok (funext fun _ => h.health _ now (Nat.le_refl _))
  | .cleanup =>
    refine ⟨rfl, fun k later hle => ?_, h.health⟩
    show shown ((s.sticky.retain _).get k) later = _
    rw [get_retain, shown_filter hle]
    exact h.sticky k later hle

end LocalStore

/-! ## Valkey -/

namespace ValkeyStore

section Operations

variable (keyPrefix : Text) (db : Redis.Strings) (now : ℕ)

def stickySessionGet (service sessionId : Text) : StoreResult (Option Text) :=
  .ok (Redis.get db now (key keyPrefix ["sticky", service, sessionId]))

/-- `ValkeyStore::sticky_session_set`; Redis is given whole seconds. -/
def stickySessionSet (service sessionId serverUrl : Text) (ttl : ℕ) :
    Redis.Strings × StoreResult Unit :=
  match Redis.setEx db now (key keyPrefix ["sticky", service, sessionId]) serverUrl
    (ttl / Redis.nanosPerSec) with
  | some db' => (db', .ok ())
  | none => (db, .error .connection)

def stickySessionDelete (service sessionId : Text) : Redis.Strings × StoreResult Unit :=
  (Redis.del db (key keyPrefix ["sticky", service, sessionId]), .ok ())

variable (glob : Text → Text → Bool) (toJson : Store.HealthStatus → Text)
  (fromJson : Text → Option Store.HealthStatus)

def healthGet (service serverUrl : Text) : StoreResult (Option Store.HealthStatus) :=
  match Redis.get db now (key keyPrefix ["health", service, serverUrl]) with
  | some json =>
    match fromJson json with
    | some status => .ok (some status)
    | none => .error .serialization
  | none => .ok none

/-- `ValkeyStore::health_set`, with the channels and payloads that are published. -/
def healthSet (service serverUrl : Text) (status : Store.HealthStatus) :
    Redis.Strings × List (Text × Text) × StoreResult Unit :=
  let json := toJson status
  match Redis.setEx db now (key keyPrefix ["health", service, serverUrl]) json 300 with
  | some db' => (db', [(key keyPrefix ["events", "health_change"],
      service ++ ':' :: (serverUrl ++ ':' :: json))], .ok ())
  | none => (db, [], .error .connection)

/-- `ValkeyStore::health_get_all`; a value that cannot be read is left out. -/
def healthGetAll (service : Text) : StoreResult (HashMap Text Store.HealthStatus) :=
  let keys := Redis.keys glob db now (key keyPrefix ["health", service, "*"])
  .ok (.collect (keys.filterMap fun k => do
    let json ← Redis.get db now k
    let status ← fromJson json
    let serverUrl ← stripPrefix (key keyPrefix ["health", service, []]) k
    pure (serverUrl, status)))

/-- One database with a kind in each key, and everything expires. -/
def sessionOp : Op → Redis.Strings × Answer
  | .stickySessionGet service sessionId =>
    (db, .session (stickySessionGet keyPrefix db now service sessionId))
  | .stickySessionSet service sessionId serverUrl ttl =>
    (stickySessionSet keyPrefix db now service sessionId serverUrl ttl).map id .unit
  | .stickySessionDelete service sessionId =>
    (stickySessionDelete keyPrefix db service sessionId).map id .unit
  | .healthGet service serverUrl =>
    (db, .health (healthGet keyPrefix db now fromJson service serverUrl))
  | .healthSet service serverUrl status =>
    let (db', _, result) := healthSet keyPrefix db now toJson service serverUrl status
    (db', .unit result)
  | .healthGetAll service =>
    (db, .healths ((healthGetAll keyPrefix db now glob fromJson service).map get))
  | .cleanup => (Redis.sweep db now, .unit (.ok ()))

end Operations

/-- A session lives for whole seconds, at least one, and a health state for five minutes. -/
def lifetimes : Lifetimes where
  session ttl :=
    if ttl / Redis.nanosPerSec = 0 then none
    else some (Redis.nanosPerSec * (ttl / Redis.nanosPerSec))
  health := some (Redis.nanosPerSec * 300)

variable (keyPrefix : Text) (glob : Text → Text → Bool) (toJson : Store.HealthStatus → Text)
  (fromJson : Text → Option Store.HealthStatus)

/-- The pattern of a service matches the key of one of its servers. -/
def listed (p : Text × Text) : Bool :=
  glob (key keyPrefix ["health", p.1, "*"])
    (key keyPrefix ["health", p.1, p.2])

variable {keyPrefix glob toJson fromJson} {db db' : Redis.Strings} {now : ℕ} {k : Text}
  {t : Tables Text}

lemma sticky_ne_health (k k' : Text) :
    key keyPrefix ["sticky", k] ≠ key keyPrefix ["health", k'] := by
  simp [key]

variable (keyPrefix toJson) in
/-- The database shows what is in the tables, health states as `serde_json` writes them. -/
abbrev Shown (now : ℕ) (db : Redis.Strings) (t : Tables Text) : Prop :=
  t.Shown (fun shown later => (shown later).map toJson) now
    (fun k later => Redis.get db later (key keyPrefix ["sticky", k]))
    fun k later => Redis.get db later (key keyPrefix ["health", k])

section Writes

variable (h : Shown keyPrefix toJson now db t)

include h

lemma Shown.sticky_write {f : ℕ → Option Text}
    (hw : Writes db db' (key keyPrefix ["sticky", k]) f) :
    Shown keyPrefix toJson now db' { t with sticky := update t.sticky k f } where
  sticky := h.sticky.update hw.get_kind
  health k' later hle :=
    ((hw later _).trans (if_neg (sticky_ne_health k k').symm)).trans (h.health k' later hle)

lemma Shown.health_write {f : ℕ → Option Store.HealthStatus}
    (hw : Writes db db' (key keyPrefix ["health", k]) fun later => (f later).map toJson) :
    Shown keyPrefix toJson now db' { t with health := update t.health k f } where
  sticky k' later hle :=
    ((hw later _).trans (if_neg (sticky_ne_health k' k))).trans (h.sticky k' later hle)
  health := h.health.update hw.get_kind

lemma Shown.get_health (service serverUrl : Text) :
    Redis.get db now (key keyPrefix ["health", service, serverUrl]) =
      (t.health (joined (service, serverUrl)) now).map toJson := by
  rw [key_joined]
  exact h.health _ now (Nat.le_refl _)

variable (hjson : ∀ status, fromJson (toJson status) = some status)

include hjson

lemma healthGet_eq (service serverUrl : Text) :
    healthGet keyPrefix db now fromJson service serverUrl =
      .ok (t.health (joined (service, serverUrl)) now) := by
  rw [healthGet, h.get_health]
  cases t.health (joined (service, serverUrl)) now with
  | none => rfl
  | some status => simp [hjson]

lemma get_healthGetAll (service : Text) :
    (healthGetAll keyPrefix db now glob fromJson service).map get = .ok fun serverUrl =>
      if listed keyPrefix glob (service, serverUrl) then t.health (joined (service, serverUrl)) now
      else none := by
  have hkey (u : Text) : key keyPrefix ["health", service, []] ++ u =
      key keyPrefix ["health", service, u] := by simp [key]
  refine congrArg Except.ok (get_collect_graph fun serverUrl status => ?_)
  rw [mem_filterMap, ite_none_right_eq_some, listed]
  simp only [Redis.mem_keys, Option.bind_eq_bind, Option.bind_eq_some_iff, Option.pure_def,
    some.injEq, Prod.mk.injEq, stripPrefix_eq_some_iff, hkey]
  constructor
  · rintro ⟨k, ⟨-, hglob⟩, json, hget, status', hstatus, u, rfl, rfl, rfl⟩
    rw [h.get_health] at hget
    obtain ⟨status, hhealth, rfl⟩ := map_eq_some_iff.mp hget
    obtain rfl := some.inj ((hjson status).symm.trans hstatus)
    exact ⟨hglob, hhealth⟩
  · rintro ⟨hglob, hhealth⟩
    have hget := h.get_health service serverUrl
    rw [hhealth, map_some] at hget
    exact ⟨_, ⟨Option.isSome_of_mem hget, hglob⟩, _, hget, status, hjson status, serverUrl, rfl,
      rfl, rfl⟩

end Writes

lemma sessionOp_shown (hjson : ∀ status, fromJson (toJson status) = some status)
    (db : Redis.Strings) (t : Tables Text) (now : ℕ) (op : Op)
    (h : Shown keyPrefix toJson now db t) :
    (sessionOp keyPrefix db now glob toJson fromJson op).2 =
        (t.answer lifetimes joined (listed keyPrefix glob) now op).2 ∧
      Shown keyPrefix toJson now (sessionOp keyPrefix db now glob toJson fromJson op).1
        (t.answer lifetimes joined (listed keyPrefix glob) now op).1 := by
  match op with
  | .stickySessionGet service sessionId =>
    refine ⟨congrArg (fun a => Answer.session (.ok a)) ?_, h⟩
    rw [key_joined]
    exact h.sticky _ now (Nat.le_refl _)
  | .stickySessionSet service sessionId serverUrl ttl =>
    rw [sessionOp, stickySessionSet, key_joined, Redis.setEx, Tables.answer, lifetimes]
    by_cases hsecs : ttl / Redis.nanosPerSec = 0
    · -- less than a second: Redis rejects the command
      simp only [if_pos hsecs]
      exact ⟨rfl, h⟩
    · simp only [if_neg hsecs]
      exact ⟨rfl, h.sticky_write (writes_insert db
        (key keyPrefix ["sticky", joined (service, sessionId)]) serverUrl _)⟩
  | .stickySessionDelete service sessionId =>
    rw [sessionOp, stickySessionDelete, key_joined]
    exact ⟨rfl, h.sticky_write
      (writes_del db (key keyPrefix ["sticky", joined (service, sessionId)]))⟩
  | .healthGet service serverUrl =>
    exact ⟨congrArg Answer.health (healthGet_eq h hjson service serverUrl), h⟩
  | .healthSet service serverUrl status =>
    rw [sessionOp, healthSet, key_joined, Redis.setEx, if_neg (by decide)]
    refine ⟨rfl, h.health_write fun later x => Redis.get_insert.trans ?_⟩
    exact congrArg (if x = _ then · else _)
      (apply_ite (Option.map toJson) _ (some status) none).symm
  | .healthGetAll service =>
    exact ⟨congrArg Answer.healths (get_healthGetAll h hjson service), h⟩
  | .cleanup =>
    exact ⟨rfl, fun k later hle => (Redis.get_sweep hle _).trans (h.sticky k later hle),
      fun k later hle => (Redis.get_sweep hle _).trans (h.health k later hle)⟩

end ValkeyStore

/-! ## Isolation -/

/-- **Both stores keep operations on different sessions and servers apart, and list exactly the
servers of a service, as long as no two of those in use clash**; `ValkeyStore` lists them if its
pattern matches their keys. -/
theorem store_isolation (keyPrefix : Text) (glob : Text → Text → Bool)
    {toJson : Store.HealthStatus → Text} {fromJson : Text → Option Store.HealthStatus}
    (hjson : ∀ status, fromJson (toJson status) = some status)
    (sessions backends : Set (Text × Text)) (services : Set Text) :
    (Isolated sessions backends services LocalStore.lifetimes LocalStore.sessionOp
        ⟨.empty, .empty⟩ ↔
      Apart sessions sessions ∧ Apart backends (readable backends services fun _ => true)) ∧
    (Isolated sessions backends services ValkeyStore.lifetimes
        (fun db now => ValkeyStore.sessionOp keyPrefix db now glob toJson fromJson) .empty ↔
      Apart sessions sessions ∧
        Apart backends (readable backends services (ValkeyStore.listed keyPrefix glob)) ∧
        ∀ p ∈ backends, p.1 ∈ services → ValkeyStore.listed keyPrefix glob p = true) := by
  have hlocal : LocalStore.lifetimes.Positive :=
    ⟨⟨1, 1, rfl, Nat.one_pos⟩, fun life h => by cases h⟩
  have hvalkey : ValkeyStore.lifetimes.Positive :=
    ⟨⟨Redis.nanosPerSec, _, rfl, by decide⟩, fun life h => some.inj h ▸ by decide⟩
  constructor
  · rw [isolated_iff_of_shown LocalStore.sessionOp_shown
      ⟨fun _ _ _ => rfl, fun _ _ _ => rfl⟩ hlocal, separate_joined_iff]
    simp
  · rw [isolated_iff_of_shown (ValkeyStore.sessionOp_shown hjson)
      ⟨fun _ _ _ => rfl, fun _ _ _ => rfl⟩ hvalkey, separate_joined_iff]

/-- What `serde_json` writes for a health state whose error text needs no escapes. -/
def writeHealth (status : Store.HealthStatus) : Text :=
  "\x7b\"healthy\":".toList ++ ((if status.healthy then "true".toList else "false".toList) ++
    ',' :: ("\"last_check\":".toList ++ (Nat.toDigits 10 status.lastCheck.toNat ++
    ',' :: ("\"consecutive_failures\":".toList ++
      (Nat.toDigits 10 status.consecutiveFailures.toNat ++
    ',' :: ("\"last_error\":".toList ++ (match status.lastError with
      | some error => '"' :: (error ++ "\"\x7d".toList)
      | none => "null\x7d".toList)))))))

def readHealth (json : Text) : Option Store.HealthStatus := do
  let rest ← stripPrefix "\x7b\"healthy\":".toList json
  let (healthy, rest) ← splitOnce ',' rest
  let rest ← stripPrefix "\"last_check\":".toList rest
  let (lastCheck, rest) ← splitOnce ',' rest
  let rest ← stripPrefix "\"consecutive_failures\":".toList rest
  let (failures, rest) ← splitOnce ',' rest
  let rest ← stripPrefix "\"last_error\":".toList rest
  let lastCheck ← parseDigits lastCheck
  let failures ← parseDigits failures
  let lastError := match rest with
    | '"' :: error => some (error.take (error.length - 2))
    | _ => none
  pure ⟨healthy == "true".toList, .ofNat lastCheck, .ofNat failures, lastError⟩

lemma readHealth_writeHealth (status : Store.HealthStatus) :
    readHealth (writeHealth status) = some status := by
  have hbool : ',' ∉ (if status.healthy then "true".toList else "false".toList) := by
    cases status.healthy <;> decide
  have hdigits (n : ℕ) : ',' ∉ Nat.toDigits 10 n := fun h =>
    absurd (Nat.isDigit_of_mem_toDigits (by decide) (by decide) h) (by decide)
  unfold readHealth writeHealth
  -- the names of the fields are only stripped off
  generalize "\x7b\"healthy\":".toList = a
  generalize "\"last_check\":".toList = b
  generalize "\"consecutive_failures\":".toList = c
  generalize "\"last_error\":".toList = d
  simp only [bind_eq_bind, bind_some, stripPrefix_append, parseDigits_toDigits,
    splitOnce_append _ (hdigits _), splitOnce_append _ hbool]
  obtain ⟨healthy, lastCheck, failures, lastError⟩ := status
  cases healthy <;> cases lastError <;> simp

/-- The pattern of a service without special characters: all that begins like it. -/
def starGlob (pattern text : Text) : Bool := pattern.dropLast.isPrefixOf text

def twoSessions : Set (Text × Text) :=
  {("api".toList, "s1".toList), ("web".toList, "s1".toList)}

def twoBackends : Set (Text × Text) :=
  {("api".toList, "http://a:80".toList), ("web".toList, "http://b:80".toList)}

def twoServices : Set Text := {"api".toList, "web".toList}

theorem store_isolation_twoServices :
    Isolated twoSessions twoBackends twoServices LocalStore.lifetimes LocalStore.sessionOp
      ⟨.empty, .empty⟩ ∧
    Isolated twoSessions twoBackends twoServices ValkeyStore.lifetimes
      (fun db now => ValkeyStore.sessionOp "tc" db now starGlob writeHealth readHealth)
      .empty := by
  have hservices : ∀ s ∈ twoServices, ':' ∉ s := by
    rintro s (rfl | rfl) <;> decide
  have hpairs : ∀ p ∈ twoSessions ∪ twoBackends, ':' ∉ p.1 := by
    rintro p ((rfl | rfl) | rfl | rfl) <;> decide
  have hsticky : Apart twoSessions twoSessions :=
    apart_of_colonFree (fun p hp => hpairs p (.inl hp)) fun p hp => hpairs p (.inl hp)
  have hhealth (listed) : Apart twoBackends (readable twoBackends twoServices listed) :=
    apart_of_colonFree (fun p hp => hpairs p (.inr hp)) fun q hq =>
      hq.elim (fun hq => hpairs q (.inr hq)) fun hq => hservices _ hq.1
  have h := store_isolation "tc" starGlob readHealth_writeHealth twoSessions twoBackends
    twoServices
  refine ⟨h.1.mpr ⟨hsticky, hhealth _⟩, h.2.mpr ⟨hsticky, hhealth _, ?_⟩⟩
  rintro p (rfl | rfl) - <;> decide

/-- **A session of one service is found by another one**: that of `s1` in `api:v2` by whoever
presents `v2:s1` to `api`, and a listing of `api` has the servers of `api:v2`. -/
theorem store_sessions_clash :
    LocalStore.stickySessionGet
        (LocalStore.stickySessionSet .empty 0 "api:v2" "s1" "http://b:80" 3600000000000).1 1
        "api" "v2:s1" = .ok (some "http://b:80") ∧
      ValkeyStore.stickySessionGet "tc"
        (ValkeyStore.stickySessionSet "tc" .empty 0 "api:v2" "s1" "http://b:80" 3600000000000).1 1
        "api" "v2:s1" = .ok (some "http://b:80") ∧
      (LocalStore.healthGetAll (LocalStore.healthSet .empty "api:v2" "http://b:80" {}).1 "api").map
          (·.entries) = .ok [("v2:http://b:80", {})] ∧
      (ValkeyStore.healthGetAll "tc"
        (ValkeyStore.healthSet "tc" .empty 0 writeHealth "api:v2" "http://b:80" {}).1 1 starGlob
          readHealth "api").map (·.entries) = .ok [("v2:http://b:80", {})] ∧
      ¬Isolated Set.univ Set.univ Set.univ LocalStore.lifetimes LocalStore.sessionOp
        ⟨.empty, .empty⟩ := by
  refine ⟨by decide +kernel, by decide +kernel, by decide +kernel, by decide +kernel, fun h => ?_⟩
  have hanswer := h.second_answer
    (.stickySessionSet "api:v2" "s1" "http://b:80" 1)
    (.stickySessionGet "api" "v2:s1") trivial trivial
  have hsome : (some "http://b:80" : Option Text) = none :=
    Except.ok.inj (Answer.session.inj hanswer)
  cases hsome

end TrafficCop
