import TrafficCop.Lib.Transition
import TrafficCop.Proxy.BackendUri
import TrafficCop.Service.Manager

/-!
# The health-check tasks behind hot reloads

`Server::run` of `server/mod.rs` starts the health checks of the first configuration, and its
watcher task those of each one it reloads. Nothing ends the tasks of the configuration before.

A task ends by itself only where `tokio::time::interval` panics on a period of zero. A checker whose
URI does not parse panics in `HealthChecker::new`; in the watcher task this is the end of hot
reloading. That is so in a build that unwinds: with the release profile a panic aborts the process.
-/

namespace TrafficCop

open Rust Http Transition List Option

/-! ## Configurations and checkers -/

/-- `config::HealthCheck`, as far as it decides whether a checker runs. The interval is in
nanoseconds. -/
structure HealthCheck where
  path : Text := "/"
  interval : ℕ := 30000000000
  scheme : Option Text := none
  deriving Repr, DecidableEq

/-- A configuration with the `health_check` of its load balancers. -/
structure CheckedConfig where
  config : Config
  healthCheck : Text → Option HealthCheck

/-- `struct HealthChecker`. The status it writes is that of a server, here the service and the
position. -/
structure HealthChecker where
  service : Text
  index : ℕ
  serverUrl : Text
  config : HealthCheck
  deriving Repr, DecidableEq

def trimStartMatches (pat s : Text) : Text :=
  (fun s => if pat.isPrefixOf s then s.drop pat.length else s)^[s.length] s

namespace HealthChecker

/-- The URI that the checker polls. The second parse is unwrapped. -/
def checkUri (http : UriCrate) (c : HealthChecker) : Except Text Uri :=
  let scheme := c.config.scheme.getD "http"
  let host := (trimStartMatches "https://"
    (trimStartMatches "http://" c.serverUrl)).rdropWhile (· == '/')
  match Uri.parse http (scheme ++ "://" ++ host ++ c.config.path) with
  | .ok uri => .ok uri
  | .error _ => Uri.parse http ("http://" ++ c.serverUrl ++ c.config.path)

def isBuilt (http : UriCrate) (c : HealthChecker) : Bool := (checkUri http c).isOk

/-- `HealthChecker::start` comes to its loop, which it never leaves. -/
def loops (c : HealthChecker) : Bool := c.config.interval != 0

/-- `HealthChecker::start` loops without an exit. -/
def runs (http : UriCrate) (c : HealthChecker) : Bool := c.isBuilt http && c.loops

end HealthChecker

/-! ## Starting the checks -/

/-- A load balancer with a health check has one for each server. -/
def ServiceState.checkers (state : ServiceState) (name : Text) (healthCheck : Option HealthCheck) :
    List HealthChecker :=
  match state.config.loadBalancer, healthCheck with
  | some lb, some check =>
    lb.servers.zipIdx.map fun server => ⟨name, server.2, server.1.url, check⟩
  | _, _ => []

/-- The checkers that `start_health_checks` comes to, in its order. -/
def ServiceManager.checkers (m : ServiceManager) (healthCheck : Text → Option HealthCheck) :
    List HealthChecker :=
  m.services.entries.flatMap fun entry => entry.2.checkers entry.1 (healthCheck entry.1)

/-- The health checkers that run, and whether the watcher task does. -/
structure HealthTasks where
  running : List HealthChecker := []
  watching : Bool := true

/-- The loop of `start_health_checks`: the tasks it spawns, and whether it returns. -/
def spawnAll (http : UriCrate) : List HealthChecker → List HealthChecker × Bool
  | [] => ([], true)
  | c :: rest =>
    -- `tokio::spawn` drops the handle: there is no way back to the task
    if c.isBuilt http then
      let (spawned, returns) := spawnAll http rest
      (c :: spawned, returns)
    else ([], false)

namespace HealthTasks

/-- A task is spawned for each server of each service with a health check, and no handle of it is
kept. -/
def startHealthChecks (http : UriCrate) (tasks : HealthTasks) (config : CheckedConfig) :
    HealthTasks :=
  let (spawned, returns) :=
    spawnAll http ((ServiceManager.new config.config).checkers config.healthCheck)
  ⟨tasks.running ++ spawned.filter (·.loops), returns⟩

def reload (http : UriCrate) (tasks : HealthTasks) (config : CheckedConfig) : HealthTasks :=
  if tasks.watching then tasks.startHealthChecks http config else tasks

def run (http : UriCrate) (initial : CheckedConfig) (reloads : List CheckedConfig) :
    HealthTasks :=
  reloads.foldl (reload http) (startHealthChecks http {} initial)

end HealthTasks

/-! ## The tasks a configuration asks for -/

namespace CheckedConfig

variable (config : CheckedConfig)

/-- The checker belongs to a server of a service with a health check. -/
def Asks (c : HealthChecker) : Prop :=
  ∃ service lb server, config.config.services.get c.service = some service ∧
    service.loadBalancer = some lb ∧ config.healthCheck c.service = some c.config ∧
    lb.servers[c.index]? = some server ∧ c.serverUrl = server.url

/-- Exactly one task for each server that is to be checked. -/
def OnePerServer (running : List HealthChecker) : Prop :=
  running.Nodup ∧ ∀ c, c ∈ running ↔ config.Asks c

def checkers : List HealthChecker :=
  (ServiceManager.new config.config).checkers config.healthCheck

end CheckedConfig

variable {c : HealthChecker} {l : List HealthChecker}

lemma ServiceState.mem_checkers_iff {state : ServiceState} {name : Text}
    {healthCheck : Option HealthCheck} :
    c ∈ state.checkers name healthCheck ↔
      c.service = name ∧ ∃ lb server, state.config.loadBalancer = some lb ∧
        healthCheck = some c.config ∧ lb.servers[c.index]? = some server ∧
        c.serverUrl = server.url := by
  unfold ServiceState.checkers
  split
  · next lb check hlb =>
    rw [hlb, List.mem_map]
    constructor
    · rintro ⟨⟨server, index⟩, hserver, rfl⟩
      exact ⟨rfl, lb, server, rfl, rfl, mem_zipIdx_iff_getElem?.mp hserver, rfl⟩
    · rintro ⟨rfl, _, server, hlb, hcheck, hserver, hurl⟩
      cases hlb
      cases hcheck
      exact ⟨(server, c.index), mem_zipIdx_iff_getElem?.mpr hserver, by rw [← hurl]⟩
  · next hnone =>
    refine ⟨fun h => absurd h not_mem_nil, ?_⟩
    rintro ⟨-, lb, _, hlb, hcheck, -⟩
    exact (hnone lb c.config hlb hcheck).elim

lemma ServiceState.checkers_nodup (state : ServiceState) (name : Text)
    (healthCheck : Option HealthCheck) : (state.checkers name healthCheck).Nodup := by
  unfold ServiceState.checkers
  split
  · next lb check _ =>
    -- the positions differ
    refine List.Nodup.of_map (·.index) ?_
    rw [List.map_map]
    show (lb.servers.zipIdx.map Prod.snd).Nodup
    rw [zipIdx_map_snd]
    exact nodup_range'
  · exact nodup_nil

namespace CheckedConfig

lemma mem_checkers_iff {config : CheckedConfig} : c ∈ config.checkers ↔ config.Asks c := by
  have hentry : ∀ name state,
      (name, state) ∈ (ServiceManager.new config.config).services.entries ↔
        (config.config.services.get name).map ServiceState.new = some state := by
    intro name state
    rw [← HashMap.get_eq_some_iff, ← ServiceManager.getService_new]
    rfl
  rw [checkers, ServiceManager.checkers, mem_flatMap]
  constructor
  · rintro ⟨⟨name, state⟩, hmem, hc⟩
    obtain ⟨service, hservice, rfl⟩ := map_eq_some_iff.mp ((hentry name state).mp hmem)
    obtain ⟨rfl, lb, server, hlb, hrest⟩ := ServiceState.mem_checkers_iff.mp hc
    exact ⟨service, lb, server, hservice, hlb, hrest⟩
  · rintro ⟨service, lb, server, hservice, hlb, hrest⟩
    refine ⟨(c.service, .new service), (hentry _ _).mpr (by rw [hservice]; rfl), ?_⟩
    exact ServiceState.mem_checkers_iff.mpr ⟨rfl, lb, server, hlb, hrest⟩

lemma checkers_nodup (config : CheckedConfig) : config.checkers.Nodup := by
  refine nodup_flatMap.mpr ⟨fun entry _ => entry.2.checkers_nodup _ _, ?_⟩
  -- between services the names differ
  have hkeys := pairwise_map.mp (ServiceManager.new config.config).services.nodup
  refine hkeys.imp fun {a b} hne c ha hb => hne ?_
  have hserviceA := (ServiceState.mem_checkers_iff.mp ha).1
  have hserviceB := (ServiceState.mem_checkers_iff.mp hb).1
  exact hserviceA.symm.trans hserviceB

end CheckedConfig

/-! ## What a reload does -/

variable {http : UriCrate}

lemma spawnAll_snd_iff : (spawnAll http l).2 ↔ ∀ c ∈ l, c.isBuilt http := by
  induction l with
  | nil => simp [spawnAll]
  | cons c l ih =>
    rw [spawnAll]
    by_cases hc : c.isBuilt http
    · rw [if_pos hc, forall_mem_cons, and_iff_right hc]
      exact ih
    · rw [if_neg hc]
      simp [hc]

lemma spawnAll_fst_eq (h : ∀ c ∈ l, c.isBuilt http) : (spawnAll http l).1 = l := by
  induction l with
  | nil => rfl
  | cons c l ih =>
    obtain ⟨hc, hl⟩ := forall_mem_cons.mp h
    rw [spawnAll, if_pos hc]
    exact congrArg (c :: ·) (ih hl)

lemma isBuilt_of_mem_spawnAll (hc : c ∈ (spawnAll http l).1) : c.isBuilt http := by
  induction l with
  | nil => exact absurd hc not_mem_nil
  | cons d l ih =>
    rw [spawnAll] at hc
    split at hc
    · next hd =>
      rcases mem_cons.mp hc with rfl | hc
      · exact hd
      · exact ih hc
    · exact absurd hc not_mem_nil

namespace HealthTasks

variable {tasks : HealthTasks} {config : CheckedConfig}

lemma runs_of_mem_startHealthChecks (hc : c ∈ (tasks.startHealthChecks http config).running) :
    c ∈ tasks.running ∨ c.runs http := by
  rcases mem_append.mp hc with hc | hc
  · exact .inl hc
  · obtain ⟨hspawned, hloops⟩ := mem_filter.mp hc
    exact .inr (by rw [HealthChecker.runs, isBuilt_of_mem_spawnAll hspawned, hloops]; rfl)

/-- If all checkers can be built, each that loops is a new task next to the old ones. -/
lemma running_startHealthChecks (h : (tasks.startHealthChecks http config).watching) :
    (tasks.startHealthChecks http config).running =
      tasks.running ++ config.checkers.filter (·.runs http) := by
  have hbuilt : ∀ c ∈ config.checkers, c.isBuilt http := spawnAll_snd_iff.mp h
  refine congrArg (tasks.running ++ ·) ?_
  refine (congrArg (List.filter _) (spawnAll_fst_eq hbuilt)).trans ?_
  exact filter_congr fun c hc => by rw [HealthChecker.runs, hbuilt c hc, Bool.true_and]

lemma watching_startHealthChecks (tasks : HealthTasks)
    (h : ∀ c, config.Asks c → c.runs http) :
    (tasks.startHealthChecks http config).watching :=
  spawnAll_snd_iff.mpr fun c hc =>
    (Bool.and_eq_true_iff.mp (h c (CheckedConfig.mem_checkers_iff.mp hc))).1

/-- **One reload** leaves one task per checked server exactly if none ran before and every checker
can run. -/
theorem reload_step (hwatching : tasks.watching)
    (hruns : ∀ c ∈ tasks.running, c.runs http) :
    config.OnePerServer (tasks.reload http config).running ↔
      tasks.running = [] ∧ ∀ c, config.Asks c → c.runs http := by
  rw [reload, if_pos hwatching]
  -- once every checker can run, the tasks are the old ones and all the new ones
  have happend : (∀ c, config.Asks c → c.runs http) →
      (tasks.startHealthChecks http config).running = tasks.running ++ config.checkers := by
    intro h
    rw [running_startHealthChecks (watching_startHealthChecks tasks h),
      filter_eq_self.mpr fun c hc => h c (CheckedConfig.mem_checkers_iff.mp hc)]
  constructor
  · rintro ⟨hnodup, hmem⟩
    -- a checker that cannot run has never run, so it is not among the old tasks either
    have hall : ∀ c, config.Asks c → c.runs http := fun c hc =>
      (runs_of_mem_startHealthChecks ((hmem c).mpr hc)).elim (hruns c) id
    refine ⟨eq_nil_iff_forall_not_mem.mpr fun c hc => ?_, hall⟩
    rw [happend hall] at hnodup hmem
    have hasked := (hmem c).mp (mem_append_left _ hc)
    exact disjoint_of_nodup_append hnodup hc (CheckedConfig.mem_checkers_iff.mpr hasked)
  · rintro ⟨hnil, hall⟩
    rw [happend hall, hnil, nil_append]
    exact ⟨config.checkers_nodup, fun _ => CheckedConfig.mem_checkers_iff⟩

/-! ## All reloads -/

/-- The watcher runs, and every task that a configuration so far could start. -/
def Accumulates (http : UriCrate) (initial : CheckedConfig) (before : List CheckedConfig)
    (tasks : HealthTasks) : Prop :=
  tasks.watching = true ∧
    tasks.running = (initial :: before).flatMap fun c => c.checkers.filter (·.runs http)

variable {initial : CheckedConfig} {before : List CheckedConfig}

lemma Accumulates.runs
    (h : Accumulates http initial before tasks) : ∀ c ∈ tasks.running, c.runs http := by
  intro c hc
  rw [h.2] at hc
  obtain ⟨_, _, hc⟩ := mem_flatMap.mp hc
  exact (mem_filter.mp hc).2

lemma Accumulates.running_eq_nil_iff (h : Accumulates http initial before tasks) :
    tasks.running = [] ↔ ∀ earlier ∈ initial :: before, ∀ c, earlier.Asks c → ¬ c.runs http := by
  rw [h.2, flatMap_eq_nil_iff]
  refine forall₂_congr fun earlier _ => ?_
  rw [filter_eq_nil_iff]
  exact forall_congr' fun c => imp_congr_left CheckedConfig.mem_checkers_iff

lemma Accumulates.reload (h : Accumulates http initial before tasks)
    (hall : ∀ c, config.Asks c → c.runs http) :
    Accumulates http initial (before ++ [config]) (tasks.reload http config) := by
  have hwatching := watching_startHealthChecks tasks hall
  rw [HealthTasks.reload, if_pos h.1]
  refine ⟨hwatching, ?_⟩
  rw [running_startHealthChecks hwatching, h.2, ← cons_append, flatMap_append, flatMap_singleton]

/-- **The tasks follow the configuration only as long as there was nothing to follow**: exactly if
at each reload no configuration before has a checker that runs, and all of the new one's can. -/
theorem checkers_follow_iff (initial : CheckedConfig) (reloads : List CheckedConfig)
    (hstart : (run http initial []).watching = true) :
    (∀ before config, before ++ [config] <+: reloads →
        (run http initial before).watching = true →
        config.OnePerServer (run http initial (before ++ [config])).running) ↔
      ∀ before config, before ++ [config] <+: reloads →
        (∀ earlier ∈ initial :: before, ∀ c, earlier.Asks c → ¬ c.runs http = true) ∧
          ∀ c, config.Asks c → c.runs http = true := by
  have hrun : ∀ before config, run http initial (before ++ [config]) =
      (run http initial before).reload http config := fun before config => foldl_concat ..
  simp only [hrun]
  refine steps_congr (I := Accumulates http initial)
    (C := fun _ tasks config => tasks.watching = true →
      config.OnePerServer (tasks.reload http config).running)
    (D := fun before _ config =>
      (∀ earlier ∈ initial :: before, ∀ c, earlier.Asks c → ¬ c.runs http) ∧
        ∀ c, config.Asks c → c.runs http) ?_ ?_ ?_ reloads
  · exact ⟨hstart, by rw [running_startHealthChecks hstart, flatMap_singleton]; rfl⟩
  · intro before tasks config hacc hone
    exact hacc.reload ((reload_step hacc.1 hacc.runs).mp (hone hacc.1)).2
  · intro before tasks config hacc
    rw [← hacc.running_eq_nil_iff, ← reload_step hacc.1 hacc.runs]
    exact ⟨fun h => h hacc.1, fun h _ => h⟩

def webService : Service := { loadBalancer := some ⟨[{ url := "http://10.0.0.1:80" }]⟩ }

def oneServer (healthCheck : Option HealthCheck) : CheckedConfig where
  config := { http := some { services := .singleton "web" webService } }
  healthCheck _ := healthCheck

def webChecker : HealthChecker := ⟨"web", 0, "http://10.0.0.1:80", {}⟩

/-- A health check that a reload adds is run by one task. -/
theorem checkers_follow_iff_added :
    (run printableUris (oneServer none) [oneServer (some {})]).running = [webChecker] ∧
      (oneServer (some {})).OnePerServer
        (run printableUris (oneServer none) [oneServer (some {})]).running := by
  refine ⟨by decide, ?_⟩
  have hnone : (oneServer none).checkers = [] := rfl
  have hone : (oneServer (some {})).checkers = [webChecker] := rfl
  have hstart : (run printableUris (oneServer none) []).watching := by decide
  refine (checkers_follow_iff (oneServer none) [oneServer (some {})] hstart).mpr ?_ []
    (oneServer (some {})) (prefix_refl _) hstart
  intro before config hprefix
  have hlength := hprefix.length_le
  have hbefore : before = [] := eq_nil_of_length_eq_zero (by simpa using hlength)
  subst hbefore
  obtain ⟨rfl, -⟩ := cons_prefix_cons.mp hprefix
  refine ⟨fun earlier hearlier c hc => ?_, fun c hc => ?_⟩
  · rw [mem_singleton.mp hearlier] at hc
    have hmem := CheckedConfig.mem_checkers_iff.mpr hc
    rw [hnone] at hmem
    exact absurd hmem not_mem_nil
  · have hmem := CheckedConfig.mem_checkers_iff.mpr hc
    rw [hone, mem_singleton] at hmem
    subst hmem
    decide

/-- Reloading the same configuration gives its server a second task, and the task of a health check
that a reload drops goes on. -/
theorem checker_left_behind :
    (run printableUris (oneServer (some {})) []).watching = true ∧
      (run printableUris (oneServer (some {})) [oneServer (some {})]).running =
        [webChecker, webChecker] ∧
      ¬(oneServer (some {})).OnePerServer
        (run printableUris (oneServer (some {})) [oneServer (some {})]).running ∧
      (run printableUris (oneServer (some {})) [oneServer none]).running = [webChecker] ∧
      ¬(oneServer none).OnePerServer
        (run printableUris (oneServer (some {})) [oneServer none]).running := by
  have htwice : (run printableUris (oneServer (some {})) [oneServer (some {})]).running =
      [webChecker, webChecker] := by decide
  have hdropped : (run printableUris (oneServer (some {})) [oneServer none]).running =
      [webChecker] := by decide
  refine ⟨by decide, htwice, ?_, hdropped, ?_⟩
  · rintro ⟨hnodup, -⟩
    rw [htwice] at hnodup
    exact absurd hnodup (by decide)
  · rintro ⟨-, hmem⟩
    rw [hdropped] at hmem
    obtain ⟨_, _, _, -, -, hcheck, -⟩ := (hmem webChecker).mp (mem_singleton_self _)
    cases hcheck

end HealthTasks

end TrafficCop
