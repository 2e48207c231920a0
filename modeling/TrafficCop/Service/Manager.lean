import TrafficCop.Balancer.LoadBalancer

/-!
# The service manager

`ServiceManager` of `service/manager.rs`: one state for each configured service.
-/

namespace TrafficCop

open Rust

structure ServiceState where
  config : Service
  balancer : Option LoadBalancer

structure ServiceManager where
  services : HashMap Text ServiceState

namespace ServiceState

/-- The balancer that `ServiceManager::new` gives a service, kind by kind. -/
def balancerOf (service : Service) : Option LoadBalancer :=
  match service.loadBalancer with
  | some lb => some (.fromLoadBalancer lb)
  | none =>
    match service.weighted with
    -- "TODO: Implement weighted service routing"
    | some _ => none
    | none =>
      if service.mirroring.isSome then none else if service.failover.isSome then none else none

/-- Only the load-balancer kind gets a balancer. -/
def new (service : Service) : ServiceState := ⟨service, balancerOf service⟩

variable (state : ServiceState)

def call (c : LoadBalancer.Call) : ServiceState :=
  { state with balancer := state.balancer.map (·.step c) }

def run (calls : List LoadBalancer.Call) : ServiceState :=
  calls.foldl call state

lemma balancerOf_eq (service : Service) :
    balancerOf service = service.loadBalancer.map .fromLoadBalancer := by
  unfold balancerOf
  split
  · next lb hlb => rw [hlb]; rfl
  · next hlb =>
    rw [hlb]
    split
    · rfl
    · split <;> simp

lemma balancer_run (calls : List LoadBalancer.Call) :
    (state.run calls).balancer = state.balancer.map (·.run calls) := by
  induction calls generalizing state with
  | nil => simp [run, LoadBalancer.run]
  | cons c calls ih =>
    refine (ih (state.call c)).trans ?_
    rw [call, Option.map_map]
    rfl

end ServiceState

namespace ServiceManager

def new (config : Config) : ServiceManager :=
  ⟨config.services.filterMap fun _ service => some (.new service)⟩

variable (m : ServiceManager)

def getService (name : Text) : Option ServiceState := m.services.get name

/-- Requests and health changes act on the balancer of the service they name. -/
def call (c : Text × LoadBalancer.Call) : ServiceManager :=
  ⟨m.services.filterMap fun name state => some (if name = c.1 then state.call c.2 else state)⟩

/-- The states of a manager are those behind a sequence of calls. -/
def run (calls : List (Text × LoadBalancer.Call)) : ServiceManager :=
  calls.foldl call m

lemma getService_new (config : Config) (name : Text) :
    (new config).getService name = (config.services.get name).map .new := by
  rw [getService, new, HashMap.get_filterMap]
  cases config.services.get name <;> rfl

lemma getService_call (c : Text × LoadBalancer.Call) (name : Text) : (m.call c).getService name =
      (m.getService name).map fun state => if name = c.1 then state.call c.2 else state := by
  rw [getService, call, HashMap.get_filterMap, getService]
  cases m.services.get name <;> rfl

/-- **Services do not disturb each other**: a run acts on one by the calls that name it. -/
theorem getService_run (calls : List (Text × LoadBalancer.Call)) (name : Text) :
    (m.run calls).getService name = (m.getService name).map fun state =>
      state.run ((calls.filter fun c => name = c.1).map Prod.snd) := by
  induction calls generalizing m with
  | nil =>
    show m.getService name = _
    cases m.getService name <;> rfl
  | cons c calls ih =>
    refine (ih (m.call c)).trans ?_
    -- the first call reaches the service or is filtered out
    rw [getService_call, Option.map_map]
    congr 1
    funext state
    by_cases hname : name = c.1
    · simp [hname, ServiceState.run]
    · simp [hname]

end ServiceManager

end TrafficCop
