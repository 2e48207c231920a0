import TrafficCop.Config.Types

/-!
# Configuration validation

`Config::validate` of `config/mod.rs`: the checks in the order of the source, each with the text of
its error. `url::Url::parse` is a given predicate.

The HTTP, TCP and UDP routers go through one sequence of reference checks (`validateReferences`)
that differs in the label of the messages only.
-/

namespace TrafficCop

open Rust

/-! ## Checks -/

/-- `if !condition { anyhow::bail!(..) }`. -/
def ensure (condition : Bool) (message : Text) : Except Text Unit :=
  if condition then .ok () else .error message

def about (before : String) (name : Text) (behind : String) : Text :=
  before.toList ++ name ++ behind.toList

/-- `mw_name.split('@').next()`: the name without a `@provider` suffix. -/
def cleanName (mwName : Text) : Text := mwName.takeWhile (· != '@')

/-- The checks on an HTTP service; only the first kind that is present is checked. -/
def validateService (isUrl : Text → Bool) (name : Text) (service : Service) :
    Except Text Unit :=
  match service.loadBalancer with
  | some lb => do
    ensure (!lb.servers.isEmpty) (about "Service '" name "' must have at least one server")
    lb.servers.forM fun server => ensure (isUrl server.url)
      (about "Invalid server URL in service '" name "': " ++ server.url)
  | none =>
    match service.weighted with
    | some w => ensure (!w.services.isEmpty)
        (about "Weighted service '" name "' must reference at least one service")
    | none =>
      match service.mirroring with
      | some m => ensure (!m.service.isEmpty)
          (about "Mirroring service '" name "' must have a main service")
      -- `failover` is not looked at
      | none => .error
          (about "Service '" name "' must have loadBalancer, weighted, or mirroring configured")

def validateStreamService (label : String) (name : Text) (service : StreamService) :
    Except Text Unit :=
  match service.loadBalancer with
  | some servers => ensure (!servers.isEmpty)
      (about (label ++ " service '") name "' must have at least one server")
  | none =>
    match service.weighted with
    | some services => ensure (!services.isEmpty)
        (about (label ++ " weighted service '") name "' must reference at least one service")
    | none => .error
        (about (label ++ " service '") name "' must have loadBalancer or weighted configured")

/-- The checks on a router's service, middlewares and entrypoints. A middleware may be named with or
without its provider. -/
def validateReferences (label : String) (hasService hasMiddleware hasEntryPoint : Text → Bool)
    (name service : Text) (middlewares entryPoints : List Text) : Except Text Unit := do
  ensure (hasService service)
    (about (label ++ " '") name "' references non-existent service '" ++ service ++ ['\''])
  middlewares.forM fun mwName =>
    ensure (hasMiddleware (cleanName mwName) || hasMiddleware mwName)
      (about (label ++ " '") name "' references non-existent middleware '" ++ mwName ++ ['\''])
  entryPoints.forM fun epName => ensure (hasEntryPoint epName)
    (about (label ++ " '") name "' references non-existent entryPoint '" ++ epName ++ ['\''])

/-- The first failing check is the answer, so with several faults the text depends on the iteration
order of the maps; whether there is an error does not. -/
def Config.validate (isUrl : Text → Bool) (config : Config) : Except Text Unit := do
  ensure (!config.entryPoints.entries.isEmpty) "At least one entryPoint must be defined"
  config.services.entries.forM fun entry => validateService isUrl entry.1 entry.2
  config.routers.entries.forM fun entry =>
    validateReferences "Router" config.services.containsKey config.middlewares.containsKey
      config.entryPoints.containsKey entry.1 entry.2.service entry.2.middlewares
      entry.2.entryPoints
  config.tcpServices.entries.forM fun entry => validateStreamService "TCP" entry.1 entry.2
  config.tcpRouters.entries.forM fun entry =>
    validateReferences "TCP router" config.tcpServices.containsKey
      config.tcpMiddlewares.containsKey config.entryPoints.containsKey entry.1 entry.2.service
      entry.2.middlewares entry.2.entryPoints
  config.udpServices.entries.forM fun entry => validateStreamService "UDP" entry.1 entry.2
  config.udpRouters.entries.forM fun entry =>
    validateReferences "UDP router" config.udpServices.containsKey
      config.udpMiddlewares.containsKey config.entryPoints.containsKey entry.1 entry.2.service
      entry.2.middlewares entry.2.entryPoints

/-! ## What validation accepts -/

/-- The kinds in the order in which they are looked for. -/
def Service.Valid (isUrl : Text → Bool) (service : Service) : Prop :=
  match service.loadBalancer, service.weighted, service.mirroring with
  | some lb, _, _ => lb.servers ≠ [] ∧ ∀ server ∈ lb.servers, isUrl server.url = true
  | none, some w, _ => w.services ≠ []
  | none, none, some m => m.service ≠ []
  | none, none, none => False

def StreamService.Valid (service : StreamService) : Prop :=
  match service.loadBalancer, service.weighted with
  | some servers, _ => servers ≠ []
  | none, some services => services ≠ []
  | none, none => False

/-- What a router refers to exists. -/
structure RefersTo {σ μ π : Type} (services : HashMap Text σ) (middlewares : HashMap Text μ)
    (entryPoints : HashMap Text π) (service : Text) (mws eps : List Text) : Prop where
  service : services.containsKey service = true
  middlewares : ∀ mwName ∈ mws,
    middlewares.containsKey (cleanName mwName) = true ∨ middlewares.containsKey mwName = true
  entryPoints : ∀ epName ∈ eps, entryPoints.containsKey epName = true

/-- What the checks demand, without their order. -/
structure Config.Valid (isUrl : Text → Bool) (config : Config) : Prop where
  entryPoints : config.entryPoints.entries ≠ []
  services : ∀ entry ∈ config.services.entries, entry.2.Valid isUrl
  routers : ∀ entry ∈ config.routers.entries, RefersTo config.services config.middlewares
    config.entryPoints entry.2.service entry.2.middlewares entry.2.entryPoints
  tcpServices : ∀ entry ∈ config.tcpServices.entries, entry.2.Valid
  tcpRouters : ∀ entry ∈ config.tcpRouters.entries, RefersTo config.tcpServices
    config.tcpMiddlewares config.entryPoints entry.2.service entry.2.middlewares
    entry.2.entryPoints
  udpServices : ∀ entry ∈ config.udpServices.entries, entry.2.Valid
  udpRouters : ∀ entry ∈ config.udpRouters.entries, RefersTo config.udpServices
    config.udpMiddlewares config.entryPoints entry.2.service entry.2.middlewares
    entry.2.entryPoints

lemma ensure_eq_ok {condition : Bool} {message : Text} :
    ensure condition message = .ok () ↔ condition := by
  cases condition <;> simp [ensure]

lemma seq_eq_ok {a b : Except Text Unit} : (do a; b) = .ok () ↔ a = .ok () ∧ b = .ok () := by
  rcases a with e | ⟨⟨⟩⟩
  · simp [bind, Except.bind]
  · simp [bind, Except.bind]

lemma forM_eq_ok {α : Type} {xs : List α} {check : α → Except Text Unit} :
    xs.forM check = .ok () ↔ ∀ x ∈ xs, check x = .ok () := by
  induction xs with
  | nil => simp [pure, Except.pure]
  | cons x xs ih =>
    show (do check x; xs.forM check) = _ ↔ _
    rw [seq_eq_ok, ih, List.forall_mem_cons]

variable {isUrl : Text → Bool} {name : Text} {label : String}

lemma validateService_eq_ok_iff {service : Service} :
    validateService isUrl name service = .ok () ↔ service.Valid isUrl := by
  unfold validateService Service.Valid
  -- the kinds in the order in which both look at them
  rcases service.loadBalancer with _ | lb
  · rcases service.weighted with _ | w
    · rcases service.mirroring with _ | m
      · simp
      · simp [ensure_eq_ok]
    · simp [ensure_eq_ok]
  · simp only [seq_eq_ok, forM_eq_ok, ensure_eq_ok]
    simp

lemma validateStreamService_eq_ok_iff {service : StreamService} :
    validateStreamService label name service = .ok () ↔ service.Valid := by
  unfold validateStreamService StreamService.Valid
  rcases service.loadBalancer with _ | servers
  · rcases service.weighted with _ | services
    · simp
    · simp [ensure_eq_ok]
  · simp [ensure_eq_ok]

lemma validateReferences_eq_ok_iff {σ μ π : Type} {services : HashMap Text σ}
    {middlewares : HashMap Text μ} {entryPoints : HashMap Text π} {service : Text}
    {mws eps : List Text} :
    validateReferences label services.containsKey middlewares.containsKey entryPoints.containsKey
        name service mws eps = .ok () ↔
      RefersTo services middlewares entryPoints service mws eps := by
  unfold validateReferences
  simp only [seq_eq_ok, forM_eq_ok, ensure_eq_ok, Bool.or_eq_true]
  exact ⟨fun ⟨hs, hm, he⟩ => ⟨hs, hm, he⟩, fun ⟨hs, hm, he⟩ => ⟨hs, hm, he⟩⟩

lemma validate_eq_ok_iff {config : Config} :
    config.validate isUrl = .ok () ↔ config.Valid isUrl := by
  unfold Config.validate
  simp only [seq_eq_ok, forM_eq_ok, ensure_eq_ok, validateService_eq_ok_iff,
    validateStreamService_eq_ok_iff, validateReferences_eq_ok_iff]
  have hne : (!config.entryPoints.entries.isEmpty) = true ↔ config.entryPoints.entries ≠ [] := by
    simp
  rw [hne]
  exact ⟨fun ⟨h₁, h₂, h₃, h₄, h₅, h₆, h₇⟩ => ⟨h₁, h₂, h₃, h₄, h₅, h₆, h₇⟩,
    fun ⟨h₁, h₂, h₃, h₄, h₅, h₆, h₇⟩ => ⟨h₁, h₂, h₃, h₄, h₅, h₆, h₇⟩⟩

end TrafficCop
