import TrafficCop.Config.Validate
import TrafficCop.Router.Routing
import TrafficCop.Service.Manager

/-!
# From a configuration to a backend

The way of a request from its route to a backend: the router holds the route, the service manager
the service it names, and the balancer of the service selects a server. Each stage has its own idea
of what a usable configuration is.
-/

namespace TrafficCop

open Rust List Option HashMap

/-! ## Selecting a backend -/

/-- The first part of `forward_to_backend_inner`: URL and parsed URI of the selected server, or the
text of the 503. -/
def selectBackend (services : ServiceManager) (serviceName : Text) :
    Except Text (Text × Option ParsedBackendUri) :=
  match services.getService serviceName with
  | none => .error "Service Unavailable"
  | some service =>
    match service.balancer with
    | none => .error "Service Not Configured"
    | some balancer =>
      match balancer.nextServer.1 with
      | none => .error "No Healthy Backends"
      | some s => .ok (s.urlArc.getD s.url, s.parsedUri)

lemma selectBackend_run {config : Config} {serviceName : Text} {service : Service}
    (hservice : config.services.get serviceName = some service)
    (hservers : ∀ lb ∈ service.loadBalancer, lb.servers ≠ [])
    (calls : List (Text × LoadBalancer.Call)) :
    (∃ backend, selectBackend ((ServiceManager.new config).run calls) serviceName = .ok backend) ↔
      service.loadBalancer.isSome := by
  -- of the calls only those on this service matter
  have hstate : ((ServiceManager.new config).run calls).getService serviceName =
      some ((ServiceState.new service).run
        ((calls.filter fun c => serviceName = c.1).map Prod.snd)) := by
    rw [ServiceManager.getService_run, ServiceManager.getService_new, hservice]
    rfl
  unfold selectBackend
  rw [hstate]
  dsimp only
  rw [ServiceState.balancer_run, ServiceState.new, ServiceState.balancerOf_eq]
  cases hlb : service.loadBalancer with
  | none => simp
  | some lb =>
    obtain ⟨server, -, hnext⟩ := LoadBalancer.nextServer_run (hservers lb hlb)
      ((calls.filter fun c => serviceName = c.1).map Prod.snd)
    simp [hnext]

/-! ## What validation promises -/

section Serving

variable (Regex : Type) [RegexCrate Regex]

/-- A configured router is among the routes, and its requests always get a backend. -/
def Served (config : Config) (router : Router Regex) (name : Text) (routerConfig : RouterConfig) :
    Prop :=
  (∃ route ∈ router.routes, route.name = name ∧ route.service = routerConfig.service) ∧
    ∀ calls, ∃ backend,
      selectBackend ((ServiceManager.new config).run calls) routerConfig.service = .ok backend

/-- What `ServiceManager::new` handles: the first kind present has servers with proper URLs, a
reference or a main service. -/
def Service.WellFormed (isUrl : Text → Bool) (service : Service) : Prop :=
  match service.loadBalancer, service.weighted, service.mirroring, service.failover with
  | some lb, _, _, _ => lb.servers ≠ [] ∧ ∀ server ∈ lb.servers, isUrl server.url = true
  | none, some w, _, _ => w.services ≠ []
  | none, none, some m, _ => m.service ≠ []
  | none, none, none, some _ => True
  | none, none, none, none => False

variable {Regex}

variable {config : Config} {router : Router Regex} {name : Text} {routerConfig : RouterConfig}
  {isUrl : Text → Bool}

lemma exists_route_iff (hr : Router.fromConfig config = .ok router)
    (hname : config.routers.get name = some routerConfig) :
    (∃ route ∈ router.routes, route.name = name ∧ route.service = routerConfig.service) ↔
      ∃ rule : Rule Regex, parse routerConfig.rule = .ok rule := by
  refine ⟨?_, fun ⟨rule, hrule⟩ => ?_⟩
  · rintro ⟨route, hroute, hroutename, -⟩
    obtain ⟨name', rc', rule, ⟨hmem, hrule⟩, rfl⟩ := (mem_routes_iff hr).mp hroute
    -- names are keys: the route comes from this very entry
    obtain rfl : name' = name := hroutename
    cases hname.symm.trans (get_eq_some_iff.mpr hmem)
    exact ⟨rule, hrule⟩
  · have hmem : tableRoute name routerConfig rule ∈ router.routes :=
      (mem_routes_iff hr).mpr ⟨name, routerConfig, rule, ⟨get_eq_some_iff.mp hname, hrule⟩, rfl⟩
    exact ⟨_, hmem, rfl, rfl⟩

lemma served_iff (hvalid : config.Valid isUrl) (hr : Router.fromConfig config = .ok router)
    (hname : config.routers.get name = some routerConfig) :
    Served Regex config router name routerConfig ↔
      (∃ rule : Rule Regex, parse routerConfig.rule = .ok rule) ∧
        ∀ service, config.services.get routerConfig.service = some service →
          service.loadBalancer.isSome := by
  have hmem := get_eq_some_iff.mp hname
  obtain ⟨service, hservice⟩ := isSome_iff_exists.mp (hvalid.routers _ hmem).service
  -- validation rejects a load balancer without servers
  have hservers : ∀ lb ∈ service.loadBalancer, lb.servers ≠ [] := by
    intro lb hlb
    have hok := hvalid.services _ (get_eq_some_iff.mp hservice)
    rw [mem_def] at hlb
    simp only [Service.Valid, hlb] at hok
    exact hok.1
  have hselect := selectBackend_run hservice hservers
  unfold Served
  rw [exists_route_iff hr hname]
  refine and_congr Iff.rfl ⟨fun h service' hservice' => ?_, fun h calls => ?_⟩
  · cases hservice.symm.trans hservice'
    exact (hselect []).mp (h [])
  · exact (hselect calls).mpr (h service hservice)

/-- Of these, validation turns away those that are only a failover. -/
lemma validateService_wellFormed_iff {service : Service} (h : service.WellFormed isUrl) :
    validateService isUrl name service = .ok () ↔
      service.loadBalancer.isSome ∨ service.weighted.isSome ∨ service.mirroring.isSome := by
  rw [validateService_eq_ok_iff]
  -- the two predicates look at the kinds in the same order
  rcases service with ⟨_ | lb, w, m, f⟩
  · rcases w with _ | w
    · rcases m with _ | m
      · simp [Service.Valid]
      · exact ⟨fun _ => .inr (.inr rfl), fun _ => h⟩
    · exact ⟨fun _ => .inr (.inl rfl), fun _ => h⟩
  · exact ⟨fun _ => .inl rfl, fun _ => h⟩

/-- **Which validated configurations are served**, in every state of the services: those where
every rule parses and every service referred to has a load balancer; and a well-formed service
passes validation exactly when it is not a failover alone. -/
theorem validated_serves_iff {isUrl : Text → Bool} {config : Config}
    (hvalid : config.validate isUrl = .ok ()) :
    ((∃ router : Router Regex, Router.fromConfig config = .ok router ∧
        ∀ name routerConfig, config.routers.get name = some routerConfig →
          Served Regex config router name routerConfig) ↔
      ∀ name routerConfig, config.routers.get name = some routerConfig →
        (∃ rule : Rule Regex, parse routerConfig.rule = .ok rule) ∧
          ∀ service, config.services.get routerConfig.service = some service →
            service.loadBalancer.isSome = true) ∧
    ∀ (name : Text) (service : Service), service.WellFormed isUrl →
      (validateService isUrl name service = .ok () ↔
        service.loadBalancer.isSome ∨ service.weighted.isSome ∨ service.mirroring.isSome) := by
  have hok := validate_eq_ok_iff.mp hvalid
  refine ⟨⟨fun ⟨router, hr, hall⟩ name rc hname => ?_, fun h => ?_⟩,
    fun name service hwf => validateService_wellFormed_iff hwf⟩
  · exact (served_iff hok hr hname).mp (hall name rc hname)
  · -- parsed rules do not panic, so there is a router
    have hnp : ∀ entry ∈ config.routers.entries,
        (parse entry.2.rule : ParseResult (Rule Regex)) ≠ .panic := by
      intro entry hentry hpanic
      obtain ⟨⟨rule, hrule⟩, -⟩ := h entry.1 entry.2 (get_eq_some_iff.mpr hentry)
      cases hpanic.symm.trans hrule
    have hr := fromConfig_eq_ok_iff.mpr ⟨hnp, rfl⟩
    exact ⟨_, hr, fun name rc hname => (served_iff hok hr hname).mpr (h name rc hname)⟩

end Serving

def siteConfig (serviceName : Text) : Config where
  entryPoints := .singleton "web" ⟨":80"⟩
  http := some {
    routers := .singleton "site" {
      rule := "Host(`site.test`)", service := serviceName }
    services := ⟨[("app", { loadBalancer := some ⟨[{ url := "http://10.0.0.1" }]⟩ }),
      ("split", { weighted := some ⟨[{ name := "app" }]⟩ })], by decide⟩ }

lemma get_siteConfig {serviceName name : Text} {rc : RouterConfig}
    (h : (siteConfig serviceName).routers.get name = some rc) :
    rc = { rule := "Host(`site.test`)", service := serviceName } := by
  have hmem := get_eq_some_iff.mp h
  obtain ⟨-, rfl⟩ := Prod.mk.inj (mem_singleton.mp hmem)
  rfl

theorem validated_serves_iff_app :
    ∃ router : Router Literal, Router.fromConfig (siteConfig "app") = .ok router ∧
      ∀ name rc, (siteConfig "app").routers.get name = some rc →
        Served Literal (siteConfig "app") router name rc := by
  have hvalid : (siteConfig "app").validate (fun _ => true) = .ok () := by decide
  refine (validated_serves_iff hvalid).1.mpr fun name rc hname => ?_
  obtain rfl := get_siteConfig hname
  refine ⟨⟨.host "site.test", ?_⟩, fun service hservice => ?_⟩
  · rw [parse_call (by decide) (by decide) (by decide) (by decide)]
    decide
  · cases hservice
    rfl

/-- A router on a weighted service passes validation; its requests are answered
"Service Not Configured". -/
theorem weighted_not_served :
    ¬ ∀ (isUrl : Text → Bool) (config : Config), config.validate isUrl = .ok () →
      (∃ router : Router Literal, Router.fromConfig config = .ok router ∧
        ∀ name rc, config.routers.get name = some rc → Served Literal config router name rc) ∧
      ∀ (name : Text) (service : Service), service.WellFormed isUrl →
        validateService isUrl name service = .ok () := by
  intro h
  obtain ⟨⟨router, -, hall⟩, -⟩ := h (fun _ => true) (siteConfig "split") (by decide)
  obtain ⟨backend, hbackend⟩ := (hall "site" _ rfl).2 []
  have hselect : selectBackend (ServiceManager.new (siteConfig "split")) "split" =
      .error "Service Not Configured" := rfl
  cases hselect.symm.trans hbackend

end TrafficCop
