import TrafficCop.Router.Router

/-!
# What the indexed lookup answers

`Router::match_request` is documented to return the highest-priority matching route, with the host
index and the candidate lists as accelerations of a plain scan. This module compares it with that
scan.

The lookup is a *tiered* search (`Index.tiered`): first the eligible routes that require a host, in
descending priority, and only when there is none those that do not. So

* it is sound and complete (`matchRequest_sound_complete`);
* it returns a route of highest priority exactly when no route without a host outranks those with
  one (`matchRequest_max_iff`, `matchRequest_lower_priority`);
* it depends on the iteration order only in ties (`matchRequest_reordered`,
  `matchRequest_tie_order`).
-/

namespace TrafficCop

open Rust Index List Outcome

variable {Regex : Type} [RegexCrate Regex]

/-! ## Eligible routes -/

/-- A route that a lookup may answer. -/
def Route.Eligible (route : Route Regex) (entrypoint : Text) (req : Request) : Prop :=
  route.Bound entrypoint ∧ route.matcher.matches req = true

/-- The routes the host loop is responsible for. -/
def Hosted (table : RouteTable Regex) (entrypoint : Text) (req : Request)
    (route : Route Regex) : Prop :=
  route ∈ table.routes ∧ route.RequiresHost ∧ route.Eligible entrypoint req

/-- The routes the candidate loop is responsible for. -/
def Unhosted (table : RouteTable Regex) (entrypoint : Text) (req : Request)
    (route : Route Regex) : Prop :=
  route ∈ table.routes ∧ ¬ route.RequiresHost ∧ route.Eligible entrypoint req

variable {table : RouteTable Regex} {req : Request} {entrypoint : Text} {route : Route Regex}
  {config : Config} {router : Router Regex}

variable {i : Fin table.routes.length} {routes : List (Route Regex)} {name : Text}

lemma mem_hostCandidates_of_matches
    (hreq : (table.routes.get i).RequiresHost)
    (hm : (table.routes.get i).matcher.matches req) :
    i ∈ (Router.index table).hostCandidates req := by
  obtain ⟨h, hh⟩ := exists_mem_of_ne_nil _ hreq
  obtain ⟨host, hhost, hlower⟩ := Rule.matches_extractHosts hm h hh
  exact Router.mem_hostCandidates.mpr ⟨host, hhost, mem_map.mpr ⟨h, hh, hlower.symm⟩⟩

omit [RegexCrate Regex] in
lemma requiresHost_of_mem_hostCandidates
    (hi : i ∈ (Router.index table).hostCandidates req) :
    (table.routes.get i).RequiresHost := by
  obtain ⟨h, -, hmem⟩ := Router.mem_hostCandidates.mp hi
  intro hnil
  rw [hnil] at hmem
  simp at hmem

lemma matchHosted_answers (table : RouteTable Regex) (entrypoint : Text) (req : Request) :
    Answers Route.priority (Hosted table entrypoint req)
      ((Router.index table).matchHosted entrypoint req) := by
  refine answers_find? (pairwise_map.mpr Router.hostCandidates_descending) fun route => ?_
  rw [Bool.and_eq_true, decide_eq_true_eq]
  refine ⟨fun ⟨hmem, hreq, helig⟩ => ?_, fun ⟨hmem, helig⟩ => ?_⟩
  · obtain ⟨i, rfl⟩ := mem_iff_get.mp hmem
    exact ⟨mem_map.mpr ⟨i, mem_hostCandidates_of_matches hreq helig.2, rfl⟩, helig⟩
  · obtain ⟨i, hi, rfl⟩ := mem_map.mp hmem
    exact ⟨get_mem _ _, requiresHost_of_mem_hostCandidates hi, helig⟩

lemma matchCandidates_answers (table : RouteTable Regex) (entrypoint : Text) (req : Request) :
    Answers Route.priority (Unhosted table entrypoint req)
      ((Router.index table).matchCandidates entrypoint req) := by
  refine answers_find? (pairwise_map.mpr Router.candidates_descending) fun route => ?_
  -- the flag that the loop skips on is the one set for the host index
  have hflag : ∀ route ∈ table.routes, (!route.hostIndexed) = true ↔ ¬ route.RequiresHost := by
    intro route hroute
    rw [table.marked route hroute, Bool.not_not, List.isEmpty_iff, Route.RequiresHost, not_not]
  rw [Bool.and_eq_true]
  refine ⟨fun ⟨hmem, hreq, helig⟩ => ?_, fun ⟨hmem, hskip, hm⟩ => ?_⟩
  · obtain ⟨i, rfl⟩ := mem_iff_get.mp hmem
    exact ⟨mem_map.mpr ⟨i, Router.mem_candidates.mpr helig.1, rfl⟩,
      (hflag _ hmem).mpr hreq, helig.2⟩
  · obtain ⟨i, hi, rfl⟩ := mem_map.mp hmem
    have hroute : table.routes.get i ∈ table.routes := get_mem _ _
    exact ⟨hroute, (hflag _ hroute).mp hskip, Router.mem_candidates.mp hi, hm⟩

lemma matchRequest_eq_tiered (router : Router Regex) (entrypoint : Text) (req : Request) :
    router.matchRequest entrypoint req =
      tiered (router.matchHosted entrypoint req) (router.matchCandidates entrypoint req) := by
  unfold Router.matchRequest tiered
  cases router.matchHosted entrypoint req <;> rfl

lemma hosted_or_unhosted :
    Hosted table entrypoint req route ∨ Unhosted table entrypoint req route ↔
      route ∈ table.routes ∧ route.Eligible entrypoint req := by
  unfold Hosted Unhosted
  tauto

/-! ## The routes of a configuration -/

/-- The route a router entry contributes, if its rule parses. -/
def routeOf? (entry : Text × RouterConfig) : Option (Route Regex) :=
  match RouteMatcher.fromRule entry.2.rule with
  | .ok matcher => some (routeOf entry.1 entry.2 matcher)
  | _ => none

lemma collectRoutes_eq_ok_iff {entries : List (Text × RouterConfig)}
    :
    collectRoutes entries = .ok routes ↔
      (∀ entry ∈ entries, (parse entry.2.rule : ParseResult (Rule Regex)) ≠ .panic) ∧
      routes = entries.filterMap routeOf? := by
  induction entries generalizing routes with
  | nil => simp [collectRoutes, eq_comm]
  | cons entry entries ih =>
    obtain ⟨name, routerConfig⟩ := entry
    rw [collectRoutes]
    cases hparse : (parse routerConfig.rule : ParseResult (Rule Regex)) with
    | panic => simp [RouteMatcher.fromRule, hparse]
    | err e => simp [RouteMatcher.fromRule, hparse, routeOf?, ih]
    | ok rule =>
      have hrule : RouteMatcher.fromRule routerConfig.rule = .ok ⟨rule⟩ := by
        rw [RouteMatcher.fromRule, hparse]
        rfl
      rw [hrule]
      dsimp only
      rw [bind_eq_ok]
      simp only [pure_eq, ok.injEq, ih, forall_mem_cons, hparse, hrule, ne_eq,
        reduceCtorEq, not_false_eq_true, true_and, filterMap_cons, routeOf?]
      grind

lemma fromConfig_eq_ok_iff :
    Router.fromConfig config = .ok router ↔
      (∀ entry ∈ config.routers.entries, (parse entry.2.rule : ParseResult (Rule Regex)) ≠ .panic) ∧
      router = Router.index (.ofRoutes (config.routers.entries.filterMap routeOf?)) := by
  rw [Router.fromConfig, Router.fromEntries, bind_eq_ok]
  simp only [collectRoutes_eq_ok_iff, pure_eq, ok.injEq]
  refine ⟨fun ⟨routes, ⟨hnp, hroutes⟩, hrouter⟩ => ⟨hnp, ?_⟩, fun ⟨hnp, hrouter⟩ => ?_⟩
  · rw [← hrouter, hroutes]
  · exact ⟨_, ⟨hnp, rfl⟩, hrouter.symm⟩

/-- The configuration has this router, and its rule parses to `rule`. -/
def Config.HasRouter (config : Config) (name : Text) (routerConfig : RouterConfig)
    (rule : Rule Regex) : Prop :=
  (name, routerConfig) ∈ config.routers.entries ∧ parse routerConfig.rule = .ok rule

/-- Bound to the entrypoint, and the rule matches, read off the configuration. -/
def RouterConfig.Eligible (routerConfig : RouterConfig) (rule : Rule Regex) (entrypoint : Text)
    (req : Request) : Prop :=
  (routerConfig.entryPoints = [] ∨ entrypoint ∈ routerConfig.entryPoints) ∧ rule.matches req = true

def tableRoute (name : Text) (routerConfig : RouterConfig) (rule : Rule Regex) : Route Regex :=
  (routeOf name routerConfig ⟨rule⟩).markHostIndexed

omit [RegexCrate Regex] in
lemma mem_ofRoutes :
    route ∈ (RouteTable.ofRoutes routes).routes ↔
      ∃ unmarked ∈ routes, unmarked.markHostIndexed = route := by
  have hperm : (sortByPriority routes).Perm routes := perm_insertionSort _ routes
  show route ∈ (sortByPriority routes).map Route.markHostIndexed ↔ _
  simp only [mem_map, hperm.mem_iff]

lemma routeOf?_eq_some_iff {routerConfig : RouterConfig} :
    routeOf? (name, routerConfig) = some route ↔
      ∃ rule, parse routerConfig.rule = .ok rule ∧ route = routeOf name routerConfig ⟨rule⟩ := by
  unfold routeOf? RouteMatcher.fromRule
  cases (parse routerConfig.rule : ParseResult (Rule Regex)) <;> simp [eq_comm]

lemma mem_routes_iff (hr : Router.fromConfig config = .ok router) :
    route ∈ router.routes ↔
      ∃ name routerConfig rule, config.HasRouter name routerConfig rule ∧
        route = tableRoute name routerConfig rule := by
  obtain ⟨-, rfl⟩ := fromConfig_eq_ok_iff.mp hr
  rw [Router.index_routes, mem_ofRoutes]
  simp only [mem_filterMap, Prod.exists, routeOf?_eq_some_iff, Config.HasRouter, tableRoute]
  refine ⟨?_, ?_⟩
  · rintro ⟨unmarked, ⟨name, routerConfig, hmem, rule, hrule, rfl⟩, rfl⟩
    exact ⟨name, routerConfig, rule, ⟨hmem, hrule⟩, rfl⟩
  · rintro ⟨name, routerConfig, rule, ⟨hmem, hrule⟩, rfl⟩
    exact ⟨_, ⟨name, routerConfig, hmem, rule, hrule, rfl⟩, rfl⟩

lemma hosted_iff (hr : Router.fromConfig config = .ok (Router.index table)) :
    Hosted table entrypoint req route ↔
      ∃ name rc rule, config.HasRouter name rc rule ∧ route = tableRoute name rc rule ∧
        rule.extractHosts ≠ [] ∧ rc.Eligible rule entrypoint req := by
  unfold Hosted
  rw [← Router.index_routes, mem_routes_iff hr]
  refine ⟨?_, ?_⟩
  · rintro ⟨⟨name, rc, rule, hhas, rfl⟩, hreq, helig⟩
    exact ⟨name, rc, rule, hhas, rfl, hreq, helig⟩
  · rintro ⟨name, rc, rule, hhas, rfl, hreq, helig⟩
    exact ⟨⟨name, rc, rule, hhas, rfl⟩, hreq, helig⟩

lemma unhosted_iff (hr : Router.fromConfig config = .ok (Router.index table)) :
    Unhosted table entrypoint req route ↔
      ∃ name rc rule, config.HasRouter name rc rule ∧ route = tableRoute name rc rule ∧
        rule.extractHosts = [] ∧ rc.Eligible rule entrypoint req := by
  unfold Unhosted
  rw [← Router.index_routes, mem_routes_iff hr]
  refine ⟨?_, ?_⟩
  · rintro ⟨⟨name, rc, rule, hhas, rfl⟩, hreq, helig⟩
    exact ⟨name, rc, rule, hhas, rfl, not_not.mp hreq, helig⟩
  · rintro ⟨name, rc, rule, hhas, rfl, hreq, helig⟩
    exact ⟨⟨name, rc, rule, hhas, rfl⟩, not_not.mpr hreq, helig⟩

lemma exists_table (hr : Router.fromConfig config = .ok router) :
    ∃ table : RouteTable Regex, router = Router.index table :=
  ⟨_, (fromConfig_eq_ok_iff.mp hr).2⟩

/-! ## A concrete shop

Two routers that the statements below are evaluated on: one for a host, one for
a path on any host. -/

def shopConfig : RouterConfig :=
  { rule := "Host(`shop.test`)", service := "shop", priority := 1 }

def apiConfig : RouterConfig :=
  { rule := "PathPrefix(`/api`)", service := "api", priority := 100 }

def routersOnly (entries : List (Text × RouterConfig)) (h : (entries.map Prod.fst).Nodup) :
    Config :=
  { http := some { routers := ⟨entries, h⟩ } }

def shopAndApi : Config :=
  routersOnly [("shop", shopConfig), ("api", apiConfig)] (by decide)

def shopRequest : Request where
  host := some "SHOP.test"
  path := "/api/orders"
  query := none
  method := some "GET"
  header := fun _ => none

lemma parse_shop :
    (parse shopConfig.rule : ParseResult (Rule Literal)) = .ok (.host "shop.test") := by
  rw [parse_call (by decide) (by decide) (by decide) (by decide)]
  decide

lemma parse_api :
    (parse apiConfig.rule : ParseResult (Rule Literal)) = .ok (.pathPrefix "/api") := by
  rw [parse_call (by decide) (by decide) (by decide) (by decide)]
  decide

def shopRouter : Router Literal :=
  Router.index (.ofRoutes
    [routeOf "shop" shopConfig ⟨.host "shop.test"⟩, routeOf "api" apiConfig ⟨.pathPrefix "/api"⟩])

lemma fromConfig_shopAndApi : Router.fromConfig shopAndApi = .ok shopRouter := by
  show Router.fromEntries [("shop", shopConfig), ("api", apiConfig)] = _
  simp only [Router.fromEntries, collectRoutes, RouteMatcher.fromRule, parse_shop, parse_api]
  rfl

/-! ## Soundness and completeness -/

/-- **The indexed lookup is sound and complete for the plain scan.** It returns a route exactly
when some route bound to the entrypoint matches, and whatever it returns is such a route. -/
theorem matchRequest_sound_complete {config : Config} {router : Router Regex}
    (hr : Router.fromConfig config = .ok router) (entrypoint : Text) (req : Request) :
    ((router.matchRequest entrypoint req).isSome = true ↔
      ∃ route ∈ router.routes, route.Eligible entrypoint req) ∧
    ∀ route, router.matchRequest entrypoint req = some route →
      route ∈ router.routes ∧ route.Eligible entrypoint req := by
  obtain ⟨table, rfl⟩ := exists_table hr
  have hhosted := matchHosted_answers table entrypoint req
  have hunhosted := matchCandidates_answers table entrypoint req
  rw [matchRequest_eq_tiered]
  refine ⟨?_, fun route hroute => ?_⟩
  · rw [tiered_isSome_iff hhosted hunhosted]
    simp only [hosted_or_unhosted, Router.index_routes]
  · exact hosted_or_unhosted.mp (tiered_mem hhosted hunhosted hroute)

theorem matchRequest_sound_complete_shop :
    (shopRouter.matchRequest "web" shopRequest).isSome = true ∧
      ∃ route ∈ shopRouter.routes, route.Eligible "web" shopRequest :=
  have hsome : (shopRouter.matchRequest "web" shopRequest).isSome := by
    decide +kernel
  ⟨hsome, (matchRequest_sound_complete fromConfig_shopAndApi _ _).1.mp hsome⟩

/-! ## Priority -/

/-- **When the lookup returns a route of highest priority.** Exactly when, as soon
as some eligible router requires a host, every eligible router that does not is
outranked or equalled by one that does. -/
theorem matchRequest_max_iff {config : Config} {router : Router Regex}
    (hr : Router.fromConfig config = .ok router) (entrypoint : Text) (req : Request) :
    (∀ route, router.matchRequest entrypoint req = some route →
      ∀ other ∈ router.routes, other.Bound entrypoint → other.matcher.matches req = true →
        ¬ route.priority < other.priority) ↔
    ((∃ name rc, ∃ rule : Rule Regex, config.HasRouter name rc rule ∧
        rule.extractHosts ≠ [] ∧ rc.Eligible rule entrypoint req) →
      ∀ name rc, ∀ rule : Rule Regex, config.HasRouter name rc rule →
        rule.extractHosts = [] → rc.Eligible rule entrypoint req →
        ∃ name' rc', ∃ rule' : Rule Regex, config.HasRouter name' rc' rule' ∧
          rule'.extractHosts ≠ [] ∧ rc'.Eligible rule' entrypoint req ∧
          rc.priority ≤ rc'.priority) := by
  obtain ⟨table, rfl⟩ := exists_table hr
  have htiered := tiered_max_iff (matchHosted_answers table entrypoint req)
    (matchCandidates_answers table entrypoint req)
  rw [← matchRequest_eq_tiered] at htiered
  -- both sides of the general statement, read off the configuration
  refine Iff.trans ?left (htiered.trans ?right)
  case left =>
    simp only [hosted_or_unhosted, not_lt, Router.index_routes]
    exact ⟨fun h route hroute other ho => h route hroute other ho.1 ho.2.1 ho.2.2,
      fun h route hroute other hmem hb hm => h route hroute other ⟨hmem, hb, hm⟩⟩
  case right =>
    simp only [hosted_iff hr, unhosted_iff hr]
    refine ⟨?_, ?_⟩
    · rintro h ⟨name, rc, rule, hhas, hhost, helig⟩ name' rc' rule' hhas' hhost' helig'
      obtain ⟨route, ⟨n, c, r, hn, rfl, hreq, he⟩, hle⟩ :=
        h ⟨_, name, rc, rule, hhas, rfl, hhost, helig⟩ _
          ⟨name', rc', rule', hhas', rfl, hhost', helig'⟩
      exact ⟨n, c, r, hn, hreq, he, hle⟩
    · rintro h ⟨route, name, rc, rule, hhas, -, hhost, helig⟩ other
        ⟨name', rc', rule', hhas', rfl, hhost', helig'⟩
      obtain ⟨n, c, r, hn, hreq, he, hle⟩ :=
        h ⟨name, rc, rule, hhas, hhost, helig⟩ name' rc' rule' hhas' hhost' helig'
      exact ⟨tableRoute n c r, ⟨n, c, r, hn, rfl, hreq, he⟩, hle⟩

theorem matchRequest_max_iff_shop :
    Router.fromConfig shopAndApi = .ok shopRouter ∧
    ∀ route, shopRouter.matchRequest "web".toList { shopRequest with path := "/".toList } =
        some route →
      ∀ other ∈ shopRouter.routes, other.Bound "web".toList →
        other.matcher.matches { shopRequest with path := "/".toList } = true →
        ¬ route.priority < other.priority := by
  refine ⟨fromConfig_shopAndApi, (matchRequest_max_iff fromConfig_shopAndApi _ _).mpr ?_⟩
  -- on the path `/` the only eligible router is the one for the host
  rintro - name rc rule ⟨hmem, hparse⟩ hhosts ⟨-, hm⟩
  have hmem : (name, rc) = ("shop".toList, shopConfig) ∨
      (name, rc) = ("api".toList, apiConfig) := by
    simpa [shopAndApi, routersOnly, Config.routers] using hmem
  rcases hmem with h | h
  · obtain ⟨-, rfl⟩ := Prod.mk.inj h
    rw [parse_shop] at hparse
    obtain rfl := ok.inj hparse
    simp [Rule.extractHosts] at hhosts
  · obtain ⟨-, rfl⟩ := Prod.mk.inj h
    rw [parse_api] at hparse
    obtain rfl := ok.inj hparse
    exact absurd hm (by decide)

/-- **The host index can hide a route of higher priority.** A request for the
shop's `/api` is answered by the shop's router of priority 1, although the API
router of priority 100 is bound to the entrypoint and matches. -/
theorem matchRequest_lower_priority :
    ∃ (config : Config) (router : Router Literal) (route other : Route Literal)
      (entrypoint : Text) (req : Request),
      Router.fromConfig config = .ok router ∧
      router.matchRequest entrypoint req = some route ∧
      other ∈ router.routes ∧ other.Bound entrypoint ∧ other.matcher.matches req = true ∧
      route.priority < other.priority :=
  ⟨shopAndApi, shopRouter, tableRoute "shop" shopConfig (.host "shop.test"),
    tableRoute "api" apiConfig (.pathPrefix "/api"), "web", shopRequest,
    fromConfig_shopAndApi, by decide +kernel, by decide, by decide, by decide, by decide⟩

/-! ## Iteration order -/

lemma hasRouter_reordered {config' : Config}
    (hperm : config.routers.Reordered config'.routers) {rc : RouterConfig}
    {rule : Rule Regex} : config.HasRouter name rc rule ↔ config'.HasRouter name rc rule := by
  unfold Config.HasRouter
  rw [List.Perm.mem_iff hperm]

/-- **The iteration order of the router map only decides between ties.** In two orders, both find
nothing, or both find a route of the same priority and kind; and it is the same one unless another
eligible route of that kind has the same priority. -/
theorem matchRequest_reordered {config config' : Config} {router : Router Regex}
    (hperm : config.routers.Reordered config'.routers)
    (hr : Router.fromConfig config = .ok router) (entrypoint : Text) (req : Request) :
    ∃ router' : Router Regex, Router.fromConfig config' = .ok router' ∧
      Option.Rel (fun a b => a.priority = b.priority ∧ (a.RequiresHost ↔ b.RequiresHost) ∧
          ((∀ other ∈ router.routes, other.Eligible entrypoint req →
              (other.RequiresHost ↔ a.RequiresHost) → other.priority = a.priority →
              other.name = a.name) →
            b.name = a.name))
        (router.matchRequest entrypoint req) (router'.matchRequest entrypoint req) := by
  obtain ⟨hnp, -⟩ := fromConfig_eq_ok_iff.mp hr
  -- panics of the rule parser do not depend on the order either
  set table' : RouteTable Regex := .ofRoutes (config'.routers.entries.filterMap routeOf?)
  have hr' : Router.fromConfig config' = .ok (Router.index table') :=
    fromConfig_eq_ok_iff.mpr ⟨fun entry hentry => hnp entry (hperm.mem_iff.mpr hentry), rfl⟩
  obtain ⟨table, rfl⟩ := exists_table hr
  refine ⟨_, hr', ?_⟩
  -- both searches range over the same two classes of routes
  have hhosted : Hosted table' entrypoint req = Hosted table entrypoint req := by
    funext route
    rw [eq_iff_iff, hosted_iff hr, hosted_iff hr']
    simp only [hasRouter_reordered hperm]
  have hunhosted : Unhosted table' entrypoint req = Unhosted table entrypoint req := by
    funext route
    rw [eq_iff_iff, unhosted_iff hr, unhosted_iff hr']
    simp only [hasRouter_reordered hperm]
  have hagree := tiered_agree (matchHosted_answers table entrypoint req)
    (hhosted ▸ matchHosted_answers table' entrypoint req)
    (matchCandidates_answers table entrypoint req)
    (hunhosted ▸ matchCandidates_answers table' entrypoint req)
  rw [← matchRequest_eq_tiered, ← matchRequest_eq_tiered] at hagree
  refine rel_imp ?_ hagree
  rintro a b ⟨hprio, ⟨ha, hb⟩ | ⟨ha, hb⟩⟩
  · exact ⟨hprio, iff_of_true ha.2.1 hb.2.1, fun hunique =>
      hunique b hb.1 hb.2.2 (iff_of_true hb.2.1 ha.2.1) hprio.symm⟩
  · exact ⟨hprio, iff_of_false ha.2.1 hb.2.1, fun hunique =>
      hunique b hb.1 hb.2.2 (iff_of_false hb.2.1 ha.2.1) hprio.symm⟩

def apiAndShop : Config :=
  routersOnly [("api", apiConfig), ("shop", shopConfig)] (by decide)

theorem matchRequest_reordered_shop :
    ∃ router' : Router Literal, Router.fromConfig apiAndShop = .ok router' ∧
      (router'.matchRequest "web" shopRequest).map Route.name = some "shop" := by
  have hperm : shopAndApi.routers.Reordered apiAndShop.routers := List.Perm.swap _ _ _
  obtain ⟨router', hr', hrel⟩ :=
    matchRequest_reordered hperm fromConfig_shopAndApi "web" shopRequest
  refine ⟨router', hr', ?_⟩
  rw [show shopRouter.matchRequest "web" shopRequest =
    some (tableRoute "shop" shopConfig (.host "shop.test")) by decide +kernel] at hrel
  generalize router'.matchRequest "web" shopRequest = answer at hrel
  rcases hrel with @⟨a, b, -, -, hname⟩
  -- the shop's router is the only one of its priority
  have hunique : ∀ other ∈ shopRouter.routes, other.priority = 1 → other.name = "shop" := by decide
  exact congrArg some (hname fun other hmem _ _ hprio => hunique other hmem hprio)

def firstConfig : RouterConfig :=
  { rule := "PathPrefix(`/api`)", service := "first" }

def secondConfig : RouterConfig :=
  { rule := "PathPrefix(`/api`)", service := "second" }

/-- **Ties are decided by the iteration order.** Two routers of equal priority
with the same rule: whichever the map yields first answers the request. -/
theorem matchRequest_tie_order :
    ∃ (config config' : Config) (router router' : Router Literal) (req : Request),
      config.routers.Reordered config'.routers ∧
      Router.fromConfig config = .ok router ∧ Router.fromConfig config' = .ok router' ∧
      (router.matchRequest "web" req).map Route.name = some "first" ∧
      (router'.matchRequest "web" req).map Route.name = some "second" := by
  have hparse : ∀ rc : RouterConfig, rc.rule = apiConfig.rule →
      (parse rc.rule : ParseResult (Rule Literal)) = .ok (.pathPrefix "/api") :=
    fun rc h => h ▸ parse_api
  refine ⟨routersOnly [("first", firstConfig), ("second", secondConfig)] (by decide),
    routersOnly [("second", secondConfig), ("first", firstConfig)] (by decide),
    Router.index (.ofRoutes [routeOf "first" firstConfig ⟨.pathPrefix "/api"⟩,
      routeOf "second" secondConfig ⟨.pathPrefix "/api"⟩]),
    Router.index (.ofRoutes [routeOf "second" secondConfig ⟨.pathPrefix "/api"⟩,
      routeOf "first" firstConfig ⟨.pathPrefix "/api"⟩]),
    shopRequest, List.Perm.swap _ _ _, ?_, ?_, by decide +kernel, by decide +kernel⟩
  · show Router.fromEntries [("first", firstConfig), ("second", secondConfig)] = _
    simp only [Router.fromEntries, collectRoutes, RouteMatcher.fromRule, hparse firstConfig rfl,
      hparse secondConfig rfl]
    rfl
  · show Router.fromEntries [("second", secondConfig), ("first", firstConfig)] = _
    simp only [Router.fromEntries, collectRoutes, RouteMatcher.fromRule, hparse firstConfig rfl,
      hparse secondConfig rfl]
    rfl

end TrafficCop
