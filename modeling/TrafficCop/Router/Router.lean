import TrafficCop.Config.Types
import TrafficCop.Lib.Index
import TrafficCop.Router.Parser

/-!
# The router

`Router` of `router/mod.rs`: the routes in priority order with a host index and one candidate list
per entrypoint, and the lookup `matchRequest` over them.
-/

namespace TrafficCop

open Rust Index List Option

variable {Regex : Type}

/-! ## Routes -/

structure RouteMatcher (Regex : Type) where
  rule : Rule Regex
  deriving Repr, DecidableEq

namespace RouteMatcher

def fromRule [RegexCrate Regex] (ruleStr : Text) : Outcome RuleParseError (RouteMatcher Regex) := do
  let rule ← parse ruleStr
  return ⟨rule⟩

def «matches» [RegexCrate Regex] (m : RouteMatcher Regex) (req : Request) : Bool :=
  m.rule.matches req

def extractHosts (m : RouteMatcher Regex) : List Text := m.rule.extractHosts

end RouteMatcher

structure Route (Regex : Type) where
  name : Text
  entrypoints : List Text
  matcher : RouteMatcher Regex
  service : Text
  middlewares : List Text
  priority : Int
  hostIndexed : Bool
  deriving Repr, DecidableEq

namespace Route

variable (route : Route Regex)

/-- The route is bound to the entrypoint: its list is empty or contains it. -/
def Bound (entrypoint : Text) : Prop :=
  route.entrypoints = [] ∨ entrypoint ∈ route.entrypoints

instance (route : Route Regex) (entrypoint : Text) : Decidable (route.Bound entrypoint) :=
  inferInstanceAs (Decidable (_ ∨ _))

/-- The route requires specific hosts, so it is found through the host index. -/
def RequiresHost : Prop := route.matcher.extractHosts ≠ []

instance (route : Route Regex) : Decidable route.RequiresHost :=
  inferInstanceAs (Decidable (_ ≠ _))

def markHostIndexed : Route Regex :=
  { route with hostIndexed := !route.matcher.extractHosts.isEmpty }

end Route

/-! ## Construction -/

def routeOf (name : Text) (routerConfig : RouterConfig) (matcher : RouteMatcher Regex) :
    Route Regex where
  name := name
  entrypoints := routerConfig.entryPoints
  matcher := matcher
  service := routerConfig.service
  middlewares := routerConfig.middlewares
  priority := routerConfig.priority
  hostIndexed := false

/-- The `filter_map` of `Router::from_config`: an entry whose rule does not parse is left out. -/
def collectRoutes [RegexCrate Regex] :
    List (Text × RouterConfig) → Outcome Empty (List (Route Regex))
  | [] => .ok []
  | (name, routerConfig) :: entries =>
    match RouteMatcher.fromRule routerConfig.rule with
    | .ok matcher => do
      let routes ← collectRoutes entries
      return routeOf name routerConfig matcher :: routes
    | .err _ => collectRoutes entries
    | .panic => .panic

def sortByPriority (routes : List (Route Regex)) : List (Route Regex) :=
  routes.insertionSort fun a b => b.priority ≤ a.priority

/-- The routes when the indexes are built: sorted by priority, those of the host index flagged. -/
structure RouteTable (Regex : Type) where
  routes : List (Route Regex)
  descending : Descending Route.priority routes
  marked : ∀ route ∈ routes, route.hostIndexed = !route.matcher.extractHosts.isEmpty

lemma sortByPriority_descending (routes : List (Route Regex)) :
    Descending Route.priority (sortByPriority routes) :=
  descending_insertionSort Route.priority routes

def RouteTable.ofRoutes (routes : List (Route Regex)) : RouteTable Regex where
  routes := (sortByPriority routes).map Route.markHostIndexed
  descending := pairwise_map.mpr (sortByPriority_descending routes)
  marked := by
    intro route hroute
    obtain ⟨unmarked, -, rfl⟩ := mem_map.mp hroute
    rfl

/-- The indexes hold positions in `routes`, here `Fin` values, so that none points outside the list.
-/
structure Router (Regex : Type) where
  routes : List (Route Regex)
  candidatesByEp : Text → Option (List (Fin routes.length))
  catchAll : List (Fin routes.length)
  hostIndex : Text → Option (List (Fin routes.length))

namespace Router

def index (table : RouteTable Regex) : Router Regex :=
  let routes := table.routes
  let idxs := finRange routes.length
  let catchAll := idxs.filter fun i => (routes.get i).entrypoints.isEmpty
  { routes := routes
    hostIndex := invert (fun i => (routes.get i).matcher.extractHosts.map toAsciiLowercase) idxs
    catchAll := catchAll
    -- each entrypoint's own routes, merged with the catch-all routes
    candidatesByEp := fun ep =>
      (invert (fun i => (routes.get i).entrypoints) idxs ep).map fun candidates =>
        candidates.merge catchAll fun i j =>
          decide ((routes.get j).priority ≤ (routes.get i).priority) }

def fromEntries [RegexCrate Regex] (entries : List (Text × RouterConfig)) :
    Outcome Empty (Router Regex) := do
  let routes ← collectRoutes entries
  return index (.ofRoutes routes)

def fromConfig [RegexCrate Regex] (config : Config) : Outcome Empty (Router Regex) :=
  fromEntries config.routers.entries

/-! ## Lookup -/

section Lookup

variable [RegexCrate Regex] (router : Router Regex) (entrypoint : Text) (req : Request)

def candidates : List (Fin router.routes.length) :=
  (router.candidatesByEp entrypoint).getD router.catchAll

def hostCandidates : List (Fin router.routes.length) :=
  match req.host with
  | some h => (router.hostIndex (toAsciiLowercase h)).getD []
  | none => []

def matchHosted : Option (Route Regex) :=
  ((router.hostCandidates req).map router.routes.get).find? fun route =>
    decide (route.Bound entrypoint) && route.matcher.matches req

def matchCandidates : Option (Route Regex) :=
  ((router.candidates entrypoint).map router.routes.get).find? fun route =>
    !route.hostIndexed && route.matcher.matches req

/-- The routes that require a host come first. -/
def matchRequest : Option (Route Regex) :=
  match router.matchHosted entrypoint req with
  | some route => some route
  | none => router.matchCandidates entrypoint req

end Lookup

/-! ## What the indexes hold -/

section Indexes

variable {table : RouteTable Regex} {entrypoint : Text} {req : Request}

@[simp] lemma index_routes (table : RouteTable Regex) : (index table).routes = table.routes := rfl

def ownCandidates (table : RouteTable Regex) (ep : Text) :
    Option (List (Fin table.routes.length)) :=
  invert (fun i => (table.routes.get i).entrypoints) (finRange table.routes.length) ep

lemma candidates_eq (table : RouteTable Regex) (ep : Text) :
    (index table).candidates ep =
      match ownCandidates table ep with
      | none => (index table).catchAll
      | some own => own.merge (index table).catchAll fun i j =>
          decide ((table.routes.get j).priority ≤ (table.routes.get i).priority) := by
  show ((ownCandidates table ep).map _).getD _ = _
  cases ownCandidates table ep <;> rfl

lemma finRange_descending (table : RouteTable Regex) :
    Descending (fun i => (table.routes.get i).priority) (finRange table.routes.length) := by
  have hget := pairwise_iff_get.mp table.descending
  exact (pairwise_lt_finRange _).imp fun hij => hget _ _ hij

lemma invert_descending (table : RouteTable Regex)
    (keys : Fin table.routes.length → List Text) (k : Text) :
    Descending (fun i => (table.routes.get i).priority)
      ((invert keys (finRange table.routes.length) k).getD []) :=
  pairwise_invert (R := fun i j => (table.routes.get j).priority ≤ (table.routes.get i).priority)
    (fun _ => le_refl _) (finRange_descending table) k

variable {i : Fin table.routes.length}

lemma mem_hostCandidates :
    i ∈ (index table).hostCandidates req ↔
      ∃ h, req.host = some h ∧
        toAsciiLowercase h ∈ (table.routes.get i).matcher.extractHosts.map toAsciiLowercase := by
  unfold hostCandidates
  cases req.host with
  | none => exact ⟨fun h => absurd h not_mem_nil, fun ⟨_, h, _⟩ => absurd h (by simp)⟩
  | some h =>
    show i ∈ (invert (fun i => (table.routes.get i).matcher.extractHosts.map toAsciiLowercase)
      (finRange table.routes.length) (toAsciiLowercase h)).getD [] ↔ _
    rw [mem_invert]
    exact ⟨fun hk => ⟨h, rfl, hk.2⟩, fun ⟨_, hh, hk⟩ => ⟨mem_finRange i, by
      rw [Option.some.inj hh]; exact hk⟩⟩

lemma hostCandidates_descending :
    Descending (fun i => (table.routes.get i).priority) ((index table).hostCandidates req) := by
  unfold hostCandidates
  cases req.host with
  | none => exact List.Pairwise.nil
  | some h => exact invert_descending table _ _

lemma mem_catchAll : i ∈ (index table).catchAll ↔ (table.routes.get i).entrypoints = [] := by
  show i ∈ (finRange table.routes.length).filter
    (fun i => (table.routes.get i).entrypoints.isEmpty) ↔ _
  rw [List.mem_filter, List.isEmpty_iff]
  exact ⟨And.right, fun h => ⟨mem_finRange i, h⟩⟩

lemma mem_candidates :
    i ∈ (index table).candidates entrypoint ↔ (table.routes.get i).Bound entrypoint := by
  have hown : i ∈ (ownCandidates table entrypoint).getD [] ↔
      entrypoint ∈ (table.routes.get i).entrypoints := by
    unfold ownCandidates
    rw [mem_invert]
    exact ⟨And.right, fun h => ⟨mem_finRange i, h⟩⟩
  rw [candidates_eq, Route.Bound]
  cases hep : ownCandidates table entrypoint with
  | none =>
    -- no route names the entrypoint: only the catch-all routes are bound to it
    rw [hep, getD_none] at hown
    have hnot := fun h => not_mem_nil (hown.mpr h)
    exact mem_catchAll.trans ⟨Or.inl, fun h => h.resolve_right hnot⟩
  | some own =>
    rw [hep, getD_some] at hown
    exact mem_merge.trans ((or_congr hown mem_catchAll).trans Or.comm)

lemma candidates_descending :
    Descending (fun i => (table.routes.get i).priority)
      ((index table).candidates entrypoint) := by
  have hcatch : Descending (fun i => (table.routes.get i).priority) (index table).catchAll :=
    (finRange_descending table).filter _
  have hown : Descending (fun i => (table.routes.get i).priority)
      ((ownCandidates table entrypoint).getD []) := invert_descending table _ _
  rw [candidates_eq]
  cases hep : ownCandidates table entrypoint with
  | none => exact hcatch
  | some own =>
    rw [hep] at hown
    exact Descending.merge hown hcatch

end Indexes

end Router

end TrafficCop
