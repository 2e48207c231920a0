import TrafficCop.Config.Types
import TrafficCop.Lib.Index

/-!
# The TCP and UDP routers

`TcpRouter` of `tcp/router.rs` and `UdpRouter` of `udp/router.rs`. Both keep, per entrypoint, the
routes with a specific rule in a list sorted by priority, and one catch-all route, tried last. They
differ in the rules alone, so there is one table (`StreamTable`) over a type of rules.

The parsers have `to_lowercase` as a parameter; the letters of the names compared come from ASCII
letters only, so the routers here take `toAsciiLowercase` for it. Networks and addresses are those
of a given crate.
-/

namespace TrafficCop

open Rust Index List Function Outcome

/-! ## Rules -/

/-- The crate `ipnetwork` and the addresses of the standard library. -/
class IpCrate (Net Ip : Type) where
  parse : Text → Option Net
  contains : Net → Ip → Bool

def ruleArguments (inner : Text) : List Text :=
  (((inner.splitOn ',').map trim).filter (· ≠ [])).map fun s =>
    trimMatches '"' (trimMatches '\'' (trimMatches '`' s))

section Rules

variable {Net Ip : Type} [IpCrate Net Ip] (lower : Text → Text)

/-- The shape of `extract_hostsni` and `extract_clientip`. -/
def extractBy (name : Text) (args : Text → List Text) (rule : Text) :
    Outcome Empty (Option (List Text)) :=
  if name.isPrefixOf (lower rule) then
    match slice rule name.length (byteLen rule - 1) with
    | some inner => .ok (if (args inner).isEmpty then none else some (args inner))
    | none => .panic
  else .ok none

def extractClientip : Text → Outcome Empty (Option (List Text)) :=
  extractBy lower "clientip(" ruleArguments

variable (Ip) in
/-- The networks of a `ClientIP` rule that has one. -/
def clientNetworksBy (rule : Text) : Outcome Empty (Option (List Net)) := do
  match ← extractClientip lower rule with
  | some ips =>
    let networks := ips.filterMap (IpCrate.parse Ip)
    -- what is no network is left out, and a rule of which nothing is left is none
    return if networks.isEmpty then none else some networks
  | none => return none

def clientMatches (networks : List Net) (clientAddr : Option Ip) : Bool :=
  match clientAddr with
  | some addr => networks.any fun net => IpCrate.contains net addr
  | none => false

/-- A rule that cannot be parsed is a catch-all. -/
inductive TcpRule (Net : Type) where
  | catchAll
  | hostSNI (hosts : List Text)
  | clientIP (networks : List Net)
  deriving Repr, DecidableEq

namespace TcpRule

def extractHostsni : Text → Outcome Empty (Option (List Text)) :=
  extractBy lower "hostsni(" fun inner =>
    (ruleArguments inner).filter fun s => s ≠ [] ∧ s ≠ "*"

variable (Ip) in
def parseBy (rule : Text) : Outcome Empty (TcpRule Net) :=
  let rule := trim rule
  if rule = "*" ∨ lower rule = "hostsni(`*`)" then .ok .catchAll
  else do
    match ← extractHostsni lower rule with
    | some hosts => return .hostSNI hosts
    | none =>
      match ← clientNetworksBy Ip lower rule with
      | some networks => return .clientIP networks
      -- "Default to catch-all if parsing fails"
      | none => return .catchAll

variable (Ip) in
def parse (rule : Text) : Outcome Empty (TcpRule Net) := parseBy Ip toAsciiLowercase rule

def isCatchAll : TcpRule Net → Bool
  | .catchAll => true
  | _ => false

def «matches» (rule : TcpRule Net) (sni : Option Text) (clientAddr : Option Ip) : Bool :=
  match rule with
  | .catchAll => true
  | .hostSNI hosts =>
    match sni with
    | some sni => hosts.any fun
      -- `*.example.com` is for the subdomains and for `example.com` itself
      | '*' :: '.' :: domain => ('.' :: domain).isSuffixOf sni || sni == domain
      | h => eqIgnoreAsciiCase h sni
    | none => false
  | .clientIP networks => clientMatches networks clientAddr

end TcpRule

inductive UdpRule (Net : Type) where
  | catchAll
  | clientIP (networks : List Net)
  deriving Repr, DecidableEq

namespace UdpRule

variable (Ip) in
def parseBy (rule : Text) : Outcome Empty (UdpRule Net) :=
  let rule := trim rule
  if rule = "*" then .ok .catchAll
  else do
    match ← clientNetworksBy Ip lower rule with
    | some networks => return .clientIP networks
    | none => return .catchAll

variable (Ip) in
def parse (rule : Text) : Outcome Empty (UdpRule Net) := parseBy Ip toAsciiLowercase rule

def isCatchAll : UdpRule Net → Bool
  | .catchAll => true
  | _ => false

def «matches» (rule : UdpRule Net) (clientAddr : Option Ip) : Bool :=
  match rule with
  | .catchAll => true
  | .clientIP networks => clientMatches networks clientAddr

end UdpRule

end Rules

/-! ## Tables -/

structure StreamRoute (ρ : Type) where
  name : Text
  service : Text
  middlewares : List Text
  rule : ρ
  priority : Int
  deriving Repr, DecidableEq

/-- `struct TcpRouter` and `struct UdpRouter`. -/
structure StreamTable (ρ : Type) where
  routers : Text → Option (List (StreamRoute ρ))
  catchAll : Text → Option (StreamRoute ρ)

namespace StreamTable

variable {ρ : Type} (isCatchAll : ρ → Bool)

def empty : StreamTable ρ := ⟨fun _ => none, fun _ => none⟩

/-- A route with a specific rule is listed; of the catch-alls there is one. -/
def file (t : StreamTable ρ) (route : StreamRoute ρ) (ep : Text) : StreamTable ρ :=
  if isCatchAll route.rule then
    -- "Only keep highest priority catch-all per entrypoint"
    { t with
      catchAll := update t.catchAll ep
        (keepBest StreamRoute.priority (t.catchAll ep) route) }
  else { t with routers := push t.routers ep route }

def routeOf (name : Text) (routerConfig : StreamRouter) (rule : ρ) : StreamRoute ρ where
  name := name
  service := routerConfig.service
  middlewares := routerConfig.middlewares
  rule := rule
  priority := routerConfig.priority

def entrypoints (config : Config) (routerConfig : StreamRouter) : List Text :=
  if routerConfig.entryPoints.isEmpty then config.entryPoints.entries.map Prod.fst
  else routerConfig.entryPoints

variable (parse : Text → Outcome Empty ρ)

def addRouter (config : Config) (t : StreamTable ρ) (entry : Text × StreamRouter) :
    Outcome Empty (StreamTable ρ) := do
  let rule ← parse entry.2.rule
  return (entrypoints config entry.2).foldl
    (fun t ep => t.file isCatchAll (routeOf entry.1 entry.2 rule) ep) t

def sortByPriority (routes : List (StreamRoute ρ)) : List (StreamRoute ρ) :=
  routes.insertionSort fun a b => b.priority ≤ a.priority

def fromConfig (config : Config) (routers : HashMap Text StreamRouter) :
    Outcome Empty (StreamTable ρ) := do
  let t ← routers.entries.foldlM (addRouter isCatchAll parse config) empty
  -- "Sort routers by priority (higher first)"
  return { t with routers := fun ep => (t.routers ep).map sortByPriority }

/-- `match_connection` and `match_datagram`, for rules that match as `hit` says. -/
def lookUp (t : StreamTable ρ) (entrypoint : Text) (hit : ρ → Bool) : Option (StreamRoute ρ) :=
  match (t.routers entrypoint).bind fun routes => routes.find? fun route => hit route.rule with
  | some route => some route
  -- "Fall back to catch-all"
  | none => t.catchAll entrypoint

end StreamTable

section Routers

variable {Net Ip : Type} [IpCrate Net Ip]

abbrev TcpRouter (Net : Type) := StreamTable (TcpRule Net)

variable (Net Ip) in
def TcpRouter.fromConfig (config : Config) : Outcome Empty (TcpRouter Net) :=
  StreamTable.fromConfig TcpRule.isCatchAll (TcpRule.parse Ip) config config.tcpRouters

def TcpRouter.matchConnection (router : TcpRouter Net) (entrypoint : Text) (sni : Option Text)
    (clientAddr : Option Ip) : Option (StreamRoute (TcpRule Net)) :=
  router.lookUp entrypoint fun rule => rule.matches sni clientAddr

abbrev UdpRouter (Net : Type) := StreamTable (UdpRule Net)

variable (Net Ip) in
def UdpRouter.fromConfig (config : Config) : Outcome Empty (UdpRouter Net) :=
  StreamTable.fromConfig UdpRule.isCatchAll (UdpRule.parse Ip) config config.udpRouters

def UdpRouter.matchDatagram (router : UdpRouter Net) (entrypoint : Text) (clientAddr : Option Ip) :
    Option (StreamRoute (UdpRule Net)) :=
  router.lookUp entrypoint fun rule => rule.matches clientAddr

end Routers

/-! ## What a table holds -/

namespace StreamTable

variable {ρ : Type} {isCatchAll : ρ → Bool} {parse : Text → Outcome Empty ρ} {config : Config}
  {t t' : StreamTable ρ} {F : Text → StreamRoute ρ → Prop}

variable (isCatchAll) in
/-- The table holds all specific routes, and the best catch-all of each entrypoint. -/
structure Filed (F : Text → StreamRoute ρ → Prop) (t : StreamTable ρ) : Prop where
  specific : ∀ ep route, route ∈ (t.routers ep).getD [] ↔ F ep route ∧ isCatchAll route.rule = false
  catchAll : ∀ ep, Answers StreamRoute.priority
    (fun route => F ep route ∧ isCatchAll route.rule = true) (t.catchAll ep)

lemma Filed.congr {F' : Text → StreamRoute ρ → Prop} (h : Filed isCatchAll F t)
    (hF : ∀ ep route, F ep route ↔ F' ep route) : Filed isCatchAll F' t := by
  have hF : F = F' := funext fun ep => funext fun route => propext (hF ep route)
  exact hF ▸ h

lemma filed_empty : Filed isCatchAll (fun _ _ => False) (empty : StreamTable ρ) :=
  ⟨by simp [empty], fun ep route h => h.1⟩

lemma mem_push (m : Text → Option (List (StreamRoute ρ))) (ep ep' : Text)
    (route route' : StreamRoute ρ) : route' ∈ (push m ep route ep').getD [] ↔
      route' ∈ (m ep').getD [] ∨ ep' = ep ∧ route' = route := by
  rw [push, update_apply]
  by_cases hep : ep' = ep
  · simp [hep]
  · simp [hep]

lemma file_filed (h : Filed isCatchAll F t) (route : StreamRoute ρ) (ep : Text) :
    Filed isCatchAll (fun ep' route' => F ep' route' ∨ ep' = ep ∧ route' = route)
      (t.file isCatchAll route ep) := by
  rw [file]
  split
  · next hcatch =>
    refine ⟨fun ep' route' => ?_, fun ep' => ?_⟩
    · -- a catch-all is none of the specific routes
      have hother : ep' = ep ∧ route' = route → isCatchAll route'.rule ≠ false := by
        rintro ⟨-, rfl⟩
        simp [hcatch]
      rw [h.specific]
      refine and_congr_left fun hrule => (or_iff_left ?_).symm
      exact fun heq => hother heq hrule
    · show Answers _ _ (update t.catchAll ep _ ep')
      by_cases hep : ep' = ep
      · subst hep
        rw [update_self]
        refine ((h.catchAll ep').keepBest route).congr fun route' => ?_
        constructor
        · rintro (⟨hF, hrule⟩ | rfl)
          · exact ⟨Or.inl hF, hrule⟩
          · exact ⟨Or.inr ⟨rfl, rfl⟩, hcatch⟩
        · rintro ⟨hF | ⟨-, rfl⟩, hrule⟩
          · exact .inl ⟨hF, hrule⟩
          · exact .inr rfl
      · rw [update_of_ne hep]
        exact (h.catchAll ep').congr fun route' => by simp [hep]
  · next hcatch =>
    refine ⟨fun ep' route' => ?_, fun ep' => (h.catchAll ep').congr fun route' => ?_⟩
    · rw [mem_push, h.specific]
      constructor
      · rintro (⟨hF, hrule⟩ | ⟨rfl, rfl⟩)
        · exact ⟨Or.inl hF, hrule⟩
        · exact ⟨Or.inr ⟨rfl, rfl⟩, by simpa using hcatch⟩
      · rintro ⟨hF | heq, hrule⟩
        · exact .inl ⟨hF, hrule⟩
        · exact .inr heq
    · refine and_congr_left fun hrule => (or_iff_left ?_).symm
      rintro ⟨-, rfl⟩
      exact hcatch hrule

lemma foldl_file_filed (h : Filed isCatchAll F t) (route : StreamRoute ρ) (eps : List Text) :
    Filed isCatchAll (fun ep route' => F ep route' ∨ ep ∈ eps ∧ route' = route)
      (eps.foldl (fun t ep => t.file isCatchAll route ep) t) := by
  induction eps generalizing t F with
  | nil => exact h.congr fun _ _ => by simp
  | cons ep eps ih =>
    refine (ih (file_filed h route ep)).congr fun ep' route' => ?_
    rw [mem_cons, or_and_right, or_assoc]

variable (parse config) in
/-- The route of one of these routers at one of its entrypoints. -/
def RouteOf (entries : List (Text × StreamRouter)) (ep : Text) (route : StreamRoute ρ) : Prop :=
  ∃ entry ∈ entries, ∃ rule, parse entry.2.rule = .ok rule ∧
    ep ∈ entrypoints config entry.2 ∧ route = routeOf entry.1 entry.2 rule

variable {entries : List (Text × StreamRouter)}

lemma foldlM_filed (h : Filed isCatchAll F t)
    (hloop : entries.foldlM (addRouter isCatchAll parse config) t = .ok t') :
    Filed isCatchAll (fun ep route => F ep route ∨ RouteOf parse config entries ep route) t' := by
  induction entries generalizing t F with
  | nil =>
    obtain rfl : t = t' := ok.inj hloop
    exact h.congr fun _ _ => by simp [RouteOf]
  | cons entry entries ih =>
    rw [foldlM_cons] at hloop
    obtain ⟨u, hadd, hrest⟩ := bind_eq_ok.mp hloop
    obtain ⟨rule, hrule, hu⟩ := bind_eq_ok.mp hadd
    obtain rfl := ok.inj hu
    refine (ih (foldl_file_filed h _ _) hrest).congr fun ep route => ?_
    -- the routes of this router, then those of the others
    rw [or_assoc]
    refine or_congr_right ?_
    constructor
    · rintro (⟨hep, rfl⟩ | ⟨entry', hentry', hroute⟩)
      · exact ⟨entry, mem_cons_self, rule, hrule, hep, rfl⟩
      · exact ⟨entry', mem_cons_of_mem _ hentry', hroute⟩
    · rintro ⟨entry', hentry', rule', hrule', hep, rfl⟩
      rcases mem_cons.mp hentry' with rfl | hentry'
      · obtain rfl : rule = rule' := ok.inj (hrule.symm.trans hrule')
        exact .inl ⟨hep, rfl⟩
      · exact .inr ⟨entry', hentry', rule', hrule', hep, rfl⟩

lemma foldlM_isOk_iff (t : StreamTable ρ) :
    (∃ t', entries.foldlM (addRouter isCatchAll parse config) t = .ok t') ↔
      ∀ entry ∈ entries, ∃ rule, parse entry.2.rule = .ok rule := by
  induction entries generalizing t with
  | nil => exact iff_of_true ⟨t, rfl⟩ (by simp)
  | cons entry entries ih =>
    rw [foldlM_cons, forall_mem_cons]
    constructor
    · rintro ⟨t', h⟩
      obtain ⟨u, hadd, hrest⟩ := bind_eq_ok.mp h
      obtain ⟨rule, hrule, -⟩ := bind_eq_ok.mp hadd
      exact ⟨⟨rule, hrule⟩, (ih u).mp ⟨t', hrest⟩⟩
    · rintro ⟨⟨rule, hrule⟩, hrest⟩
      rw [addRouter, hrule]
      exact (ih _).mpr hrest

variable {routers : HashMap Text StreamRouter}

lemma fromConfig_isOk_iff : (∃ t, fromConfig isCatchAll parse config routers = .ok t) ↔
    ∀ entry ∈ routers.entries, ∃ rule, parse entry.2.rule = .ok rule := by
  rw [← foldlM_isOk_iff empty]
  constructor
  · rintro ⟨t, ht⟩
    obtain ⟨u, hloop, -⟩ := bind_eq_ok.mp ht
    exact ⟨u, hloop⟩
  · rintro ⟨u, hloop⟩
    rw [fromConfig, hloop]
    exact ⟨_, rfl⟩

lemma fromConfig_filed (h : fromConfig isCatchAll parse config routers = .ok t) :
    Filed isCatchAll (RouteOf parse config routers.entries) t ∧
      ∀ ep, Descending StreamRoute.priority ((t.routers ep).getD []) := by
  obtain ⟨u, hloop, ht⟩ := bind_eq_ok.mp h
  obtain rfl := ok.inj ht
  have hfiled := (foldlM_filed filed_empty hloop).congr fun _ _ => or_iff_right not_false
  refine ⟨⟨fun ep route => ?_, hfiled.catchAll⟩, fun ep => ?_⟩
  · rw [← hfiled.specific]
    show route ∈ ((u.routers ep).map sortByPriority).getD [] ↔ _
    cases u.routers ep with
    | none => rfl
    | some routes => exact mem_insertionSort _
  · show Descending _ (((u.routers ep).map sortByPriority).getD [])
    cases u.routers ep with
    | none => exact List.Pairwise.nil
    | some routes => exact descending_insertionSort StreamRoute.priority routes

end StreamTable

end TrafficCop
