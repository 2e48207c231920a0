import TrafficCop.Stream.Router

/-!
# Priorities of TCP and UDP routes

What `match_connection` and `match_datagram` return, in terms of the configured routers. A lookup is
a tiered search: the best matching specific route, and only if there is none the best catch-all. So
a catch-all never wins against a specific route, and among equal priorities of one kind the
iteration order of the router map decides.
-/

namespace TrafficCop

open Rust Index

namespace StreamTable

variable {ρ : Type} {isCatchAll : ρ → Bool} {parse : Text → Outcome Empty ρ} {config : Config}
  {routers : HashMap Text StreamRouter} {t : StreamTable ρ} {hit : ρ → Bool}

/-- The two kinds of routes at an entrypoint. -/
def Specific (isCatchAll : ρ → Bool) (parse : Text → Outcome Empty ρ) (config : Config)
    (routers : HashMap Text StreamRouter) (hit : ρ → Bool) (ep : Text) (route : StreamRoute ρ) :
    Prop :=
  RouteOf parse config routers.entries ep route ∧ isCatchAll route.rule = false ∧
    hit route.rule = true

/-- A configured route whose rule is a catch-all. -/
def CatchAll (isCatchAll : ρ → Bool) (parse : Text → Outcome Empty ρ) (config : Config)
    (routers : HashMap Text StreamRouter) (ep : Text) (route : StreamRoute ρ) : Prop :=
  RouteOf parse config routers.entries ep route ∧ isCatchAll route.rule = true

def findSpecific (t : StreamTable ρ) (ep : Text) (hit : ρ → Bool) : Option (StreamRoute ρ) :=
  ((t.routers ep).getD []).find? fun route => hit route.rule

lemma lookUp_eq_tiered (t : StreamTable ρ) (ep : Text) (hit : ρ → Bool) :
    t.lookUp ep hit = tiered (t.findSpecific ep hit) (t.catchAll ep) := by
  rw [lookUp, findSpecific]
  cases t.routers ep with
  | none => rfl
  | some routes =>
    rw [Option.bind_some, Option.getD_some]
    cases routes.find? fun route => hit route.rule <;> rfl

lemma findSpecific_answers (h : fromConfig isCatchAll parse config routers = .ok t) (ep : Text)
    (hit : ρ → Bool) : Answers StreamRoute.priority
      (Specific isCatchAll parse config routers hit ep) (t.findSpecific ep hit) := by
  obtain ⟨hfiled, hsorted⟩ := fromConfig_filed h
  refine answers_find? (hsorted ep) fun route => ?_
  rw [hfiled.specific, and_assoc]
  rfl

lemma catchAll_answers (h : fromConfig isCatchAll parse config routers = .ok t) (ep : Text) :
    Answers StreamRoute.priority (CatchAll isCatchAll parse config routers ep) (t.catchAll ep) :=
  (fromConfig_filed h).1.catchAll ep

/-- The best route of its kind that matches, a catch-all only if nothing else does. -/
def Best (isCatchAll hit : ρ → Bool) (bound : StreamRoute ρ → Prop) :
    Option (StreamRoute ρ) → Prop
  | some route => bound route ∧ hit route.rule = true ∧
      (∀ other, bound other → hit other.rule = true →
        isCatchAll other.rule = isCatchAll route.rule → other.priority ≤ route.priority) ∧
      (isCatchAll route.rule = true →
        ∀ other, bound other → hit other.rule = true → isCatchAll other.rule = true)
  | none => ∀ other, bound other → hit other.rule = false

lemma lookUp_best (h : fromConfig isCatchAll parse config routers = .ok t) (ep : Text)
    (hall : ∀ rule, isCatchAll rule → hit rule) :
    Best isCatchAll hit (RouteOf parse config routers.entries ep) (t.lookUp ep hit) := by
  have hspecific := findSpecific_answers h ep hit
  have hcatch := catchAll_answers h ep
  rw [lookUp_eq_tiered]
  match t.findSpecific ep hit, hspecific with
  -- a specific route: the catch-alls are not looked at
  | some route, ⟨⟨hbound, hrule, hhit⟩, hmax⟩ =>
    refine ⟨hbound, hhit, fun other hother hhit' hkind => ?_, fun hcatch' => ?_⟩
    · exact hmax other ⟨hother, hkind.trans hrule, hhit'⟩
    · simp [hrule] at hcatch'
  | none, hnone =>
    -- whatever matches is a catch-all
    have hkind : ∀ other, RouteOf parse config routers.entries ep other → hit other.rule →
        isCatchAll other.rule := by
      intro other hother hhit
      by_contra hrule
      exact hnone other ⟨hother, by simpa using hrule, hhit⟩
    show Best _ _ _ (t.catchAll ep)
    match t.catchAll ep, hcatch with
    | some route, ⟨⟨hbound, hrule⟩, hmax⟩ =>
      exact ⟨hbound, hall _ hrule, fun other hother hhit _ =>
        hmax other ⟨hother, hkind other hother hhit⟩, fun _ => hkind⟩
    | none, hnone' =>
      intro other hother
      by_contra hhit
      have hhit : hit other.rule := by simpa using hhit
      exact hnone' other ⟨hother, hkind other hother hhit⟩

variable {config' : Config} {routers' : HashMap Text StreamRouter}

lemma entrypoints_reordered (hperm : config.entryPoints.Reordered config'.entryPoints)
    (routerConfig : StreamRouter) (ep : Text) :
    ep ∈ entrypoints config' routerConfig ↔ ep ∈ entrypoints config routerConfig := by
  rw [entrypoints, entrypoints]
  split
  · exact (hperm.map Prod.fst).mem_iff.symm
  · rfl

lemma routeOf_reordered (heps : config.entryPoints.Reordered config'.entryPoints)
    (hperm : routers.Reordered routers') (ep : Text) (route : StreamRoute ρ) :
    RouteOf parse config' routers'.entries ep route ↔
      RouteOf parse config routers.entries ep route := by
  simp only [RouteOf, entrypoints_reordered heps, ← hperm.mem_iff]

/-- Two routes that one lookup may return: same priority and kind, and equal if no other route ties.
-/
def SameUpToTies (isCatchAll hit : ρ → Bool) (bound : StreamRoute ρ → Prop)
    (a b : StreamRoute ρ) : Prop :=
  a.priority = b.priority ∧ isCatchAll a.rule = isCatchAll b.rule ∧
    ((∀ other, bound other → hit other.rule = true → isCatchAll other.rule = isCatchAll a.rule →
      other.priority = a.priority → other.name = a.name) → b.name = a.name)

lemma lookUp_reordered (h : fromConfig isCatchAll parse config routers = .ok t) (ep : Text)
    (hall : ∀ rule, isCatchAll rule → hit rule)
    (heps : config.entryPoints.Reordered config'.entryPoints)
    (hperm : routers.Reordered routers') :
    ∃ t', fromConfig isCatchAll parse config' routers' = .ok t' ∧
      Option.Rel (SameUpToTies isCatchAll hit (RouteOf parse config routers.entries ep))
        (t.lookUp ep hit) (t'.lookUp ep hit) := by
  obtain ⟨t', h'⟩ : ∃ t', fromConfig isCatchAll parse config' routers' = .ok t' :=
    fromConfig_isOk_iff.mpr fun entry hentry =>
      fromConfig_isOk_iff.mp ⟨t, h⟩ entry (hperm.mem_iff.mpr hentry)
  refine ⟨t', h', ?_⟩
  -- both searches range over the same two kinds of routes
  have hspecific := (findSpecific_answers h' ep hit).congr fun route =>
    and_congr_left' (routeOf_reordered heps hperm ep route)
  have hcatch := (catchAll_answers h' ep).congr fun route =>
    and_congr_left' (routeOf_reordered heps hperm ep route)
  have hagree := tiered_agree (findSpecific_answers h ep hit) hspecific (catchAll_answers h ep)
    hcatch
  rw [lookUp_eq_tiered, lookUp_eq_tiered]
  refine rel_imp ?_ hagree
  -- both routes are specific, or both are catch-alls
  rintro a b ⟨hprio, ⟨ha, hb⟩ | ⟨ha, hb⟩⟩
  · exact ⟨hprio, ha.2.1.trans hb.2.1.symm, fun hunique =>
      hunique b hb.1 hb.2.2 (hb.2.1.trans ha.2.1.symm) hprio.symm⟩
  · exact ⟨hprio, ha.2.trans hb.2.symm, fun hunique =>
      hunique b hb.1 (hall _ hb.2) (hb.2.trans ha.2.symm) hprio.symm⟩

end StreamTable

/-! ## The two routers -/

section Routers

open StreamTable

variable {Net Ip : Type} [IpCrate Net Ip]

/-- The route of a TCP router of the configuration, at one of its entrypoints. -/
def TcpBound (Net Ip : Type) [IpCrate Net Ip] (config : Config) (ep : Text)
    (route : StreamRoute (TcpRule Net)) : Prop :=
  RouteOf (TcpRule.parse Ip) config config.tcpRouters.entries ep route

/-- The route of a UDP router of the configuration, at one of its entrypoints. -/
def UdpBound (Net Ip : Type) [IpCrate Net Ip] (config : Config) (ep : Text)
    (route : StreamRoute (UdpRule Net)) : Prop :=
  RouteOf (UdpRule.parse Ip) config config.udpRouters.entries ep route

lemma TcpRule.matches_of_isCatchAll (sni : Option Text) (clientAddr : Option Ip)
    (rule : TcpRule Net) (h : rule.isCatchAll) : rule.matches sni clientAddr := by
  match rule with
  | .catchAll => rfl

lemma UdpRule.matches_of_isCatchAll (clientAddr : Option Ip) (rule : UdpRule Net)
    (h : rule.isCatchAll) : rule.matches clientAddr := by
  match rule with
  | .catchAll => rfl

/-- **TCP and UDP routing honour the priorities within each kind of route**: a specific route wins
against every catch-all, the priority is the highest of the kind, and the iteration order of the
routers only decides between ties. -/
theorem stream_routing_priority {config config' : Config}
    (heps : config.entryPoints.Reordered config'.entryPoints)
    (htcp : config.tcpRouters.Reordered config'.tcpRouters)
    (hudp : config.udpRouters.Reordered config'.udpRouters) (ep : Text) (clientAddr : Option Ip) :
    (∀ (router : TcpRouter Net) (sni : Option Text),
      TcpRouter.fromConfig Net Ip config = .ok router →
      Best TcpRule.isCatchAll (·.matches sni clientAddr) (TcpBound Net Ip config ep)
        (router.matchConnection ep sni clientAddr) ∧
      ∃ router', TcpRouter.fromConfig Net Ip config' = .ok router' ∧
        Option.Rel (SameUpToTies TcpRule.isCatchAll (·.matches sni clientAddr)
            (TcpBound Net Ip config ep))
          (router.matchConnection ep sni clientAddr)
          (router'.matchConnection ep sni clientAddr)) ∧
    ∀ router : UdpRouter Net, UdpRouter.fromConfig Net Ip config = .ok router →
      Best UdpRule.isCatchAll (·.matches clientAddr) (UdpBound Net Ip config ep)
        (router.matchDatagram ep clientAddr) ∧
      ∃ router', UdpRouter.fromConfig Net Ip config' = .ok router' ∧
        Option.Rel (SameUpToTies UdpRule.isCatchAll (·.matches clientAddr)
            (UdpBound Net Ip config ep))
          (router.matchDatagram ep clientAddr) (router'.matchDatagram ep clientAddr) := by
  constructor
  · intro router sni h
    have hall : ∀ rule : TcpRule Net, rule.isCatchAll → _ :=
      TcpRule.matches_of_isCatchAll sni clientAddr
    exact ⟨lookUp_best h ep hall, lookUp_reordered h ep hall heps htcp⟩
  · intro router h
    have hall : ∀ rule : UdpRule Net, rule.isCatchAll → _ :=
      UdpRule.matches_of_isCatchAll clientAddr
    exact ⟨lookUp_best h ep hall, lookUp_reordered h ep hall heps hudp⟩

instance textIps : IpCrate Text Text := ⟨some, fun net addr => net == addr⟩

def officeEntries : List (Text × StreamRouter) :=
  [("office",
      { rule := "ClientIP(`10.0.0.1`)", service := "intranet", priority := 1 }),
    ("any", { rule := "*", service := "public", priority := 10 })]

def officeConfig (entries : List (Text × StreamRouter)) (h : (entries.map Prod.fst).Nodup) :
    Config where
  entryPoints := .singleton "db" { address := ":5432" }
  tcp := some { routers := ⟨entries, h⟩ }
  udp := some { routers := ⟨entries, h⟩ }

theorem stream_routing_priority_office :
    ∃ (tcp : TcpRouter Text) (udp : UdpRouter Text),
      TcpRouter.fromConfig Text Text (officeConfig officeEntries (by decide)) = .ok tcp ∧
      UdpRouter.fromConfig Text Text (officeConfig officeEntries (by decide)) = .ok udp ∧
      Best TcpRule.isCatchAll (·.matches none (some "10.0.0.1".toList))
        (TcpBound Text Text (officeConfig officeEntries (by decide)) "db".toList)
        (tcp.matchConnection "db".toList none (some "10.0.0.1".toList)) ∧
      Best UdpRule.isCatchAll (·.matches (some "10.0.0.1".toList))
        (UdpBound Text Text (officeConfig officeEntries (by decide)) "db".toList)
        (udp.matchDatagram "db".toList (some "10.0.0.1".toList)) := by
  have h := @stream_routing_priority Text Text _ (officeConfig officeEntries (by decide)) _
    (.refl _) (.refl _) (.refl _) "db" (some "10.0.0.1")
  exact ⟨_, _, rfl, rfl, (h.1 _ none rfl).1, (h.2 _ rfl).1⟩

def tiedEntries (first second : Text) : List (Text × StreamRouter) :=
  [(first, { rule := "*", service := first }), (second, { rule := "*", service := second })]

/-- **A catch-all of higher priority loses, and the iteration order decides between ties.** -/
theorem stream_routing_kinds_and_ties :
    (∃ (tcp : TcpRouter Text) (route other : StreamRoute (TcpRule Text)),
      TcpRouter.fromConfig Text Text (officeConfig officeEntries (by decide)) = .ok tcp ∧
      tcp.matchConnection "db".toList none (some "10.0.0.1".toList) = some route ∧
      TcpBound Text Text (officeConfig officeEntries (by decide)) "db".toList other ∧
      other.rule.matches none (some "10.0.0.1".toList) = true ∧ route.priority < other.priority) ∧
    (∃ (udp : UdpRouter Text) (route other : StreamRoute (UdpRule Text)),
      UdpRouter.fromConfig Text Text (officeConfig officeEntries (by decide)) = .ok udp ∧
      udp.matchDatagram "db".toList (some "10.0.0.1".toList) = some route ∧
      UdpBound Text Text (officeConfig officeEntries (by decide)) "db".toList other ∧
      other.rule.matches (some "10.0.0.1".toList) = true ∧ route.priority < other.priority) ∧
    ∃ (config config' : Config) (tcp tcp' : TcpRouter Text),
      config.tcpRouters.Reordered config'.tcpRouters ∧
      TcpRouter.fromConfig Text Text config = .ok tcp ∧
      TcpRouter.fromConfig Text Text config' = .ok tcp' ∧
      (tcp.matchConnection "db".toList none (none : Option Text)).map StreamRoute.name =
        some "a".toList ∧
      (tcp'.matchConnection "db".toList none (none : Option Text)).map StreamRoute.name =
        some "b".toList := by
  refine ⟨⟨_, _, _, rfl, rfl, ⟨_, .tail _ (.head _), .catchAll, rfl, .head _, rfl⟩, rfl, by decide⟩,
    ⟨_, _, _, rfl, rfl, ⟨_, .tail _ (.head _), .catchAll, rfl, .head _, rfl⟩, rfl, by decide⟩,
    officeConfig (tiedEntries "a" "b") (by decide),
    officeConfig (tiedEntries "b" "a") (by decide), _, _, .swap _ _ _, rfl, rfl,
    rfl, rfl⟩

end Routers

end TrafficCop
