import TrafficCop.Balancer.Rotation
import TrafficCop.Balancer.Smooth
import TrafficCop.Health.Passive
import TrafficCop.Lib.Transition
import TrafficCop.Service.Manager

/-!
# Passive health and the balancers

What a response does to the two places that know of a backend's health: the passive checker, by URL
(`record_response`), and the balancers of the services, by service and index (`apply_health_change`
in `proxy/handler.rs`).
-/

namespace TrafficCop

open Rust SmoothRoundRobin List Option LoadBalancer

structure ProxyState where
  passiveHealth : PassiveHealthChecker
  services : ServiceManager

namespace ProxyState

/-- `SharedState::new`, with the default configuration of passive health. -/
def init (config : Config) : ProxyState := ⟨.new {}, .new config⟩

/-- A reload builds new balancers and keeps the checker. A request works with the service manager it
loaded at its start, so a late response reaches the checker, but a balancer that is no longer used.
-/
inductive Event where
  | select (service : Text)
  | response (service url : Text) (status : UInt16) (responseTime now : Nat)
  | lateResponse (url : Text) (status : UInt16) (responseTime now : Nat)
  | reload (config : Config)

/-- The index `apply_health_change` finds: the first with the URL in the service. -/
def markedIndex (services : ServiceManager) (service url : Text) : Option Nat :=
  ((services.getService service).bind (·.balancer)).bind (·.findServerIndex url)

def applyHealthChange (change : HealthChange) (url service : Text) (services : ServiceManager) :
    ServiceManager :=
  match markedIndex services service url, change with
  | _, .noChange => services
  | some idx, .becameUnhealthy => services.call (service, .markUnhealthy idx)
  | some idx, .becameHealthy => services.call (service, .markHealthy idx)
  | none, _ => services

/-- What an event does to the checker and the balancers. -/
def step (p : ProxyState) : Event → ProxyState
  | .select service => { p with services := p.services.call (service, .nextServer) }
  | .response service url status responseTime now =>
    let r := p.passiveHealth.recordResponse url status responseTime now
    { passiveHealth := r.2, services := applyHealthChange r.1 url service p.services }
  -- the balancers that are told are not those of `p`
  | .lateResponse url status responseTime now =>
    { p with passiveHealth := (p.passiveHealth.recordResponse url status responseTime now).2 }
  | .reload config => { p with services := .new config }

def run (p : ProxyState) (events : List Event) : ProxyState := events.foldl step p

/-! ## Listings -/

/-- The URL and the balancer's flag of the server at an index of a service. -/
def listing (services : ServiceManager) (name : Text) (index : Nat) : Option (Text × Bool) :=
  ((services.getService name).bind (·.balancer)).bind fun b =>
    b.servers[index]?.map fun server => (server.url, b.isHealthy index)

/-- The balancer of the service has the URL at this index. -/
def Lists (services : ServiceManager) (name : Text) (index : Nat) (url : Text) : Prop :=
  ∃ flag, listing services name index = some (url, flag)

/-- The flag of every listed server is what the passive checker says of its URL. -/
def InStep (p : ProxyState) : Prop :=
  ∀ name index url flag, listing p.services name index = some (url, flag) →
    flag = p.passiveHealth.isHealthy url

variable {services : ServiceManager} {name url : Text} {index : Nat} {flag : Bool}

lemma listing_eq_some_iff : listing services name index = some (url, flag) ↔
      ∃ b server, (services.getService name).bind (·.balancer) = some b ∧
        b.servers[index]? = some server ∧ server.url = url ∧ b.isHealthy index = flag := by
  rw [listing, bind_eq_some_iff]
  simp [map_eq_some_iff]

lemma balancer_call (services : ServiceManager) (service name : Text) (c : Call) :
    ((services.call (service, c)).getService name).bind (·.balancer) =
      ((services.getService name).bind (·.balancer)).map fun b =>
        if name = service then b.step c else b := by
  rw [ServiceManager.getService_call]
  cases services.getService name with
  | none => rfl
  | some state =>
    by_cases hname : name = service
    · simp [hname, ServiceState.call]
    · simp [hname]

lemma listing_select (services : ServiceManager) (service name : Text) (index : Nat) :
    listing (services.call (service, .nextServer)) name index = listing services name index := by
  rw [listing, listing, balancer_call]
  cases (services.getService name).bind (·.balancer) with
  | none => rfl
  | some b =>
    by_cases hname : name = service
    · have hflags : (b.step .nextServer).flags = b.flags := b.flags_nextServer
      simp only [hname, if_true, map_some, bind_some, servers_step,
        isHealthy, hflags]
    · simp [hname]

lemma listing_mark (services : ServiceManager) (service name : Text) (idx index : Nat)
    {c : Call}
    (hc : ∀ b : LoadBalancer, (b.step c).flags = b.flags.set idx flag) :
    listing (services.call (service, c)) name index =
      (listing services name index).map fun entry =>
        (entry.1, if name = service ∧ index = idx then flag else entry.2) := by
  rw [listing, listing, balancer_call]
  cases (services.getService name).bind (·.balancer) with
  | none => rfl
  | some b =>
    by_cases hname : name = service
    · simp only [hname, if_true, map_some, bind_some, servers_step,
        true_and, Option.map_map]
      cases hserver : b.servers[index]? with
      | none => rfl
      | some server =>
        have hlt : index < b.flags.length := by
          rw [b.length_flags]
          exact (List.getElem?_eq_some_iff.mp hserver).1
        by_cases hindex : index = idx
        · simp [isHealthy, hc, ← hindex, hlt]
        · simp [isHealthy, hc, hindex, getElem?_set_ne (Ne.symm hindex)]
    · simp [hname, Function.comp_def]

lemma lists_iff :
    Lists services name index url ↔
      ∃ b, (services.getService name).bind (·.balancer) = some b ∧
        ∃ server, b.servers[index]? = some server ∧ server.url = url := by
  simp only [Lists, listing_eq_some_iff]
  constructor
  · rintro ⟨_, b, server, hb, hserver, hurl, -⟩
    exact ⟨b, hb, server, hserver, hurl⟩
  · rintro ⟨b, hb, server, hserver, hurl⟩
    exact ⟨_, b, server, hb, hserver, hurl, rfl⟩

lemma markedIndex_eq_some_iff (services : ServiceManager) (service url : Text) (index : Nat) :
    markedIndex services service url = some index ↔
      Lists services service index url ∧
        ∀ earlier < index, ¬Lists services service earlier url := by
  simp only [lists_iff, markedIndex]
  cases (services.getService service).bind (·.balancer) with
  | none => simp
  | some b =>
    rw [bind_some, findServerIndex_eq, findIdx?_eq_some_iff_getElem]
    simp only [Option.some.injEq, exists_eq_left', getElem?_eq_some_iff, beq_iff_eq]
    constructor
    · rintro ⟨hlt, hurl, hfirst⟩
      refine ⟨⟨_, ⟨hlt, rfl⟩, hurl⟩, ?_⟩
      rintro earlier hearlier ⟨server, ⟨_, rfl⟩, heq⟩
      exact hfirst earlier hearlier heq
    · rintro ⟨⟨server, ⟨hlt, rfl⟩, hurl⟩, hfirst⟩
      refine ⟨hlt, hurl, fun earlier hearlier heq => ?_⟩
      exact hfirst earlier hearlier ⟨_, ⟨by omega, rfl⟩, heq⟩

/-- **What a health change does**: the marked listing changes, no other does. -/
theorem listing_applyHealthChange (change : HealthChange) (url service : Text)
    (services : ServiceManager) (name : Text) (index : Nat) :
    listing (applyHealthChange change url service services) name index =
      (listing services name index).map fun entry =>
        (entry.1, if name = service ∧ markedIndex services service url = some index then
          change.after entry.2 else entry.2) := by
  cases hmarked : markedIndex services service url with
  | none => cases change <;> simp [applyHealthChange, hmarked]
  | some idx =>
    simp only [Option.some.injEq, eq_comm (a := idx)]
    cases change with
    | noChange => simp [applyHealthChange, HealthChange.after]
    | becameHealthy =>
      simp only [applyHealthChange, hmarked]
      exact listing_mark services service name idx index (c := .markHealthy idx)
        fun b => b.flags_markHealthy idx
    | becameUnhealthy =>
      simp only [applyHealthChange, hmarked]
      exact listing_mark services service name idx index (c := .markUnhealthy idx)
        fun b => b.flags_markUnhealthy idx

variable {config : Config} {p : ProxyState}

lemma balancer_new {b : LoadBalancer}
    (h : ((ServiceManager.new config).getService name).bind (·.balancer) = some b) :
    ∃ lb, b = .fromLoadBalancer lb := by
  rw [ServiceManager.getService_new, bind_map] at h
  obtain ⟨service, -, hbalancer⟩ := bind_eq_some_iff.mp h
  obtain ⟨lb, -, rfl⟩ := map_eq_some_iff.mp
    ((ServiceState.balancerOf_eq service).symm.trans hbalancer)
  exact ⟨lb, rfl⟩

lemma listing_new (h : listing (.new config) name index = some (url, flag)) : flag := by
  obtain ⟨b, server, hb, hserver, -, rfl⟩ := listing_eq_some_iff.mp h
  obtain ⟨lb, rfl⟩ := balancer_new hb
  have hlt := (List.getElem?_eq_some_iff.mp hserver).1
  rw [servers_fromLoadBalancer] at hlt
  simp [isHealthy, flags_fromLoadBalancer, hlt]

/-! ## Steps that keep the agreement -/

/-- The condition on a step, in terms of the state before it. -/
def Meets (p : ProxyState) : Event → Prop
  | .select _ => True
  -- a change of health finds every listing of the URL: it is in the service that the response
  -- came through, and there is none before it
  | .response service url status responseTime now =>
    p.passiveHealth.Flips url status responseTime now →
      ∀ name index, Lists p.services name index url →
        name = service ∧ ∀ earlier < index, ¬Lists p.services service earlier url
  | .lateResponse url status responseTime now =>
    p.passiveHealth.Flips url status responseTime now →
      ∀ name index, ¬Lists p.services name index url
  | .reload config => ∀ name index url, Lists (.new config) name index url →
      p.passiveHealth.isHealthy url = true

lemma inStep_init (config : Config) : (init config).InStep := by
  intro name index url flag h
  exact listing_new h

lemma response_inStep_iff (h : p.InStep) (service url : Text)
    (status : UInt16) (responseTime now : Nat) :
    (p.step (.response service url status responseTime now)).InStep ↔
      p.Meets (.response service url status responseTime now) := by
  have hflips := p.passiveHealth.recordResponse_flips url status responseTime now
  have hhealth := fun other =>
    p.passiveHealth.recordResponse_isHealthy url other status responseTime now
  simp only [InStep, step, Meets, hflips, hhealth, listing_applyHealthChange]
  generalize (p.passiveHealth.recordResponse url status responseTime now).1 = change
  have hmarked := markedIndex_eq_some_iff p.services service url
  constructor
  · rintro hafter hchange name index ⟨flag, hlisting⟩
    have hflag := h name index url flag hlisting
    have heq := hafter name index url _ (by rw [hlisting]; rfl)
    rw [if_pos rfl] at heq
    -- a listing that is not marked keeps its flag, while the checker changes its mind
    split at heq
    · next hmark => exact ⟨hmark.1, ((hmarked index).mp hmark.2).2⟩
    · exact absurd (heq.symm.trans hflag) hchange
  · intro hmeets name index _ _ hafter
    obtain ⟨⟨other, flag⟩, hlisting, hentry⟩ := map_eq_some_iff.mp hafter
    cases hentry
    have hflag := h name index other flag hlisting
    by_cases hurl : other = url
    · subst hurl
      rw [if_pos rfl, ← hflag]
      by_cases hchange : change.after flag = flag
      · rw [hchange, ite_self]
      · obtain ⟨hname, hfirst⟩ := hmeets (hflag ▸ hchange) name index ⟨flag, hlisting⟩
        subst hname
        rw [if_pos ⟨rfl, (hmarked index).mpr ⟨⟨flag, hlisting⟩, hfirst⟩⟩]
    · rw [if_neg hurl, ← hflag, if_neg]
      rintro ⟨rfl, hmark⟩
      obtain ⟨flag', hlisting''⟩ := ((hmarked index).mp hmark).1
      rw [hlisting] at hlisting''
      cases hlisting''
      exact hurl rfl

/-- **One step** from agreeing flags and checker leaves them so exactly if it meets the condition.
-/
theorem step_inStep_iff (h : p.InStep) (e : Event) : (p.step e).InStep ↔ p.Meets e := by
  cases e with
  | select service =>
    refine iff_of_true ?_ trivial
    intro name index url flag hlisting
    rw [step, listing_select] at hlisting
    exact h name index url flag hlisting
  | response service url status responseTime now =>
    exact response_inStep_iff h service url status responseTime now
  | lateResponse url status responseTime now =>
    -- no balancer is told, so no balancer may list a server whose health has changed
    have hflips := p.passiveHealth.recordResponse_flips url status responseTime now
    have hhealth := fun other =>
      p.passiveHealth.recordResponse_isHealthy url other status responseTime now
    simp only [InStep, step, Meets, hflips, hhealth]
    constructor
    · rintro hafter hchange name index ⟨flag, hlisting⟩
      have heq := hafter name index url flag hlisting
      rw [if_pos rfl] at heq
      exact hchange (heq.symm.trans (h name index url flag hlisting))
    · intro hmeets name index other flag hlisting
      have hflag := h name index other flag hlisting
      split
      · next hurl =>
        subst hurl
        by_contra hne
        exact hmeets (fun heq => hne (hflag.trans heq.symm)) name index ⟨flag, hlisting⟩
      · exact hflag
  | reload config =>
    -- all servers start healthy
    constructor
    · rintro hafter name index url ⟨flag, hlisting⟩
      rw [← listing_new hlisting]
      exact (hafter name index url flag hlisting).symm
    · intro hmeets name index url flag hlisting
      rw [listing_new hlisting]
      exact (hmeets name index url ⟨flag, hlisting⟩).symm

/-- **When passive health and balancers stay in step**: after each step of a run exactly if
every step meets the condition in the state before it. -/
theorem inStep_iff (config : Config) (events : List Event) :
    (∀ before, before <+: events → ((init config).run before).InStep) ↔
      ∀ before e, before ++ [e] <+: events → ((init config).run before).Meets e :=
  Transition.throughout_iff (inStep_init config) (fun _ e h => step_inStep_iff h e) events

def sharedUrl : Config :=
  let service : Service := { loadBalancer := some ⟨[{ url := "http://10.0.0.1" }]⟩ }
  { http := some { services := ⟨[("shop", service), ("blog", service)], by decide⟩ } }

def fiveFailures (service url : Text) : List Event :=
  List.replicate 5 (.response service url 502 0 0)

/-- The failures take the server out of rotation in the service they came through, and in no
other. -/
theorem shared_url_out_of_step :
    ∃ before, before <+: fiveFailures "shop" "http://10.0.0.1" ∧
      ¬((init sharedUrl).run before).InStep := by
  refine ⟨_, prefix_refl _, fun h => ?_⟩
  have heq := h "blog" 0 "http://10.0.0.1" true (by decide)
  exact absurd heq (by decide)

/-! ## Ejected servers -/

/-- Every balancer is consistent with its servers. -/
def Kept (services : ServiceManager) : Prop :=
  ∀ name b, (services.getService name).bind (·.balancer) = some b → b.Keeps b.servers

lemma kept_new (config : Config) : Kept (.new config) := by
  intro name b hb
  obtain ⟨lb, rfl⟩ := balancer_new hb
  rw [servers_fromLoadBalancer]
  exact keeps_fromLoadBalancer lb

lemma Kept.call (h : Kept services) (service : Text)
    (c : Call) : Kept (services.call (service, c)) := by
  intro name b hb
  rw [balancer_call] at hb
  obtain ⟨b, hbefore, rfl⟩ := map_eq_some_iff.mp hb
  split
  · rw [servers_step]
    exact (h name b hbefore).step c
  · exact h name b hbefore

lemma Kept.applyHealthChange (h : Kept services) (change : HealthChange) (url service : Text) :
    Kept (applyHealthChange change url service services) := by
  unfold ProxyState.applyHealthChange
  split
  · exact h
  · exact h.call service _
  · exact h.call service _
  · exact h

lemma kept_run (config : Config) (events : List Event) :
    Kept ((init config).run events).services := by
  refine List.foldlRecOn (motive := fun p : ProxyState => Kept p.services) events step
    (show Kept (init config).services from kept_new config) ?_
  intro p h e _
  cases e with
  | select service => exact h.call service .nextServer
  | response service url status responseTime now => exact h.applyHealthChange _ url service
  | lateResponse url status responseTime now => exact h
  | reload config => exact kept_new config

/-- **When an ejected server is tried again.** The recovery interval plays no part: exactly if
nothing can be selected from the rotation and the fallback meets the server. -/
theorem ejected_selected_iff (config : Config) (events : List Event) (name : Text)
    {b : LoadBalancer} {server : Server} {index : Nat}
    (hb : (((init config).run events).services.getService name).bind (·.balancer) = some b)
    (hserver : b.servers[index]? = some server) (hejected : b.isHealthy index = false)
    (now : Nat) :
    (((init config).run events).passiveHealth.canTry server.url now = true →
      ∃ k < b.servers.length + listTotal (serverWeights b.servers),
        (b.afterSelections k).nextIndex = some index ∧
          (b.afterSelections k).nextServer.1 = some server) ↔
      (((init config).run events).passiveHealth.canTry server.url now = true →
        ∃ k < b.servers.length + listTotal (serverWeights b.servers), b.FallsBackAt k index) := by
  have hkeeps := kept_run config events name b hb
  have hne : b.servers ≠ [] := ne_nil_of_mem (mem_of_getElem? hserver)
  have hselected : ∀ k, (b.afterSelections k).nextIndex = some index →
      (b.afterSelections k).nextServer.1 = some server := by
    intro k hindex
    rw [nextServer_fst, hindex, bind_some, afterSelections,
      servers_run, hserver]
  refine imp_congr_right fun _ => exists_congr fun k => and_congr_right fun _ => ?_
  rw [← hkeeps.selected_iff hne hejected k]
  exact ⟨fun h => h.1, fun h => ⟨h, hselected k h⟩⟩

def twoServers : Config :=
  let servers : List Server :=
    [{ url := "http://10.0.0.1" }, { url := "http://10.0.0.2" }]
  { http := some { services := .singleton "shop" { loadBalancer := some ⟨servers⟩ } } }

def bothFail : List Event :=
  fiveFailures "shop" "http://10.0.0.1" ++ fiveFailures "shop" "http://10.0.0.2"

/-- With both servers ejected, the first has its turn among the next four selections. -/
theorem ejected_selected_both :
    ∃ b server, b.servers[0]? = some server ∧ b.isHealthy 0 = false ∧
      (((init twoServers).run bothFail).services.getService "shop").bind (·.balancer) =
        some b ∧
      ((init twoServers).run bothFail).passiveHealth.canTry server.url 20000000000 = true ∧
      ∃ k < 4, (b.afterSelections k).nextIndex = some 0 ∧
        (b.afterSelections k).nextServer.1 = some server := by
  have hejected : ∃ b server, b.servers[0]? = some server ∧ b.isHealthy 0 = false ∧
      (((init twoServers).run bothFail).services.getService "shop").bind (·.balancer) = some b ∧
      ((init twoServers).run bothFail).passiveHealth.canTry server.url 20000000000 ∧
      b.servers.length + listTotal (serverWeights b.servers) = 4 ∧ b.FallsBackAt 0 0 :=
    ⟨_, _, rfl, rfl, rfl, by decide, by decide, by decide, by decide⟩
  obtain ⟨b, server, hserver, hout, hb, htry, hcalls, hfalls⟩ := hejected
  refine ⟨b, server, hserver, hout, hb, htry, ?_⟩
  rw [← hcalls]
  exact (ejected_selected_iff twoServers bothFail "shop" hb hserver hout 20000000000).mpr
    (fun _ => ⟨0, by omega, hfalls⟩) htry

/-- The first server is ejected at the time 0. Twenty seconds later its recovery interval of
ten has elapsed, but all of the next four selections go to the other server. -/
theorem ejected_not_selected :
    ∃ b server, b.servers[0]? = some server ∧ b.isHealthy 0 = false ∧
      (((init twoServers).run (fiveFailures "shop" "http://10.0.0.1")).services.getService
          "shop").bind (·.balancer) = some b ∧
      ((init twoServers).run (fiveFailures "shop"
        "http://10.0.0.1")).passiveHealth.canTry server.url 20000000000 = true ∧
      b.servers.length + listTotal (serverWeights b.servers) = 4 ∧
      ∀ k < 4, (b.afterSelections k).nextIndex = some 1 :=
  ⟨_, _, rfl, rfl, rfl, by decide, by decide, by decide⟩

end ProxyState

end TrafficCop
