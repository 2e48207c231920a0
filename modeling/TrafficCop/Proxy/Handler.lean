import TrafficCop.Middleware.Chain
import TrafficCop.Proxy.BackendUri
import TrafficCop.Proxy.Forward
import TrafficCop.Proxy.GrpcMessage
import TrafficCop.Proxy.HealthSync

/-!
# Handling requests

`ProxyHandler::handle` and `forward_to_backend_inner` of `proxy/handler.rs`: from the route of a
request through its middlewares to a backend, and back.
-/

namespace TrafficCop

open Rust Http List Option

/-! ## Preparing the configuration -/

def Config.preParseUris (http : UriCrate) (config : Config) : Config :=
  { config with
    http := config.http.map fun h =>
      { h with
        services := h.services.filterMap fun _ service => some
          { service with
            loadBalancer := service.loadBalancer.map fun lb =>
              ⟨lb.servers.map (Server.preParse http)⟩ } } }

/-! ## The first step -/

def contentTypeStarts (headers : HeaderMap) (start : Text) : Bool :=
  ((headers.get "content-type").bind HeaderValue.toStr).any (List.isPrefixOf start ·)

def isGrpcRequest (headers : HeaderMap) : Bool := contentTypeStarts headers "application/grpc"

def isGrpcWebRequest (headers : HeaderMap) : Bool :=
  contentTypeStarts headers "application/grpc-web" ||
    contentTypeStarts headers "application/grpc-web-text"

def errorResponseMaybeGrpc (status : UInt16) (message : Text) (isGrpc : Bool) :
    Outcome Empty Http.Response :=
  if isGrpc then grpcGatewayError status message
  else .ok ⟨status, insertText ⟨[]⟩ "content-type" (some "text/plain; charset=utf-8")⟩

def isH2cBackend (parsed : Option ParsedBackendUri) (rawUrl : Text) : Bool :=
  match parsed with
  | some p => p.scheme.text == "h2c"
  | none => List.isPrefixOf "h2c://" rawUrl

/-- `rewrite_h2c_scheme`; the parts of a URI with a scheme always make a URI again. -/
def rewriteH2cScheme (uri : Uri) : Uri :=
  if uri.scheme.map Scheme.text = some "h2c" then
    { uri with scheme := some ⟨['h', 't', 't', 'p'], forall_char (by decide)⟩ }
  else uri

def isWebsocketUpgrade (headers : HeaderMap) : Bool :=
  ((headers.get "upgrade").bind HeaderValue.toStr).any (eqIgnoreAsciiCase · "websocket") &&
    ((headers.get "connection").bind HeaderValue.toStr).any fun v =>
      (v.splitOn ',').any fun part => eqIgnoreAsciiCase (trim part) "upgrade"

/-- What the router is asked about. -/
def Incoming.attributes (req : Incoming) : Request where
  host := requestHost req.headers req.uri
  path := req.uri.path
  query := req.uri.query
  method := some req.method
  header name := (req.headers.get (toAsciiLowercase name)).bind HeaderValue.toStr

namespace ProxyHandler

/-- A request handed to one of the two clients, and what is left to do with its response. -/
structure Pending where
  service : Text
  backendUrl : Text
  isGrpc : Bool
  http2 : Bool
  timeoutSecs : ℕ
  method : Text
  uri : Uri
  headers : HeaderMap
  after : OnResponse

/-- What becomes of a request up to the `await`. -/
inductive Handled where
  | answered (response : Http.Response)
  | upgraded (backendUrl : Text) (req : Incoming) (after : OnResponse)
  | sent (pending : Pending)
  | crashed

def Handled.ofOutcome (after : OnResponse) : Outcome Empty Http.Response → Handled
  | .ok response => .answered (after response)
  | _ => .crashed

section Handler

variable {Regex Net Ip : Type} [RegexCrate Regex] [AddrCrate Net Ip]

/-- `forward_to_backend_inner` up to the `await`. -/
def forwardToBackend (http : UriCrate) (ctx : RequestContext Ip) (host : Option Text)
    (isGrpc : Bool) (serviceName : Text) (services : ServiceManager) (req : Incoming)
    (after : OnResponse) : Handled :=
  match selectBackend services serviceName with
  | .error message => .ofOutcome after (errorResponseMaybeGrpc 503 message isGrpc)
  | .ok (backendUrl, parsed) =>
    let useH2 := isGrpc || isH2cBackend parsed backendUrl
    if !useH2 && isWebsocketUpgrade req.headers then .upgraded backendUrl req after
    else
      match buildBackendUriFast http backendUrl req.uri parsed with
      | .error _ => .ofOutcome after (errorResponseMaybeGrpc 500 "Internal Server Error" isGrpc)
      | .ok uri =>
        let uri := if useH2 then rewriteH2cScheme uri else uri
        .sent
          { service := serviceName, backendUrl, isGrpc, after
            http2 := useH2
            timeoutSecs := if isGrpc then 300 else 30
            method := req.method
            uri := uri
            headers := buildHeaders req.headers uri ctx.ipText host ctx.isTls isGrpc }

/-- A request, with where and when it comes in. -/
structure Arrival (Ip : Type) where
  entrypoint : Text
  ctx : RequestContext Ip
  req : Incoming

/-- What all requests are handled with, and the rate limiters at the start. -/
structure Setup (Regex Net : Type) where
  crates : Crates
  config : Config
  router : Router Regex
  middlewares : HashMap Text (Wrapper Regex Net)
  limiters : Limiters

variable (P : Setup Regex Net)

/-- `MiddlewareRegistry::resolve`. -/
def Setup.resolve (names : List Text) : List (Wrapper Regex Net) :=
  names.filterMap P.middlewares.get

structure HandlerState where
  limiters : Limiters
  proxy : ProxyState

/-- The part up to the backend. -/
def handle (a : Arrival Ip) (s : HandlerState) : Handled × HandlerState :=
  let isGrpc := isGrpcRequest a.req.headers || isGrpcWebRequest a.req.headers
  let host := requestHost a.req.headers a.req.uri
  match P.router.matchRequest a.entrypoint a.req.attributes with
  | none => (.ofOutcome id (errorResponseMaybeGrpc 404 "Not Found" isGrpc), s)
  | some route =>
    let forward req after (limiters : Limiters) : Handled × HandlerState :=
      (forwardToBackend P.crates.http a.ctx host isGrpc route.service s.proxy.services req after,
        ⟨limiters, s.proxy.step (.select route.service)⟩)
    let mws := P.resolve route.middlewares
    -- "No middleware — execute backend forwarding directly"
    if mws.isEmpty then forward a.req id s.limiters
    else
      match Next.run P.crates a.ctx mws a.req s.limiters with
      | (.answer response, limiters) => (.answered response, ⟨limiters, s.proxy⟩)
      | (.panic, limiters) => (.crashed, ⟨limiters, s.proxy⟩)
      | (.next req after, limiters) => forward req after limiters

/-! ## The second step -/

/-- What becomes of the request to the backend. -/
inductive BackendResult where
  | response (response : Http.Response)
  | failed
  | timedOut

/-- The status that passive health is told. -/
def BackendResult.status : BackendResult → UInt16
  | .response r => r.status
  | .failed => 502
  | .timedOut => 504

/-- The part behind the backend's result. -/
def Pending.finish (p : Pending) : BackendResult → Handled
  | .response r =>
    .answered (p.after
      (if p.isGrpc then r else onHeaders (Multimap.removeAll · hopByHopHeaders) r))
  | .failed => .ofOutcome p.after (errorResponseMaybeGrpc 502 "Bad Gateway" p.isGrpc)
  | .timedOut => .ofOutcome p.after (errorResponseMaybeGrpc 504 "Gateway Timeout" p.isGrpc)

/-! ## All requests -/

/-- How many requests have arrived, those that are in flight and what became of the others, by
their numbers. -/
structure Traffic (Ip : Type) extends HandlerState where
  arrivals : ℕ
  pending : List (ℕ × Pending)
  ended : List (ℕ × Handled)

/-- A request is handled in two steps. The first ends where the backend is awaited, and the second
has the result. -/
inductive Action (Ip : Type) where
  | arrive (a : Arrival Ip)
  | reply (id : ℕ) (result : BackendResult) (elapsed now : ℕ)

def init : Traffic Ip :=
  ⟨⟨P.limiters, .init (P.config.preParseUris P.crates.http)⟩, 0, [], []⟩

/-- In between other requests are handled, any number of them, in any order. -/
def step (t : Traffic Ip) : Action Ip → Traffic Ip
  | .arrive a =>
    let r := handle P a t.toHandlerState
    match r.1 with
    | .sent p => ⟨r.2, t.arrivals + 1, (t.arrivals, p) :: t.pending, t.ended⟩
    | ending => ⟨r.2, t.arrivals + 1, t.pending, (t.arrivals, ending) :: t.ended⟩
  | .reply id result elapsed now =>
    match t.pending.lookup id with
    | none => t
    | some p =>
      { t with
        proxy := t.proxy.step (.response p.service p.backendUrl result.status elapsed now)
        pending := t.pending.filter (·.1 != id)
        ended := (id, p.finish result) :: t.ended }

/-- The traffic behind a list of actions. -/
def run (actions : List (Action Ip)) : Traffic Ip := actions.foldl (step P) (init P)

/-! ## What reaches a backend -/

/-- The balancers hold the servers of a configuration. -/
def Serves (config : Config) (services : ServiceManager) : Prop :=
  ∀ name b, (services.getService name).bind (·.balancer) = some b →
    ∃ service lb, config.services.get name = some service ∧ service.loadBalancer = some lb ∧
      b.servers = lb.servers

/-- An arrival is for this route, whose chain hands it on as `req` with the limiters as they are,
and the backend is a server of the service that the route names. -/
structure Forwards (route : Route Regex) (url : Text) (req : Incoming) (after : OnResponse)
    (a : Arrival Ip) (limiters : Limiters) : Prop where
  routed : P.router.matchRequest a.entrypoint a.req.attributes = some route
  passed : (Next.run P.crates a.ctx (P.resolve route.middlewares) a.req limiters).1 =
    .next req after
  served : ∃ service lb server, P.config.services.get route.service = some service ∧
    service.loadBalancer = some lb ∧ server ∈ lb.servers ∧ url = server.url

/-- What a request in flight owes to its arrival. -/
def Lawful (p : Pending) (a : Arrival Ip) (limiters : Limiters) : Prop :=
  ∃ route req, Forwards P route p.backendUrl req p.after a limiters ∧ p.service = route.service ∧
    p.method = a.req.method ∧ ∀ scheme authority rest,
      Uri.parse P.crates.http p.backendUrl = .ok ⟨some scheme, some authority, rest⟩ →
        p.uri.authority = some authority

/-- The request of a number, and the limiters that it found when it arrived. -/
def Began (actions : List (Action Ip)) (id : ℕ) (Q : Arrival Ip → Limiters → Prop) : Prop :=
  ∃ before a behind, actions = before ++ .arrive a :: behind ∧ (run P before).arrivals = id ∧
    Q a (run P before).limiters

variable {P} {config : Config} {services : ServiceManager}

lemma serves_new : Serves config (.new config) := by
  intro name b hb
  rw [ServiceManager.getService_new, bind_map] at hb
  obtain ⟨service, hservice, hbalancer⟩ := bind_eq_some_iff.mp hb
  obtain ⟨lb, hlb, rfl⟩ := map_eq_some_iff.mp
    ((ServiceState.balancerOf_eq service).symm.trans hbalancer)
  exact ⟨service, lb, hservice, hlb, LoadBalancer.servers_fromLoadBalancer lb⟩

lemma Serves.call (h : Serves config services) (service : Text) (c : LoadBalancer.Call) :
    Serves config (services.call (service, c)) := by
  intro name b hb
  rw [ProxyState.balancer_call] at hb
  obtain ⟨b, hbefore, rfl⟩ := map_eq_some_iff.mp hb
  split
  · rw [LoadBalancer.servers_step]
    exact h name b hbefore
  · exact h name b hbefore

lemma Serves.applyHealthChange (h : Serves config services) (change : HealthChange)
    (url service : Text) :
    Serves config (ProxyState.applyHealthChange change url service services) := by
  unfold ProxyState.applyHealthChange
  split
  · exact h
  · exact h.call service _
  · exact h.call service _
  · exact h

lemma Serves.selectBackend (h : Serves config services) {name url : Text}
    {parsed : Option ParsedBackendUri} (hselect : selectBackend services name = .ok (url, parsed)) :
    ∃ service lb server, config.services.get name = some service ∧
      service.loadBalancer = some lb ∧ server ∈ lb.servers ∧ url = server.urlArc.getD server.url ∧
      parsed = server.parsedUri := by
  unfold TrafficCop.selectBackend at hselect
  split at hselect
  · cases hselect
  · next state hstate =>
    split at hselect
    · cases hselect
    · next b hb =>
      split at hselect
      · cases hselect
      · next server hserver =>
        cases hselect
        obtain ⟨service, lb, hservice, hlb, hservers⟩ := h name b (by rw [hstate]; exact hb)
        refine ⟨service, lb, server, hservice, hlb, ?_, rfl, rfl⟩
        rw [LoadBalancer.nextServer_fst] at hserver
        obtain ⟨index, -, hindex⟩ := bind_eq_some_iff.mp hserver
        exact hservers ▸ mem_of_getElem? hindex

lemma get_preParseUris {http : UriCrate} {name : Text} {service : Service}
    (h : (config.preParseUris http).services.get name = some service) :
    ∃ original, config.services.get name = some original ∧ service.loadBalancer =
      original.loadBalancer.map fun lb => ⟨lb.servers.map (Server.preParse http)⟩ := by
  unfold Config.services Config.preParseUris at *
  cases hhttp : config.http with
  | none => simp [hhttp, HashMap.get, HashMap.empty] at h
  | some section' =>
    simp only [hhttp, map_some, getD_some, HashMap.get_filterMap] at h
    obtain ⟨original, horiginal, hsome⟩ := bind_eq_some_iff.mp h
    cases hsome
    exact ⟨original, by simpa using horiginal, rfl⟩

variable {a : Arrival Ip} {p : Pending} {s : HandlerState}

omit [RegexCrate Regex] in
/-- The backend of a request is a server of the configuration, with its URL parsed in advance. -/
lemma served (hserves : Serves (P.config.preParseUris P.crates.http) services) {name url : Text}
    {parsed : Option ParsedBackendUri} (hselect : selectBackend services name = .ok (url, parsed)) :
    ∃ service lb server, P.config.services.get name = some service ∧
      service.loadBalancer = some lb ∧ server ∈ lb.servers ∧ url = server.url ∧
      parsed = (server.preParse P.crates.http).parsedUri := by
  obtain ⟨service, lb, server, hget, hlb, hserver, hurl, rfl⟩ := hserves.selectBackend hselect
  obtain ⟨original, horiginal, hbalancer⟩ := get_preParseUris hget
  obtain ⟨lb', hlb', rfl⟩ := map_eq_some_iff.mp (hbalancer.symm.trans hlb)
  obtain ⟨server', hserver', rfl⟩ := mem_map.mp hserver
  exact ⟨original, lb', server', horiginal, hlb', hserver', hurl, rfl⟩

/-- The request goes to a backend. -/
def Handled.Leaves : Handled → Prop
  | .sent _ | .upgraded _ _ _ => True
  | .answered _ | .crashed => False

lemma Handled.not_leaves_ofOutcome {after : OnResponse} {outcome : Outcome Empty Http.Response} :
    ¬ (Handled.ofOutcome after outcome).Leaves := by
  cases outcome <;> exact id

lemma forwardToBackend_leaves {ctx : RequestContext Ip} {host : Option Text} {isGrpc : Bool}
    {name : Text} {req : Incoming} {after : OnResponse} {http : UriCrate} {handled : Handled}
    (h : forwardToBackend http ctx host isGrpc name services req after = handled)
    (hleaves : handled.Leaves) :
    ∃ url parsed, selectBackend services name = .ok (url, parsed) ∧
      (handled = .upgraded url req after ∨ ∃ p uri, handled = .sent p ∧ p.service = name ∧
        p.backendUrl = url ∧ p.method = req.method ∧ p.after = after ∧
        buildBackendUriFast http url req.uri parsed = .ok uri ∧
        p.uri.authority = uri.authority) := by
  subst h
  unfold forwardToBackend at hleaves ⊢
  split at hleaves
  · exact absurd hleaves Handled.not_leaves_ofOutcome
  · next url parsed hselect =>
    refine ⟨url, parsed, hselect, ?_⟩
    dsimp only at hleaves ⊢
    split
    · exact .inl rfl
    · next hupgrade =>
      rw [if_neg hupgrade] at hleaves
      split at hleaves
      · exact absurd hleaves Handled.not_leaves_ofOutcome
      · next uri huri =>
        refine .inr ⟨_, uri, rfl, rfl, rfl, rfl, rfl, huri, ?_⟩
        dsimp only
        split
        · unfold rewriteH2cScheme
          split <;> rfl
        · rfl

lemma handle_leaves (h : (handle P a s).1.Leaves)
    (hserves : Serves (P.config.preParseUris P.crates.http) s.proxy.services) :
    (∃ route url req after, (handle P a s).1 = .upgraded url req after ∧
      Forwards P route url req after a s.limiters) ∨
    ∃ p, (handle P a s).1 = .sent p ∧ Lawful P p a s.limiters := by
  obtain ⟨route, req, after, host, isGrpc, hroute, hrun, hforward⟩ :
      ∃ route req after host isGrpc,
        P.router.matchRequest a.entrypoint a.req.attributes = some route ∧
        (Next.run P.crates a.ctx (P.resolve route.middlewares) a.req s.limiters).1 =
          .next req after ∧
        forwardToBackend P.crates.http a.ctx host isGrpc route.service s.proxy.services req after =
          (handle P a s).1 := by
    unfold handle at h ⊢
    dsimp only at h ⊢
    split at h
    · exact absurd h Handled.not_leaves_ofOutcome
    next route hroute =>
    -- both ways to the backend are that of a chain, of an empty one without middlewares
    split at h
    · next hempty =>
      simp only [hroute, if_pos hempty]
      exact ⟨route, a.req, id, _, _, rfl, by rw [isEmpty_iff.mp hempty]; rfl, rfl⟩
    · next hempty =>
      simp only [hroute, if_neg hempty]
      split at h
      · cases h
      · cases h
      · next req after limiters hrun =>
        exact ⟨route, req, after, _, _, rfl, by rw [hrun], rfl⟩
  obtain ⟨url, parsed, hselect, hcases⟩ := forwardToBackend_leaves hforward h
  obtain ⟨service, lb, server, hservice, hlb, hserver, hurl, rfl⟩ := served hserves hselect
  have hforwards : Forwards P route url req after a s.limiters :=
    ⟨hroute, hrun, service, lb, server, hservice, hlb, hserver, hurl⟩
  rcases hcases with hupgraded | ⟨p, uri, hsent, hname, rfl, hmethod, rfl, huri, hauthority⟩
  · exact .inl ⟨route, url, req, after, hupgraded, hforwards⟩
  · refine .inr ⟨p, hsent, route, req, hforwards, hname, hmethod.trans (Next.run_next hrun).1,
      fun scheme authority rest hparse => ?_⟩
    rw [hurl] at hparse
    simp only [Server.preParse, hparse, buildBackendUriFast] at huri
    cases huri
    exact hauthority

lemma Serves.handle (h : Serves config s.proxy.services) (a : Arrival Ip) :
    Serves config (handle P a s).2.proxy.services := by
  unfold ProxyHandler.handle
  dsimp only
  split
  · exact h
  · next route hroute =>
    have hselected := h.call route.service .nextServer
    split
    · exact hselected
    · split
      · exact h
      · exact h
      · exact hselected

variable {actions : List (Action Ip)} {t : Traffic Ip}

lemma Began.last {Q : Arrival Ip → Limiters → Prop} (h : Q a (run P actions).limiters) :
    Began P (actions ++ [.arrive a]) (run P actions).arrivals Q :=
  ⟨actions, a, [], rfl, rfl, h⟩

variable (P) in
/-- What holds of the traffic behind a list of actions. -/
structure Sound (actions : List (Action Ip)) (t : Traffic Ip) : Prop where
  serves : Serves (P.config.preParseUris P.crates.http) t.proxy.services
  pending : ∀ id p, (id, p) ∈ t.pending → Began P actions id (Lawful P p)
  upgraded : ∀ id url req after, (id, .upgraded url req after) ∈ t.ended →
    Began P actions id fun a limiters => ∃ route, Forwards P route url req after a limiters

lemma Sound.concat (h : Sound P actions t) (action : Action Ip) :
    Sound P (actions ++ [action]) t := by
  have hbegan : ∀ {id Q}, Began P actions id Q → Began P (actions ++ [action]) id Q := by
    rintro id Q ⟨before, a, behind, rfl, hbefore⟩
    exact ⟨before, a, behind ++ [action], by simp, hbefore⟩
  exact ⟨h.serves, fun id p hp => hbegan (h.pending id p hp),
    fun id url req after hmem => hbegan (h.upgraded id url req after hmem)⟩

lemma Sound.arrive (h : Sound P actions (run P actions)) (a : Arrival Ip) :
    Sound P (actions ++ [.arrive a]) (step P (run P actions) (.arrive a)) := by
  have hold := h.concat (.arrive a)
  have hnew : (handle P a (run P actions).toHandlerState).1.Leaves → _ :=
    fun hleaves => handle_leaves hleaves h.serves
  unfold step
  dsimp only
  split
  · next p hsent =>
    refine ⟨h.serves.handle a, fun id q hq => ?_, hold.upgraded⟩
    rcases mem_cons.mp hq with heq | hmem
    · cases heq
      rw [hsent] at hnew
      rcases hnew True.intro with ⟨_, _, _, _, hup, -⟩ | ⟨q, hq, hlawful⟩
      · cases hup
      · cases hq
        exact .last hlawful
    · exact hold.pending id q hmem
  · refine ⟨h.serves.handle a, hold.pending, fun id url req after hmem => ?_⟩
    rcases mem_cons.mp hmem with heq | hmem
    · obtain ⟨rfl, hup⟩ := Prod.mk.inj heq
      rw [← hup] at hnew
      rcases hnew True.intro with ⟨route, _, _, _, hup, hforwards⟩ | ⟨q, hq, -⟩
      · cases hup
        exact .last ⟨route, hforwards⟩
      · cases hq
    · exact hold.upgraded id url req after hmem

lemma Pending.not_leaves_finish {result : BackendResult} : ¬ (p.finish result).Leaves := by
  cases result with
  | response r => exact id
  | failed | timedOut => exact Handled.not_leaves_ofOutcome

lemma Sound.reply (h : Sound P actions t) (id : ℕ) (result : BackendResult) (elapsed now : ℕ) :
    Sound P actions (step P t (.reply id result elapsed now)) := by
  unfold step
  dsimp only
  split
  · exact h
  · next p hp =>
    refine ⟨h.serves.applyHealthChange _ _ _,
      fun id' q hq => h.pending id' q (mem_of_mem_filter hq),
      fun id' url req after hmem => ?_⟩
    rcases mem_cons.mp hmem with heq | hmem
    · -- a reply is not the end of an upgrade
      have hleaves := @Pending.not_leaves_finish p result
      rw [← (Prod.mk.inj heq).2] at hleaves
      exact absurd True.intro hleaves
    · exact h.upgraded id' url req after hmem

lemma sound_run (actions : List (Action Ip)) : Sound P actions (run P actions) := by
  induction actions using List.reverseRecOn with
  | nil => exact ⟨serves_new, by simp [run, init], by simp [run, init]⟩
  | append_singleton actions action ih =>
    rw [run, foldl_append, ← run]
    cases action with
    | arrive a => exact ih.arrive a
    | reply id result elapsed now => exact (ih.concat _).reply id result elapsed now

/-- **Requests stay on their routes.** However requests and replies interleave, every request that
has gone to a backend, be it in flight or upgraded to a WebSocket, had passed the chain of its
route, with the limiters as it found them, and went to a server of the route's service. -/
theorem in_flight_lawful (actions : List (Action Ip)) :
    (∀ id p, (id, p) ∈ (run P actions).pending → Began P actions id (Lawful P p)) ∧
    ∀ id url req after, (id, .upgraded url req after) ∈ (run P actions).ended →
      Began P actions id fun a limiters => ∃ route, Forwards P route url req after a limiters :=
  ⟨(sound_run actions).pending, (sound_run actions).upgraded⟩

def shopArrival : Arrival ℕ where
  entrypoint := "web"
  ctx := { remoteAddr := 0, ipText := mixedPeer, isTls := false, now := 0 }
  req := ⟨"GET", rootUri (some ⟨"shop.test", forall_char (by decide)⟩), ⟨[]⟩⟩

def shopSetup : Setup Literal Ipv4Network where
  crates := ⟨printableUris, id⟩
  config := ProxyState.twoServers
  router := shopRouter
  middlewares := .empty
  limiters _ := .new { average := 1 }

theorem in_flight_lawful_shop :
    ∃ n p, (n, p) ∈ (run shopSetup [.arrive shopArrival]).pending ∧
      Began shopSetup [.arrive shopArrival] n (Lawful shopSetup p) := by
  have hone : (run shopSetup [.arrive shopArrival]).pending.length = 1 := by decide +kernel
  obtain ⟨⟨n, p⟩, hp⟩ := length_eq_one_iff.mp hone
  have hmem : (n, p) ∈ (run shopSetup [.arrive shopArrival]).pending := by simp [hp]
  exact ⟨n, p, hmem, (in_flight_lawful _).1 n p hmem⟩

end Handler

end ProxyHandler

end TrafficCop
