import TrafficCop.Middleware.BasicAuth
import TrafficCop.Middleware.Cors
import TrafficCop.Middleware.IpFilter
import TrafficCop.Middleware.RateLimit
import TrafficCop.Proxy.RequestHost

/-!
# The middleware chain

`Next::run` of `middleware/mod.rs` over the wrappers of `middleware/registry.rs`. What a chain does
before its endpoint is called has no `await` in it, so it is one step here; what it does to the
response is kept for later. Bodies are left out.
-/

namespace TrafficCop

open Rust Http List

/-! ## The wrappers -/

structure HeadersMiddleware where
  requestHeaders : List (Text × HeaderValue)
  responseHeaders : List (Text × HeaderValue)
  removeRequest : List Text
  removeResponse : List Text

namespace HeadersMiddleware

/-- A loop of `HeadersMiddleware::new`: the names to remove and the lines to add. `headerName` is
`HeaderName::try_from`. -/
def sortLines (headerName : Text → Option Text) (custom : HashMap Text Text) :
    List Text × List (Text × HeaderValue) :=
  let lines := custom.entries.filterMap fun entry => (headerName entry.1).map (·, entry.2)
  -- "Empty value means remove the header (Traefik convention)"
  ((lines.filter fun line => line.2.isEmpty).map Prod.fst,
    (lines.filter fun line => !line.2.isEmpty).filterMap fun line =>
      (HeaderValue.fromStr line.2).map (line.1, ·))

def new (headerName : Text → Option Text)
    (customRequestHeaders customResponseHeaders : HashMap Text Text) : HeadersMiddleware where
  requestHeaders := (sortLines headerName customRequestHeaders).2
  responseHeaders := (sortLines headerName customResponseHeaders).2
  removeRequest := (sortLines headerName customRequestHeaders).1
  removeResponse := (sortLines headerName customResponseHeaders).1

/-- The body of `apply_request` and `apply_response`. -/
def apply (removed : List Text) (added : List (Text × HeaderValue)) (headers : HeaderMap) :
    HeaderMap :=
  added.foldl (fun headers line => headers.insert line.1 line.2) (headers.removeAll removed)

variable (mw : HeadersMiddleware)

def applyRequest : HeaderMap → HeaderMap := apply mw.removeRequest mw.requestHeaders

def applyResponse : HeaderMap → HeaderMap := apply mw.removeResponse mw.responseHeaders

section Configured

variable (headerName : Text → Option Text) (custom : HashMap Text Text) (name : Text)

/-- The values that are configured for a field. -/
def settings : List Text :=
  custom.entries.filterMap fun entry =>
    if headerName entry.1 = some name then some entry.2 else none

/-- The last of them that a header can hold takes the place of what was there; without one, an empty
value removes that. -/
def configured (before : List HeaderValue) : List HeaderValue :=
  (((settings headerName custom name).filterMap fun text =>
    if text.isEmpty then none else HeaderValue.fromStr text).getLast?.map ([·])).getD
      (if (settings headerName custom name).any List.isEmpty then [] else before)

variable {headerName custom name}

lemma mem_removed : name ∈ (sortLines headerName custom).1 ↔
    (settings headerName custom name).any List.isEmpty := by
  simp [sortLines, settings, any_eq_true, and_comm, and_assoc, -any_filterMap]

lemma getAll_added : (⟨(sortLines headerName custom).2⟩ : HeaderMap).getAll name =
    (settings headerName custom name).filterMap fun text =>
      if text.isEmpty then none else HeaderValue.fromStr text := by
  unfold sortLines settings Multimap.getAll
  dsimp only
  rw [filterMap_filter, filterMap_filterMap, filterMap_filterMap, filterMap_filterMap]
  refine filterMap_congr fun entry _ => ?_
  cases headerName entry.1 with
  | none => rfl
  | some n =>
    by_cases hname : n = name <;> by_cases hempty : entry.2.isEmpty <;>
      cases h : HeaderValue.fromStr entry.2 <;> simp_all

lemma getAll_apply (headers : HeaderMap) :
    (apply (sortLines headerName custom).1 (sortLines headerName custom).2 headers).getAll name =
      configured headerName custom name (headers.getAll name) := by
  unfold apply configured
  rw [Multimap.getAll_insertAll, Multimap.getAll_removeAll, getAll_added]
  simp only [mem_removed]

/-- **Configured headers** are set, those with an empty value are removed, and all other fields of a
request and of a response are left as they are. -/
theorem getAll_configured (headerName : Text → Option Text) (request response : HashMap Text Text)
    (headers : HeaderMap) (name : Text) :
    ((new headerName request response).applyRequest headers).getAll name =
        configured headerName request name (headers.getAll name) ∧
      ((new headerName request response).applyResponse headers).getAll name =
        configured headerName response name (headers.getAll name) :=
  ⟨getAll_apply headers, getAll_apply headers⟩

end Configured

end HeadersMiddleware

/-- Of `IpDenyListMiddleware` what the wrapper asks; the strategy is read by `get_client_ip`
alone. -/
structure IpDenyListMiddleware (Net : Type) where
  sourceRange : List Net

namespace IpDenyListMiddleware

variable {Net Ip : Type} [AddrCrate Net Ip]

variable (Ip) in
def new (config : IpDenyListConfig) : IpDenyListMiddleware Net :=
  ⟨config.sourceRange.filterMap (parseNetwork Ip)⟩

def isDenied (mw : IpDenyListMiddleware Net) (ip : Ip) : Bool :=
  mw.sourceRange.any fun network => IpCrate.contains network ip

def hasRules (mw : IpDenyListMiddleware Net) : Bool := !mw.sourceRange.isEmpty

end IpDenyListMiddleware

structure Incoming where
  method : Text
  uri : Uri
  headers : HeaderMap

/-- `RequestContext`, with the clock and the failing exchanges that a rate limiter meets. -/
structure RequestContext (Ip : Type) where
  remoteAddr : Ip
  /-- `remote_addr.ip().to_string()`. -/
  ipText : IpText
  isTls : Bool
  now : ℕ
  spurious : ℕ → Bool := fun _ => false

def RequestContext.rateCall {Ip : Type} (ctx : RequestContext Ip) : RateCall :=
  ⟨ctx.ipText.text, ctx.now, ctx.spurious⟩

/-- The wrappers of the registry with their middlewares; a limiter is known by its name. -/
inductive Wrapper (Regex Net : Type) where
  | headers (inner : HeadersMiddleware)
  | headersAndCors (inner : HeadersMiddleware) (cors : CorsMiddleware)
  | rateLimit (name : Text)
  | ipAllow (inner : IpAllowListMiddleware Net)
  | ipDeny (inner : IpDenyListMiddleware Net)
  | basicAuth (inner : BasicAuthMiddleware)
  | redirectScheme (inner : RedirectSchemeMiddleware)
  | path (inner : PathMiddleware Regex)
  | compress (minSize : UInt64)

/-- The state that requests share. -/
abbrev Limiters := Text → RateLimitMiddleware

/-- What a chain does to the response on its way back. -/
abbrev OnResponse := Http.Response → Http.Response

/-- What becomes of a request before the endpoint: an answer, or a request that is handed on with
what is to be done to its response. -/
inductive Verdict where
  | answer (response : Http.Response)
  | next (req : Incoming) (after : OnResponse)
  | panic

def plainResponse (status : UInt16) : Http.Response where
  status := status
  headers := insertText ⟨[]⟩ "content-type" (some "text/plain")

/-- The header that a path wrapper sets when it has changed the URI. -/
def PathMiddleware.trace {Regex : Type} [RegexCrate Regex] (http : UriCrate) (uri : Uri) :
    PathMiddleware Regex → Option (Text × Text)
  | .stripPrefix mw => (mw.transformUri http uri).map fun r => ("x-forwarded-prefix", r.2)
  | .stripPrefixRegex mw =>
    (mw.transformUri http uri).map fun r => ("x-forwarded-prefix", r.2)
  | .addPrefix _ => none
  | .replacePath mw => (mw.transformUri http uri).map fun r => ("x-replaced-path", r.2)
  | .replacePathRegex mw => (mw.transformUri http uri).map fun r => ("x-replaced-path", r.2)

structure Crates where
  http : UriCrate
  toLowercase : Text → Text

section Chain

variable {Regex Net Ip : Type} [RegexCrate Regex] [AddrCrate Net Ip]
  (crates : Crates) (ctx : RequestContext Ip)

def onHeaders (f : HeaderMap → HeaderMap) (response : Http.Response) : Http.Response :=
  { response with headers := f response.headers }

/-- `Middleware::handle` of each wrapper, up to the call of `next.run`. -/
def Wrapper.handle (w : Wrapper Regex Net) (req : Incoming) (limiters : Limiters) :
    Verdict × Limiters :=
  match w with
  | .headers inner =>
    (.next { req with headers := inner.applyRequest req.headers } (onHeaders inner.applyResponse),
      limiters)
  | .headersAndCors inner cors =>
    let corsReq : CorsRequest := ⟨req.method, req.headers⟩
    if CorsMiddleware.isPreflight corsReq then
      match cors.handlePreflight crates.toLowercase corsReq with
      | .ok (some response) => (.answer response, limiters)
      | .ok none => (.answer (plainResponse 403), limiters)
      | _ => (.panic, limiters)
    else
      (.next { req with headers := inner.applyRequest req.headers }
        (onHeaders fun h => cors.applyHeaders (CorsMiddleware.getOrigin corsReq)
          (inner.applyResponse h)), limiters)
  | .rateLimit name =>
    let r := (limiters name).isAllowedByKey ctx.rateCall
    (if r.1 then .next req id else .answer (plainResponse 429), Function.update limiters name r.2)
  | .ipAllow inner =>
    match inner.handle (some ctx.remoteAddr) with
    | some status => (.answer (plainResponse status), limiters)
    | none => (.next req id, limiters)
  | .ipDeny inner =>
    (if inner.hasRules && inner.isDenied ctx.remoteAddr then .answer (plainResponse 403)
      else .next req id, limiters)
  | .basicAuth inner =>
    (if !inner.isAuthenticated req.headers then .answer inner.unauthorizedResponse
      else .next req id, limiters)
  | .redirectScheme inner =>
    (if inner.shouldRedirect ctx.isTls then .answer (inner.buildRedirect req.headers req.uri)
      else .next req id, limiters)
  | .path inner =>
    let headers := match inner.trace crates.http req.uri with
      | some (name, text) => insertText req.headers name (some text)
      | none => req.headers
    (.next { req with uri := inner.handle crates.http req.uri, headers := headers } id, limiters)
  -- "For now, pass through"
  | .compress _ => (.next req id, limiters)

/-- The rest of the chain, if the request is handed on; its answer goes back through `after`. -/
def Verdict.andThen (first : Verdict × Limiters) (rest : Incoming → Limiters → Verdict × Limiters) :
    Verdict × Limiters :=
  match first with
  | (.next req after, limiters) =>
    match rest req limiters with
    | (.answer response, limiters) => (.answer (after response), limiters)
    | (.next req after', limiters) => (.next req (after ∘ after'), limiters)
    | (.panic, limiters) => (.panic, limiters)
  | stopped => stopped

/-- `Next::run` up to the call of the endpoint. -/
def Next.run : List (Wrapper Regex Net) → Incoming → Limiters → Verdict × Limiters
  | [], req, limiters => (.next req id, limiters)
  | current :: rest, req, limiters =>
    Verdict.andThen (current.handle crates ctx req limiters) (run rest)

/-! ## What passes a chain -/

/-- A request that the wrapper does not answer itself. -/
def Wrapper.Admits (req : Incoming) (limiters : Limiters) : Wrapper Regex Net → Prop
  | .headersAndCors .. => CorsMiddleware.isPreflight ⟨req.method, req.headers⟩ = false
  | .rateLimit name => ((limiters name).isAllowedByKey ctx.rateCall).1 = true
  | .ipAllow inner => inner.sourceRange = [] ∨
      ∃ network ∈ inner.sourceRange, IpCrate.contains network ctx.remoteAddr = true
  | .ipDeny inner => ∀ network ∈ inner.sourceRange, IpCrate.contains network ctx.remoteAddr = false
  | .basicAuth inner => inner.isAuthenticated req.headers = true
  | .redirectScheme inner => inner.shouldRedirect ctx.isTls = false
  | _ => True

def Wrapper.paths : Wrapper Regex Net → List (PathMiddleware Regex)
  | .path inner => [inner]
  | _ => []

variable {crates ctx} {w : Wrapper Regex Net} {req req' : Incoming}
  {limiters : Limiters} {after : OnResponse}

lemma IpAllowListMiddleware.handle_eq_none {mw : IpAllowListMiddleware Net} {ip : Ip} :
    mw.handle (some ip) = none ↔ mw.sourceRange = [] ∨
      ∃ network ∈ mw.sourceRange, IpCrate.contains network ip = true := by
  unfold handle hasRules isAllowed
  by_cases hrules : mw.sourceRange = []
  · simp [hrules]
  · simp [hrules, any_eq_true]

lemma Wrapper.handle_next_iff :
    (∃ req' after, (w.handle crates ctx req limiters).1 = .next req' after) ↔
      w.Admits ctx req limiters := by
  cases w with
  | headersAndCors inner cors =>
    unfold handle Admits
    dsimp only
    split
    · next hpreflight =>
      rw [hpreflight]
      split <;> simp
    · next hpreflight => simp [hpreflight]
  | rateLimit name =>
    cases h : ((limiters name).isAllowedByKey ctx.rateCall).1 <;> simp [handle, Admits, h]
  | ipAllow inner =>
    rw [Admits, ← IpAllowListMiddleware.handle_eq_none, handle]
    split <;> next h => simp [h]
  | ipDeny inner =>
    have hdenied : (inner.hasRules && inner.isDenied ctx.remoteAddr) = false ↔
        ∀ network ∈ inner.sourceRange, IpCrate.contains network ctx.remoteAddr = false := by
      unfold IpDenyListMiddleware.hasRules IpDenyListMiddleware.isDenied
      cases inner.sourceRange <;> simp
    rw [Admits, ← hdenied, handle]
    cases inner.hasRules && inner.isDenied ctx.remoteAddr <;> simp
  | basicAuth inner => cases h : inner.isAuthenticated req.headers <;> simp [handle, Admits, h]
  | redirectScheme inner => cases h : inner.shouldRedirect ctx.isTls <;> simp [handle, Admits, h]
  | _ => simp [handle, Admits]

lemma Wrapper.handle_next (h : (w.handle crates ctx req limiters).1 = .next req' after) :
    req'.method = req.method ∧ req'.uri = runChain crates.http w.paths req.uri := by
  unfold handle at h
  cases w with
  | headersAndCors inner cors =>
    dsimp only at h
    split at h
    · split at h <;> cases h
    · cases h
      exact ⟨rfl, rfl⟩
  | headers inner => cases h; exact ⟨rfl, rfl⟩
  | path inner => cases h; exact ⟨rfl, rfl⟩
  | compress minSize => cases h; exact ⟨rfl, rfl⟩
  | _ =>
    -- a check that leaves the request as it is
    dsimp only at h
    split at h <;> cases h
    exact ⟨rfl, rfl⟩

namespace Verdict

variable {first : Verdict × Limiters} {rest rest' : Incoming → Limiters → Verdict × Limiters}

lemma andThen_assoc :
    andThen (andThen first rest) rest' = andThen first fun req l => andThen (rest req l) rest' := by
  rcases first with ⟨_ | ⟨req, after⟩ | _, l⟩
  · rfl
  · rcases h : rest req l with ⟨_ | ⟨req, after⟩ | _, l⟩
    · simp [andThen, h]
    · rcases h' : rest' req l with ⟨_ | _ | _, l⟩ <;> simp [andThen, h, h', Function.comp_assoc]
    · simp [andThen, h]
  · rfl

lemma andThen_eq_next (h : (andThen first rest).1 = .next req' after) :
    ∃ req inner l outer, first = (.next req outer, l) ∧ (rest req l).1 = .next req' inner := by
  rcases first with ⟨_ | ⟨req, outer⟩ | _, l⟩
  · cases h
  · rcases hrest : rest req l with ⟨_ | ⟨req₁, inner⟩ | _, l'⟩
    · simp [andThen, hrest] at h
    · simp only [andThen, hrest] at h
      cases h
      exact ⟨req, inner, l, outer, rfl, by rw [hrest]⟩
    · simp [andThen, hrest] at h
  · cases h

end Verdict

namespace Next

variable {ws : List (Wrapper Regex Net)}

lemma run_append (before behind : List (Wrapper Regex Net)) (req : Incoming)
    (limiters : Limiters) : run crates ctx (before ++ behind) req limiters =
      Verdict.andThen (run crates ctx before req limiters) (run crates ctx behind) := by
  induction before generalizing req limiters with
  | nil =>
    rcases h : run crates ctx behind req limiters with ⟨_ | _ | _, l⟩ <;>
      simp [run, Verdict.andThen, h]
  | cons w before ih =>
    show Verdict.andThen _ _ = Verdict.andThen (Verdict.andThen _ _) _
    rw [Verdict.andThen_assoc]
    congr 1
    funext req l
    exact ih req l

lemma run_next (h : (run crates ctx ws req limiters).1 = .next req' after) :
    req'.method = req.method ∧
      req'.uri = runChain crates.http (ws.flatMap Wrapper.paths) req.uri := by
  induction ws generalizing req limiters after with
  | nil =>
    cases h
    exact ⟨rfl, rfl⟩
  | cons w ws ih =>
    obtain ⟨req₁, inner, l, outer, hfirst, hrest⟩ := Verdict.andThen_eq_next h
    obtain ⟨hmethod, huri⟩ := ih hrest
    obtain ⟨hmethod₁, huri₁⟩ := Wrapper.handle_next (congrArg Prod.fst hfirst)
    refine ⟨hmethod.trans hmethod₁, ?_⟩
    rw [huri, huri₁, flatMap_cons, runChain, runChain, runChain, foldl_append]

/-- **What passes a chain.** A request comes to the endpoint exactly if each wrapper admits what
those before it hand on. It has its method then, and the URI that the path middlewares make of its
own in turn. A chain that has stopped stays so, whatever comes behind. -/
theorem run_next_iff (ws : List (Wrapper Regex Net)) (req : Incoming) (limiters : Limiters) :
    ((∃ req' after, (run crates ctx ws req limiters).1 = .next req' after) ↔
      ∀ before w behind, ws = before ++ w :: behind → ∃ req₁ after₁ limiters₁,
        run crates ctx before req limiters = (.next req₁ after₁, limiters₁) ∧
          w.Admits ctx req₁ limiters₁) ∧
    (∀ req' after, (run crates ctx ws req limiters).1 = .next req' after →
      req'.method = req.method ∧
        req'.uri = runChain crates.http (ws.flatMap Wrapper.paths) req.uri) ∧
    ∀ behind, (∀ req' after, (run crates ctx ws req limiters).1 ≠ .next req' after) →
      run crates ctx (ws ++ behind) req limiters =
        run crates ctx ws req limiters := by
  refine ⟨⟨?_, fun h => ?_⟩, fun req' after h => run_next h, fun behind h => ?_⟩
  · rintro ⟨req', after, h⟩ before w behind rfl
    rw [run_append] at h
    obtain ⟨req₁, inner, l, outer, hbefore, hrest⟩ := Verdict.andThen_eq_next h
    obtain ⟨req₂, inner', l', outer', hw, -⟩ := Verdict.andThen_eq_next hrest
    exact ⟨req₁, outer, l, hbefore, Wrapper.handle_next_iff.mp ⟨req₂, outer', congrArg Prod.fst hw⟩⟩
  · -- the condition on the last wrapper includes that all before it have admitted
    rcases eq_nil_or_concat' ws with rfl | ⟨before, w, rfl⟩
    · exact ⟨req, id, rfl⟩
    · obtain ⟨req₁, after₁, l, hbefore, hadmits⟩ := h before w [] rfl
      obtain ⟨req₂, after₂, hw⟩ := Wrapper.handle_next_iff.mpr hadmits
      refine ⟨req₂, after₁ ∘ (after₂ ∘ id), ?_⟩
      obtain ⟨l', hw⟩ : ∃ l', w.handle crates ctx req₁ l = (.next req₂ after₂, l') :=
        ⟨_, Prod.ext hw rfl⟩
      rw [run_append, hbefore]
      simp [Verdict.andThen, run, hw]
  · rw [run_append]
    rcases hrun : run crates ctx ws req limiters with ⟨_ | ⟨req₁, after₁⟩ | _, l⟩
    · rfl
    · exact absurd (congrArg Prod.fst hrun) (h req₁ after₁)
    · rfl

end Next

end Chain

end TrafficCop
