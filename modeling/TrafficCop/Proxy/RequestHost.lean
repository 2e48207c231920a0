import TrafficCop.Config.Types
import TrafficCop.Http.Host
import TrafficCop.Proxy.Headers
import TrafficCop.Rust.Lowercase

/-!
# The host of a request

Over HTTP/1.1 the authority is in the `Host` header, over HTTP/2 in the request's URI.
`ProxyHandler::handle` takes the host for routing from either,
`RedirectSchemeMiddleware::build_redirect` from the header alone.
-/

namespace TrafficCop

open Rust Http List Option HeaderValue

/-! ## The code -/

/-- The host ends at the first colon; an IPv6 literal has colons in itself. -/
def withoutPort (h : Text) : Text := (h.splitOn ':').head?.getD h

/-- `headers.get(HOST).and_then(|h| h.to_str().ok())`, without the port. -/
def headerHost (headers : HeaderMap) : Option Text :=
  ((headers.get hostName).bind toStr).map withoutPort

/-- The host that `ProxyHandler::handle` routes by. -/
def requestHost (headers : HeaderMap) (uri : Uri) : Option Text := (headerHost headers).or uri.host

structure RedirectSchemeMiddleware where
  scheme : Text
  permanent : Bool
  port : Option UInt16

namespace RedirectSchemeMiddleware

def new (L : Lowercasing) (config : RedirectSchemeConfig) : RedirectSchemeMiddleware where
  scheme := L.toLowercase config.scheme
  permanent := config.permanent
  port := config.port.bind parseU16

variable (mw : RedirectSchemeMiddleware)

def shouldRedirect (isTls : Bool) : Bool :=
  (if isTls then "https".toList else "http".toList) != mw.scheme

def isDefaultPort (scheme : Text) (port : UInt16) : Bool :=
  (scheme == "http" && port == 80) || (scheme == "https" && port == 443)

def locationPort : Option Text :=
  (mw.port.filter fun port => !isDefaultPort mw.scheme port).map fun port =>
    Nat.toDigits 10 port.toNat

/-- The host is that of the header alone. -/
def location (headers : HeaderMap) (uri : Uri) : Text :=
  let host := (headerHost headers).getD "localhost"
  let pathAndQuery := (uri.pathAndQuery?.map PathAndQuery.asStr).getD "/"
  mw.scheme ++ "://" ++ host ++ portSuffix mw.locationPort ++ pathAndQuery

def buildRedirect (headers : HeaderMap) (uri : Uri) : Http.Response where
  status := if mw.permanent then 301 else 302
  headers := insertText ⟨[]⟩ "location" (some (mw.location headers uri))

end RedirectSchemeMiddleware

/-! ## What the three places compute -/

/-- HTTP/1.1: the authority is the value of the `Host` header. -/
def SentInHeader (hp : HostPort) (headers : HeaderMap) : Prop :=
  ∃ value, headers.get hostName = some value ∧ value.bytes = asBytes hp.text

/-- HTTP/2: the authority is that of the URI, and there is no `Host` header. -/
def SentInUri (hp : HostPort) (headers : HeaderMap) (uri : Uri) : Prop :=
  headers.get hostName = none ∧ uri.authority = some hp.authority

lemma withoutPort_append {before after : Text} (h : ':' ∉ before) :
    withoutPort (before ++ ':' :: after) = before := by
  rw [withoutPort, splitOn_append_cons_self_of_not_mem h]
  rfl

lemma withoutPort_of_notMem {text : Text} (h : ':' ∉ text) : withoutPort text = text := by
  rw [withoutPort, splitOn_eq_singleton h]
  rfl

lemma withoutPort_ipv6 {hp : HostPort} (h : hp.host.isIpv6) :
    ∃ start, withoutPort hp.text = '[' :: start ∧ ']' ∉ start ∧
      ∀ c ∈ start, c ∈ authorityChars := by
  have hall := hp.mem_authorityChars
  obtain ⟨host, port, digits⟩ := hp
  cases host with
  | ipv6 text chars colon =>
    obtain ⟨r, hsplit⟩ : ∃ r, splitOnce ':' text = some r := by
      obtain ⟨before, after, htext, hnot⟩ := eq_append_cons_of_mem colon
      exact ⟨_, splitOnce_eq_some_iff.mpr ⟨htext, hnot⟩⟩
    obtain ⟨start, rest⟩ := r
    obtain ⟨htext, hnot⟩ := splitOnce_eq_some_iff.mp hsplit
    have hstart : ∀ c ∈ start, c ∈ text := fun c hc => htext ▸ mem_append_left _ hc
    have hshape : HostPort.text ⟨.ipv6 text chars colon, port, digits⟩ =
        ('[' :: start) ++ ':' :: (rest ++ ']' :: portSuffix port) := by
      simp [HostPort.text, Host.text, htext]
    refine ⟨start, ?_, fun hc => bracket_notMem_ipv6Chars (chars ']' (hstart ']' hc)),
      fun c hc => ?_⟩
    · rw [hshape]
      exact withoutPort_append (by simp [hnot])
    · refine hall c ?_
      rw [hshape]
      exact mem_append_left _ (mem_cons_of_mem _ hc)
  | _ => cases h

/-- **The text before the first colon** is the host unless it is an IPv6 literal. -/
theorem withoutPort_text_iff (hp : HostPort) :
    withoutPort hp.text = hp.host.text ↔ hp.host.isIpv6 = false := by
  cases h : hp.host.isIpv6 with
  | false =>
    have hcolon := Host.colon_notMem_text h
    refine iff_of_true ?_ rfl
    rw [HostPort.text]
    cases hp.port with
    | none => rw [portSuffix, elim_none, append_nil, withoutPort_of_notMem hcolon]
    | some port => exact withoutPort_append hcolon
  | true =>
    obtain ⟨start, hstart, hclose, -⟩ := withoutPort_ipv6 h
    refine iff_of_false (fun heq => ?_) Bool.true_eq_false.mp
    -- the host ends with a bracket
    have hmem : ']' ∈ '[' :: start := by
      rw [← hstart, heq]
      cases hhost : hp.host with
      | ipv6 text chars colon => simp [Host.text]
      | _ =>
        rw [hhost] at h
        cases h
    rcases mem_cons.mp hmem with hopen | hmem
    · cases hopen
    · exact hclose hmem

section Requests

variable {hp : HostPort} {headers : HeaderMap} {uri : Uri}

lemma headerHost_of_header (h : SentInHeader hp headers) :
    headerHost headers = some (withoutPort hp.text) := by
  obtain ⟨value, hget, hbytes⟩ := h
  have hvisible := visible_of_mem_authorityChars hp.mem_authorityChars
  rw [headerHost, hget, bind_some, toStr_of_bytes hbytes hvisible]
  rfl

lemma headerHost_of_uri (h : SentInUri hp headers uri) : headerHost headers = none := by
  rw [headerHost, h.1]
  rfl

lemma requestHost_of_header (h : SentInHeader hp headers) (uri : Uri) :
    requestHost headers uri = some (withoutPort hp.text) := by
  rw [requestHost, headerHost_of_header h, some_or]

lemma requestHost_of_uri (h : SentInUri hp headers uri) :
    requestHost headers uri = some hp.host.text := by
  rw [requestHost, headerHost_of_uri h, none_or, Uri.host, h.2, bind_some]
  exact hostOf_text hp

end Requests

/-! ## The `Location` -/

def schemeChars : Text := "abcdefghijklmnopqrstuvwxyz0123456789+-."

/-- The target of a request: a path and query that a header can hold. -/
structure Servable (uri : Uri) : Prop where
  path : uri.path.head? = some '/'
  valid : ∀ b ∈ asBytes uri.pathAndQuery.asStr, isValidByte b = true

/-- The response has a `Location`, with a host. -/
def RedirectsTo (response : Http.Response) (host : Text) : Prop :=
  ∃ location value, fromStr location = some value ∧
    response.headers.get "location" = some value ∧ locationHost location = some host

namespace RedirectSchemeMiddleware

variable {mw : RedirectSchemeMiddleware} {headers : HeaderMap} {uri : Uri}

lemma location_buildRedirect (mw : RedirectSchemeMiddleware) (headers : HeaderMap) (uri : Uri) :
    (mw.buildRedirect headers uri).headers.get "location" = fromStr (mw.location headers uri) := by
  rw [buildRedirect, insertText, bind_some]
  cases fromStr (mw.location headers uri) with
  | none => rfl
  | some value => rfl

lemma redirectsTo_iff {host : Text} :
    RedirectsTo (mw.buildRedirect headers uri) host ↔
      (∀ b ∈ asBytes (mw.location headers uri), isValidByte b) ∧
        locationHost (mw.location headers uri) = some host := by
  rw [RedirectsTo, location_buildRedirect]
  constructor
  · rintro ⟨location, value, hvalue, hlocation, hhost⟩
    have hbytes := fromStr_eq_some_iff.mp hlocation
    have heq := asBytes_injective (hbytes.symm.trans (fromStr_eq_some_iff.mp hvalue))
    exact ⟨hbytes ▸ value.valid, heq ▸ hhost⟩
  · rintro ⟨hvalid, hhost⟩
    exact ⟨_, _, fromStr_eq_some hvalid, fromStr_eq_some hvalid, hhost⟩

lemma digits_locationPort (mw : RedirectSchemeMiddleware) :
    ∀ p ∈ mw.locationPort, ∀ c ∈ p, c.isDigit := by
  intro p hp c hc
  obtain ⟨port, -, rfl⟩ := map_eq_some_iff.mp hp
  exact Nat.isDigit_of_mem_toDigits (by decide) (by decide) hc

lemma endsAuthority_slash (c : Char) (h : "/".toList.head? = some c) : endsAuthority c := by
  obtain rfl : '/' = c := Option.some.inj h
  rfl

lemma pathAndQuery_servable (h : Servable uri) :
    (∀ c, ((uri.pathAndQuery?.map PathAndQuery.asStr).getD "/").head? = some c → endsAuthority c) ∧
    ∀ b ∈ asBytes ((uri.pathAndQuery?.map PathAndQuery.asStr).getD "/"), isValidByte b := by
  rw [Uri.pathAndQuery?]
  split
  · refine ⟨fun c hc => ?_, h.valid⟩
    obtain ⟨d, hd, hends⟩ := asStr_head h.path
    change uri.pathAndQuery.asStr.head? = some c at hc
    rw [hd] at hc
    exact Option.some.inj hc ▸ hends
  · exact ⟨endsAuthority_slash, by decide +kernel⟩

lemma redirectsTo_of_host {host : Host} (hscheme : ∀ c ∈ mw.scheme, c ∈ schemeChars)
    (huri : Servable uri) (hhost : (headerHost headers).getD "localhost" = host.text) :
    RedirectsTo (mw.buildRedirect headers uri) host.text := by
  obtain ⟨hends, hvalid⟩ := pathAndQuery_servable huri
  let hp : HostPort := ⟨host, mw.locationPort, mw.digits_locationPort⟩
  let scheme : Scheme := ⟨mw.scheme, fun c hc hcolon =>
    absurd (hscheme ':' (hcolon ▸ hc)) (by decide)⟩
  have hlocation : mw.location headers uri = scheme.text ++ ("://" ++ (hp.text ++
      (uri.pathAndQuery?.map PathAndQuery.asStr).getD "/")) := by
    rw [location, hhost, HostPort.text]
    simp only [append_assoc, scheme, hp]
  rw [redirectsTo_iff, hlocation]
  refine ⟨?_, locationHost_assembled scheme hp hends⟩
  -- the bytes of each part can be in a header
  have hsub : ∀ c ∈ schemeChars, c ∈ authorityChars := forall_char (by decide +kernel)
  have hscheme' := visible_of_mem_authorityChars fun c hc => hsub c (hscheme c hc)
  have hauthority := visible_of_mem_authorityChars hp.mem_authorityChars
  intro b hb
  simp only [asBytes, flatMap_append, mem_append] at hb
  rcases hb with hb | hb | hb | hb
  · exact isValidByte_of_isVisibleAscii (hscheme' b hb)
  · have hslashes : ∀ b ∈ asBytes "://", isValidByte b := by decide +kernel
    exact hslashes b hb
  · exact isValidByte_of_isVisibleAscii (hauthority b hb)
  · exact hvalid b hb

end RedirectSchemeMiddleware

/-! ## Where the hosts agree -/

def toHttps : RedirectSchemeConfig where
  scheme := "https"

def rootUri (authority : Option Authority) : Uri where
  scheme := authority.map fun _ => ⟨['h', 't', 't', 'p', 's'], forall_char (by decide)⟩
  authority := authority
  pathAndQuery := ⟨"/", none⟩

lemma servable_rootUri (authority : Option Authority) : Servable (rootUri authority) where
  path := by
    cases authority <;> rfl
  valid := by
    show ∀ b ∈ asBytes "/", isValidByte b = true
    decide +kernel

def hostHeader (hp : HostPort) : HeaderMap where
  lines := [(hostName, ⟨asBytes hp.text, fun b hb => isValidByte_of_isVisibleAscii
    (visible_of_mem_authorityChars hp.mem_authorityChars b hb)⟩)]

lemma sentInHeader_hostHeader (hp : HostPort) : SentInHeader hp (hostHeader hp) :=
  ⟨_, rfl, rfl⟩

lemma sentInUri_rootUri (hp : HostPort) : SentInUri hp ⟨[]⟩ (rootUri (some hp.authority)) :=
  ⟨rfl, rfl⟩

section Uniform

variable (L : Lowercasing)

lemma new_toHttps : RedirectSchemeMiddleware.new L toHttps = ⟨"https", false, none⟩ := by
  have htelling : Telling "https" := ⟨forall_char (by decide), by decide, by decide⟩
  have hlower : L.toLowercase "https" = "https" :=
    (L.toLowercase_eq_iff htelling "https").mpr (by decide)
  rw [RedirectSchemeMiddleware.new]
  simp only [toHttps, hlower]
  rfl

lemma location_toHttps (headers : HeaderMap) (authority : Option Authority) :
    (RedirectSchemeMiddleware.new L toHttps).location headers (rootUri authority) =
      "https://" ++ ((headerHost headers).getD "localhost" ++ "/") := by
  rw [new_toHttps, RedirectSchemeMiddleware.location]
  have hpath : ((rootUri authority).pathAndQuery?.map PathAndQuery.asStr).getD "/" = "/" := by
    cases authority <;> rfl
  rw [hpath]
  simp only [append_assoc]
  rfl

/-- **When the host is the same everywhere.** For routing, and for the `Location` of a request over
HTTP/1.1, exactly if it is not an IPv6 literal; for the `Location` of a request over HTTP/2 exactly
if it is `localhost`. -/
theorem host_uniform_iff (hp : HostPort) :
    ((∀ headers uri headers' uri', SentInHeader hp headers → SentInUri hp headers' uri' →
        requestHost headers uri = requestHost headers' uri') ↔ hp.host.isIpv6 = false) ∧
    ((∀ config headers uri,
        (∀ c ∈ (RedirectSchemeMiddleware.new L config).scheme, c ∈ schemeChars) →
          SentInHeader hp headers → Servable uri →
            RedirectsTo ((RedirectSchemeMiddleware.new L config).buildRedirect headers uri)
              hp.host.text) ↔ hp.host.isIpv6 = false) ∧
    ((∀ config headers uri,
        (∀ c ∈ (RedirectSchemeMiddleware.new L config).scheme, c ∈ schemeChars) →
          SentInUri hp headers uri → Servable uri →
            RedirectsTo ((RedirectSchemeMiddleware.new L config).buildRedirect headers uri)
              hp.host.text) ↔ hp.host.text = "localhost") := by
  have hhttps : ∀ c ∈ (RedirectSchemeMiddleware.new L toHttps).scheme, c ∈ schemeChars := by
    rw [new_toHttps]
    exact forall_char (by decide)
  refine ⟨⟨fun h => ?_, fun h headers uri headers' uri' hheader huri => ?_⟩,
    ⟨fun h => ?_, fun h config headers uri hscheme hheader huri => ?_⟩,
    ⟨fun h => ?_, fun h config headers uri hscheme hsent huri => ?_⟩⟩
  · have heq := h _ (rootUri none) _ _ (sentInHeader_hostHeader hp) (sentInUri_rootUri hp)
    rw [requestHost_of_header (sentInHeader_hostHeader hp),
      requestHost_of_uri (sentInUri_rootUri hp), Option.some.injEq] at heq
    exact (withoutPort_text_iff hp).mp heq
  · rw [requestHost_of_header hheader, requestHost_of_uri huri, (withoutPort_text_iff hp).mpr h]
  · -- the `Location` of an IPv6 literal has an authority without its closing bracket
    have hto := h toHttps _ _ hhttps (sentInHeader_hostHeader hp) (servable_rootUri none)
    rw [RedirectSchemeMiddleware.redirectsTo_iff, location_toHttps,
      headerHost_of_header (sentInHeader_hostHeader hp)] at hto
    by_contra hsix
    obtain ⟨start, hstart, hclose, hchars⟩ := withoutPort_ipv6 (Bool.not_eq_false _ ▸ hsix)
    have hnone := locationHost_unclosed ⟨"https", forall_char (by decide)⟩ hclose hchars
      RedirectSchemeMiddleware.endsAuthority_slash
    rw [getD_some, hstart] at hto
    cases hnone.symm.trans hto.2
  · refine RedirectSchemeMiddleware.redirectsTo_of_host hscheme huri ?_
    rw [headerHost_of_header hheader, getD_some, (withoutPort_text_iff hp).mpr h]
  · have hto := h toHttps _ _ hhttps (sentInUri_rootUri hp) (servable_rootUri _)
    rw [RedirectSchemeMiddleware.redirectsTo_iff, location_toHttps,
      headerHost_of_uri (sentInUri_rootUri hp)] at hto
    have hlocal : locationHost ("https://" ++ ("localhost" ++ "/")) =
        some "localhost" := by decide +kernel
    exact Option.some.inj (hto.2.symm.trans hlocal)
  · refine RedirectSchemeMiddleware.redirectsTo_of_host hscheme huri ?_
    rw [headerHost_of_uri hsent, getD_none, h]

end Uniform

def loopback : HostPort where
  host := .ipv6 "::1" (forall_char (by decide)) (by decide)
  port := some "8080"
  digits := by
    rintro p ⟨⟩
    exact forall_char (by decide)

/-- **An IPv6 literal is routed by its opening bracket** over HTTP/1.1, and its `Location` has no
more than that of it. Over HTTP/2 the `Location` is on another host. -/
theorem host_uniform_loopback :
    loopback.text = "[::1]:8080" ∧
      requestHost (hostHeader loopback) (rootUri none) = some "[" ∧
      requestHost ⟨[]⟩ (rootUri (some loopback.authority)) = some "[::1]" ∧
      (RedirectSchemeMiddleware.new plainLowercasing toHttps).location (hostHeader loopback)
        (rootUri none) = "https://[/" ∧
      (RedirectSchemeMiddleware.new plainLowercasing toHttps).location ⟨[]⟩
        (rootUri (some loopback.authority)) = "https://localhost/" := by
  decide +kernel

end TrafficCop
