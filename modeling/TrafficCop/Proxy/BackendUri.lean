import TrafficCop.Middleware.Path

/-!
# The URI sent to a backend

`build_backend_uri` and `build_backend_uri_fast` of `proxy/handler.rs`.
-/

namespace TrafficCop

open Rust Http

/-! ## Assembling -/

def backendScheme (backendBase : Uri) : Scheme :=
  backendBase.scheme.getD ⟨"http", forall_char (by decide)⟩

def backendAuthority (backendBase : Uri) : Authority :=
  backendBase.authority.getD ⟨[], by simp⟩

def requestPathAndQuery (originalUri : Uri) : Text :=
  match originalUri.pathAndQuery? with
  | some pq => pq.asStr
  | none => ['/']

/-- The backend's scheme and authority and the request's path and query are glued into one text,
which is parsed again. -/
def buildBackendUri (http : UriCrate) (backendUrl : Text) (originalUri : Uri) :
    Except Text Uri :=
  match Uri.parse http backendUrl with
  | .error e => .error ("Invalid backend URL: " ++ e)
  | .ok backendBase =>
    let uriString := (backendScheme backendBase).text ++ ("://" ++
      ((backendAuthority backendBase).text ++ requestPathAndQuery originalUri))
    match Uri.parse http uriString with
    | .error e => .error ("Failed to build URI: " ++ e)
    | .ok uri => .ok uri

/-- What `Config::pre_parse_uris` does to a server. -/
def Server.preParse (http : UriCrate) (server : Server) : Server :=
  { server with
    urlArc := some server.url
    parsedUri :=
      match Uri.parse http server.url with
      | .ok ⟨some scheme, some authority, _⟩ => some ⟨scheme, authority⟩
      | _ => server.parsedUri }

/-- For a URL parsed with the configuration, typed components go to the builder. -/
def buildBackendUriFast (http : UriCrate) (backendUrl : Text) (originalUri : Uri)
    (parsed : Option ParsedBackendUri) : Except Text Uri :=
  match parsed with
  | none => buildBackendUri http backendUrl originalUri
  | some parsed => .ok ⟨some parsed.scheme, some parsed.authority,
      originalUri.pathAndQuery?.getD (.ofText ['/'])⟩

/-! ## The authority of the result -/

section Authority

variable {http : UriCrate} {backendUrl : Text} {backend uri result : Uri}

lemma buildBackendUri_authority_iff (hbackend : Uri.parse http backendUrl = .ok backend)
    (h : buildBackendUri http backendUrl uri = .ok result) :
    result.authority = some (backendAuthority backend) ↔
      ∀ c, (requestPathAndQuery uri).head? = some c → endsAuthority c := by
  unfold buildBackendUri at h
  rw [hbackend] at h
  dsimp only at h
  split at h
  · cases h
  · next parsed hparse =>
    cases h
    exact parse_assembled_iff hparse

lemma requestPathAndQuery_head (huri : Rooted uri) :
    ∀ c, (requestPathAndQuery uri).head? = some c → endsAuthority c := by
  intro c hc
  unfold requestPathAndQuery Uri.pathAndQuery? at hc
  split at hc
  · next pq hpq =>
    split at hpq
    · cases hpq
      obtain ⟨d, hd, hends⟩ := asStr_head (startsWithSlash_iff.mp huri)
      cases hd.symm.trans hc
      exact hends
    · cases hpq
  · cases hc
    decide

variable {Regex : Type} [RegexCrate Regex]

/-- **Rooting chains stay on the backend.** The path starts with a slash all along the chain
exactly if every step is rooting at the URI it sees, and then the URI assembled for any backend
has that backend's authority. -/
theorem chain_keeps_backend {mws : List (PathMiddleware Regex)} (huri : Rooted uri) :
    ((∀ before behind, mws = before ++ behind → Rooted (runChain http before uri)) ↔
      RootingChain http mws uri) ∧
    (RootingChain http mws uri →
      ∀ backendUrl backend result, Uri.parse http backendUrl = .ok backend →
        buildBackendUri http backendUrl (runChain http mws uri) = .ok result →
        result.authority = some (backendAuthority backend)) := by
  refine ⟨runChain_rooted_iff huri, fun hmws backendUrl backend result hbackend hresult => ?_⟩
  have hlast := (runChain_rooted_iff huri).mpr hmws mws [] (List.append_nil mws).symm
  exact (buildBackendUri_authority_iff hbackend hresult).mpr (requestPathAndQuery_head hlast)

end Authority

/-- A crate that takes printable ASCII and reads absolute URIs only. -/
def printableUris : UriCrate where
  acceptsPathAndQuery s := s.all fun c => 0x21 ≤ c.toNat && c.toNat ≤ 0x7E
  acceptsAbsolute s := s.all fun c => 0x21 ≤ c.toNat && c.toNat ≤ 0x7E
  parseOther _ := none
  errorText _ := "invalid uri"

def originForm (path : Text) : Uri := ⟨none, none, ⟨path, none⟩⟩

def apiChain (forceSlash : Bool) : List (PathMiddleware Literal) :=
  [.stripPrefix ⟨["/api"], forceSlash⟩, .stripPrefixRegex ⟨[⟨"/v1"⟩]⟩]

theorem chain_keeps_backend_api :
    (runChain printableUris (apiChain true) (originForm "/api@evil.test/x")).path =
        "/@evil.test/x" ∧
      ∀ result, buildBackendUri printableUris "http://10.0.0.1:80"
          (runChain printableUris (apiChain true) (originForm "/api@evil.test/x")) =
            .ok result →
        result.authority.map Authority.text = some "10.0.0.1:80" := by
  have hsafe := @chain_keeps_backend printableUris (originForm "/api@evil.test/x") Literal _
    (apiChain true) (by unfold Rooted; decide)
  refine ⟨by decide, fun result hresult => ?_⟩
  rw [hsafe.2 ⟨.inl rfl, True.intro, True.intro⟩ "http://10.0.0.1:80" _ result rfl hresult]
  decide

/-- The crate reads a host and a port as well, as a URI without a scheme. -/
def authorityUris : UriCrate :=
  { printableUris with
    parseOther s :=
      if s.all (!endsAuthority ·) then some ⟨none, some (leadingAuthority s), ⟨[], none⟩⟩
      else none }

/-- A prefix stripped without `forceSlash` in front of a backend that is written without a scheme,
so that its URL is not parsed with the configuration: the client's path continues the authority. -/
theorem strip_moves_host :
    ¬ ∀ (mws : List (PathMiddleware Literal)) (uri : Uri), Rooted uri →
      (∀ before behind, mws = before ++ behind → Rooted (runChain authorityUris before uri)) ∧
        ∀ server backend result, (Server.preParse authorityUris server).parsedUri = none →
          Uri.parse authorityUris server.url = .ok backend →
          buildBackendUriFast authorityUris server.url (runChain authorityUris mws uri)
            (Server.preParse authorityUris server).parsedUri = .ok result →
          result.authority = some (backendAuthority backend) := by
  intro h
  have hauth := (h (apiChain false) (originForm "/api@evil.test/x")
    (by unfold Rooted; decide)).2 { url := "backend:8080" } _ _ rfl rfl rfl
  exact absurd (congrArg (Option.map Authority.text) hauth) (by decide)

end TrafficCop
