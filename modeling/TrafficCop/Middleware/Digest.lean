import TrafficCop.Http.Headers
import TrafficCop.Middleware.Md5
import TrafficCop.Rust.Core

/-!
# Digest authentication

`DigestAuthMiddleware` of `middleware/builtin/digest_auth.rs`. Nothing is remembered of the nonces
that were issued or used. The clock and the thread that asks for a nonce are arguments.
-/

namespace TrafficCop

open Rust Http List Option

/-! ## The parameters of the header -/

/-- One parameter, `key="value"` or `key=value`, and what is behind it. -/
def parseParam (remaining : Text) : Option ((Text × Text) × Text) := do
  let (key, rest) ← splitOnce '=' remaining
  let key := toAsciiLowercase (trim key)
  match rest with
  | '"' :: rest =>
    let (val, rest) ← splitOnce '"' rest
    return ((key, val), rest)
  | rest =>
    -- "Unquoted value - ends at comma or end"
    return ((key, trim (rest.takeWhile (· ≠ ','))), rest.dropWhile (· ≠ ','))

/-- The loop of `parse_digest_params`, with a bound on its turns; `parseParams_fuel` says that it
has no part in the result. -/
def parseParams : ℕ → Text → HashMap Text Text → Option (HashMap Text Text)
  | 0, _, _ => none
  | fuel + 1, remaining, params =>
    -- "Skip whitespace and commas"
    match remaining.dropWhile fun c => isWhitespace c || c == ',' with
    | [] => some params
    | remaining => do
      let (param, rest) ← parseParam remaining
      parseParams fuel rest (params.insert param.1 param.2)

def parseDigestParams (input : Text) : Option (HashMap Text Text) :=
  parseParams ((trim input).length + 1) (trim input) .empty

lemma parseParam_length {remaining rest : Text} {param : Text × Text}
    (h : parseParam remaining = some (param, rest)) : rest.length < remaining.length := by
  obtain ⟨⟨key, behind⟩, hsplit, hvalue⟩ := bind_eq_some_iff.mp h
  obtain ⟨rfl, -⟩ := splitOnce_eq_some_iff.mp hsplit
  have hle : rest.length ≤ behind.length := by
    simp only at hvalue
    split at hvalue
    · obtain ⟨⟨val, after⟩, hquote, hafter⟩ := bind_eq_some_iff.mp hvalue
      obtain ⟨rfl, -⟩ := splitOnce_eq_some_iff.mp hquote
      obtain rfl : after = rest := congrArg Prod.snd (some.inj hafter)
      simp only [length_cons, length_append]
      omega
    · obtain rfl := congrArg Prod.snd (some.inj hvalue)
      exact (dropWhile_sublist _).length_le
  simp only [length_append, length_cons]
  omega

lemma parseParams_fuel {n n' : ℕ} {remaining : Text} (params : HashMap Text Text)
    (h : remaining.length < n) (h' : remaining.length < n') :
    parseParams n remaining params = parseParams n' remaining params := by
  induction n generalizing n' remaining params with
  | zero => omega
  | succ n ih =>
    obtain ⟨n', rfl⟩ : ∃ m, n' = m + 1 := ⟨n' - 1, by omega⟩
    have hskip := (dropWhile_sublist (fun c => isWhitespace c || c == ',')
      (l := remaining)).length_le
    unfold parseParams
    generalize remaining.dropWhile (fun c => isWhitespace c || c == ',') = skipped at hskip ⊢
    split
    · rfl
    · rcases hparam : parseParam skipped with _ | ⟨param, rest⟩
      · rfl
      · have hrest := parseParam_length hparam
        exact ih _ (by omega) (by omega)

/-! ## The digest -/

def constantTimeCompare (a b : Text) : Bool :=
  if (asBytes a).length ≠ (asBytes b).length then false
  else ((asBytes a).zip (asBytes b)).foldl (fun result p => result ||| (p.1 ^^^ p.2)) 0 == 0

lemma foldl_differences {x y : List UInt8} (hlen : x.length = y.length) (result : UInt8) :
    (x.zip y).foldl (fun result p => result ||| (p.1 ^^^ p.2)) result = 0 ↔ result = 0 ∧ x = y := by
  induction x generalizing y result with
  | nil =>
    obtain rfl := length_eq_zero_iff.mp hlen.symm
    simp
  | cons b x ih =>
    cases y with
    | nil => simp at hlen
    | cons c y =>
      rw [zip_cons_cons, foldl_cons, ih (Nat.succ.inj hlen), UInt8.or_eq_zero_iff,
        UInt8.xor_eq_zero_iff, List.cons.injEq, and_assoc]

lemma constantTimeCompare_iff {a b : Text} : constantTimeCompare a b ↔ a = b := by
  unfold constantTimeCompare
  split
  · next hlen =>
    refine iff_of_false (by simp) fun heq => ?_
    exact hlen (by rw [heq])
  · next hlen =>
    have hlen := not_not.mp hlen
    rw [beq_iff_eq, foldl_differences hlen]
    exact ⟨fun h => asBytes_injective h.2, fun h => ⟨rfl, by rw [h]⟩⟩

def decimal (n : ℕ) : Text := Nat.toDigits 10 n

def joinColons (parts : List Text) : Text := [':'].intercalate parts

/-- The digest that answers a challenge. -/
def expectedResponse (ha1 nonce uri method : Text) (qop nc cnonce : Option Text) : Text :=
  let ha2 := md5Hex (joinColons [method, uri])
  match qop with
  | some qop =>
    if qop = "auth" ∨ qop = "auth-int" then
      md5Hex (joinColons [ha1, nonce, nc.getD "00000001", cnonce.getD [], qop, ha2])
    else md5Hex (joinColons [ha1, nonce, ha2])
  | none => md5Hex (joinColons [ha1, nonce, ha2])

structure DigestAuthConfig where
  users : List Text
  realm : Option Text := none
  deriving Repr, DecidableEq

structure DigestAuthMiddleware where
  /-- The `HA1` of each user. -/
  users : HashMap Text Text
  realm : Text
  nonceCounter : UInt64
  opaqueValue : Text

inductive AuthResult where
  | authenticated (username : Text)
  | needsAuth
  | invalid
  deriving Repr, DecidableEq

/-- What the middleware reads of a request, and its target. -/
structure DigestRequest where
  method : Text
  target : Text
  headers : HeaderMap
  deriving DecidableEq

namespace DigestAuthMiddleware

/-- `DigestAuthMiddleware::new`; `random` is what `fast_random` returns there. -/
def new (config : DigestAuthConfig) (random : UInt32) : DigestAuthMiddleware :=
  let realm := config.realm.getD "Restricted"
  { users := HashMap.collect (config.users.filterMap fun entry =>
      (splitOnce ':' entry).map fun p => (p.1, md5Hex (joinColons [p.1, realm, p.2])))
    realm := realm
    nonceCounter := 0
    opaqueValue := md5Hex ("opaque-" ++ decimal random.toNat) }

variable (mw : DigestAuthMiddleware)

def verifyResponse (username nonce uri response method : Text) (qop nc cnonce : Option Text) :
    Bool :=
  match mw.users.get username with
  | some ha1 => constantTimeCompare (expectedResponse ha1 nonce uri method qop nc cnonce) response
  | none => false

/-- The user, if the parameters are all there and the response is right. -/
def checkParams (method : Text) (params : HashMap Text Text) : Option Text := do
  let username ← params.get "username"
  let nonce ← params.get "nonce"
  let uri ← params.get "uri"
  let response ← params.get "response"
  -- the target of the request is not asked for
  if mw.verifyResponse username nonce uri response method (params.get "qop")
      (params.get "nc") (params.get "cnonce") then
    return username
  else none

def headerParams (header : HeaderValue) : Option (HashMap Text Text) := do
  let auth ← header.toStr
  parseDigestParams (← stripPrefix "Digest " auth)

/-- The target is taken from the header and is not compared with that of the request. -/
def authenticate (req : DigestRequest) : AuthResult :=
  match req.headers.get "authorization" with
  | none => .needsAuth
  | some header =>
    match (headerParams header).bind (mw.checkParams req.method) with
    | some username => .authenticated username
    | none => .invalid

/-- The thread's next state of `fast_random`, which is also its value. -/
def fastRandom (x : UInt32) : UInt32 :=
  let x := x ^^^ (x <<< 13)
  let x := x ^^^ (x >>> 17)
  x ^^^ (x <<< 5)

/-- What `generate_nonce` takes the digest of. -/
def nonceData (timestamp : ℕ) (counter : UInt64) (random : UInt32) : Text :=
  joinColons [decimal timestamp, decimal counter.toNat, decimal random.toNat, "trafficcop"]

/-- `DigestAuthMiddleware::generate_nonce`; `fetch_add` wraps. -/
def generateNonce (timestamp : ℕ) (random : UInt32) : Text × DigestAuthMiddleware :=
  (md5Hex (nonceData timestamp mw.nonceCounter random),
    { mw with nonceCounter := mw.nonceCounter + 1 })

def challenge (nonce : Text) : Text :=
  "Digest realm=\"" ++ mw.realm ++ "\", nonce=\"" ++ nonce ++
    "\", opaque=\"" ++ mw.opaqueValue ++ "\", qop=\"auth\", algorithm=MD5"

/-- `unauthorized_response` with this nonce. The `unwrap` panics on a realm that is no header value.
-/
def unauthorizedResponse (nonce : Text) : Outcome Empty Response :=
  .unwrap (Response.build 401 [("www-authenticate", mw.challenge nonce)])

/-! ## Which requests are authenticated -/

/-- The response among the parameters is the one of this user, for this method and the `uri`
among the parameters. -/
def Verified (method : Text) (params : HashMap Text Text) (username uri : Text) : Prop :=
  params.get "username" = some username ∧ params.get "uri" = some uri ∧
    ∃ nonce ha1, params.get "nonce" = some nonce ∧ mw.users.get username = some ha1 ∧
      params.get "response" = some (expectedResponse ha1 nonce uri method
        (params.get "qop") (params.get "nc") (params.get "cnonce"))

variable {mw}

variable {username uri method target : Text} {headers : HeaderMap}

lemma verifyResponse_iff {nonce response : Text} {qop nc cnonce : Option Text} :
    mw.verifyResponse username nonce uri response method qop nc cnonce ↔
      ∃ ha1, mw.users.get username = some ha1 ∧
        response = expectedResponse ha1 nonce uri method qop nc cnonce := by
  unfold verifyResponse
  cases mw.users.get username with
  | none => simp
  | some ha1 =>
    simp only [constantTimeCompare_iff, some.injEq, exists_eq_left']
    exact eq_comm

lemma checkParams_eq_some_iff {params : HashMap Text Text} :
    mw.checkParams method params = some username ↔
      ∃ uri, mw.Verified method params username uri := by
  unfold checkParams
  constructor
  · intro h
    obtain ⟨user, huser, h⟩ := bind_eq_some_iff.mp h
    obtain ⟨nonce, hnonce, h⟩ := bind_eq_some_iff.mp h
    obtain ⟨uri, huri, h⟩ := bind_eq_some_iff.mp h
    obtain ⟨response, hresponse, h⟩ := bind_eq_some_iff.mp h
    split at h
    · next hverify =>
      obtain rfl := some.inj h
      obtain ⟨ha1, hha1, rfl⟩ := verifyResponse_iff.mp hverify
      exact ⟨uri, huser, huri, nonce, ha1, hnonce, hha1, hresponse⟩
    · cases h
  · rintro ⟨uri, huser, huri, nonce, ha1, hnonce, hha1, hresponse⟩
    simp only [huser, hnonce, huri, hresponse, bind_eq_bind, bind_some]
    exact if_pos (verifyResponse_iff.mpr ⟨ha1, hha1, rfl⟩)

def requestParams (headers : HeaderMap) : Option (HashMap Text Text) :=
  (headers.get "authorization").bind headerParams

lemma authenticate_eq_authenticated_iff {req : DigestRequest} :
    mw.authenticate req = .authenticated username ↔
      ∃ params, requestParams req.headers = some params ∧
        ∃ uri, mw.Verified req.method params username uri := by
  unfold authenticate requestParams
  cases req.headers.get "authorization" with
  | none => simp
  | some header =>
    rcases hparams : headerParams header with _ | params
    · simp [hparams]
    · simp only [bind_some, hparams, some.injEq, exists_eq_left',
        ← checkParams_eq_some_iff]
      cases mw.checkParams req.method params with
      | none => simp
      | some user => simp

/-! ## The target -/

/-- The request is authenticated as somebody. -/
def Accepts (mw : DigestAuthMiddleware) (req : DigestRequest) : Prop :=
  ∃ username, mw.authenticate req = .authenticated username

/-- The header answers a challenge for this target. -/
def VerifiesFor (mw : DigestAuthMiddleware) (method : Text) (headers : HeaderMap) (uri : Text) :
    Prop :=
  ∃ params username, requestParams headers = some params ∧ mw.Verified method params username uri

/-- The target that the header names. -/
def NamesTarget (headers : HeaderMap) (target : Text) : Prop :=
  ∃ params, requestParams headers = some params ∧ params.get "uri" = some target

lemma authenticate_target (method target target' : Text) (headers : HeaderMap) :
    mw.authenticate ⟨method, target, headers⟩ = mw.authenticate ⟨method, target', headers⟩ := rfl

lemma accepts_iff :
    mw.Accepts ⟨method, target, headers⟩ ↔ ∃ uri, mw.VerifiesFor method headers uri := by
  unfold Accepts VerifiesFor
  constructor
  · intro ⟨username, h⟩
    obtain ⟨params, hparams, uri, hverified⟩ := authenticate_eq_authenticated_iff.mp h
    exact ⟨uri, params, username, hparams, hverified⟩
  · intro ⟨uri, params, username, hparams, hverified⟩
    exact ⟨username, authenticate_eq_authenticated_iff.mpr ⟨params, hparams, uri, hverified⟩⟩

lemma VerifiesFor.namesTarget_iff
    (h : mw.VerifiesFor method headers uri) : NamesTarget headers target ↔ uri = target := by
  obtain ⟨params, username, hparams, -, huri, -⟩ := h
  constructor
  · intro ⟨params', hparams', htarget⟩
    obtain rfl := some.inj (hparams.symm.trans hparams')
    exact some.inj (huri.symm.trans htarget)
  · intro heq
    exact ⟨params, hparams, heq ▸ huri⟩

/-- **When a header is bound to its target.** Of two requests with the same `Authorization` line and
different targets at most one is authenticated exactly if the line does not verify at all;
acceptance means that the line names the target exactly if a line that verifies names it. -/
theorem digest_binds_target_iff (mw : DigestAuthMiddleware) (method : Text)
    (headers : HeaderMap) :
    (∀ headers' : HeaderMap,
      headers'.get "authorization" = headers.get "authorization" →
      ((∀ target target', target ≠ target' →
        ¬(mw.Accepts ⟨method, target, headers⟩ ∧ mw.Accepts ⟨method, target', headers'⟩)) ↔
      ∀ uri, ¬mw.VerifiesFor method headers uri)) ∧
    ∀ target, (mw.Accepts ⟨method, target, headers⟩ → NamesTarget headers target) ↔
      ∀ uri, mw.VerifiesFor method headers uri → uri = target := by
  constructor
  · intro headers' hline
    have hparams : requestParams headers' = requestParams headers := by
      rw [requestParams, hline, requestParams]
    constructor
    · intro h uri hverifies
      have hverifies' : mw.VerifiesFor method headers' uri := by
        rwa [VerifiesFor, hparams]
      exact h [] ['/'] (by decide)
        ⟨accepts_iff.mpr ⟨uri, hverifies⟩, accepts_iff.mpr ⟨uri, hverifies'⟩⟩
    · intro hnone target target' _ hboth
      obtain ⟨uri, hverifies⟩ := accepts_iff.mp hboth.1
      exact hnone uri hverifies
  · intro target
    rw [accepts_iff]
    constructor
    · intro h uri hverifies
      exact hverifies.namesTarget_iff.mp (h ⟨uri, hverifies⟩)
    · intro h hverifies
      obtain ⟨uri, hverifies⟩ := hverifies
      exact hverifies.namesTarget_iff.mpr (h uri hverifies)

def testMiddleware : DigestAuthMiddleware :=
  new { users := ["admin:secret123", "user:password"]
        realm := some "Test Realm" } 0

def requestWith (method target authorization : Text) : DigestRequest where
  method := method
  target := target
  headers := ⟨((HeaderValue.fromStr authorization).map fun v =>
    ("authorization".toList, v)).toList⟩

/-- An answer of `admin` for `GET /test`, with a nonce that the source's tests use. -/
def testAnswer : Text :=
  ("Digest username=\"admin\", realm=\"Test Realm\", nonce=\"testnonce123\", uri=\"/test\", " ++
    "qop=auth, nc=00000001, cnonce=\"clientnonce\", " ++
    "response=\"cd01b5b5134f25ae57fa7c97932c8e03\"").toList

lemma authenticate_testAnswer (target : Text) :
    testMiddleware.authenticate (requestWith "GET" target testAnswer) =
      .authenticated "admin" := by
  have htest : testMiddleware.authenticate (requestWith "GET" "/test" testAnswer) =
      .authenticated "admin".toList := by decide +kernel
  rw [← htest, authenticate_target]
  rfl

/-- **The answer for `/test` opens `/admin` as well.** -/
theorem answer_for_other_target :
    testMiddleware.authenticate (requestWith "GET" "/test" testAnswer) =
      .authenticated "admin" ∧
    testMiddleware.authenticate (requestWith "GET" "/admin" testAnswer) =
      .authenticated "admin" :=
  ⟨authenticate_testAnswer _, authenticate_testAnswer _⟩

/-! ## Runs -/

/-- The middleware, the threads' states of `fast_random`, and what was issued and answered. -/
structure Session where
  mw : DigestAuthMiddleware
  threads : ℕ → UInt32
  issued : List Text
  sent : List (Outcome Empty Response)
  verdicts : List (DigestRequest × AuthResult)

/-- Challenges and answers, in the order of the calls. -/
inductive Call where
  | unauthorizedResponse (timestamp thread : ℕ)
  | authenticate (req : DigestRequest)

namespace Session

def start (mw : DigestAuthMiddleware) (threads : ℕ → UInt32) : Session := ⟨mw, threads, [], [], []⟩

def next (s : Session) : Call → Session
  | .unauthorizedResponse timestamp thread =>
    let random := fastRandom (s.threads thread)
    let (nonce, mw) := s.mw.generateNonce timestamp random
    { s with
      mw := mw
      threads := Function.update s.threads thread random
      issued := s.issued ++ [nonce]
      sent := s.sent ++ [s.mw.unauthorizedResponse nonce] }
  | .authenticate req => { s with verdicts := s.verdicts ++ [(req, s.mw.authenticate req)] }

/-- What a run keeps: the middleware up to its counter, verdicts that the users alone decide, and
nonces with a counter value each, which are what was sent. -/
structure Kept (mw : DigestAuthMiddleware) (s : Session) : Prop where
  config : s.mw = { mw with nonceCounter := mw.nonceCounter + UInt64.ofNat s.issued.length }
  sent : s.sent = s.issued.map mw.unauthorizedResponse
  verdicts : ∀ req verdict, (req, verdict) ∈ s.verdicts → verdict = mw.authenticate req
  issued : ∀ i nonce, s.issued[i]? = some nonce →
    ∃ timestamp random, nonce =
      md5Hex (nonceData timestamp (mw.nonceCounter + UInt64.ofNat i) random)

lemma authenticate_congr {mw' : DigestAuthMiddleware} (h : mw.users = mw'.users)
    (req : DigestRequest) : mw.authenticate req = mw'.authenticate req := by
  unfold authenticate checkParams verifyResponse
  rw [h]

lemma kept_next {s : Session} (h : Kept mw s) (call : Call) : Kept mw (s.next call) := by
  cases call with
  | authenticate req =>
    refine ⟨h.config, h.sent, fun req' verdict hmem => ?_, h.issued⟩
    rcases mem_append.mp hmem with hmem | hlast
    · exact h.verdicts req' verdict hmem
    · obtain ⟨rfl, rfl⟩ := Prod.mk.inj (mem_singleton.mp hlast)
      exact authenticate_congr (congrArg users h.config) req'
  | unauthorizedResponse timestamp thread =>
    refine ⟨?_, ?_, h.verdicts, fun i nonce hnonce => ?_⟩
    · show { s.mw with nonceCounter := s.mw.nonceCounter + 1 } =
        { mw with nonceCounter := mw.nonceCounter + UInt64.ofNat (s.issued ++ [_]).length }
      rw [h.config, length_append, UInt64.ofNat_add, ← UInt64.add_assoc]
      rfl
    · show s.sent ++ [s.mw.unauthorizedResponse _] =
        (s.issued ++ [_]).map mw.unauthorizedResponse
      rw [h.sent, map_append, h.config]
      rfl
    · change (s.issued ++ [_])[i]? = some nonce at hnonce
      rcases Nat.lt_trichotomy i s.issued.length with hlt | rfl | hgt
      · rw [getElem?_append_left hlt] at hnonce
        exact h.issued i nonce hnonce
      · -- the last nonce has the counter of the state before
        rw [getElem?_concat_length] at hnonce
        refine ⟨timestamp, fastRandom (s.threads thread), ?_⟩
        rw [← some.inj hnonce, h.config]
      · rw [getElem?_eq_none (by simp; omega)] at hnonce
        cases hnonce

lemma kept_run (mw : DigestAuthMiddleware) (threads : ℕ → UInt32) (calls : List Call) :
    Kept mw (calls.foldl next (start mw threads)) :=
  foldlRecOn calls next ⟨by simp [start], rfl, by simp [start], by simp [start]⟩
    fun _ h call _ => kept_next h call

end Session

open Session

/-- **What decides a verdict in a run.** A request is authenticated exactly if its response is
right for what its header says, whichever nonces were issued and used. Every nonce that is issued
has a counter value of its own. -/
theorem digest_verdicts (mw : DigestAuthMiddleware) (threads : ℕ → UInt32) (calls : List Call) :
    (∀ req verdict, (req, verdict) ∈ (calls.foldl next (start mw threads)).verdicts →
      ∀ username, verdict = .authenticated username ↔
        ∃ params, requestParams req.headers = some params ∧
          ∃ uri, mw.Verified req.method params username uri) ∧
    ∀ i nonce, (calls.foldl next (start mw threads)).issued[i]? = some nonce →
      ∃ timestamp random, nonce =
        md5Hex (nonceData timestamp (mw.nonceCounter + UInt64.ofNat i) random) := by
  have hkept := kept_run mw threads calls
  refine ⟨fun req verdict hmem username => ?_, hkept.issued⟩
  rw [hkept.verdicts req verdict hmem]
  exact authenticate_eq_authenticated_iff

def replay : List Call :=
  [.authenticate (requestWith "GET" "/test" testAnswer),
    .authenticate (requestWith "GET" "/test" testAnswer)]

/-- **A nonce that was not issued, used twice.** -/
theorem nonce_replayed :
    (replay.foldl next (start testMiddleware fun _ => 0xDEADC0DE)).verdicts.map Prod.snd =
      [.authenticated "admin", .authenticated "admin"] ∧
    (replay.foldl next (start testMiddleware fun _ => 0xDEADC0DE)).issued = [] := by
  simp only [replay, foldl_cons, foldl_nil, Session.next, start, authenticate_testAnswer,
    nil_append, cons_append, map_cons, map_nil, and_self]

end DigestAuthMiddleware

end TrafficCop
