import TrafficCop.Config.Types
import TrafficCop.Middleware.JwtToken

/-!
# Sticky sessions

`StickySessionManager` of `balancer/sticky.rs` without a distributed store: a session is an entry of
the local cache, its id is in a cookie.
-/

namespace TrafficCop

open Rust Http List Option HeaderValue Crumb

/-- The fields of `StickyCookie` that are read. -/
structure StickyCookie where
  name : Text
  maxAge : Option Int64 := none

structure Sticky where
  cookie : Option StickyCookie := none

/-- Instants are nanoseconds from the creation of the manager on. -/
structure LocalCacheEntry where
  serverUrl : Text
  cachedAt : ℕ
  deriving Repr, DecidableEq

/-- The fields of `StickySessionManager` that do not change. -/
structure StickySessionManager where
  cookieConfig : StickyCookie
  servers : List Server
  localCacheTtl : ℕ

/-- Its fields that change, and the states of `fast_random`. -/
structure StickySessions where
  localCache : HashMap Text LocalCacheEntry
  lastCleanup : ℕ
  threads : ℕ → UInt32

namespace StickySessionManager

def fromSecs (secs : ℕ) : ℕ := 1000000000 * secs

def ofCookie (cookieConfig : StickyCookie) (servers : List Server) : StickySessionManager :=
  let maxAgeSecs := (cookieConfig.maxAge.getD 86400).toUInt64
  { cookieConfig := cookieConfig
    servers := servers
    localCacheTtl := fromSecs (min maxAgeSecs.toNat 300) }

def new (sticky : Sticky) (servers : List Server) : Option StickySessionManager :=
  sticky.cookie.map fun cookieConfig => ofCookie cookieConfig servers

/-- Every thread has its own state of `fast_random`. -/
def start : StickySessions := ⟨.empty, 0, fun _ => 0xBEEFCAFE⟩

variable (m : StickySessionManager)

/-! ## The cookie of a request -/

/-- The loop of `extract_session_cookie`. -/
def findSession (cookieName : Text) : List Text → Option Text
  | [] => none
  | cookie :: rest =>
    -- `?` leaves the function at a crumb without `=`
    (splitOnce '=' (trim cookie)).bind fun p =>
      if trim p.1 = cookieName then some p.2 else findSession cookieName rest

def extractSessionCookie (headers : HeaderMap) : Option Text :=
  ((headers.get "cookie").bind toStr).bind fun cookies =>
    findSession m.cookieConfig.name (cookies.splitOn ';')

/-! ## Sessions -/

/-- `fast_random`: the thread's next state, which is also the value. -/
def fastRandom (x : UInt32) : UInt32 :=
  let x := x ^^^ (x <<< 13)
  let x := x ^^^ (x >>> 17)
  x ^^^ (x <<< 5)

/-- `generate_session_id`: 32 hexadecimal digits, and the thread's state behind it. -/
def generateSessionId (timestamp : ℕ) (state : UInt32) : Text × UInt32 :=
  let random1 := fastRandom state
  let random2 := fastRandom random1
  let combined := timestamp ^^^ (random1.toNat <<< 32) ^^^ random2.toNat
  let digits := Nat.toDigits 16 combined
  (List.replicate (32 - digits.length) '0' ++ digits, random2)

def findServerIndex (serverUrl : Text) : Option ℕ :=
  m.servers.findIdx? fun s => s.url == serverUrl

def maybeCleanup (s : StickySessions) (now : ℕ) : StickySessions :=
  let cleanupInterval := m.localCacheTtl / 10
  if now - s.lastCleanup < cleanupInterval then s
  else
    { s with
      lastCleanup := now
      localCache := s.localCache.retain fun _ entry =>
        decide (now - entry.cachedAt < m.localCacheTtl) }

/-- The wall clock and the thread are arguments. -/
def createSession (s : StickySessions) (now serverIndex timestamp thread : ℕ) :
    StickySessions × Option Text :=
  match m.servers[serverIndex]? with
  | none => (s, none)
  | some server =>
    let (sessionId, state) := generateSessionId timestamp (s.threads thread)
    let entry : LocalCacheEntry := ⟨server.url, now⟩
    let s := { s with
      localCache := s.localCache.insert sessionId entry
      threads := Function.update s.threads thread state }
    (m.maybeCleanup s now, some sessionId)

/-- What `get_sticky_server` does with an id. -/
def sessionServer (s : StickySessions) (now : ℕ) (sessionId : Text) : Option ℕ :=
  match s.localCache.get sessionId with
  | some entry =>
    if now - entry.cachedAt < m.localCacheTtl then m.findServerIndex entry.serverUrl else none
  | none => none

def getStickyServer (s : StickySessions) (now : ℕ) (headers : HeaderMap) : Option ℕ :=
  (m.extractSessionCookie headers).bind (m.sessionServer s now)

/-! ## Which cookie is found -/

variable {m} {headers : HeaderMap} {header : HeaderValue} {text : Text} {crumbs : List Crumb}

lemma findSession_eq {name : Text} {texts : List Text}
    (h : List.Forall₂ Spelled crumbs texts) :
    findSession name texts = firstNamed name (crumbs.takeWhile isPair) := by
  induction h with
  | nil => rfl
  | @cons crumb text crumbs texts hfirst _ ih =>
    have hread := hfirst.splitOnce_trim
    rw [findSession]
    cases crumb with
    | bare =>
      rw [map_eq_none_iff.mp hread]
      rfl
    | pair name' value =>
      obtain ⟨⟨before, after⟩, hsplit, hpair⟩ := map_eq_some_iff.mp hread
      cases hpair
      have hcut : (pair (trim before) after :: crumbs).takeWhile isPair =
          .pair (trim before) after :: crumbs.takeWhile isPair := rfl
      rw [hsplit, bind_some, hcut, firstNamed, findSome?_cons, valueOf]
      by_cases hname : trim before = name
      · simp only [hname, if_true]
      · simp only [if_neg hname]
        exact ih

/-- **The crumbs that are looked at** are those before the first one without `=`. -/
theorem extractSessionCookie_eq (hget : headers.get "cookie" = some header)
    (htext : header.toStr = some text) (hspells : Spells crumbs text) :
    m.extractSessionCookie headers =
      firstNamed m.cookieConfig.name (crumbs.takeWhile isPair) := by
  simp only [extractSessionCookie, hget, htext, bind_some]
  rcases hspells.splitOn with ⟨rfl, rfl⟩ | hspelled
  · rfl
  · exact findSession_eq hspelled

/-- **When the lookup is right**: the value of the first crumb with the name is found, as the JWT
middleware finds it, exactly if there is no such crumb, or the header can be read and no crumb
without `=` comes before it. -/
theorem sticky_cookie_iff (m : StickySessionManager) {headers : HeaderMap} {header : HeaderValue}
    {text : Text} {crumbs : List Crumb} (hget : headers.get "cookie" = some header)
    (hbytes : header.bytes = asBytes text) (hspells : Spells crumbs text) :
    (m.extractSessionCookie headers = firstNamed m.cookieConfig.name crumbs ∧
      ∀ source : JwtTokenSource, source.cookieName = some m.cookieConfig.name →
        m.extractSessionCookie headers = source.cookieToken headers) ↔
      (∀ value, .pair m.cookieConfig.name value ∉ crumbs) ∨
        (∀ b ∈ header.bytes, isVisibleAscii b = true) ∧
          ∃ before value after,
            crumbs = before ++ .pair m.cookieConfig.name value :: after ∧ .bare ∉ before := by
  rw [← firstNamed_eq_none_iff]
  by_cases hvisible : ∀ b ∈ header.bytes, isVisibleAscii b
  · have htext : header.toStr = some text :=
      toStr_of_bytes hbytes (hbytes ▸ hvisible)
    rw [extractSessionCookie_eq hget htext hspells, and_iff_right hvisible,
      ← firstNamed_takeWhile_iff]
    refine and_iff_left_of_imp fun heq source hsource => ?_
    rw [heq, JwtTokenSource.cookieToken_eq hsource hget htext hspells]
  · -- neither of them reads the header
    have hnone : header.toStr = none := by
      rw [eq_none_iff_forall_ne_some]
      exact fun text htext => hvisible (toStr_eq_some_iff.mp htext).1
    have hsession : m.extractSessionCookie headers = none := by
      simp only [extractSessionCookie, hget, hnone, bind_some, bind_none]
    have htoken : ∀ source : JwtTokenSource, source.cookieToken headers = none := by
      intro source
      simp only [JwtTokenSource.cookieToken, hget, hnone, bind_some, bind_none,
        bind_eq_none_iff, implies_true]
    rw [hsession, or_iff_left fun h => hvisible h.1]
    exact ⟨fun h => h.1.symm, fun h => ⟨h.symm, fun source _ => (htoken source).symm⟩⟩

def twoServers : StickySessionManager :=
  ofCookie ⟨"SERVERID", some 3600⟩
    [{ url := "http://server1:8080" }, { url := "http://server2:8080" }]

def flagged : HeaderValue :=
  ⟨asBytes "flag; SERVERID=abc", isValidByte_of_all (by decide +kernel)⟩

def unflagged : HeaderValue :=
  ⟨asBytes "SERVERID=abc; flag", isValidByte_of_all (by decide +kernel)⟩

variable {left id : Text}

lemma spelled_flag (hleft : left = [] ∨ left = [' ']) : bare.Spelled (left ++ "flag") := by
  rcases hleft with rfl | rfl <;> exact .bare (by decide) (by decide)

lemma spelled_session (hleft : left = [] ∨ left = [' ']) :
    (pair "SERVERID" "abc").Spelled (left ++ "SERVERID=abc") := by
  have hspelled : (pair "SERVERID" "abc").Spelled
      (left ++ "SERVERID".toList ++ [] ++ '=' :: ("abc".toList ++ [])) :=
    .pair (by rcases hleft with rfl | rfl <;> exact forall_char (by decide)) (by simp) (by simp)
      (by rw [Trimmed]; simp; decide) (by decide) (by decide) (by simp; decide)
  rcases hleft with rfl | rfl <;> exact hspelled

theorem sticky_cookie_unflagged :
    twoServers.extractSessionCookie ⟨[("cookie", unflagged)]⟩ =
        firstNamed "SERVERID" [.pair "SERVERID" "abc", .bare] ∧
      ∀ source : JwtTokenSource, source.cookieName = some "SERVERID" →
        twoServers.extractSessionCookie ⟨[("cookie", unflagged)]⟩ =
          source.cookieToken ⟨[("cookie", unflagged)]⟩ := by
  have hspells : Spells [.pair "SERVERID" "abc", .bare]
      "SERVERID=abc; flag" :=
    ⟨_, .cons (spelled_session (Or.inl rfl)) (.cons (spelled_flag (Or.inr rfl)) .nil), rfl⟩
  have hget : (⟨[("cookie", unflagged)]⟩ : HeaderMap).get "cookie" =
      some unflagged := by decide +kernel
  exact (sticky_cookie_iff twoServers hget rfl hspells).mpr
    (Or.inr ⟨all_eq_true.mp (by decide +kernel), [], _, _, rfl, not_mem_nil⟩)

theorem sticky_cookie_flagged :
    Spells [.bare, .pair "SERVERID" "abc"] "flag; SERVERID=abc" ∧
      firstNamed "SERVERID" [.bare, .pair "SERVERID" "abc"] =
        some "abc" ∧
      twoServers.extractSessionCookie ⟨[("cookie", flagged)]⟩ = none ∧
      ({ headerName := "authorization", headerPrefix := "Bearer ",
         cookieName := some "SERVERID" } : JwtTokenSource).cookieToken
          ⟨[("cookie", flagged)]⟩ = some "abc" :=
  ⟨⟨_, .cons (spelled_flag (Or.inl rfl)) (.cons (spelled_session (Or.inr rfl)) .nil), rfl⟩,
    by decide +kernel, by decide +kernel, by decide +kernel⟩

/-- A manager finds sessions under names that can be sent. -/
lemma cookieName_of_extract (h : m.extractSessionCookie headers = some id) :
    CookieName m.cookieConfig.name := by
  obtain ⟨text, hread, -⟩ := bind_eq_some_iff.mp h
  obtain ⟨header, hget, htext⟩ := bind_eq_some_iff.mp hread
  obtain ⟨crumbs, hspells⟩ := exists_spells text
  have hvisible : ∀ b ∈ asBytes text, isVisibleAscii b := by
    rw [asBytes_of_toStr htext]
    exact (toStr_eq_some_iff.mp htext).1
  rw [extractSessionCookie_eq hget htext hspells] at h
  obtain ⟨crumb, hmem, hvalue⟩ := exists_of_findSome?_eq_some h
  rw [valueOf_eq_some_iff] at hvalue
  exact hspells.cookieName hvisible (hvalue ▸ takeWhile_subset _ hmem)

lemma exists_request (hname : CookieName m.cookieConfig.name) (hsemicolon : ';' ∉ id)
    (hlast : ∀ c, id.getLast? = some c → isWhitespace c = false)
    (hvisible : ∀ b ∈ asBytes id, isVisibleAscii b) :
    ∃ headers, m.extractSessionCookie headers = some id := by
  obtain ⟨headers, header, text, hget, htext, hspells⟩ :=
    exists_headers hname hsemicolon hlast hvisible
  refine ⟨headers, ?_⟩
  have hcut : [pair m.cookieConfig.name id].takeWhile isPair =
      [.pair m.cookieConfig.name id] := rfl
  rw [extractSessionCookie_eq hget htext hspells, hcut]
  simp [firstNamed, valueOf]

end StickySessionManager

end TrafficCop
